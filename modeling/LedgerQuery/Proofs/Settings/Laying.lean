import LedgerQuery.Settings.Group
import Mathlib.Tactic

/-! Trees of settings, seen name by name. What stands under a name after a value has been laid over
the tree is that value, or what stood there before. -/

namespace LedgerQuery.Settings

namespace PathStep

lemma toLower_cases (c : Char) :
    c.toLower = c ∨ 97 ≤ c.toLower.toNat ∧ c.toLower.toNat ≤ 122 := by
  unfold Char.toLower
  split_ifs with h
  · right
    have hle : 65 ≤ c.val.toNat ∧ c.val.toNat ≤ 90 := h
    have hval : (c.val + ('a'.val - 'A'.val)).toNat = c.val.toNat + 32 := by
      rw [UInt32.toNat_add]
      have hdiff : ('a'.val - 'A'.val).toNat = 32 := by decide
      omega
    simp only [Char.toNat, hval]
    omega
  · exact Or.inl rfl

lemma lowerChar_cases (c : Char) :
    lowerChar c = c ∧ c ≠ '\u212a' ∨ 97 ≤ (lowerChar c).toNat ∧ (lowerChar c).toNat ≤ 122 := by
  unfold lowerChar
  split_ifs with h
  · exact Or.inr (by decide)
  · rcases toLower_cases c with hc | hc
    · exact Or.inl ⟨hc, h⟩
    · exact Or.inr hc

lemma lowerChar_lowerChar (c : Char) : lowerChar (lowerChar c) = lowerChar c := by
  rcases lowerChar_cases c with ⟨hc, -⟩ | ⟨hle, hge⟩
  · rw [hc, hc]
  · generalize lowerChar c = d at hle hge
    have hkelvin : d ≠ '\u212a' := by
      rintro rfl
      revert hge
      decide
    rw [lowerChar, if_neg hkelvin]
    unfold Char.toLower
    rw [dif_neg]
    rintro ⟨-, hupper⟩
    have hle' : d.val.toNat ≤ 90 := hupper
    have hge' : 97 ≤ d.val.toNat := hle
    omega

lemma lower_lower (s : String) : lower (lower s) = lower s := by
  apply String.toList_inj.mp
  simp [lower, Function.comp_def, lowerChar_lowerChar]

def Plain (key : String) : Prop := '.' ∉ key.toList ∧ '[' ∉ key.toList

lemma mem_of_lowerChar {cs : List Char} {c : Char} (hc : c.toNat < 97)
    (h : c ∈ cs.map lowerChar) : c ∈ cs := by
  obtain ⟨d, hd, rfl⟩ := List.mem_map.mp h
  rcases lowerChar_cases d with ⟨heq, -⟩ | ⟨hle, -⟩
  · rwa [heq]
  · omega

lemma more_stuck {c : Char} (hdot : c ≠ '.') (hbracket : c ≠ '[') (fuel : ℕ) (cs : List Char) :
    more fuel (c :: cs) = none := by
  cases fuel with
  | zero => simp [more]
  | succ fuel => simp [more, hdot, hbracket]

lemma path_plain {key : String} (h : Plain key) : path key = [.name (lower key)] := by
  have hdot : '.' ∉ (lower key).toList := by
    rw [lower, String.toList_map]
    exact fun hmem => h.1 (mem_of_lowerChar (by decide) hmem)
  have hbracket : '[' ∉ (lower key).toList := by
    rw [lower, String.toList_map]
    exact fun hmem => h.2 (mem_of_lowerChar (by decide) hmem)
  unfold path
  dsimp only
  generalize lower key = name at hdot hbracket
  cases hfirst : nameOf? name.toList with
  | none => rfl
  | some first =>
    obtain ⟨step, rest⟩ := first
    unfold nameOf? at hfirst
    dsimp only at hfirst
    split_ifs at hfirst
    obtain ⟨rfl, rfl⟩ := Prod.mk.inj (Option.some.inj hfirst)
    cases hrest : name.toList.dropWhile isNameChar with
    | nil =>
      have hall : name.toList.takeWhile isNameChar = name.toList := by
        have happend := List.takeWhile_append_dropWhile (p := isNameChar) (l := name.toList)
        rwa [hrest, List.append_nil] at happend
      simp [hall, more]
    | cons c cs =>
      have hmem : c ∈ name.toList := by
        apply (List.dropWhile_suffix isNameChar).subset
        rw [hrest]
        exact List.mem_cons_self
      have hstuck (fuel : ℕ) : more fuel (c :: cs) = none :=
        more_stuck (fun hc => hdot (hc ▸ hmem)) (fun hc => hbracket (hc ▸ hmem)) fuel cs
      simp [hstuck]

end PathStep

namespace Datum

def members : Datum → List (String × Datum)
  | .table ms => ms
  | _ => []

def Single : Datum → Prop
  | .table _ => False
  | _ => True

end Datum

namespace Tree

def IsTable : Tree → Prop
  | table _ _ => True
  | _ => False

def held (t : Tree) : Option String → List (String × Tree)
  | none => t.members
  | some g => ((lookup g t.members).getD empty).members

def named (name : String) (ms : List (String × Datum)) : List Datum :=
  ms.flatMap fun m => if PathStep.lower m.1 = name then [m.2] else []

variable {origin name s : String} {d : Datum} {t u : Tree}

lemma lookup_insert (name other : String) (u : Tree) (ms : List (String × Tree)) :
    lookup other (insert name u ms) = if name = other then some u else lookup other ms := by
  induction ms with
  | nil => by_cases h : name = other <;> simp [insert, lookup, h]
  | cons m ms ih =>
    obtain ⟨k, v⟩ := m
    unfold lookup at ih
    by_cases hk : k = name
    · subst hk
      by_cases h : k = other <;> simp [insert, lookup, h]
    · rw [insert, if_neg hk]
      by_cases ho : k = other
      · subst ho
        simp [lookup, Ne.symm hk]
      · simpa [lookup, ho] using ih

lemma lookup_put (name other : String) (u t : Tree) :
    lookup other (put name u t).members = if name = other then some u else lookup other t.members :=
  lookup_insert name other u t.members

lemma held_put_group (name g : String) (u t : Tree) :
    (put name u t).held (some g) = if name = g then u.members else t.held (some g) := by
  simp only [held, lookup_put]
  split_ifs <;> rfl

lemma merge_single (origin name : String) (hd : d.Single) (t : Tree) :
    merge origin name d t = put (PathStep.lower name) (ofDatum origin d) t := by
  cases d <;> first | exact absurd hd id | simp [merge]

lemma isTable_merge (origin name : String) (d : Datum) (t : Tree) :
    (merge origin name d t).IsTable := by
  cases d <;> simp [merge, put, IsTable]

lemma isTable_mergeAll (origin : String) (incoming : List (String × Datum)) (ht : t.IsTable) :
    (mergeAll origin incoming t).IsTable := by
  induction incoming generalizing t with
  | nil => simpa [mergeAll] using ht
  | cons m incoming ih =>
    rw [mergeAll]
    exact ih (isTable_merge origin m.1 m.2 t)

lemma lookup_merge_of_ne (h : PathStep.lower name ≠ s) :
    lookup s (merge origin name d t).members = lookup s t.members := by
  cases d <;> simp [merge, lookup_put, h]

lemma lookup_mergeAll {incoming : List (String × Datum)}
    (h : ∀ m ∈ incoming, PathStep.lower m.1 = s → m.2.Single) :
    lookup s (mergeAll origin incoming t).members =
      ((named s incoming).getLast?.map (ofDatum origin)).or (lookup s t.members) := by
  induction incoming generalizing t with
  | nil => simp [mergeAll, named]
  | cons m incoming ih =>
    rw [mergeAll, ih fun m hm => h m (List.mem_cons_of_mem _ hm)]
    by_cases hm : PathStep.lower m.1 = s
    · have hsingle := h m List.mem_cons_self hm
      rw [merge_single origin m.1 hsingle, lookup_put, if_pos hm]
      simp only [named, List.flatMap_cons, hm, if_true, List.singleton_append, List.getLast?_cons]
      cases (incoming.flatMap fun m => if PathStep.lower m.1 = s then [m.2] else []).getLast? <;> rfl
    · rw [lookup_merge_of_ne hm]
      simp [named, hm]

lemma lookup_foldl {β : Type} {step : Tree → β → Tree} {given : β → List Datum} {bs : List β}
    (origin : String) (view : Tree → Option Tree) {kept : Tree → Prop} (ht : kept t)
    (h : ∀ b ∈ bs, ∀ t, kept t → kept (step t b) ∧
      view (step t b) = ((given b).getLast?.map (ofDatum origin)).or (view t)) :
    kept (bs.foldl step t) ∧ view (bs.foldl step t) =
      ((bs.flatMap given).getLast?.map (ofDatum origin)).or (view t) := by
  induction bs generalizing t with
  | nil => simpa using ht
  | cons b bs ih =>
    obtain ⟨hkept, hview⟩ := h b List.mem_cons_self t ht
    obtain ⟨hkept', hview'⟩ := ih hkept fun b hb => h b (List.mem_cons_of_mem _ hb)
    refine ⟨hkept', ?_⟩
    rw [List.foldl_cons, hview', hview, List.flatMap_cons, List.getLast?_append]
    cases (bs.flatMap given).getLast? <;> cases (given b).getLast? <;> rfl

end Tree

section Reading

variable {α : Type} {convert : Datum → Except Wanted α} {fallback value : α} {name : String}
  {names : List String} {qualify : String → String} {ms : List (String × Tree)}

lemma find_givenByName (names : List String) (qualify : String → String)
    (ms : List (String × Tree)) (hname : name ∈ names) :
    (givenByName names qualify ms).find? (·.name == name) =
      (Tree.lookup name ms).map fun t => ⟨name, qualify name, t⟩ := by
  induction names with
  | nil => simp at hname
  | cons n names ih =>
    by_cases hn : n = name
    · subst hn
      cases hl : Tree.lookup n ms with
      | some t => simp [givenByName, hl]
      | none =>
        simp only [givenByName, List.filterMap_cons_none, hl, Option.map_none,
          List.find?_eq_none]
        intro g hg
        obtain ⟨other, -, hother⟩ := List.mem_filterMap.mp hg
        obtain ⟨t, ht, rfl⟩ := Option.map_eq_some_iff.mp hother
        rintro hsame
        simp only [beq_iff_eq] at hsame
        rw [hsame, hl] at ht
        cases ht
    · have hrest := ih ((List.mem_cons.mp hname).resolve_left (Ne.symm hn))
      unfold givenByName at hrest ⊢
      cases hl : Tree.lookup n ms with
      | some t => simpa [hl, hn] using hrest
      | none => simpa [hl] using hrest

lemma read_eq_ok (hname : name ∈ names)
    (h : match Tree.lookup name ms with
      | some t => convert t.blame.1 = .ok value
      | none => value = fallback) :
    read convert fallback name (givenByName names qualify ms) = .ok value := by
  unfold read
  rw [find_givenByName names qualify ms hname]
  cases hl : Tree.lookup name ms with
  | none =>
    rw [hl] at h
    simp [h]
  | some t =>
    rw [hl] at h
    simp [h]

end Reading

end LedgerQuery.Settings
