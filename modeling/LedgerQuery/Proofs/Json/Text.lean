import LedgerQuery.Proofs.Json.Numeral
import LedgerQuery.Proofs.Text.Utf8

/-! The texts of JSON values: a value, what a text begins with and what is left of it behind the
value. Whole numbers have at most 64 bits, the members of an object stand in any order but each name
once, a character of a string may be written in any of the ways there are, and blanks may stand
between all parts. -/

namespace LedgerQuery.Json

def escapes : List (UInt8 × Char) :=
  [(0x22, '\"'), (0x5c, '\\'), (0x2f, '/'), (0x62, '\x08'), (0x66, '\x0c'), (0x6e, '\n'),
    (0x72, '\r'), (0x74, '\t')]

def HexFour (n : ℕ) : List UInt8 → Prop
  | [a, b, c, d] => ∃ i j k l, Scan.hexValue a = some i ∧ Scan.hexValue b = some j ∧
      Scan.hexValue c = some k ∧ Scan.hexValue d = some l ∧ n = ((i * 16 + j) * 16 + k) * 16 + l
  | _ => False

inductive Escape : Char → List UInt8 → List UInt8 → Prop
  | letter {b : UInt8} {c : Char} {rest : List UInt8} :
      (b, c) ∈ escapes → Escape c (b :: rest) rest
  | point {c : Char} {digits rest : List UInt8} :
      HexFour c.toNat digits → Escape c (0x75 :: (digits ++ rest)) rest
  | pair {c : Char} {high low : ℕ} {first second rest : List UInt8} :
      high < 0x400 → low < 0x400 → c.toNat = 0x10000 + high * 0x400 + low →
      HexFour (0xd800 + high) first → HexFour (0xdc00 + low) second →
      Escape c (0x75 :: (first ++ 0x5c :: 0x75 :: (second ++ rest))) rest

inductive Chars : List Char → List UInt8 → List UInt8 → Prop
  | close {rest : List UInt8} : Chars [] (0x22 :: rest) rest
  | plain {c : Char} {cs : List Char} {w rest : List UInt8} :
      0x20 ≤ c.toNat → c ≠ '\"' → c ≠ '\\' → Chars cs w rest →
      Chars (c :: cs) (Utf8.encodeChar c ++ w) rest
  | escape {c : Char} {cs : List Char} {w more rest : List UInt8} :
      Escape c w more → Chars cs more rest → Chars (c :: cs) (0x5c :: w) rest

inductive Quoted : String → List UInt8 → List UInt8 → Prop
  | mk {cs : List Char} {w rest : List UInt8} :
      Chars cs w rest → Quoted (String.ofList cs) (0x22 :: w) rest

inductive Scalar : Json → List UInt8 → List UInt8 → Prop
  | null {rest : List UInt8} : Scalar .null (0x6e :: 0x75 :: 0x6c :: 0x6c :: rest) rest
  | yes {rest : List UInt8} :
      Scalar (.bool true) (0x74 :: 0x72 :: 0x75 :: 0x65 :: rest) rest
  | no {rest : List UInt8} :
      Scalar (.bool false) (0x66 :: 0x61 :: 0x6c :: 0x73 :: 0x65 :: rest) rest
  | natural {n : ℕ} {rest : List UInt8} : n ≤ Word.max →
      Scalar (.num (.natural n)) (numeral n ++ rest) rest
  | negative {n : ℕ} {rest : List UInt8} : 0 < n → n ≤ 2 ^ 63 →
      Scalar (.num (.negative n)) (0x2d :: (numeral n ++ rest)) rest
  | str {s : String} {w rest : List UInt8} : Quoted s w rest → Scalar (.str s) w rest

def Separates (first : Bool) (w rest : List UInt8) : Prop :=
  if first then w = rest else past w = 0x2c :: rest

mutual

inductive Text : Json → List UInt8 → List UInt8 → Prop
  | scalar {j : Json} {w rest : List UInt8} : Scalar j (past w) rest → Text j w rest
  | arr {items : List Json} {w body rest : List UInt8} :
      past w = 0x5b :: body → Items true items body rest → Text (.arr items) w rest
  | obj {members : List (String × Json)} {w body rest : List UInt8} :
      past w = 0x7b :: body → Members true members body rest →
      (members.map (·.1)).Nodup → Text (ofMembers members) w rest

inductive Items : Bool → List Json → List UInt8 → List UInt8 → Prop
  | close {first : Bool} {w rest : List UInt8} : past w = 0x5d :: rest → Items first [] w rest
  | item {first : Bool} {j : Json} {items : List Json} {w value more rest : List UInt8} :
      Separates first w value → Text j value more → Items false items more rest →
      Items first (j :: items) w rest

inductive Members : Bool → List (String × Json) → List UInt8 → List UInt8 → Prop
  | close {first : Bool} {w rest : List UInt8} : past w = 0x7d :: rest → Members first [] w rest
  | member {first : Bool} {key : String} {j : Json} {members : List (String × Json)}
      {w name behind value more rest : List UInt8} :
      Separates first w name → Quoted key (past name) behind → past behind = 0x3a :: value →
      Text j value more → Members false members more rest →
      Members first ((key, j) :: members) w rest

end

def Document (j : Json) (bytes : List UInt8) : Prop := ∃ rest, Text j bytes rest ∧ past rest = []

mutual

def nesting : Json → ℕ
  | .arr items => nestingItems items + 1
  | .obj members => nestingMembers members + 1
  | _ => 0

def nestingItems : List Json → ℕ
  | [] => 0
  | j :: rest => max (nesting j) (nestingItems rest)

def nestingMembers : List (String × Json) → ℕ
  | [] => 0
  | (_, j) :: rest => max (nesting j) (nestingMembers rest)

end

section Heads

variable {j : Json} {first : Bool} {w body rest : List UInt8}

lemma ends_of_past_cons {b : UInt8} (h : past w = b :: body) (hd : Scan.isDigit b = false)
    (hb : b ≠ 0x2e ∧ b ≠ 0x65 ∧ b ≠ 0x45) : Ends w := by
  apply ends_of_past
  rw [h]
  intro c hc
  obtain rfl := Option.some.inj hc
  exact ⟨hd, hb⟩

lemma Items.ends {items : List Json} (h : Items false items w rest) : Ends w := by
  cases h with
  | close hb => exact ends_of_past_cons hb rfl (by decide)
  | item hs _ _ => exact ends_of_past_cons hs rfl (by decide)

lemma Members.ends {members : List (String × Json)} (h : Members false members w rest) :
    Ends w := by
  cases h with
  | close hb => exact ends_of_past_cons hb rfl (by decide)
  | member hs _ _ _ _ => exact ends_of_past_cons hs rfl (by decide)

lemma Separates.length_le (h : Separates first w rest) : rest.length ≤ w.length := by
  cases first with
  | true => exact (congrArg List.length (show w = rest from h)).ge
  | false =>
    have hlength := length_past_le w
    rw [show past w = 0x2c :: rest from h, List.length_cons] at hlength
    omega

lemma Escape.length_lt {c : Char} (h : Escape c w rest) : rest.length < w.length := by
  cases h with
  | letter _ => simp
  | point _ =>
    rw [List.length_cons, List.length_append]
    omega
  | pair _ _ _ _ _ =>
    simp only [List.length_cons, List.length_append]
    omega

lemma Chars.length_lt {cs : List Char} (h : Chars cs w rest) : rest.length < w.length := by
  induction h with
  | close => simp
  | plain _ _ _ _ ih =>
    rw [List.length_append]
    omega
  | escape he _ ih =>
    have hlt := he.length_lt
    rw [List.length_cons]
    omega

lemma Quoted.length_lt {s : String} (h : Quoted s w rest) : rest.length < w.length := by
  cases h with
  | mk h =>
    have hlt := h.length_lt
    rw [List.length_cons]
    omega

lemma Quoted.past {s : String} (h : Quoted s w rest) : past w = w := by
  cases h
  exact past_of_head rfl

lemma Scalar.past (h : Scalar j w rest) : past w = w := by
  cases h with
  | @natural n _ _ =>
    obtain ⟨b, v, hb, hd⟩ := numeral_head n
    rw [hb, List.cons_append]
    apply past_of_head
    simp only [isBlank, Bool.or_eq_false_iff, decide_eq_false_iff_not]
    exact ⟨⟨⟨digit_ne hd rfl, digit_ne hd rfl⟩, digit_ne hd rfl⟩, digit_ne hd rfl⟩
  | str h => exact h.past
  | _ => exact past_of_head rfl

lemma Scalar.length_lt (h : Scalar j w rest) : rest.length < w.length := by
  cases h with
  | null => simp only [List.length_cons]; omega
  | yes => simp only [List.length_cons]; omega
  | no => simp only [List.length_cons]; omega
  | @natural n _ _ =>
    have hpos := length_numeral_pos n
    rw [List.length_append]
    omega
  | @negative n _ _ _ =>
    rw [List.length_cons, List.length_append]
    omega
  | str h => exact h.length_lt

end Heads

mutual

theorem Text.length_lt {j : Json} {w rest : List UInt8} :
    Text j w rest → rest.length < w.length
  | .scalar h => h.length_lt.trans_le (length_past_le w)
  | .arr hb hi => by
    have hlt := Items.length_lt hi
    have hle := length_past_le w
    rw [hb, List.length_cons] at hle
    omega
  | .obj hb hm _ => by
    have hlt := Members.length_lt hm
    have hle := length_past_le w
    rw [hb, List.length_cons] at hle
    omega

theorem Items.length_lt {first : Bool} {items : List Json} {w rest : List UInt8} :
    Items first items w rest → rest.length < w.length
  | .close hb => by
    have hle := length_past_le w
    rw [hb, List.length_cons] at hle
    omega
  | .item hs hv hi =>
    ((Items.length_lt hi).trans (Text.length_lt hv)).trans_le hs.length_le

theorem Members.length_lt {first : Bool} {members : List (String × Json)} {w rest : List UInt8} :
    Members first members w rest → rest.length < w.length
  | .close hb => by
    have hle := length_past_le w
    rw [hb, List.length_cons] at hle
    omega
  | @Members.member _ _ _ _ _ name behind value _ _ hs hq hc hv hm => by
    have hmore := Members.length_lt hm
    have hvalue := Text.length_lt hv
    have hname := hq.length_lt
    have hcolon := length_past_le behind
    rw [hc, List.length_cons] at hcolon
    have hpast := length_past_le name
    have hsep := hs.length_le
    omega

end

section Members

variable {key : String} {j : Json} {members more : List (String × Json)}

lemma insert_perm (h : key ∉ members.map (·.1)) :
    (insert key j members).Perm ((key, j) :: members) := by
  induction members with
  | nil => exact .refl _
  | cons m members ih =>
    obtain ⟨k, v⟩ := m
    rw [List.map_cons, List.mem_cons, not_or] at h
    rw [insert]
    split_ifs with hlt heq
    · exact .refl _
    · exact absurd heq h.1
    · exact ((ih h.2).cons _).trans (.swap _ _ _)

lemma foldl_insert_perm (h : ((more ++ members).map (·.1)).Nodup) :
    (members.foldl (fun acc m => insert m.1 m.2 acc) more).Perm (more ++ members) := by
  induction members generalizing more with
  | nil => simp
  | cons m members ih =>
    have hperm : (more ++ m :: members).Perm ((m :: more) ++ members) := List.perm_middle
    have hnodup := (hperm.map (·.1)).nodup_iff.mp h
    have hnew : m.1 ∉ more.map (·.1) := by
      rw [List.cons_append, List.map_cons, List.map_append, List.nodup_cons, List.mem_append,
        not_or] at hnodup
      exact hnodup.1.1
    have hins := insert_perm hnew (j := m.2)
    rw [List.foldl_cons]
    have hmoved := ((hins.append_right members).map (·.1)).nodup_iff.mpr hnodup
    exact (ih hmoved).trans ((hins.append_right members).trans hperm.symm)

lemma ofMembers_perm (h : (members.map (·.1)).Nodup) :
    ∃ sorted, ofMembers members = .obj sorted ∧ sorted.Perm members :=
  ⟨_, rfl, foldl_insert_perm h⟩

lemma nestingMembers_perm (h : members.Perm more) :
    nestingMembers members = nestingMembers more := by
  induction h with
  | nil => rfl
  | cons m _ ih => rw [nestingMembers, nestingMembers, ih]
  | swap m n _ => simp only [nestingMembers]; omega
  | trans _ _ ih ih' => exact ih.trans ih'

lemma nesting_ofMembers (h : (members.map (·.1)).Nodup) :
    nesting (ofMembers members) = nestingMembers members + 1 := by
  obtain ⟨sorted, hsorted, hperm⟩ := ofMembers_perm h
  rw [hsorted, nesting, nestingMembers_perm hperm]

lemma lookup_eq_some (h : (members.map (·.1)).Nodup) :
    lookup key members = some j ↔ (key, j) ∈ members := by
  induction members with
  | nil => simp [lookup]
  | cons m members ih =>
    obtain ⟨k, v⟩ := m
    rw [List.map_cons, List.nodup_cons] at h
    have hlater := ih h.2
    rw [lookup] at hlater ⊢
    by_cases hk : k = key
    · subst hk
      have hnot : (k, j) ∉ members := fun hmem => h.1 (List.mem_map.mpr ⟨_, hmem, rfl⟩)
      simp [hnot, eq_comm]
    · have hne : ¬ (key = k ∧ j = v) := fun he => hk he.1.symm
      rw [List.find?_cons_of_neg (by simpa using hk), hlater, List.mem_cons, Prod.mk.injEq]
      tauto

lemma lookup_eq_none (h : key ∉ members.map (·.1)) : lookup key members = none := by
  rw [lookup, Option.map_eq_none_iff, List.find?_eq_none]
  intro m hm hk
  exact h (List.mem_map.mpr ⟨m, hm, by simpa using hk⟩)

lemma lookup_cons_self (key : String) (j : Json) (members : List (String × Json)) :
    lookup key ((key, j) :: members) = some j := by
  simp [lookup]

lemma lookup_cons_of_ne {name : String} (h : name ≠ key) (j : Json)
    (members : List (String × Json)) : lookup key ((name, j) :: members) = lookup key members := by
  simp [lookup, h]

lemma lookup_perm (h : (members.map (·.1)).Nodup) (hp : members.Perm more) :
    lookup key members = lookup key more := by
  have hmore := (hp.map (·.1)).nodup_iff.mp h
  apply Option.ext
  intro j
  rw [lookup_eq_some h, lookup_eq_some hmore, hp.mem_iff]

end Members

end LedgerQuery.Json
