import LedgerQuery.Proofs.Json.Grammar
import LedgerQuery.Proofs.Json.Record

/-! Whatever a reader accepts, keeps or passes over is a value of the grammar; what is read as a
record is an object, or a list of at most as many values as the record has fields. -/

namespace LedgerQuery.Json

open Grammar

namespace Grammar

variable {root : Root} {first : Bool} {n : ℕ} {w w' rest : List UInt8}

lemma Value.congr (h : Value root w rest) (hw : past w = past w') : Value root w' rest := by
  cases h with
  | scalar h => exact .scalar (hw ▸ h)
  | list hb hi => exact .list (hw ▸ hb) hi
  | object hb hm => exact .object (hw ▸ hb) hm

lemma Items.congr (h : Items first n w rest) (hw : past w = past w') : Items first n w' rest := by
  cases h with
  | close hb => exact .close (hw ▸ hb)
  | @item _ _ _ _ value _ _ hs hv hi =>
    cases first with
    | true =>
      have hvalue : w = value := hs
      exact .item (show Separates true w' w' from rfl) (hv.congr (hvalue ▸ hw)) hi
    | false => exact .item (show Separates false w' value from hw.symm.trans hs) hv hi

lemma Members.congr (h : Members first w rest) (hw : past w = past w') : Members first w' rest := by
  cases h with
  | close hb => exact .close (hw ▸ hb)
  | @member _ _ _ name _ _ _ _ _ hs hq hl hc hv hm =>
    cases first with
    | true =>
      have hname : w = name := hs
      have hquote := (hname ▸ hw).symm.trans hq
      exact .member (show Separates true w' w' from rfl) hquote hl hc hv hm
    | false => exact .member (show Separates false w' name from hw.symm.trans hs) hq hl hc hv hm

end Grammar

namespace Scan

variable {s t : Scan} {b : UInt8} {first : Bool} {depth fuel : ℕ}

lemma past_of_peek (h : s.blanks.peek = some b) : past s.rest = b :: s.blanks.next.rest := by
  rw [← blanks_rest]
  exact rest_of_peek h

lemma past_blanks (s : Scan) : past s.blanks.rest = past s.rest := by
  rw [blanks_rest, past_past]

lemma colon_sound (h : s.colon = .ok t) : past s.rest = 0x3a :: t.rest := by
  rw [colon] at h
  split at h
  · cases h
  · next b hb =>
    split_ifs at h with hcolon
    · subst hcolon
      obtain rfl := Except.ok.inj h
      exact past_of_peek hb
    · cases h

lemma listGoesOn_sound {more : Bool} (h : s.listGoesOn first = .ok (more, t)) :
    if more then ∃ w, Separates first s.rest w ∧ t.rest = past w
    else past s.rest = 0x5d :: t.next.rest ∧ t.rest = past s.rest := by
  rw [listGoesOn] at h
  dsimp only at h
  split at h
  · cases h
  · next b hb =>
    split_ifs at h with hclose hfirst hcomma
    · subst hclose
      obtain ⟨rfl, rfl⟩ := Prod.mk.inj (Except.ok.inj h)
      exact ⟨past_of_peek hb, blanks_rest s⟩
    · subst hfirst
      obtain ⟨rfl, rfl⟩ := Prod.mk.inj (Except.ok.inj h)
      exact ⟨s.rest, rfl, blanks_rest s⟩
    · subst hcomma
      split at h
      · cases h
      · split_ifs at h
        · cases h
        · obtain ⟨rfl, rfl⟩ := Prod.mk.inj (Except.ok.inj h)
          obtain rfl := eq_false_of_ne_true hfirst
          exact ⟨s.blanks.next.rest, past_of_peek hb, blanks_rest _⟩
    · cases h

lemma objectGoesOn_sound {more : Bool} (h : s.objectGoesOn first = .ok (more, t)) :
    if more then ∃ w, Separates first s.rest w ∧ past w = 0x22 :: t.next.rest
    else past s.rest = 0x7d :: t.next.rest := by
  rw [objectGoesOn] at h
  dsimp only at h
  split at h
  · cases h
  · next b hb =>
    split_ifs at h with hclose hfirst hquote hcomma
    · subst hclose
      obtain ⟨rfl, rfl⟩ := Prod.mk.inj (Except.ok.inj h)
      exact past_of_peek hb
    · subst hfirst hquote
      obtain ⟨rfl, rfl⟩ := Prod.mk.inj (Except.ok.inj h)
      exact ⟨s.rest, rfl, past_of_peek hb⟩
    · cases h
    · subst hcomma
      obtain rfl := eq_false_of_ne_true hfirst
      split at h
      · cases h
      · next c hc =>
        split_ifs at h with hquote
        · subst hquote
          obtain ⟨rfl, rfl⟩ := Prod.mk.inj (Except.ok.inj h)
          exact ⟨s.blanks.next.rest, past_of_peek hb, past_of_peek hc⟩
        · cases h
        · cases h
    · cases h

lemma scalar_sound {j : Json} (hb : s.peek = some b) (h : s.scalar b = .ok (j, t)) :
    Grammar.Scalar s.rest t.rest := by
  have hrest := rest_of_peek hb
  rw [scalar] at h
  split_ifs at h with hnull hyes hno hminus hdigit hquote
  · subst hnull
    obtain ⟨u, hu, h⟩ := bind_eq_ok h
    obtain ⟨-, rfl⟩ := Prod.mk.inj (Except.ok.inj h)
    rw [hrest, word_sound hu]
    exact .null
  · subst hyes
    obtain ⟨u, hu, h⟩ := bind_eq_ok h
    obtain ⟨-, rfl⟩ := Prod.mk.inj (Except.ok.inj h)
    rw [hrest, word_sound hu]
    exact .yes
  · subst hno
    obtain ⟨u, hu, h⟩ := bind_eq_ok h
    obtain ⟨-, rfl⟩ := Prod.mk.inj (Except.ok.inj h)
    rw [hrest, word_sound hu]
    exact .no
  · subst hminus
    obtain ⟨⟨n, u⟩, hu, h⟩ := bind_eq_ok h
    obtain ⟨-, rfl⟩ := Prod.mk.inj (Except.ok.inj h)
    rw [hrest]
    exact .minus (number_sound hu)
  · obtain ⟨⟨n, u⟩, hu, h⟩ := bind_eq_ok h
    obtain ⟨-, rfl⟩ := Prod.mk.inj (Except.ok.inj h)
    exact .number (number_sound hu)
  · subst hquote
    obtain ⟨⟨text, u⟩, hu, h⟩ := bind_eq_ok h
    obtain ⟨-, rfl⟩ := Prod.mk.inj (Except.ok.inj h)
    rw [hrest]
    exact .string (string_sound hu)
  · cases h

lemma passScalar_sound (hb : s.peek = some b) (h : s.passScalar b = .ok t) :
    Grammar.Scalar s.rest t.rest := by
  have hrest := rest_of_peek hb
  rw [passScalar] at h
  split_ifs at h with hnull hyes hno hminus hdigit hquote
  · subst hnull
    rw [hrest, word_sound h]
    exact .null
  · subst hyes
    rw [hrest, word_sound h]
    exact .yes
  · subst hno
    rw [hrest, word_sound h]
    exact .no
  · subst hminus
    rw [hrest]
    exact .minus (passNumber_sound h)
  · exact .number (passNumber_sound h)
  · subst hquote
    rw [hrest]
    exact .string (passStringBytes_sound h)
  · cases h

end Scan

open Scan

-- The recursion is that of the readers, on the steps that are left to them.
mutual

theorem value_sound {s t : Scan} {depth : ℕ} {j : Json} : ∀ {fuel : ℕ},
    s.value depth fuel = .ok (j, t) → ∃ root, Value root s.rest t.rest
  | 0, h => by cases h
  | fuel + 1, h => by
    rw [value] at h
    dsimp only at h
    split at h
    · cases h
    · next b hb =>
      split_ifs at h with hlist hdeep hobject hdeep
      · cases h
      · subst hlist
        obtain ⟨⟨items, u⟩, hitems, h⟩ := bind_eq_ok h
        obtain ⟨-, rfl⟩ := Prod.mk.inj (Except.ok.inj h)
        obtain ⟨n, hn⟩ := items_sound hitems
        exact ⟨.list n, .list (past_of_peek hb) hn⟩
      · cases h
      · subst hobject
        obtain ⟨⟨members, u⟩, hmembers, h⟩ := bind_eq_ok h
        obtain ⟨-, rfl⟩ := Prod.mk.inj (Except.ok.inj h)
        exact ⟨.object, .object (past_of_peek hb) (members_sound hmembers)⟩
      · have hscalar := scalar_sound hb h
        rw [blanks_rest] at hscalar
        exact ⟨.scalar, .scalar hscalar⟩

theorem items_sound {s t : Scan} {depth : ℕ} {first : Bool} {acc items : List Json} :
    ∀ {fuel : ℕ}, s.items depth first acc fuel = .ok (items, t) →
      ∃ n, Grammar.Items first n s.rest t.rest
  | 0, h => by cases h
  | fuel + 1, h => by
    rw [Scan.items] at h
    obtain ⟨⟨more, u⟩, hmore, h⟩ := bind_eq_ok h
    have hgoes := listGoesOn_sound hmore
    cases more with
    | true =>
      obtain ⟨w, hs, hw⟩ := hgoes
      obtain ⟨⟨j, v⟩, hvalue, h⟩ := bind_eq_ok h
      obtain ⟨root, hroot⟩ := value_sound hvalue
      obtain ⟨n, hn⟩ := items_sound h
      have hpast : past u.rest = past w := by rw [hw, past_past]
      exact ⟨n + 1, .item hs (hroot.congr hpast) hn⟩
    | false =>
      obtain ⟨-, rfl⟩ := Prod.mk.inj (Except.ok.inj h)
      exact ⟨0, .close hgoes.1⟩

theorem members_sound {s t : Scan} {depth : ℕ} {first : Bool} {acc members : List (String × Json)} :
    ∀ {fuel : ℕ}, s.members depth first acc fuel = .ok (members, t) →
      Grammar.Members first s.rest t.rest
  | 0, h => by cases h
  | fuel + 1, h => by
    rw [Scan.members] at h
    obtain ⟨⟨more, u⟩, hmore, h⟩ := bind_eq_ok h
    have hgoes := objectGoesOn_sound hmore
    cases more with
    | true =>
      obtain ⟨w, hs, hw⟩ := hgoes
      obtain ⟨⟨key, v⟩, hkey, h⟩ := bind_eq_ok h
      obtain ⟨x, hcolon, h⟩ := bind_eq_ok h
      obtain ⟨⟨j, y⟩, hvalue, h⟩ := bind_eq_ok h
      obtain ⟨root, hroot⟩ := value_sound hvalue
      exact .member hs hw (string_sound hkey) (colon_sound hcolon) hroot (members_sound h)
    | false =>
      obtain ⟨-, rfl⟩ := Prod.mk.inj (Except.ok.inj h)
      exact .close hgoes

end

mutual

theorem pass_sound {s t : Scan} : ∀ {fuel : ℕ}, s.pass fuel = .ok t →
    ∃ root, Value root s.rest t.rest
  | 0, h => by cases h
  | fuel + 1, h => by
    rw [Scan.pass] at h
    dsimp only at h
    split at h
    · cases h
    · next b hb =>
      split_ifs at h with hlist hclose hend hobject hclose
      · subst hlist
        obtain rfl := Except.ok.inj h
        exact ⟨.list 0, .list (past_of_peek hb) (.close (past_of_peek (eq_of_beq hclose)))⟩
      · cases h
      · subst hlist
        obtain ⟨n, hn⟩ := passItems_sound h (show Separates true _ _ from rfl)
        exact ⟨.list n, .list (past_of_peek hb) (hn.congr (past_blanks s.blanks.next))⟩
      · subst hobject
        obtain rfl := Except.ok.inj h
        exact ⟨.object, .object (past_of_peek hb) (.close (past_of_peek (eq_of_beq hclose)))⟩
      · subst hobject
        have hmembers := passMembers_sound h (show Separates true _ _ from rfl)
        exact ⟨.object, .object (past_of_peek hb) (hmembers.congr (past_blanks s.blanks.next))⟩
      · have hscalar := passScalar_sound hb h
        rw [blanks_rest] at hscalar
        exact ⟨.scalar, .scalar hscalar⟩

-- What is passed starts behind the bracket or behind a comma, so `w` is what stands before that.
theorem passItems_sound {s t : Scan} {first : Bool} {w : List UInt8} : ∀ {fuel : ℕ},
    s.passItems fuel = .ok t → Separates first w s.rest → ∃ n, Grammar.Items first n w t.rest
  | 0, h, _ => by cases h
  | fuel + 1, h, hs => by
    rw [passItems] at h
    obtain ⟨u, hvalue, h⟩ := bind_eq_ok h
    obtain ⟨root, hroot⟩ := pass_sound hvalue
    dsimp only at h
    split at h
    · cases h
    · next b hb =>
      split_ifs at h with hcomma hclose
      · subst hcomma
        obtain ⟨n, hn⟩ := passItems_sound h (show Separates false _ _ from past_of_peek hb)
        exact ⟨n + 1, .item hs hroot hn⟩
      · subst hclose
        obtain rfl := Except.ok.inj h
        exact ⟨1, .item hs hroot (.close (past_of_peek hb))⟩
      · cases h

theorem passMembers_sound {s t : Scan} {first : Bool} {w : List UInt8} : ∀ {fuel : ℕ},
    s.passMembers fuel = .ok t → Separates first w s.rest → Grammar.Members first w t.rest
  | 0, h, _ => by cases h
  | fuel + 1, h, hs => by
    rw [passMembers] at h
    dsimp only at h
    split at h
    · cases h
    · next b hb =>
      split_ifs at h with hquote
      · subst hquote
        obtain ⟨u, hkey, h⟩ := bind_eq_ok h
        obtain ⟨v, hcolon, h⟩ := bind_eq_ok h
        obtain ⟨x, hvalue, h⟩ := bind_eq_ok h
        obtain ⟨root, hroot⟩ := pass_sound hvalue
        have hletters := passStringBytes_sound hkey
        split at h
        · cases h
        · next c hc =>
          split_ifs at h with hcomma hclose
          · subst hcomma
            have hmore := passMembers_sound h (show Separates false _ _ from past_of_peek hc)
            exact .member hs (past_of_peek hb) hletters (colon_sound hcolon) hroot hmore
          · subst hclose
            obtain rfl := Except.ok.inj h
            exact .member hs (past_of_peek hb) hletters (colon_sound hcolon) hroot
              (.close (past_of_peek hc))
          · cases h
      · cases h

end

variable {α β σ : Type}

structure Sound (read : Scan → Except Fault (α × Scan)) : Prop where
  value : ∀ {s t : Scan} {a : α}, read s = .ok (a, t) → ∃ root, Value root s.rest t.rest

def Field.Sound (f : Field σ) : Prop := ∀ depth a, Json.Sound fun s => f.read depth a s

lemma Sound.map {read : Scan → Except Fault (α × Scan)} (h : Sound read) (g : α → β) :
    Sound (fun s => do
      let (a, s) ← read s
      .ok (g a, s)) := by
  constructor
  intro s t b hb
  obtain ⟨⟨a, u⟩, ha, hu⟩ := bind_eq_ok hb
  obtain ⟨-, rfl⟩ := Prod.mk.inj (Except.ok.inj hu)
  exact h.value ha

namespace Scan

variable {s t : Scan}

lemma mismatch_ne_ok {expected : String} {a : α × Scan} : s.mismatch expected ≠ .ok a := by
  intro h
  have herror : Yields (s.mismatch expected : Except Fault (α × Scan)) none [] :=
    mismatch_error s expected
  obtain ⟨fault, hfault⟩ := herror
  cases hfault.symm.trans h

lemma text_sound : Sound Scan.text := by
  constructor
  intro s t text h
  rw [Scan.text] at h
  split at h
  · cases h
  · next b hb =>
    split_ifs at h with hquote
    · subst hquote
      refine ⟨.scalar, .scalar ?_⟩
      rw [past_of_peek hb]
      exact .string (string_sound h)
    · exact absurd h mismatch_ne_ok

lemma object_sound (depth : ℕ) : Sound fun s => s.object depth := by
  constructor
  intro s t members h
  rw [object] at h
  split at h
  · cases h
  · next b hb =>
    split_ifs at h with hobject hdeep
    · cases h
    · subst hobject
      exact ⟨.object, .object (past_of_peek hb) (members_sound h)⟩
    · exact absurd h mismatch_ne_ok

lemma optional_sound {read : Scan → Except Fault (α × Scan)} (hread : Sound read) :
    Sound fun s => s.optional read := by
  constructor
  intro s t a h
  rw [optional] at h
  dsimp only at h
  split_ifs at h with hnull
  · obtain ⟨u, hu, h⟩ := bind_eq_ok h
    obtain ⟨-, rfl⟩ := Prod.mk.inj (Except.ok.inj h)
    refine ⟨.scalar, .scalar ?_⟩
    rw [past_of_peek (eq_of_beq hnull), word_sound hu]
    exact .null
  · obtain ⟨⟨a, u⟩, ha, h⟩ := bind_eq_ok h
    obtain ⟨-, rfl⟩ := Prod.mk.inj (Except.ok.inj h)
    obtain ⟨root, hroot⟩ := hread.value ha
    exact ⟨root, hroot.congr (past_blanks s)⟩

lemma endList_sound (h : s.endList = .ok t) : past s.rest = 0x5d :: t.rest := by
  rw [endList] at h
  dsimp only at h
  split at h
  · cases h
  · next b hb =>
    by_cases hclose : b = 0x5d
    · subst hclose
      obtain rfl := Except.ok.inj h
      exact past_of_peek hb
    · rw [if_neg hclose] at h
      split_ifs at h <;> cases h

lemma finish_sound {a b : α} (h : s.finish a = .ok b) : past s.rest = [] := by
  rw [finish] at h
  split_ifs at h with hend
  · rw [← blanks_rest]
    exact List.isEmpty_iff.mp hend
  · cases h

end Scan

namespace Record

variable {r : Record σ} {s t : Scan} {depth : ℕ} {a b : σ}

lemma named_sound (hr : ∀ f ∈ r.fields, f.Sound)
    {first : Bool} {fuel : ℕ} (h : r.named depth a s first fuel = .ok (b, t)) :
    Grammar.Members first s.rest t.rest := by
  induction fuel generalizing s a first with
  | zero => cases h
  | succ fuel ih =>
    rw [named] at h
    obtain ⟨⟨more, u⟩, hmore, h⟩ := bind_eq_ok h
    have hgoes := objectGoesOn_sound hmore
    cases more with
    | false =>
      simp only [Bool.false_eq_true, ↓reduceIte] at h
      split at h
      · obtain ⟨-, rfl⟩ := Prod.mk.inj (Except.ok.inj h)
        exact .close hgoes
      · cases h
    | true =>
      obtain ⟨w, hs, hw⟩ := hgoes
      obtain ⟨⟨key, v⟩, hkey, h⟩ := bind_eq_ok h
      have hletters := string_sound hkey
      dsimp only at h
      split at h
      · obtain ⟨x, hcolon, h⟩ := bind_eq_ok h
        obtain ⟨y, hvalue, h⟩ := bind_eq_ok h
        obtain ⟨root, hroot⟩ := pass_sound hvalue
        exact .member hs hw hletters (colon_sound hcolon) hroot (ih h)
      · next f hfind =>
        split_ifs at h
        · cases h
        · obtain ⟨x, hcolon, h⟩ := bind_eq_ok h
          obtain ⟨⟨c, y⟩, hvalue, h⟩ := bind_eq_ok h
          obtain ⟨root, hroot⟩ := (hr f (find_field hfind).1 depth a).value hvalue
          exact .member hs hw hletters (colon_sound hcolon) hroot (ih h)

lemma listed_sound {fields : List (Field σ)}
    (hr : ∀ f ∈ fields, f.Sound) {n : ℕ}
    (h : r.listed depth a s n fields = .ok (b, t)) :
    ∃ k ≤ fields.length, Grammar.Items (n == 0) k s.rest t.rest := by
  induction fields generalizing s a n with
  | nil =>
    rw [listed] at h
    obtain ⟨u, hu, h⟩ := bind_eq_ok h
    obtain ⟨-, rfl⟩ := Prod.mk.inj (Except.ok.inj h)
    exact ⟨0, le_rfl, .close (endList_sound hu)⟩
  | cons f fields ih =>
    have hlater (f' : Field σ) (hf : f' ∈ fields) := hr f' (List.mem_cons_of_mem f hf)
    rw [listed] at h
    obtain ⟨⟨more, u⟩, hmore, h⟩ := bind_eq_ok h
    have hgoes := listGoesOn_sound hmore
    cases more with
    | true =>
      obtain ⟨w, hs, hw⟩ := hgoes
      obtain ⟨⟨c, v⟩, hvalue, h⟩ := bind_eq_ok h
      obtain ⟨root, hroot⟩ := (hr f List.mem_cons_self depth a).value hvalue
      obtain ⟨k, hk, hitems⟩ := ih hlater h
      have hpast : past u.rest = past w := by rw [hw, past_past]
      exact ⟨k + 1, Nat.succ_le_succ hk, .item hs (hroot.congr hpast) hitems⟩
    | false =>
      -- The list stays at its closing bracket while the fields that are left get their defaults.
      simp only [Bool.false_eq_true, ↓reduceIte] at h
      split at h
      · obtain ⟨k, hk, hitems⟩ := ih hlater h
        have hpast : past u.rest = past s.rest := by rw [hgoes.2, past_past]
        exact ⟨k, hk.trans (Nat.le_succ _), hitems.congr hpast⟩
      · cases h

lemma read_sound (hr : ∀ f ∈ r.fields, f.Sound)
    (h : r.read depth s = .ok (a, t)) :
    ∃ root, Value root s.rest t.rest ∧
      (root = .object ∨ ∃ n ≤ r.fields.length, root = .list n) := by
  rw [Record.read] at h
  split at h
  · cases h
  · next b hb =>
    split_ifs at h with hlist hdeep hobject hdeep
    · cases h
    · subst hlist
      obtain ⟨n, hn, hitems⟩ := listed_sound hr h
      exact ⟨.list n, .list (past_of_peek hb) hitems, Or.inr ⟨n, hn, rfl⟩⟩
    · cases h
    · subst hobject
      exact ⟨.object, .object (past_of_peek hb) (named_sound hr h), Or.inl rfl⟩
    · exact absurd h mismatch_ne_ok

lemma sound (hr : ∀ f ∈ r.fields, f.Sound) (depth : ℕ) : Json.Sound (r.read depth) := by
  constructor
  intro s t a h
  obtain ⟨root, hroot, -⟩ := read_sound hr h
  exact ⟨root, hroot⟩

lemma readAll_sound (hr : ∀ f ∈ r.fields, f.Sound)
    {bytes : List UInt8} (h : r.readAll bytes = .ok a) : ∃ root, Grammar.Document root bytes ∧
      (root = .object ∨ ∃ n ≤ r.fields.length, root = .list n) := by
  obtain ⟨⟨b, u⟩, hread, h⟩ := bind_eq_ok h
  obtain ⟨root, hroot, hkind⟩ := read_sound hr hread
  exact ⟨root, ⟨u.rest, hroot, finish_sound h⟩, hkind⟩

end Record

end LedgerQuery.Json
