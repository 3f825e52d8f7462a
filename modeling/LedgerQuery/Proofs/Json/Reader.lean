import LedgerQuery.Proofs.Json.Literal

/-! Reading the text of a value gives the value, if it does not nest too deep, and passing over it
leaves the same rest. -/

namespace LedgerQuery.Json

def Begins : Json → UInt8 → Prop
  | .null, b => b = 0x6e
  | .bool yes, b => b = if yes then 0x74 else 0x66
  | .num _, b => Scan.isDigit b ∨ b = 0x2d
  | .str _, b => b = 0x22
  | .arr _, b => b = 0x5b
  | .obj _, b => b = 0x7b

lemma Begins.ne_bracket {j : Json} {b : UInt8} (h : j.Begins b) : b ≠ 0x5d := by
  rintro rfl
  cases j with
  | bool yes => cases yes <;> cases h
  | num n =>
    rcases h with h | h
    · cases h
    · cases h
  | _ => cases h

lemma not_begins_num (n : Number) : ¬ (num n).Begins 0x22 ∧ ¬ (num n).Begins 0x6e := by
  constructor
  · rintro (h | h) <;> cases h
  · rintro (h | h) <;> cases h

section Beginnings

variable {j : Json} {b : UInt8} {w body rest : List UInt8}

lemma Scalar.begins (h : Scalar j w rest) :
    ∃ b body, w = b :: body ∧ j.Begins b ∧ b ≠ 0x5b ∧ b ≠ 0x7b := by
  cases h with
  | null => exact ⟨_, _, rfl, rfl, by decide⟩
  | yes => exact ⟨_, _, rfl, rfl, by decide⟩
  | no => exact ⟨_, _, rfl, rfl, by decide⟩
  | @natural n _ _ =>
    obtain ⟨b, w, hw, hd⟩ := numeral_head n
    exact ⟨b, _, by rw [hw, List.cons_append], Or.inl hd, digit_ne hd rfl, digit_ne hd rfl⟩
  | negative _ _ => exact ⟨_, _, rfl, Or.inr rfl, by decide⟩
  | str h =>
    cases h
    exact ⟨_, _, rfl, rfl, by decide⟩

lemma Text.begins (h : Text j w rest) : ∃ b body, past w = b :: body ∧ j.Begins b := by
  cases h with
  | scalar h =>
    obtain ⟨b, body, hw, hb, -⟩ := h.begins
    exact ⟨b, body, hw, hb⟩
  | arr hb _ => exact ⟨_, _, hb, rfl⟩
  | obj hb _ _ => exact ⟨_, _, hb, rfl⟩

lemma Separates.goes_on {first : Bool} {value : List UInt8} (hs : Separates first w value)
    (h : Text j value rest) : ∃ b body, past w = b :: body ∧ b ≠ 0x5d := by
  cases first with
  | true =>
    obtain ⟨b, body, hb, hbegins⟩ := h.begins
    exact ⟨b, body, (show w = value from hs) ▸ hb, hbegins.ne_bracket⟩
  | false => exact ⟨_, _, hs, by decide⟩

lemma Text.string (h : Text j w rest) (hb : past w = 0x22 :: body) :
    ∃ text, j = .str text ∧ Quoted text (past w) rest := by
  cases h with
  | scalar h =>
    obtain ⟨b, body', hw, hbegins, -⟩ := h.begins
    obtain rfl : b = 0x22 := (List.cons_eq_cons.mp (hw.symm.trans hb)).1
    generalize past w = v at h
    cases h with
    | str hq => exact ⟨_, rfl, hq⟩
    | natural _ => exact absurd hbegins (not_begins_num _).1
    | negative _ _ => exact absurd hbegins (not_begins_num _).1
    | _ => cases hbegins
  | arr ha _ => cases hb.symm.trans ha
  | obj ho _ _ => cases hb.symm.trans ho

lemma Text.null (h : Text j w rest) (hb : past w = 0x6e :: body) :
    j = .null ∧ body = 0x75 :: 0x6c :: 0x6c :: rest := by
  cases h with
  | scalar h =>
    rw [hb] at h
    obtain ⟨b, body', hw, hbegins, -⟩ := h.begins
    obtain ⟨rfl, rfl⟩ := List.cons_eq_cons.mp hw
    generalize hv : (0x6e :: body : List UInt8) = v at h
    cases h with
    | null => exact ⟨rfl, (List.cons_eq_cons.mp hv).2⟩
    | str _ => cases hbegins
    | natural _ => exact absurd hbegins (not_begins_num _).2
    | negative _ _ => exact absurd hbegins (not_begins_num _).2
    | _ => cases hbegins
  | arr ha _ => cases hb.symm.trans ha
  | obj ho _ _ => cases hb.symm.trans ho

lemma Text.list (h : Text j w rest) (hb : past w = 0x5b :: body) :
    ∃ items, j = .arr items ∧ Items true items body rest := by
  cases h with
  | scalar h =>
    obtain ⟨b, body', hw, -, hlist, -⟩ := h.begins
    exact absurd (List.cons_eq_cons.mp (hw.symm.trans hb)).1 hlist
  | arr ha hi =>
    obtain rfl := (List.cons_eq_cons.mp (ha.symm.trans hb)).2
    exact ⟨_, rfl, hi⟩
  | obj ho _ _ => cases hb.symm.trans ho

lemma Text.object (h : Text j w rest) (hb : past w = 0x7b :: body) :
    ∃ members, j = ofMembers members ∧ Members true members body rest ∧
      (members.map (·.1)).Nodup := by
  cases h with
  | scalar h =>
    obtain ⟨b, body', hw, -, -, hobject⟩ := h.begins
    exact absurd (List.cons_eq_cons.mp (hw.symm.trans hb)).1 hobject
  | arr ha _ => cases hb.symm.trans ha
  | obj ho hm hn =>
    obtain rfl := (List.cons_eq_cons.mp (ho.symm.trans hb)).2
    exact ⟨_, rfl, hm, hn⟩

end Beginnings

namespace Scan

variable {s : Scan} {w body rest : List UInt8} {first : Bool}

lemma scalar_numeral {n : ℕ} (h : s.rest = numeral n ++ rest) (he : Ends rest)
    (hn : n ≤ Word.max) {b : UInt8} (hb : s.peek = some b) :
    Yields (s.scalar b) (some (.num (.natural n))) rest := by
  obtain ⟨d, w, hw, hd⟩ := numeral_head n
  rw [peek_of_cons (h.trans (by rw [hw, List.cons_append]))] at hb
  obtain rfl := Option.some.inj hb
  rw [scalar, if_neg (digit_ne hd rfl), if_neg (digit_ne hd rfl), if_neg (digit_ne hd rfl),
    if_neg (digit_ne hd rfl), if_pos hd]
  exact (number_numeral h he hn false).then fun t ht => ⟨t, rfl, ht⟩

lemma scalar_yields {j : Json} (h : Scalar j w rest) (hs : s.rest = w) (he : Ends rest)
    {b : UInt8} (hb : s.peek = some b) : Yields (s.scalar b) (some j) rest := by
  cases h with
  | null =>
    obtain rfl := Option.some.inj ((peek_of_cons hs).symm.trans hb)
    exact (word_passes _ (next_of_cons hs)).then fun t ht => ⟨t, rfl, ht⟩
  | yes =>
    obtain rfl := Option.some.inj ((peek_of_cons hs).symm.trans hb)
    exact (word_passes _ (next_of_cons hs)).then fun t ht => ⟨t, rfl, ht⟩
  | no =>
    obtain rfl := Option.some.inj ((peek_of_cons hs).symm.trans hb)
    exact (word_passes _ (next_of_cons hs)).then fun t ht => ⟨t, rfl, ht⟩
  | natural hn => exact scalar_numeral hs he hn hb
  | @negative n rest hpos hn =>
    obtain rfl := Option.some.inj ((peek_of_cons hs).symm.trans hb)
    have hmax : n ≤ Word.max := hn.trans (by decide)
    have hwhole : whole true n = .negative n := by
      have hlt : ¬ Nat.pow 2 63 < n := Nat.not_lt.mpr hn
      simp [whole, hpos.ne', hlt]
    refine (number_numeral (next_of_cons hs) he hmax true).then fun t ht => ?_
    rw [hwhole]
    exact ⟨t, rfl, ht⟩
  | str hq =>
    cases hq with
    | mk hc =>
      obtain rfl := Option.some.inj ((peek_of_cons hs).symm.trans hb)
      exact (string_yields hc (next_of_cons hs)).then fun t ht => ⟨t, rfl, ht⟩

lemma passScalar_passes {j : Json} (h : Scalar j w rest) (hs : s.rest = w) (he : Ends rest)
    {b : UInt8} (hb : s.peek = some b) : Passes (s.passScalar b) rest := by
  cases h with
  | null =>
    obtain rfl := Option.some.inj ((peek_of_cons hs).symm.trans hb)
    exact word_passes _ (next_of_cons hs)
  | yes =>
    obtain rfl := Option.some.inj ((peek_of_cons hs).symm.trans hb)
    exact word_passes _ (next_of_cons hs)
  | no =>
    obtain rfl := Option.some.inj ((peek_of_cons hs).symm.trans hb)
    exact word_passes _ (next_of_cons hs)
  | @natural n rest hn =>
    obtain ⟨d, w, hw, hd⟩ := numeral_head n
    rw [peek_of_cons (hs.trans (by rw [hw, List.cons_append]))] at hb
    obtain rfl := Option.some.inj hb
    rw [passScalar, if_neg (digit_ne hd rfl), if_neg (digit_ne hd rfl),
      if_neg (digit_ne hd rfl), if_neg (digit_ne hd rfl), if_pos hd]
    exact passNumber_numeral hs he
  | negative _ _ =>
    obtain rfl := Option.some.inj ((peek_of_cons hs).symm.trans hb)
    exact passNumber_numeral (next_of_cons hs) he
  | str hq =>
    cases hq with
    | mk hc =>
      obtain rfl := Option.some.inj ((peek_of_cons hs).symm.trans hb)
      exact passString_passes hc (next_of_cons hs)

lemma peek_blanks {b : UInt8} (h : past s.rest = b :: body) :
    s.blanks.rest = b :: body ∧ s.blanks.peek = some b :=
  ⟨(blanks_rest s).trans h, peek_of_cons ((blanks_rest s).trans h)⟩

lemma colon_passes (h : past s.rest = 0x3a :: rest) : Passes s.colon rest := by
  obtain ⟨hrest, hpeek⟩ := peek_blanks h
  simp only [colon, hpeek]
  exact ⟨s.blanks.next, rfl, next_of_cons hrest⟩

lemma listGoesOn_close (h : past s.rest = 0x5d :: rest) (first : Bool) :
    Yields (s.listGoesOn first) (some false) (0x5d :: rest) := by
  obtain ⟨hrest, hpeek⟩ := peek_blanks h
  simp only [listGoesOn, hpeek]
  exact ⟨s.blanks, rfl, hrest⟩

lemma listGoesOn_item {b : UInt8} (hs : Separates first s.rest w) (hb : past w = b :: body)
    (hne : b ≠ 0x5d) : Yields (s.listGoesOn first) (some true) (past w) := by
  cases first with
  | true =>
    obtain ⟨hrest, hpeek⟩ := peek_blanks ((show s.rest = w from hs) ▸ hb)
    simp only [listGoesOn, hpeek, hne, ↓reduceIte]
    exact ⟨s.blanks, rfl, hrest.trans hb.symm⟩
  | false =>
    obtain ⟨hrest, hpeek⟩ := peek_blanks (show past s.rest = 0x2c :: w from hs)
    have hnext := next_of_cons hrest
    obtain ⟨hrest', hpeek'⟩ := peek_blanks (s := s.blanks.next) (hnext.symm ▸ hb)
    simp only [listGoesOn, hpeek, hpeek', hne, ↓reduceIte]
    exact ⟨s.blanks.next.blanks, rfl, hrest'.trans hb.symm⟩

lemma objectGoesOn_close (h : past s.rest = 0x7d :: rest) (first : Bool) :
    Yields (s.objectGoesOn first) (some false) (0x7d :: rest) := by
  obtain ⟨hrest, hpeek⟩ := peek_blanks h
  simp only [objectGoesOn, hpeek]
  exact ⟨s.blanks, rfl, hrest⟩

lemma objectGoesOn_member (hs : Separates first s.rest w) (hb : past w = 0x22 :: body) :
    Yields (s.objectGoesOn first) (some true) (past w) := by
  cases first with
  | true =>
    obtain ⟨hrest, hpeek⟩ := peek_blanks ((show s.rest = w from hs) ▸ hb)
    simp only [objectGoesOn, hpeek]
    exact ⟨s.blanks, rfl, hrest.trans hb.symm⟩
  | false =>
    obtain ⟨hrest, hpeek⟩ := peek_blanks (show past s.rest = 0x2c :: w from hs)
    have hnext := next_of_cons hrest
    obtain ⟨hrest', hpeek'⟩ := peek_blanks (s := s.blanks.next) (hnext.symm ▸ hb)
    simp only [objectGoesOn, hpeek, hpeek']
    exact ⟨s.blanks.next.blanks, rfl, hrest'.trans hb.symm⟩

end Scan

open Scan

section Parts

variable {first : Bool} {w name behind value rest : List UInt8} {key : String}

lemma Quoted.reads (h : Quoted key w rest) : ∃ body, w = 0x22 :: body ∧
    ∀ {s : Scan}, s.rest = 0x22 :: body → Yields s.next.string (some key) rest := by
  cases h with
  | mk hc => exact ⟨_, rfl, fun hs => string_yields hc (next_of_cons hs)⟩

lemma Quoted.passes (h : Quoted key w rest) : ∃ body, w = 0x22 :: body ∧
    ∀ {s : Scan}, s.rest = 0x22 :: body → Passes s.next.passString rest := by
  cases h with
  | mk hc => exact ⟨_, rfl, fun hs => passString_passes hc (next_of_cons hs)⟩

lemma Separates.member_length_lt (hs : Separates first w name) (hq : Quoted key (past name) behind)
    (hc : past behind = 0x3a :: value) : value.length < w.length := by
  have hname := hq.length_lt
  have hcolon := length_past_le behind
  rw [hc, List.length_cons] at hcolon
  have hpast := length_past_le name
  have hsep := hs.length_le
  omega

end Parts

-- The recursion is on the text. A number only ends where none goes on, hence `Ends`; every part is
-- shorter than the whole, hence the bound on the steps.
mutual

theorem Text.yields {j : Json} {w rest : List UInt8} {s : Scan} {depth fuel : ℕ} :
    Text j w rest → past s.rest = past w → Ends rest → nesting j < depth → 2 * w.length ≤ fuel →
    Yields (s.value depth fuel) (some j) rest
  | .scalar h, hs, he, _, hf => by
    have hlt := h.length_lt.trans_le (length_past_le w)
    obtain ⟨n, rfl⟩ := Nat.exists_eq_add_of_le' (show 1 ≤ fuel by omega)
    obtain ⟨b, body, hb, -, hlist, hobject⟩ := h.begins
    obtain ⟨hrest, hpeek⟩ := peek_blanks (hs.trans hb)
    simp only [value, hpeek, hlist, hobject, ↓reduceIte]
    exact scalar_yields h (hrest.trans hb.symm) he hpeek
  | @Text.arr items _ body _ hb hi, hs, _, hd, hf => by
    have hlength := length_past_le w
    rw [hb, List.length_cons] at hlength
    obtain ⟨n, rfl⟩ := Nat.exists_eq_add_of_le' (show 1 ≤ fuel by omega)
    rw [nesting] at hd
    obtain ⟨hrest, hpeek⟩ := peek_blanks (hs.trans hb)
    have hdeep : ¬ depth ≤ 1 := by omega
    have hitems : Yields (s.blanks.next.items (depth - 1) true [] n) (some items) rest :=
      Items.yields hi (next_of_cons hrest) (by omega) (by omega) []
    simp only [value, hpeek, hdeep, ↓reduceIte]
    exact hitems.then fun t ht => ⟨t, rfl, ht⟩
  | @Text.obj members _ body _ hb hm hn, hs, _, hd, hf => by
    have hlength := length_past_le w
    rw [hb, List.length_cons] at hlength
    obtain ⟨n, rfl⟩ := Nat.exists_eq_add_of_le' (show 1 ≤ fuel by omega)
    rw [nesting_ofMembers hn] at hd
    obtain ⟨hrest, hpeek⟩ := peek_blanks (hs.trans hb)
    have hdeep : ¬ depth ≤ 1 := by omega
    have hopen : (0x7b : UInt8) ≠ 0x5b := by decide
    have hmembers : Yields (s.blanks.next.members (depth - 1) true [] n)
        (some (members.foldl (fun acc m => insert m.1 m.2 acc) [])) rest :=
      Members.yields hm (next_of_cons hrest) (by omega) (by omega) []
    simp only [value, hpeek, hopen, hdeep, ↓reduceIte]
    exact hmembers.then fun t ht => ⟨t, rfl, ht⟩

theorem Items.yields {first : Bool} {items : List Json} {w rest : List UInt8} {s : Scan}
    {depth fuel : ℕ} :
    Items first items w rest → s.rest = w → nestingItems items < depth → 2 * w.length < fuel →
    ∀ acc, Yields (s.items depth first acc fuel) (some (acc.reverse ++ items)) rest
  | .close hb, hs, _, hf, acc => by
    obtain ⟨n, rfl⟩ := Nat.exists_eq_add_of_le' (show 1 ≤ fuel by omega)
    rw [Scan.items]
    refine (listGoesOn_close (hs ▸ hb) first).then fun t ht => ?_
    exact ⟨t.next, by simp, next_of_cons ht⟩
  | @Items.item _ j items _ value more _ hsep hv hi, hs, hd, hf, acc => by
    obtain ⟨n, rfl⟩ := Nat.exists_eq_add_of_le' (show 1 ≤ fuel by omega)
    rw [nestingItems] at hd
    have hmore := hv.length_lt
    have hvalue := hsep.length_le
    have hpast := length_past_le value
    obtain ⟨b, body, hb, hbegins⟩ := hv.begins
    rw [Scan.items]
    refine (listGoesOn_item (hs ▸ hsep) hb hbegins.ne_bracket).then fun t ht => ?_
    have hread : Yields (t.value depth n) (some j) more :=
      Text.yields hv ((congrArg past ht).trans (past_past value)) hi.ends (by omega) (by omega)
    refine hread.then fun t ht => ?_
    have hlater : Yields (t.items depth false (j :: acc) n) (some ((j :: acc).reverse ++ items))
        rest := Items.yields hi ht (by omega) (by omega) (j :: acc)
    simpa using hlater

theorem Members.yields {first : Bool} {members : List (String × Json)} {w rest : List UInt8}
    {s : Scan} {depth fuel : ℕ} :
    Members first members w rest → s.rest = w → nestingMembers members < depth →
    2 * w.length < fuel → ∀ acc, Yields (s.members depth first acc fuel)
      (some (members.foldl (fun acc m => insert m.1 m.2 acc) acc)) rest
  | .close hb, hs, _, hf, acc => by
    obtain ⟨n, rfl⟩ := Nat.exists_eq_add_of_le' (show 1 ≤ fuel by omega)
    rw [Scan.members]
    refine (objectGoesOn_close (hs ▸ hb) first).then fun t ht => ?_
    exact ⟨t.next, rfl, next_of_cons ht⟩
  | @Members.member _ key j members _ name behind value more _ hsep hq hc hv hm, hs, hd, hf,
      acc => by
    obtain ⟨n, rfl⟩ := Nat.exists_eq_add_of_le' (show 1 ≤ fuel by omega)
    rw [nestingMembers] at hd
    have hmore := hv.length_lt
    have hlength := hsep.member_length_lt hq hc
    obtain ⟨body, hb, hread⟩ := hq.reads
    rw [Scan.members]
    refine (objectGoesOn_member (hs ▸ hsep) hb).then fun t ht => ?_
    refine (hread (ht.trans hb)).then fun t ht => ?_
    refine (colon_passes (ht.symm ▸ hc)).then fun t ht => ?_
    have hvalue : Yields (t.value depth n) (some j) more :=
      Text.yields hv (congrArg past ht) hm.ends (by omega) (by omega)
    refine hvalue.then fun t ht => ?_
    exact Members.yields hm ht (by omega) (by omega) (insert key j acc)

end

mutual

theorem Text.passes {j : Json} {w rest : List UInt8} {s : Scan} {fuel : ℕ} :
    Text j w rest → past s.rest = past w → Ends rest → 2 * w.length ≤ fuel →
    Passes (s.pass fuel) rest
  | .scalar h, hs, he, hf => by
    have hlt := h.length_lt.trans_le (length_past_le w)
    obtain ⟨n, rfl⟩ := Nat.exists_eq_add_of_le' (show 1 ≤ fuel by omega)
    obtain ⟨b, body, hb, -, hlist, hobject⟩ := h.begins
    obtain ⟨hrest, hpeek⟩ := peek_blanks (hs.trans hb)
    simp only [Scan.pass, hpeek, hlist, hobject, ↓reduceIte]
    exact passScalar_passes h (hrest.trans hb.symm) he hpeek
  | .arr hb (.close hc), hs, _, hf => by
    have hlength := length_past_le w
    rw [hb, List.length_cons] at hlength
    obtain ⟨n, rfl⟩ := Nat.exists_eq_add_of_le' (show 1 ≤ fuel by omega)
    obtain ⟨hrest, hpeek⟩ := peek_blanks (hs.trans hb)
    obtain ⟨hrest', hpeek'⟩ := peek_blanks (s := s.blanks.next) ((next_of_cons hrest).symm ▸ hc)
    simp only [Scan.pass, hpeek, hpeek']
    exact ⟨_, rfl, next_of_cons hrest'⟩
  | .arr hb (@Items.item _ j items _ value more _ hsep hv hi), hs, _, hf => by
    have hlength := length_past_le w
    rw [hb, List.length_cons, show _ = value from hsep] at hlength
    have hmore := hv.length_lt
    obtain ⟨n, rfl⟩ := Nat.exists_eq_add_of_le' (show 2 ≤ fuel by omega)
    obtain ⟨hrest, hpeek⟩ := peek_blanks (hs.trans hb)
    obtain ⟨b, body, hhead, hbegins⟩ := hv.begins
    have hne := hbegins.ne_bracket
    have hnext : past s.blanks.next.rest = past value := congrArg past ((next_of_cons hrest).trans hsep)
    obtain ⟨hrest', hpeek'⟩ := peek_blanks (hnext.trans hhead)
    have hblanks : past s.blanks.next.blanks.rest = past value := by
      rw [blanks_rest, past_past, hnext]
    have hread : Passes (s.blanks.next.blanks.pass n) more :=
      Text.passes hv hblanks hi.ends (by omega)
    have hitems := Items.passes hi rfl hread (by omega)
    simpa [Scan.pass, hpeek, hpeek', hne] using hitems
  | .obj hb (.close hc) _, hs, _, hf => by
    have hlength := length_past_le w
    rw [hb, List.length_cons] at hlength
    obtain ⟨n, rfl⟩ := Nat.exists_eq_add_of_le' (show 1 ≤ fuel by omega)
    obtain ⟨hrest, hpeek⟩ := peek_blanks (hs.trans hb)
    have hnext := congrArg past (next_of_cons hrest)
    obtain ⟨hrest', hpeek'⟩ := peek_blanks (hnext.trans hc)
    simp only [Scan.pass, hpeek, hpeek']
    exact ⟨_, rfl, next_of_cons hrest'⟩
  | .obj hb (@Members.member _ key j members _ name behind value more _ hsep hq hc hv hm) _, hs,
      _, hf => by
    have hlength := length_past_le w
    rw [hb, List.length_cons] at hlength
    have hmore := hv.length_lt
    have hvalue := hsep.member_length_lt hq hc
    obtain ⟨n, rfl⟩ := Nat.exists_eq_add_of_le' (show 2 ≤ fuel by omega)
    obtain ⟨hrest, hpeek⟩ := peek_blanks (hs.trans hb)
    obtain ⟨body, hhead, -⟩ := hq.passes
    have hnext : past s.blanks.next.rest = past name := congrArg past ((next_of_cons hrest).trans hsep)
    obtain ⟨hrest', hpeek'⟩ := peek_blanks (hnext.trans hhead)
    have hblanks : past s.blanks.next.blanks.rest = past name := by
      rw [blanks_rest, past_past, hnext]
    have hread (t : Scan) (ht : t.rest = value) : Passes (t.pass n) more :=
      Text.passes hv (congrArg past ht) hm.ends (by omega)
    have hmembers := Members.passes hm rfl hblanks hq hc hread (by omega)
    simpa [Scan.pass, hpeek, hpeek'] using hmembers

theorem Items.passes {first : Bool} {items : List Json} {w rest : List UInt8} {s : Scan}
    {fuel : ℕ} :
    Items first items w rest → first = false → Passes (s.pass fuel) w → 2 * w.length ≤ fuel →
    Passes (s.passItems (fuel + 1)) rest
  | .close hb, _, hp, _ => by
    rw [passItems]
    refine hp.on fun t ht => ?_
    obtain ⟨hrest, hpeek⟩ := peek_blanks ((congrArg past ht).trans hb)
    simp only [hpeek]
    exact ⟨_, rfl, next_of_cons hrest⟩
  | @Items.item _ j items _ value more _ hsep hv hi, hfirst, hp, hf => by
    subst hfirst
    have hsep : past w = 0x2c :: value := hsep
    have hlength := length_past_le w
    rw [hsep, List.length_cons] at hlength
    have hmore := hv.length_lt
    obtain ⟨n, rfl⟩ := Nat.exists_eq_add_of_le' (show 1 ≤ fuel by omega)
    rw [passItems]
    refine hp.on fun t ht => ?_
    obtain ⟨hrest, hpeek⟩ := peek_blanks ((congrArg past ht).trans hsep)
    have hread : Passes (t.blanks.next.pass n) more :=
      Text.passes hv (congrArg past (next_of_cons hrest)) hi.ends (by omega)
    simp only [hpeek]
    exact Items.passes hi rfl hread (by omega)

theorem Members.passes {first : Bool} {members : List (String × Json)} {w rest : List UInt8}
    {s : Scan} {key : String} {name behind value : List UInt8} {fuel : ℕ} :
    Members first members w rest → first = false → past s.rest = past name →
    Quoted key (past name) behind → past behind = 0x3a :: value →
    (∀ t : Scan, t.rest = value → Passes (t.pass fuel) w) → 2 * w.length ≤ fuel →
    Passes (s.passMembers (fuel + 1)) rest
  | .close hb, _, hs, hq, hc, hp, _ => by
    obtain ⟨body, hhead, hstring⟩ := hq.passes
    obtain ⟨hrest, hpeek⟩ := peek_blanks (hs.trans hhead)
    simp only [passMembers, hpeek, ↓reduceIte]
    refine (hstring hrest).on fun t ht => ?_
    refine (colon_passes (ht.symm ▸ hc)).on fun t ht => (hp t ht).on fun t ht => ?_
    obtain ⟨hrest, hpeek⟩ := peek_blanks ((congrArg past ht).trans hb)
    simp only [hpeek]
    exact ⟨_, rfl, next_of_cons hrest⟩
  | @Members.member _ _ j members _ name' behind' value' more _ hsep hq' hc' hv hm, hfirst, hs, hq,
      hc, hp, hf => by
    subst hfirst
    have hsep : past w = 0x2c :: name' := hsep
    have hlength := length_past_le w
    rw [hsep, List.length_cons] at hlength
    have hmore := hv.length_lt
    have hfirst : Separates true name' name' := rfl
    have hvalue := hfirst.member_length_lt hq' hc'
    obtain ⟨n, rfl⟩ := Nat.exists_eq_add_of_le' (show 1 ≤ fuel by omega)
    obtain ⟨body, hhead, hstring⟩ := hq.passes
    obtain ⟨hrest, hpeek⟩ := peek_blanks (hs.trans hhead)
    rw [passMembers]
    simp only [hpeek, ↓reduceIte]
    refine (hstring hrest).on fun t ht => ?_
    refine (colon_passes (ht.symm ▸ hc)).on fun t ht => (hp t ht).on fun t ht => ?_
    obtain ⟨hrest, hpeek⟩ := peek_blanks ((congrArg past ht).trans hsep)
    have hread (u : Scan) (hu : u.rest = value') : Passes (u.pass n) more :=
      Text.passes hv (congrArg past hu) hm.ends (by omega)
    simp only [hpeek]
    exact Members.passes hm rfl (congrArg past (next_of_cons hrest)) hq' hc' hread (by omega)

end

end LedgerQuery.Json
