import LedgerQuery.Proofs.Json.Scan

/-! Whole numbers in a text. Their digits are read back as long as they fit into 64 bits. -/

namespace LedgerQuery.Json

def numeral (n : ℕ) : List UInt8 := Utf8.ofString (toString n)

section Digits

variable {n : ℕ} {w rest : List UInt8}

lemma encode_digitChar (h : n < 10) : Utf8.encodeChar n.digitChar = [UInt8.ofNat (0x30 + n)] := by
  interval_cases n <;> rfl

lemma numeral_of_lt (h : n < 10) : numeral n = [UInt8.ofNat (0x30 + n)] := by
  rw [numeral, Utf8.ofString, Nat.toString_eq_repr, Nat.toList_repr, Nat.toDigits_of_lt_base h,
    Utf8.encode, List.flatMap_singleton, encode_digitChar h]

lemma numeral_of_le (h : 10 ≤ n) :
    numeral n = numeral (n / 10) ++ [UInt8.ofNat (0x30 + n % 10)] := by
  rw [numeral, numeral, Utf8.ofString, Utf8.ofString, Nat.toString_eq_repr, Nat.toString_eq_repr,
    Nat.toList_repr, Nat.toList_repr, Nat.toDigits_of_base_le (by decide) h, Utf8.encode,
    List.flatMap_append, List.flatMap_singleton, encode_digitChar (Nat.mod_lt n (by decide))]
  rfl

lemma digit_byte (h : n < 10) : Scan.isDigit (UInt8.ofNat (0x30 + n)) = true ∧
    Scan.digitValue (UInt8.ofNat (0x30 + n)) = n := by
  interval_cases n <;> exact ⟨rfl, rfl⟩

lemma isDigit_of_mem_numeral {b : UInt8} (h : b ∈ numeral n) : Scan.isDigit b = true := by
  induction n using Nat.strong_induction_on with
  | _ n ih =>
    rcases Nat.lt_or_ge n 10 with hn | hn
    · rw [numeral_of_lt hn, List.mem_singleton] at h
      rw [h, (digit_byte hn).1]
    · rw [numeral_of_le hn, List.mem_append, List.mem_singleton] at h
      rcases h with h | rfl
      · exact ih (n / 10) (by omega) h
      · exact (digit_byte (Nat.mod_lt n (by decide))).1

lemma digit_ne {b c : UInt8} (hb : Scan.isDigit b = true) (hc : Scan.isDigit c = false) :
    b ≠ c := by
  rintro rfl
  exact Bool.false_ne_true (hc.symm.trans hb)

lemma numeral_zero : numeral 0 = [0x30] := numeral_of_lt (by decide)

lemma numeral_cons (hn : 0 < n) : ∃ b w, numeral n = b :: w ∧ b ≠ 0x30 := by
  induction n using Nat.strong_induction_on with
  | _ n ih =>
    rcases Nat.lt_or_ge n 10 with hlt | hle
    · refine ⟨_, [], numeral_of_lt hlt, ?_⟩
      interval_cases n <;> decide
    · obtain ⟨b, w, hw, hb⟩ := ih (n / 10) (by omega) (by omega)
      exact ⟨b, w ++ [UInt8.ofNat (0x30 + n % 10)], by rw [numeral_of_le hle, hw, List.cons_append], hb⟩

lemma numeral_head (n : ℕ) : ∃ b w, numeral n = b :: w ∧ Scan.isDigit b = true := by
  rcases Nat.eq_zero_or_pos n with rfl | hn
  · exact ⟨_, _, numeral_zero, rfl⟩
  · obtain ⟨b, w, hw, -⟩ := numeral_cons hn
    exact ⟨b, w, hw, isDigit_of_mem_numeral (n := n) (by simp [hw])⟩

lemma length_numeral_pos (n : ℕ) : 0 < (numeral n).length := by
  obtain ⟨b, w, hw, -⟩ := numeral_head n
  simp [hw]

lemma absorb_append {m m' : ℕ} {ds : List ℕ} (h : absorb m ds = (m', 0)) (more : List ℕ) :
    absorb m (ds ++ more) = absorb m' more := by
  induction ds generalizing m with
  | nil =>
    obtain rfl : m = m' := congrArg Prod.fst h
    rfl
  | cons d ds ih =>
    rw [absorb] at h
    split_ifs at h with hd
    · rw [List.cons_append, absorb, if_pos hd, ih h]
    · cases h

lemma absorb_numeral (h : n ≤ Word.max) :
    absorb 0 ((numeral n).map Scan.digitValue) = (n, 0) := by
  induction n using Nat.strong_induction_on with
  | _ n ih =>
    rcases Nat.lt_or_ge n 10 with hn | hn
    · have hfits : 0 * 10 + n ≤ Word.max := by omega
      rw [numeral_of_lt hn, List.map_singleton, (digit_byte hn).2, absorb, if_pos hfits, absorb,
        Nat.zero_mul, Nat.zero_add]
    · have hrest : n / 10 * 10 + n % 10 = n := Nat.div_add_mod' n 10
      rw [numeral_of_le hn, List.map_append, absorb_append (ih (n / 10) (by omega) (by omega)),
        List.map_singleton, (digit_byte (Nat.mod_lt n (by decide))).2, absorb, hrest, if_pos h, absorb]

lemma spanDigits_append (h : ∀ b ∈ w, Scan.isDigit b = true) (he : Ends rest) :
    Scan.spanDigits (w ++ rest) = (w.map Scan.digitValue, rest) := by
  induction w with
  | nil =>
    cases rest with
    | nil => rfl
    | cons b rest =>
      have hb : Scan.isDigit b = false := (he b rfl).1
      simp [Scan.spanDigits, hb]
  | cons b w ih =>
    have hb := h b List.mem_cons_self
    have hw := ih fun c hc => h c (List.mem_cons_of_mem b hc)
    simp [Scan.spanDigits, hb, hw]

end Digits

namespace Scan

variable {s : Scan} {n : ℕ} {rest : List UInt8}

lemma digits_numeral (h : s.rest = numeral n ++ rest) (he : Ends rest) :
    ∃ t, s.digits = ((numeral n).map digitValue, t) ∧ t.rest = rest := by
  rw [digits, h, spanDigits_append (fun b hb => isDigit_of_mem_numeral hb) he]
  exact ⟨_, rfl, rfl⟩

lemma peek_of_ends (h : s.rest = rest) (he : Ends rest) :
    s.peekDigit = false ∧ s.peekPoint = false ∧ s.peekExponent = false := by
  rw [peekDigit, peekPoint, peekExponent, Scan.peek, h]
  cases rest with
  | nil => exact ⟨rfl, rfl, rfl⟩
  | cons b rest =>
    obtain ⟨hd, hp, he, hE⟩ := he b rfl
    simp [hd, hp, he, hE]

lemma afterWhole_ends (h : s.rest = rest) (he : Ends rest) (negative : Bool) :
    Yields (s.afterWhole negative n 0) (some (whole negative n)) rest := by
  obtain ⟨-, hpoint, hexponent⟩ := peek_of_ends h he
  rw [afterWhole, hpoint, hexponent]
  exact ⟨s, rfl, h⟩

lemma number_numeral (h : s.rest = numeral n ++ rest) (he : Ends rest) (hn : n ≤ Word.max)
    (negative : Bool) : Yields (s.number negative) (some (whole negative n)) rest := by
  rcases Nat.eq_zero_or_pos n with rfl | hpos
  · rw [numeral_zero] at h
    have hnext := next_of_cons h
    rw [number, peek_of_cons h]
    simp only [↓reduceIte, (peek_of_ends hnext he).1]
    exact afterWhole_ends hnext he negative
  · obtain ⟨b, w, hw, hb⟩ := numeral_cons hpos
    obtain ⟨t, hdigits, ht⟩ := digits_numeral h he
    have hdigit : isDigit b = true := isDigit_of_mem_numeral (n := n) (by simp [hw])
    have hcons : s.rest = b :: (w ++ rest) := by rw [h, hw, List.cons_append]
    rw [number, peek_of_cons hcons]
    simp only [hb, hdigit, hdigits, absorb_numeral hn, ↓reduceIte]
    exact afterWhole_ends ht he negative

lemma passNumber_numeral (h : s.rest = numeral n ++ rest) (he : Ends rest) :
    Passes s.passNumber rest := by
  rcases Nat.eq_zero_or_pos n with rfl | hpos
  · rw [numeral_zero] at h
    have hnext := next_of_cons h
    obtain ⟨hdigit, hpoint, hexponent⟩ := peek_of_ends hnext he
    simp only [passNumber, peek_of_cons h, hdigit, hpoint, hexponent]
    exact ⟨s.next, rfl, hnext⟩
  · obtain ⟨b, w, hw, hb⟩ := numeral_cons hpos
    obtain ⟨t, hdigits, ht⟩ := digits_numeral h he
    have hdigit : isDigit b = true := isDigit_of_mem_numeral (n := n) (by simp [hw])
    have hcons : s.rest = b :: (w ++ rest) := by rw [h, hw, List.cons_append]
    obtain ⟨-, hpoint, hexponent⟩ := peek_of_ends ht he
    have hsome : s.peekDigit = true := by rw [peekDigit, peek_of_cons hcons]; exact hdigit
    have hzero : (s.peek == some 0x30) = false := by rw [peek_of_cons hcons]; simpa using hb
    simp only [passNumber, hzero, hsome, hdigits, hpoint, hexponent]
    exact ⟨t, rfl, ht⟩

end Scan

end LedgerQuery.Json
