import LedgerQuery.Text.Utf8
import Mathlib.Tactic

/-! What is written in UTF-8 is read back. -/

namespace LedgerQuery.Utf8

variable {n : ℕ} {c : Char}

lemma trail_toNat (n : ℕ) : (trail n).toNat = 0x80 + n % 0x40 := by
  rw [trail, UInt8.toNat_ofNat']
  omega

lemma isTrail_trail (n : ℕ) : isTrail (trail n) = true := by
  have hn := trail_toNat n
  simp only [isTrail, Bool.and_eq_true, decide_eq_true_eq, UInt8.le_iff_toNat_le,
    UInt8.lt_iff_toNat_lt, UInt8.reduceToNat]
  omega

lemma toNat_lead (h : n < 0x100) : (UInt8.ofNat n).toNat = n := by
  rw [UInt8.toNat_ofNat']
  omega

lemma char_bounds (c : Char) : c.toNat < 0xd800 ∨ 0xe000 ≤ c.toNat ∧ c.toNat < 0x110000 := by
  have hvalid := c.valid
  simp only [UInt32.isValidChar, Nat.isValidChar] at hvalid
  change c.toNat < _ ∨ _ < c.toNat ∧ c.toNat < _ at hvalid
  omega

lemma decode_one (h : c.toNat < 0x80) (rest : List UInt8) :
    decode (UInt8.ofNat c.toNat :: rest) = (decode rest).map (c :: ·) := by
  have ha := toNat_lead (n := c.toNat) (by omega)
  have hlt : UInt8.ofNat c.toNat < 0x80 := by
    rw [UInt8.lt_iff_toNat_lt, ha]
    exact h
  rw [decode.eq_def]
  dsimp only
  rw [if_pos hlt, ha, Char.ofNat_toNat]

lemma decode_two (hl : 0x80 ≤ c.toNat) (h : c.toNat < 0x800) (rest : List UInt8) :
    decode (UInt8.ofNat (0xc0 + c.toNat / 0x40) :: trail c.toNat :: rest) =
      (decode rest).map (c :: ·) := by
  have ha := toNat_lead (n := 0xc0 + c.toNat / 0x40) (by omega)
  have hjoin : join (0xc0 + c.toNat / 0x40 - 0xc0) [trail c.toNat] = c.toNat := by
    simp only [join, List.foldl_cons, List.foldl_nil, trail_toNat]
    omega
  rw [decode]
  simp only [UInt8.lt_iff_toNat_lt, ha, isTrail_trail, hjoin, Char.ofNat_toNat, UInt8.reduceToNat,
    ↓reduceIte]
  rw [if_neg (by omega), if_neg (by omega), if_pos (by omega)]

lemma decode_three (hl : 0x800 ≤ c.toNat) (h : c.toNat < 0x10000) (rest : List UInt8) :
    decode (UInt8.ofNat (0xe0 + c.toNat / 0x1000) :: trail (c.toNat / 0x40) :: trail c.toNat :: rest) =
      (decode rest).map (c :: ·) := by
  have ha := toNat_lead (n := 0xe0 + c.toNat / 0x1000) (by omega)
  have hjoin : join (0xe0 + c.toNat / 0x1000 - 0xe0) [trail (c.toNat / 0x40), trail c.toNat] =
      c.toNat := by
    simp only [join, List.foldl_cons, List.foldl_nil, trail_toNat]
    omega
  have hscalar : (decide (0x800 ≤ c.toNat) &&
      !(decide (0xd800 ≤ c.toNat) && decide (c.toNat < 0xe000))) = true := by
    have hbounds := char_bounds c
    simp only [Bool.and_eq_true, Bool.not_eq_true', Bool.and_eq_false_iff, decide_eq_true_eq,
      decide_eq_false_iff_not]
    omega
  rw [decode]
  simp only [UInt8.lt_iff_toNat_lt, ha, isTrail_trail, hjoin, Char.ofNat_toNat, UInt8.reduceToNat,
    Bool.true_and, Bool.and_assoc]
  rw [if_neg (by omega), if_neg (by omega), if_neg (by omega), if_pos (by omega), if_pos hscalar]

lemma decode_four (hl : 0x10000 ≤ c.toNat) (rest : List UInt8) :
    decode (UInt8.ofNat (0xf0 + c.toNat / 0x40000) :: trail (c.toNat / 0x1000) ::
        trail (c.toNat / 0x40) :: trail c.toNat :: rest) = (decode rest).map (c :: ·) := by
  have hbounds := char_bounds c
  have ha := toNat_lead (n := 0xf0 + c.toNat / 0x40000) (by omega)
  have hjoin : join (0xf0 + c.toNat / 0x40000 - 0xf0)
      [trail (c.toNat / 0x1000), trail (c.toNat / 0x40), trail c.toNat] = c.toNat := by
    simp only [join, List.foldl_cons, List.foldl_nil, trail_toNat]
    omega
  have hscalar : (decide (0x10000 ≤ c.toNat) && decide (c.toNat < 0x110000)) = true := by
    simp only [Bool.and_eq_true, decide_eq_true_eq]
    omega
  rw [decode]
  simp only [UInt8.lt_iff_toNat_lt, ha, isTrail_trail, hjoin, Char.ofNat_toNat, UInt8.reduceToNat,
    Bool.true_and]
  rw [if_neg (by omega), if_neg (by omega), if_neg (by omega), if_neg (by omega),
    if_pos (by omega), if_pos hscalar]

lemma decode_encodeChar (c : Char) (rest : List UInt8) :
    decode (encodeChar c ++ rest) = (decode rest).map (c :: ·) := by
  unfold encodeChar
  dsimp only
  split_ifs with h₁ h₂ h₃
  · exact decode_one h₁ rest
  · exact decode_two (by omega) h₂ rest
  · exact decode_three (by omega) h₃ rest
  · exact decode_four (by omega) rest

lemma decode_encode (cs : List Char) : decode (encode cs) = some cs := by
  induction cs with
  | nil => rw [encode, List.flatMap_nil, decode]
  | cons c cs ih =>
    rw [encode] at ih
    rw [encode, List.flatMap_cons, decode_encodeChar, ih, Option.map_some]

lemma toString?_encode (cs : List Char) : toString? (encode cs) = some (String.ofList cs) := by
  rw [toString?, decode_encode, Option.map_some]

lemma mem_encodeChar {b : UInt8} (h : b ∈ encodeChar c) :
    b.toNat = c.toNat ∧ c.toNat < 0x80 ∨ 0x80 ≤ b.toNat := by
  have hbounds := char_bounds c
  have htrail (n : ℕ) : 0x80 ≤ (trail n).toNat := by
    rw [trail_toNat]
    omega
  unfold encodeChar at h
  dsimp only at h
  split_ifs at h with h₁ h₂ h₃
  · rw [List.mem_singleton.mp h, toNat_lead (by omega)]
    exact Or.inl ⟨rfl, h₁⟩
  · right
    simp only [List.mem_cons, List.not_mem_nil, or_false] at h
    rcases h with rfl | rfl
    · rw [toNat_lead (by omega)]
      omega
    · exact htrail _
  · right
    simp only [List.mem_cons, List.not_mem_nil, or_false] at h
    rcases h with rfl | rfl | rfl
    · rw [toNat_lead (by omega)]
      omega
    · exact htrail _
    · exact htrail _
  · right
    simp only [List.mem_cons, List.not_mem_nil, or_false] at h
    rcases h with rfl | rfl | rfl | rfl
    · rw [toNat_lead (by omega)]
      omega
    · exact htrail _
    · exact htrail _
    · exact htrail _

end LedgerQuery.Utf8
