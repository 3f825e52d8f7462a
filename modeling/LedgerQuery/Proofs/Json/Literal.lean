import LedgerQuery.Proofs.Json.Text

/-! Reading the strings of a text, those that are kept and those that are passed over. -/

namespace LedgerQuery.Json.Scan

variable {s : Scan} {w more rest : List UInt8} {c : Char} {n : ℕ}

lemma hexFour_yields {digits : List UInt8} (h : HexFour n digits) (hs : s.rest = digits ++ rest) :
    Yields s.hexFour (some n) rest := by
  match digits, h with
  | [a, b, c, d], ⟨i, j, k, l, ha, hb, hc, hd, hn⟩ =>
    refine ⟨s.skip 4, ?_, by rw [skip_rest, hs]; rfl⟩
    simp only [hexFour, hs, List.cons_append, List.nil_append, ha, hb, hc, hd, hn]

lemma pairByte_passes {b : UInt8} (hs : s.rest = b :: rest) : Passes (s.pairByte b) rest := by
  rw [pairByte, peek_of_cons hs]
  exact ⟨s.next, if_pos rfl, next_of_cons hs⟩

lemma escapedPoint_point {digits : List UInt8} (h : HexFour c.toNat digits)
    (hs : s.rest = digits ++ rest) : Yields s.escapedPoint (some c) rest := by
  have hbounds := Utf8.char_bounds c
  refine (hexFour_yields h hs).then fun t ht => ?_
  dsimp only
  rw [if_neg (by omega), if_pos (by omega), Char.ofNat_toNat]
  exact ⟨t, rfl, ht⟩

lemma escapedPoint_pair {high low : ℕ} {first second : List UInt8} (hhigh : high < 0x400)
    (hlow : low < 0x400) (hc : c.toNat = 0x10000 + high * 0x400 + low)
    (hfirst : HexFour (0xd800 + high) first) (hsecond : HexFour (0xdc00 + low) second)
    (hs : s.rest = first ++ 0x5c :: 0x75 :: (second ++ rest)) :
    Yields s.escapedPoint (some c) rest := by
  refine (hexFour_yields hfirst hs).then fun t ht => ?_
  dsimp only
  rw [if_neg (by omega), if_neg (by omega)]
  refine (pairByte_passes ht).then fun t ht => (pairByte_passes ht).then fun t ht => ?_
  refine (hexFour_yields hsecond ht).then fun t ht => ?_
  have hpoint : 0x10000 + (0xd800 + high - 0xd800) * 0x400 + (0xdc00 + low - 0xdc00) =
      c.toNat := by omega
  dsimp only
  rw [if_pos (by omega), hpoint, Char.ofNat_toNat]
  exact ⟨t, rfl, ht⟩

lemma simpleEscape_escapes : ∀ e ∈ escapes,
    (simpleEscape e.1).map (fun b => [b]) = some (Utf8.encodeChar e.2) := by decide

lemma escape_yields (h : Escape c w rest) (hs : s.rest = w) :
    Yields s.escape (some (Utf8.encodeChar c)) rest := by
  cases h with
  | @letter b c rest hb =>
    obtain ⟨x, hx, hc⟩ := Option.map_eq_some_iff.mp (simpleEscape_escapes _ hb)
    rw [escape, peek_of_cons hs]
    dsimp only at hx hc ⊢
    rw [hx, ← hc]
    exact ⟨s.next, rfl, next_of_cons hs⟩
  | point hd =>
    rw [escape, peek_of_cons hs]
    exact (escapedPoint_point hd (next_of_cons hs)).then fun t ht => ⟨t, rfl, ht⟩
  | pair hhigh hlow hc hfirst hsecond =>
    rw [escape, peek_of_cons hs]
    exact (escapedPoint_pair hhigh hlow hc hfirst hsecond (next_of_cons hs)).then
      fun t ht => ⟨t, rfl, ht⟩

def IsPlain (b : UInt8) : Prop := b ≠ 0x22 ∧ b ≠ 0x5c ∧ ¬ b < 0x20

lemma plain_of_char (hc : 0x20 ≤ c.toNat) (hq : c ≠ '\"') (hb : c ≠ '\\') :
    ∀ b ∈ Utf8.encodeChar c, IsPlain b := by
  intro b hmem
  have hquote : c.toNat ≠ 0x22 := fun h => hq (Char.toNat_inj.mp h)
  have hslash : c.toNat ≠ 0x5c := fun h => hb (Char.toNat_inj.mp h)
  have hcases := Utf8.mem_encodeChar hmem
  refine ⟨?_, ?_, ?_⟩
  · rintro rfl
    simp only [UInt8.reduceToNat] at hcases
    omega
  · rintro rfl
    simp only [UInt8.reduceToNat] at hcases
    omega
  · simp only [UInt8.lt_iff_toNat_lt, UInt8.reduceToNat]
    omega

lemma stringBytes_plain {bytes : List UInt8} (h : ∀ b ∈ bytes, IsPlain b)
    (hs : s.rest = bytes ++ w) (acc : List UInt8) (fuel : ℕ) :
    ∃ t : Scan, t.rest = w ∧ s.stringBytes acc (fuel + bytes.length) =
      t.stringBytes (bytes.reverse ++ acc) fuel := by
  induction bytes generalizing s acc with
  | nil => exact ⟨s, hs, rfl⟩
  | cons b bytes ih =>
    obtain ⟨hquote, hslash, hcontrol⟩ := h b List.mem_cons_self
    obtain ⟨t, ht, hread⟩ := ih (fun d hd => h d (List.mem_cons_of_mem b hd)) (next_of_cons hs)
      (b :: acc)
    refine ⟨t, ht, ?_⟩
    rw [List.length_cons, ← Nat.add_assoc, stringBytes, peek_of_cons hs]
    simp only [hquote, hslash, hcontrol, ↓reduceIte, hread]
    simp

-- The reader takes one step for every byte, the text one for every character.
lemma stringBytes_yields {cs : List Char} (h : Chars cs w rest) {fuel : ℕ}
    (hf : w.length ≤ fuel) (acc : List UInt8) (hs : s.rest = w) :
    Yields (s.stringBytes acc fuel) (some (acc.reverse ++ Utf8.encode cs)) rest := by
  induction h generalizing s acc fuel with
  | close =>
    obtain ⟨n, rfl⟩ := Nat.exists_eq_add_of_le' (Nat.le_of_add_left_le hf)
    rw [stringBytes, peek_of_cons hs]
    exact ⟨s.next, by simp [Utf8.encode], next_of_cons hs⟩
  | @plain c cs w rest hc hq hb _ ih =>
    rw [List.length_append] at hf
    obtain ⟨n, rfl⟩ := Nat.exists_eq_add_of_le' (Nat.le_of_add_right_le hf)
    obtain ⟨t, ht, hread⟩ := stringBytes_plain (plain_of_char hc hq hb) hs acc n
    have hn : w.length ≤ n := by omega
    rw [hread]
    simpa [Utf8.encode] using ih hn ((Utf8.encodeChar c).reverse ++ acc) ht
  | @escape c cs w more rest he _ ih =>
    have hlt := he.length_lt
    rw [List.length_cons] at hf
    obtain ⟨n, rfl⟩ := Nat.exists_eq_add_of_le' (Nat.le_of_add_left_le hf)
    rw [stringBytes, peek_of_cons hs]
    refine (escape_yields he (next_of_cons hs)).then fun t ht => ?_
    have hn : more.length ≤ n := by omega
    simpa [Utf8.encode] using ih hn ((Utf8.encodeChar c).reverse ++ acc) ht

lemma string_yields {cs : List Char} (h : Chars cs w rest) (hs : s.rest = w) :
    Yields s.string (some (String.ofList cs)) rest := by
  refine (stringBytes_yields h (by rw [hs]; omega) [] hs).then fun t ht => ?_
  rw [List.reverse_nil, List.nil_append]
  dsimp only
  rw [Utf8.toString?_encode]
  exact ⟨t, rfl, ht⟩

lemma passStringBytes_plain {bytes : List UInt8} (h : ∀ b ∈ bytes, IsPlain b)
    (hs : s.rest = bytes ++ w) (fuel : ℕ) :
    ∃ t : Scan, t.rest = w ∧ s.passStringBytes (fuel + bytes.length) = t.passStringBytes fuel := by
  induction bytes generalizing s with
  | nil => exact ⟨s, hs, rfl⟩
  | cons b bytes ih =>
    obtain ⟨hquote, hslash, hcontrol⟩ := h b List.mem_cons_self
    obtain ⟨t, ht, hread⟩ := ih (fun d hd => h d (List.mem_cons_of_mem b hd)) (next_of_cons hs)
    refine ⟨t, ht, ?_⟩
    rw [List.length_cons, ← Nat.add_assoc, passStringBytes, peek_of_cons hs]
    simp only [hquote, hslash, hcontrol, ↓reduceIte, hread]

lemma passEscape_letter {b : UInt8} (h : (b, c) ∈ escapes) (hs : s.rest = b :: rest) :
    Passes s.passEscape rest := by
  obtain ⟨x, hx, -⟩ := Option.map_eq_some_iff.mp (simpleEscape_escapes _ h)
  rw [passEscape, peek_of_cons hs]
  exact ⟨s.next, by simp [hx], next_of_cons hs⟩

lemma passEscape_point {digits : List UInt8} (h : HexFour n digits)
    (hs : s.rest = 0x75 :: (digits ++ rest)) : Passes s.passEscape rest := by
  obtain ⟨t, hread, ht⟩ := hexFour_yields h (next_of_cons hs)
  rw [passEscape, peek_of_cons hs]
  dsimp only
  rw [hread]
  exact ⟨t, rfl, ht⟩

lemma passStringBytes_escape {fuel : ℕ} (hs : s.rest = 0x5c :: w)
    (h : Passes s.next.passEscape more)
    (hm : ∀ t : Scan, t.rest = more → Passes (t.passStringBytes fuel) rest) :
    Passes (s.passStringBytes (fuel + 1)) rest := by
  rw [passStringBytes, peek_of_cons hs]
  exact h.on hm

lemma passStringBytes_passes {cs : List Char} (h : Chars cs w rest) {fuel : ℕ}
    (hf : w.length ≤ fuel) (hs : s.rest = w) : Passes (s.passStringBytes fuel) rest := by
  induction h generalizing s fuel with
  | close =>
    obtain ⟨n, rfl⟩ := Nat.exists_eq_add_of_le' (Nat.le_of_add_left_le hf)
    rw [passStringBytes, peek_of_cons hs]
    exact ⟨s.next, rfl, next_of_cons hs⟩
  | @plain c cs w rest hc hq hb _ ih =>
    rw [List.length_append] at hf
    obtain ⟨n, rfl⟩ := Nat.exists_eq_add_of_le' (Nat.le_of_add_right_le hf)
    obtain ⟨t, ht, hread⟩ := passStringBytes_plain (plain_of_char hc hq hb) hs n
    rw [hread]
    exact ih (by omega) ht
  | @escape c cs w more rest he _ ih =>
    rw [List.length_cons] at hf
    obtain ⟨n, rfl⟩ := Nat.exists_eq_add_of_le' (Nat.le_of_add_left_le hf)
    have hnext := next_of_cons hs
    cases he with
    | letter hb =>
      rw [List.length_cons] at hf
      exact passStringBytes_escape hs (passEscape_letter hb hnext) fun t ht => ih (by omega) ht
    | point hd =>
      rw [List.length_cons, List.length_append] at hf
      exact passStringBytes_escape hs (passEscape_point hd hnext) fun t ht => ih (by omega) ht
    | pair _ _ _ hfirst hsecond =>
      -- Nobody looks at both halves of a pair at once here.
      simp only [List.length_cons, List.length_append] at hf
      obtain ⟨m, rfl⟩ := Nat.exists_eq_add_of_le' (show 1 ≤ n by omega)
      refine passStringBytes_escape hs (passEscape_point hfirst hnext) fun t ht => ?_
      exact passStringBytes_escape ht (passEscape_point hsecond (next_of_cons ht))
        fun t ht => ih (by omega) ht

lemma passString_passes {cs : List Char} (h : Chars cs w rest) (hs : s.rest = w) :
    Passes s.passString rest :=
  passStringBytes_passes h (by rw [hs]; omega) hs

end LedgerQuery.Json.Scan
