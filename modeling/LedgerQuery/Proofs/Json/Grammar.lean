import LedgerQuery.Proofs.Json.Text

/-! The grammar of JSON over bytes, whatever a text stands for: what a text begins with and what is
left of it behind a value. Only the bytes of a string need not be UTF-8. What the readers of strings
and numbers accept is of this form. -/

namespace LedgerQuery.Json.Grammar

inductive Run : List UInt8 → List UInt8 → Prop
  | nil {rest : List UInt8} : Run rest rest
  | cons {b : UInt8} {w rest : List UInt8} : Scan.isDigit b = true → Run w rest → Run (b :: w) rest

inductive Digits : List UInt8 → List UInt8 → Prop
  | mk {b : UInt8} {w rest : List UInt8} : Scan.isDigit b = true → Run w rest → Digits (b :: w) rest

inductive Whole : List UInt8 → List UInt8 → Prop
  | zero {rest : List UInt8} : Whole (0x30 :: rest) rest
  | digits {b : UInt8} {w rest : List UInt8} :
      Scan.isDigit b = true → b ≠ 0x30 → Run w rest → Whole (b :: w) rest

inductive Fraction : List UInt8 → List UInt8 → Prop
  | none {rest : List UInt8} : Fraction rest rest
  | digits {w rest : List UInt8} : Digits w rest → Fraction (0x2e :: w) rest

inductive Exponent : List UInt8 → List UInt8 → Prop
  | none {rest : List UInt8} : Exponent rest rest
  | digits {letter : UInt8} {sign w rest : List UInt8} :
      letter = 0x65 ∨ letter = 0x45 → sign ∈ [[], [0x2b], [0x2d]] → Digits w rest →
      Exponent (letter :: (sign ++ w)) rest

inductive Tail : List UInt8 → List UInt8 → Prop
  | mk {w mid rest : List UInt8} : Fraction w mid → Exponent mid rest → Tail w rest

inductive Unsigned : List UInt8 → List UInt8 → Prop
  | mk {w mid rest : List UInt8} : Whole w mid → Tail mid rest → Unsigned w rest

inductive Letters : List UInt8 → List UInt8 → Prop
  | close {rest : List UInt8} : Letters (0x22 :: rest) rest
  | plain {b : UInt8} {w rest : List UInt8} :
      b ≠ 0x22 → b ≠ 0x5c → ¬ b < 0x20 → Letters w rest → Letters (b :: w) rest
  | letter {b : UInt8} {w rest : List UInt8} :
      b ∈ escapes.map (·.1) → Letters w rest → Letters (0x5c :: b :: w) rest
  | point {n : ℕ} {digits w rest : List UInt8} :
      HexFour n digits → Letters w rest → Letters (0x5c :: 0x75 :: (digits ++ w)) rest

inductive Scalar : List UInt8 → List UInt8 → Prop
  | null {rest : List UInt8} : Scalar (0x6e :: 0x75 :: 0x6c :: 0x6c :: rest) rest
  | yes {rest : List UInt8} : Scalar (0x74 :: 0x72 :: 0x75 :: 0x65 :: rest) rest
  | no {rest : List UInt8} : Scalar (0x66 :: 0x61 :: 0x6c :: 0x73 :: 0x65 :: rest) rest
  | number {w rest : List UInt8} : Unsigned w rest → Scalar w rest
  | minus {w rest : List UInt8} : Unsigned w rest → Scalar (0x2d :: w) rest
  | string {w rest : List UInt8} : Letters w rest → Scalar (0x22 :: w) rest

inductive Root where
  | scalar
  | list (n : ℕ)
  | object
deriving DecidableEq

mutual

inductive Value : Root → List UInt8 → List UInt8 → Prop
  | scalar {w rest : List UInt8} : Scalar (past w) rest → Value .scalar w rest
  | list {n : ℕ} {w body rest : List UInt8} :
      past w = 0x5b :: body → Items true n body rest → Value (.list n) w rest
  | object {w body rest : List UInt8} :
      past w = 0x7b :: body → Members true body rest → Value .object w rest

inductive Items : Bool → ℕ → List UInt8 → List UInt8 → Prop
  | close {first : Bool} {w rest : List UInt8} : past w = 0x5d :: rest → Items first 0 w rest
  | item {first : Bool} {root : Root} {n : ℕ} {w value more rest : List UInt8} :
      Separates first w value → Value root value more → Items false n more rest →
      Items first (n + 1) w rest

inductive Members : Bool → List UInt8 → List UInt8 → Prop
  | close {first : Bool} {w rest : List UInt8} : past w = 0x7d :: rest → Members first w rest
  | member {first : Bool} {root : Root} {w name key behind value more rest : List UInt8} :
      Separates first w name → past name = 0x22 :: key → Letters key behind →
      past behind = 0x3a :: value → Value root value more → Members false more rest →
      Members first w rest

end

def Document (root : Root) (bytes : List UInt8) : Prop :=
  ∃ rest, Value root bytes rest ∧ past rest = []

section Numbers

variable {w mid rest : List UInt8}

lemma Run.trans (h : Run w mid) (hr : Run mid rest) : Run w rest := by
  induction h with
  | nil => exact hr
  | cons hb _ ih => exact .cons hb (ih hr)

lemma Digits.trans (h : Digits w mid) (hr : Run mid rest) : Digits w rest := by
  cases h with
  | mk hb h => exact .mk hb (h.trans hr)

end Numbers

end LedgerQuery.Json.Grammar

namespace LedgerQuery.Json.Scan

open Grammar

variable {s t : Scan} {b : UInt8} {rest : List UInt8}

lemma rest_of_peek (h : s.peek = some b) : s.rest = b :: s.next.rest := by
  cases hr : s.rest with
  | nil =>
    rw [peek_of_nil hr] at h
    cases h
  | cons c w =>
    rw [peek_of_cons hr] at h
    rw [next_of_cons hr, Option.some.inj h]

lemma rest_of_peek_beq (h : (s.peek == some b) = true) : s.rest = b :: s.next.rest :=
  rest_of_peek (eq_of_beq h)

lemma word_sound {letters : List UInt8} (h : s.word letters = .ok t) :
    s.rest = letters ++ t.rest := by
  induction letters generalizing s with
  | nil =>
    obtain rfl := Except.ok.inj h
    rfl
  | cons b letters ih =>
    rw [word] at h
    split at h
    · cases h
    · next c hc =>
      split_ifs at h with hcb
      · subst hcb
        rw [rest_of_peek hc, ih h, List.cons_append]
      · cases h

section Strings

lemma hexFour_sound {n : ℕ} (h : s.hexFour = .ok (n, t)) :
    ∃ digits, HexFour n digits ∧ s.rest = digits ++ t.rest := by
  rw [hexFour] at h
  split at h
  · next a b c d w hrest =>
    split at h
    · next i j k l ha hb hc hd =>
      obtain ⟨rfl, rfl⟩ := Prod.mk.inj (Except.ok.inj h)
      refine ⟨[a, b, c, d], ⟨i, j, k, l, ha, hb, hc, hd, rfl⟩, ?_⟩
      rw [skip_rest, hrest]
      rfl
    · cases h
  · cases h

lemma pairByte_sound (h : s.pairByte b = .ok t) : s.rest = b :: t.rest := by
  rw [pairByte] at h
  split at h
  · cases h
  · next c hc =>
    split_ifs at h with hcb
    · subst hcb
      obtain rfl := Except.ok.inj h
      exact rest_of_peek hc
    · cases h

lemma escapedPoint_sound {c : Char} (h : s.escapedPoint = .ok (c, t)) (hl : Letters t.rest rest) :
    Letters (0x5c :: 0x75 :: s.rest) rest := by
  obtain ⟨⟨n, u⟩, hfour, h⟩ := bind_eq_ok h
  obtain ⟨digits, hdigits, hu⟩ := hexFour_sound hfour
  rw [hu]
  apply Letters.point hdigits
  dsimp only at h
  split_ifs at h
  · cases h
  · obtain ⟨-, rfl⟩ := Prod.mk.inj (Except.ok.inj h)
    exact hl
  · obtain ⟨v, hv, h⟩ := bind_eq_ok h
    obtain ⟨x, hx, h⟩ := bind_eq_ok h
    obtain ⟨⟨m, y⟩, hy, h⟩ := bind_eq_ok h
    obtain ⟨second, hsecond, hrest⟩ := hexFour_sound hy
    rw [pairByte_sound hv, pairByte_sound hx, hrest]
    apply Letters.point hsecond
    dsimp only at h
    split_ifs at h
    · obtain ⟨-, rfl⟩ := Prod.mk.inj (Except.ok.inj h)
      exact hl
    · cases h

lemma simpleEscape_sound (h : (simpleEscape b).isSome = true) : b ∈ escapes.map (·.1) := by
  rw [simpleEscape] at h
  split_ifs at h with hself
  · rcases hself with rfl | rfl | rfl <;> decide
  · simp_all [escapes]
  · simp_all [escapes]
  · simp_all [escapes]
  · simp_all [escapes]
  · simp_all [escapes]
  · cases h

lemma escape_sound {bytes : List UInt8} (h : s.escape = .ok (bytes, t))
    (hl : Letters t.rest rest) : Letters (0x5c :: s.rest) rest := by
  rw [escape] at h
  split at h
  · cases h
  · next b hb =>
    rw [rest_of_peek hb]
    split at h
    · next c hc =>
      obtain ⟨-, rfl⟩ := Prod.mk.inj (Except.ok.inj h)
      exact .letter (simpleEscape_sound (by rw [hc]; rfl)) hl
    · split_ifs at h with hu
      · subst hu
        obtain ⟨⟨c, u⟩, hpoint, h⟩ := bind_eq_ok h
        obtain ⟨-, rfl⟩ := Prod.mk.inj (Except.ok.inj h)
        exact escapedPoint_sound hpoint hl
      · cases h

lemma passEscape_sound (h : s.passEscape = .ok t) (hl : Letters t.rest rest) :
    Letters (0x5c :: s.rest) rest := by
  rw [passEscape] at h
  split at h
  · cases h
  · next b hb =>
    rw [rest_of_peek hb]
    split_ifs at h with hc hu
    · obtain rfl := Except.ok.inj h
      exact .letter (simpleEscape_sound hc) hl
    · subst hu
      cases hfour : s.next.hexFour with
      | error fault =>
        rw [hfour] at h
        cases h
      | ok p =>
        obtain ⟨n, u⟩ := p
        rw [hfour] at h
        obtain rfl := Except.ok.inj h
        obtain ⟨digits, hdigits, hu⟩ := hexFour_sound hfour
        rw [hu]
        exact .point hdigits hl
    · cases h

lemma stringBytes_sound {acc bytes : List UInt8} {fuel : ℕ}
    (h : s.stringBytes acc fuel = .ok (bytes, t)) : Letters s.rest t.rest := by
  induction fuel generalizing s acc with
  | zero => cases h
  | succ fuel ih =>
    rw [stringBytes] at h
    split at h
    · cases h
    · next b hb =>
      rw [rest_of_peek hb]
      split_ifs at h with hquote hslash hcontrol
      · subst hquote
        obtain ⟨-, rfl⟩ := Prod.mk.inj (Except.ok.inj h)
        exact .close
      · subst hslash
        obtain ⟨⟨more, u⟩, hescape, h⟩ := bind_eq_ok h
        exact escape_sound hescape (ih h)
      · cases h
      · exact .plain hquote hslash hcontrol (ih h)

lemma string_sound {text : String} (h : s.string = .ok (text, t)) : Letters s.rest t.rest := by
  obtain ⟨⟨bytes, u⟩, hbytes, h⟩ := bind_eq_ok h
  dsimp only at h
  split at h
  · obtain ⟨-, rfl⟩ := Prod.mk.inj (Except.ok.inj h)
    exact stringBytes_sound hbytes
  · cases h

lemma passStringBytes_sound {fuel : ℕ} (h : s.passStringBytes fuel = .ok t) :
    Letters s.rest t.rest := by
  induction fuel generalizing s with
  | zero => cases h
  | succ fuel ih =>
    rw [passStringBytes] at h
    split at h
    · cases h
    · next b hb =>
      rw [rest_of_peek hb]
      split_ifs at h with hquote hslash hcontrol
      · subst hquote
        obtain rfl := Except.ok.inj h
        exact .close
      · subst hslash
        obtain ⟨u, hescape, h⟩ := bind_eq_ok h
        exact passEscape_sound hescape (ih h)
      · cases h
      · exact .plain hquote hslash hcontrol (ih h)

end Strings

section Numbers

variable {negative : Bool} {n : Number} {m dropped : ℕ} {e : ℤ}

lemma spanDigits_run (w : List UInt8) : Run w (spanDigits w).2 := by
  fun_induction spanDigits w with
  | case1 => exact .nil
  | case2 b w hb ds tail heq ih =>
    rw [heq] at ih
    exact .cons hb ih
  | case3 b w hb => exact .nil

lemma digits_run (s : Scan) : Run s.rest s.digits.2.rest := spanDigits_run s.rest

lemma digits_sound (h : s.peek = some b) (hb : isDigit b = true) :
    Run s.next.rest s.digits.2.rest := by
  have hrest := rest_of_peek h
  have hspan : (spanDigits s.rest).2 = (spanDigits s.next.rest).2 := by
    rw [hrest, spanDigits, if_pos hb]
  change Run s.next.rest (spanDigits s.rest).2
  rw [hspan]
  exact spanDigits_run s.next.rest

lemma peek_of_peekDigit (h : s.peekDigit = true) : ∃ b, s.peek = some b ∧ isDigit b = true := by
  rw [peekDigit] at h
  exact (Option.any_eq_true _ _).mp h

lemma digits_of_peekDigit (h : s.peekDigit = true) : Digits s.rest s.digits.2.rest := by
  obtain ⟨b, hb, hd⟩ := peek_of_peekDigit h
  rw [rest_of_peek hb]
  exact .mk hd (digits_sound hb hd)

lemma peekDigit_of_digits (h : s.digits.1.isEmpty = false) : s.peekDigit = true := by
  rw [digits] at h
  cases hr : s.rest with
  | nil =>
    rw [hr] at h
    cases h
  | cons b w =>
    rw [peekDigit, peek_of_cons hr]
    cases hb : isDigit b with
    | true => exact hb
    | false => simp [hr, spanDigits, hb] at h

lemma sign_sound (s : Scan) : ∃ sign ∈ ([[], [0x2b], [0x2d]] : List (List UInt8)),
    s.rest = sign ++ (if s.peek == some 0x2d || s.peek == some 0x2b then s.next else s).rest := by
  split_ifs with h
  · rcases Bool.or_eq_true_iff.mp h with h | h
    · exact ⟨[0x2d], by simp, rest_of_peek_beq h⟩
    · exact ⟨[0x2b], by simp, rest_of_peek_beq h⟩
  · exact ⟨[], by simp, rfl⟩

def stop : Except Scan (ℕ × Scan) → Scan
  | .ok p => p.2
  | .error u => u

lemma exponentDigits_run (line column k : ℕ) (w : List UInt8) :
    Run w (stop (exponentDigits line column k w)).rest := by
  fun_induction exponentDigits line column k w with
  | case1 => exact .nil
  | case2 column k b w hb _ ih => exact .cons hb ih
  | case3 column k b w hb _ => exact .cons hb .nil
  | case4 column k b w _ => exact .nil

lemma exponentDigits_sound (h : s.peek = some b) (hb : isDigit b = true) (line column k : ℕ) :
    Digits s.rest (stop (exponentDigits line column k s.rest)).rest := by
  rw [rest_of_peek h, exponentDigits, if_pos hb]
  split_ifs
  · exact .mk hb (exponentDigits_run _ _ _ _)
  · exact .mk hb .nil

lemma scaled_sound (h : s.scaled negative m e = .ok (n, t)) : t = s := by
  rw [scaled] at h
  split at h
  · obtain ⟨-, rfl⟩ := Prod.mk.inj (Except.ok.inj h)
    rfl
  · cases h

lemma exponent_of_digits (he : s.peekExponent = true)
    (h : Digits (if s.next.peek == some 0x2d || s.next.peek == some 0x2b then s.next.next
      else s.next).rest rest) : Exponent s.rest rest := by
  rw [peekExponent] at he
  obtain ⟨b, hb, hletter⟩ := (Option.any_eq_true _ _).mp he
  obtain ⟨sign, hsign, hrest⟩ := sign_sound s.next
  rw [rest_of_peek hb, hrest]
  exact .digits (by simpa using hletter) hsign h

lemma exponent_sound (he : s.peekExponent = true) (h : s.exponent negative m e = .ok (n, t)) :
    Exponent s.rest t.rest := by
  apply exponent_of_digits he
  simp only [exponent] at h
  generalize (if s.next.peek == some 0x2d || s.next.peek == some 0x2b then s.next.next
    else s.next) = u at h ⊢
  split at h
  · cases h
  · next b hb =>
    by_cases hdigit : isDigit b = true
    · have hdigits := exponentDigits_sound hb hdigit u.line u.column 0
      simp only [hdigit, ↓reduceIte] at h
      cases hread : exponentDigits u.line u.column 0 u.rest with
      | ok p =>
        rw [hread] at h hdigits
        obtain rfl := scaled_sound h
        exact hdigits
      | error v =>
        rw [hread] at h hdigits
        dsimp only at h
        split_ifs at h
        · cases h
        · obtain ⟨-, rfl⟩ := Prod.mk.inj (Except.ok.inj h)
          exact hdigits.trans (digits_run v)
    · rw [if_neg hdigit] at h
      cases h

lemma fraction_sound (hp : s.peekPoint = true) (h : s.fraction negative m dropped = .ok (n, t)) :
    Tail s.rest t.rest := by
  rw [rest_of_peek_beq hp]
  rw [fraction] at h
  dsimp only at h
  by_cases hnone : s.next.digits.1.isEmpty = true
  · rw [if_pos hnone] at h
    cases h
  · have hdigits := digits_of_peekDigit (peekDigit_of_digits (eq_false_of_ne_true hnone))
    rw [if_neg hnone] at h
    split_ifs at h with he
    · exact .mk (.digits hdigits) (exponent_sound he h)
    · obtain rfl := scaled_sound h
      exact .mk (.digits hdigits) .none

lemma afterWhole_sound (h : s.afterWhole negative m dropped = .ok (n, t)) :
    Tail s.rest t.rest := by
  rw [afterWhole] at h
  split_ifs at h with hp he
  · exact fraction_sound hp h
  · exact .mk .none (exponent_sound he h)
  · obtain ⟨-, rfl⟩ := Prod.mk.inj (Except.ok.inj h)
    exact .mk .none .none
  · obtain rfl := scaled_sound h
    exact .mk .none .none

lemma number_sound (h : s.number negative = .ok (n, t)) : Unsigned s.rest t.rest := by
  rw [number] at h
  split at h
  · cases h
  · next b hb =>
    rw [rest_of_peek hb]
    split_ifs at h with hzero hdigit hdigit
    · cases h
    · subst hzero
      exact .mk .zero (afterWhole_sound h)
    · exact .mk (.digits hdigit hzero (digits_sound hb hdigit)) (afterWhole_sound h)
    · cases h

lemma passExponent_sound (he : s.peekExponent = true) (h : s.passExponent = .ok t) :
    Exponent s.rest t.rest := by
  apply exponent_of_digits he
  rw [passExponent] at h
  split_ifs at h with hsign hdigit hdigit
  · obtain rfl := Except.ok.inj h
    rw [if_pos hsign]
    exact digits_of_peekDigit hdigit
  · cases h
  · obtain rfl := Except.ok.inj h
    rw [if_neg hsign]
    exact digits_of_peekDigit hdigit
  · cases h

lemma passNumber_sound (h : s.passNumber = .ok t) : Unsigned s.rest t.rest := by
  have hexponent (u : Scan) (h : (if u.peekExponent then u.passExponent else .ok u) = .ok t) :
      Exponent u.rest t.rest := by
    split_ifs at h with he
    · exact passExponent_sound he h
    · obtain rfl := Except.ok.inj h
      exact .none
  have htail (u : Scan) (h : (if u.peekPoint then
      if u.next.digits.1.isEmpty then u.next.digits.2.failAhead .invalidNumber
      else if u.next.digits.2.peekExponent then u.next.digits.2.passExponent
      else .ok u.next.digits.2
    else if u.peekExponent then u.passExponent else .ok u) = .ok t) : Tail u.rest t.rest := by
    by_cases hp : u.peekPoint = true
    · rw [if_pos hp] at h
      rw [rest_of_peek_beq hp]
      by_cases hnone : u.next.digits.1.isEmpty = true
      · rw [if_pos hnone] at h
        cases h
      · rw [if_neg hnone] at h
        have hdigits := digits_of_peekDigit (peekDigit_of_digits (eq_false_of_ne_true hnone))
        exact .mk (.digits hdigits) (hexponent _ h)
    · rw [if_neg hp] at h
      exact .mk .none (hexponent u h)
  rw [passNumber] at h
  dsimp only at h
  by_cases hzero : (s.peek == some 0x30) = true
  · rw [if_pos hzero] at h
    rw [rest_of_peek_beq hzero]
    by_cases hnext : s.next.peekDigit = true
    · rw [if_pos hnext] at h
      cases h
    · rw [if_neg hnext] at h
      exact .mk .zero (htail s.next h)
  · rw [if_neg hzero] at h
    by_cases hdigit : s.peekDigit = true
    · rw [if_pos hdigit] at h
      obtain ⟨b, hb, hd⟩ := peek_of_peekDigit hdigit
      have hne : b ≠ 0x30 := by
        rintro rfl
        exact hzero (by rw [hb]; rfl)
      rw [rest_of_peek hb]
      exact .mk (.digits hd hne (digits_sound hb hd)) (htail s.digits.2 h)
    · rw [if_neg hdigit] at h
      cases h

end Numbers

end LedgerQuery.Json.Scan
