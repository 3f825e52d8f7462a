import LedgerQuery.Json.Record
import Mathlib.Tactic

/-! What the smallest steps of a reader leave of a text, and what a reader makes of it. Lines and
columns only tell where a fault is; what is read does not depend on them. -/

namespace LedgerQuery.Json

lemma bind_eq_ok {ε α β : Type} {r : Except ε α} {f : α → Except ε β} {b : β}
    (h : r >>= f = .ok b) : ∃ a, r = .ok a ∧ f a = .ok b := by
  cases r with
  | error e => cases h
  | ok a => exact ⟨a, rfl, h⟩

def isBlank (b : UInt8) : Bool := b = 0x20 || b = 0x09 || b = 0x0a || b = 0x0d

def past (w : List UInt8) : List UInt8 := w.dropWhile isBlank

def Ends (w : List UInt8) : Prop :=
  ∀ b ∈ w.head?, Scan.isDigit b = false ∧ b ≠ 0x2e ∧ b ≠ 0x65 ∧ b ≠ 0x45

lemma length_past_le (w : List UInt8) : (past w).length ≤ w.length :=
  (List.dropWhile_suffix isBlank).length_le

lemma past_of_head {b : UInt8} {w : List UInt8} (h : isBlank b = false) :
    past (b :: w) = b :: w := by
  simp [past, h]

lemma not_blank_of_past {w body : List UInt8} {b : UInt8} (h : past w = b :: body) :
    isBlank b = false := by
  have hhead := List.head?_dropWhile_not isBlank w
  rw [show w.dropWhile isBlank = b :: body from h] at hhead
  simpa using hhead

lemma past_past (w : List UInt8) : past (past w) = past w := by
  cases h : past w with
  | nil => rfl
  | cons b body => exact past_of_head (not_blank_of_past h)

lemma ends_nil : Ends [] := nofun

lemma ends_of_blank {b : UInt8} {w : List UInt8} (h : isBlank b) : Ends (b :: w) := by
  intro c hc
  obtain rfl := Option.some.inj hc
  simp only [isBlank, Bool.or_eq_true, decide_eq_true_eq] at h
  rcases h with ((rfl | rfl) | rfl) | rfl <;> decide

lemma ends_of_past {w : List UInt8} (h : Ends (past w)) : Ends w := by
  cases w with
  | nil => exact ends_nil
  | cons b w =>
    cases hb : isBlank b with
    | true => exact ends_of_blank hb
    | false => rwa [past_of_head hb] at h

namespace Scan

variable {α β : Type} {s : Scan} {w body rest mid : List UInt8}

lemma peek_of_cons {b : UInt8} (h : s.rest = b :: w) : s.peek = some b := by rw [peek, h]; rfl

lemma peek_of_nil (h : s.rest = []) : s.peek = none := by rw [peek, h]; rfl

lemma next_rest (s : Scan) : s.next.rest = s.rest.tail := by
  unfold next
  split
  · simp_all
  · split <;> simp_all

lemma next_of_cons {b : UInt8} (h : s.rest = b :: w) : s.next.rest = w := by
  rw [next_rest, h, List.tail_cons]

lemma skip_rest (s : Scan) (n : ℕ) : (s.skip n).rest = s.rest.drop n := by
  induction n generalizing s with
  | zero => rfl
  | succ n ih => rw [skip, ih, next_rest, List.drop_tail]

lemma blanks_rest (s : Scan) : s.blanks.rest = past s.rest := by
  have hfrom (line column : ℕ) (w : List UInt8) : (blanksFrom line column w).rest = past w := by
    fun_induction blanksFrom line column w with
    | case1 => rfl
    | case2 line column w ih =>
      rw [ih, past, past, List.dropWhile_cons_of_pos (by decide)]
    | case3 line column b w hb hc ih =>
      rw [ih, past, past, List.dropWhile_cons_of_pos]
      simp only [isBlank, Bool.or_eq_true, decide_eq_true_eq]
      tauto
    | case4 line column b w hb hc =>
      rw [past_of_head]
      simp only [isBlank, Bool.or_eq_false_iff, decide_eq_false_iff_not]
      tauto
  exact hfrom s.line s.column s.rest

/-- A reader that reads this and leaves so much, or that fails if there is nothing to read. -/
def Yields (r : Except Fault (α × Scan)) (o : Option α) (rest : List UInt8) : Prop :=
  match o with
  | some a => ∃ s, r = .ok (a, s) ∧ s.rest = rest
  | none => ∃ fault, r = .error fault

def Passes (r : Except Fault Scan) (rest : List UInt8) : Prop := ∃ s, r = .ok s ∧ s.rest = rest

lemma Yields.bind {r : Except Fault (α × Scan)} {g : α × Scan → Except Fault (β × Scan)}
    {o : Option α} {f : α → Option β} (h : Yields r o mid)
    (hg : ∀ a s, o = some a → s.rest = mid → Yields (g (a, s)) (f a) rest) :
    Yields (r >>= g) (o.bind f) rest := by
  cases o with
  | none =>
    obtain ⟨fault, rfl⟩ := h
    exact ⟨fault, rfl⟩
  | some a =>
    obtain ⟨s, rfl, hs⟩ := h
    exact hg a s rfl hs

lemma Yields.then {r : Except Fault (α × Scan)} {g : α × Scan → Except Fault (β × Scan)}
    {a : α} {o : Option β} (h : Yields r (some a) mid)
    (hg : ∀ s, s.rest = mid → Yields (g (a, s)) o rest) : Yields (r >>= g) o rest := by
  obtain ⟨s, rfl, hs⟩ := h
  exact hg s hs

lemma Passes.then {r : Except Fault Scan} {g : Scan → Except Fault (β × Scan)} {o : Option β}
    (h : Passes r mid) (hg : ∀ s, s.rest = mid → Yields (g s) o rest) : Yields (r >>= g) o rest := by
  obtain ⟨s, rfl, hs⟩ := h
  exact hg s hs

lemma Passes.on {r : Except Fault Scan} {g : Scan → Except Fault Scan} (h : Passes r mid)
    (hg : ∀ s, s.rest = mid → Passes (g s) rest) : Passes (r >>= g) rest := by
  obtain ⟨s, rfl, hs⟩ := h
  exact hg s hs

lemma word_passes (letters : List UInt8) (h : s.rest = letters ++ rest) :
    Passes (s.word letters) rest := by
  induction letters generalizing s with
  | nil => exact ⟨s, rfl, h⟩
  | cons b letters ih =>
    rw [List.cons_append] at h
    rw [word, peek_of_cons h]
    simpa using ih (next_of_cons h)

lemma finish_ok (a : α) (h : past s.rest = []) : s.finish a = .ok a := by
  simp [finish, blanks_rest, h]

end Scan

end LedgerQuery.Json
