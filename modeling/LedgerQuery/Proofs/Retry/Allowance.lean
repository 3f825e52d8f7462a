import LedgerQuery.Retry
import Mathlib.Tactic

/-! The allowance of a retry policy: what it comes to for durations as they are kept, counted in
words of fixed width, and how a budget is used up by one unproductive attempt after the other. -/

namespace LedgerQuery

structure Duration where
  seconds : UInt64
  nanos : UInt32
  nanos_lt : nanos.toNat < Span.perSecond

namespace Duration

def span (d : Duration) : Span := ⟨d.seconds.toNat * Span.perSecond + d.nanos.toNat⟩

def word (d : Duration) : BitVec 128 :=
  d.seconds.toBitVec.setWidth 128 * 1000000000#128 + d.nanos.toBitVec.setWidth 128

def narrowed (attempts : BitVec 128) : UInt32 :=
  .ofBitVec ((if attempts < 1 then 1 else if 0xffffffff < attempts then 0xffffffff
    else attempts).setWidth 32)

def attempts (period total : Duration) : UInt32 :=
  if period.seconds = 0 ∧ period.nanos = 0 then 1 else narrowed (total.word / period.word)

lemma toNat_word (d : Duration) : d.word.toNat = d.span.nanos := by
  have hs : d.seconds.toNat < 2 ^ 64 := d.seconds.toNat_lt
  have hn := d.nanos_lt
  have hlt : d.seconds.toNat * Span.perSecond + d.nanos.toNat < 2 ^ 128 := by
    norm_num [Span.perSecond] at hs hn ⊢
    omega
  have hseconds : (d.seconds.toBitVec.setWidth 128).toNat = d.seconds.toNat :=
    BitVec.toNat_setWidth_of_le (by decide)
  have hnanos : (d.nanos.toBitVec.setWidth 128).toNat = d.nanos.toNat :=
    BitVec.toNat_setWidth_of_le (by decide)
  have hmul : (d.seconds.toBitVec.setWidth 128 * 1000000000#128).toNat =
      d.seconds.toNat * Span.perSecond := by
    rw [BitVec.toNat_mul_of_lt, hseconds]
    · rfl
    · rw [hseconds]
      exact (Nat.le_add_right _ _).trans_lt hlt
  rw [word, span, BitVec.toNat_add_of_lt, hmul, hnanos]
  rwa [hmul, hnanos]

lemma nanos_span_eq_zero {d : Duration} : d.span.nanos = 0 ↔ d.seconds = 0 ∧ d.nanos = 0 := by
  rw [← UInt64.toNat_inj, ← UInt32.toNat_inj]
  simp only [span, Span.perSecond, UInt64.toNat_zero, UInt32.toNat_zero]
  omega

lemma toNat_narrowed (attempts : BitVec 128) :
    (narrowed attempts).toNat = min RetryPolicy.maxAttempts (max 1 attempts.toNat) := by
  have hmax : RetryPolicy.maxAttempts = 4294967295 := by decide
  have hone : (1 : BitVec 128).toNat = 1 := by decide
  have hmost : (0xffffffff : BitVec 128).toNat = 4294967295 := by decide
  -- What has been brought down to 32 bits keeps its value in them.
  have hwide {b : BitVec 128} (h : b.toNat ≤ 4294967295) : (b.setWidth 32).toNat = b.toNat := by
    rw [BitVec.toNat_setWidth, Nat.mod_eq_of_lt (by omega)]
  simp only [narrowed, UInt32.toNat_ofBitVec, BitVec.lt_def, hone, hmost, hmax]
  split_ifs with hzero hbig
  · rw [hwide (by omega), hone]
    omega
  · rw [hwide hmost.le, hmost]
    omega
  · rw [hwide (by omega)]
    omega

lemma toNat_attempts (period total : Duration) :
    (attempts period total).toNat = (RetryPolicy.mk period.span total.span).attempts := by
  simp only [attempts, RetryPolicy.attempts, nanos_span_eq_zero]
  split_ifs
  · rfl
  · rw [toNat_narrowed, BitVec.toNat_udiv, toNat_word, toNat_word]

end Duration

inductive Use where
  | attempted
  | missed
deriving DecidableEq

namespace RetryBudget

def useAll (b : RetryBudget) : List Use → List RetryDecision × RetryBudget
  | [] => ([], b)
  | .attempted :: uses => b.recordAttempt.useAll uses
  | .missed :: uses => (b.spend.1 :: (b.spend.2.useAll uses).1, (b.spend.2.useAll uses).2)

lemma useAll_append (b : RetryBudget) (uses more : List Use) :
    b.useAll (uses ++ more) = ((b.useAll uses).1 ++ ((b.useAll uses).2.useAll more).1,
      ((b.useAll uses).2.useAll more).2) := by
  induction uses generalizing b with
  | nil => rfl
  | cons use uses ih => cases use <;> simp [useAll, ih]

end RetryBudget

namespace RetryPolicy

variable {p : RetryPolicy}

lemma attempts_pos (p : RetryPolicy) : 1 ≤ p.attempts := by
  have hmax : 1 ≤ maxAttempts := by decide
  unfold attempts
  split_ifs
  · exact le_rfl
  · exact le_min hmax (le_max_left _ _)

lemma spend_after (p : RetryPolicy) (n made : ℕ) :
    (RetryBudget.mk (p.attempts - 1 - n) made p.period).spend =
      (if n + 1 < p.attempts then .retryAfter p.period else .giveUp,
        ⟨p.attempts - 1 - (n + 1), made, p.period⟩) := by
  by_cases hn : n + 1 < p.attempts
  · rw [RetryBudget.spend, if_neg (by simp only; omega), if_pos hn, ← Nat.sub_sub]
  · have hleft : p.attempts - 1 - n = 0 := by omega
    rw [RetryBudget.spend, if_pos hleft, if_neg hn, ← Nat.sub_sub, hleft]

lemma useAll_budget (p : RetryPolicy) (uses : List Use) :
    p.budget.useAll uses =
      (.replicate (min (uses.count .missed) (p.attempts - 1)) (.retryAfter p.period) ++
        .replicate (uses.count .missed - (p.attempts - 1)) .giveUp,
      ⟨p.attempts - 1 - uses.count .missed, uses.count .attempted, p.period⟩) := by
  induction uses using List.reverseRecOn with
  | nil => simp [RetryBudget.useAll, budget]
  | append_singleton uses use ih =>
    rw [RetryBudget.useAll_append, ih]
    cases use with
    | attempted => simp [RetryBudget.useAll, RetryBudget.recordAttempt]
    | missed =>
      have hcount : (uses ++ [Use.missed]).count .missed = uses.count .missed + 1 := by simp
      have hmade : (uses ++ [Use.missed]).count .attempted = uses.count .attempted := by simp
      rw [hcount, hmade, RetryBudget.useAll, RetryBudget.useAll, spend_after]
      congr 1
      generalize uses.count .missed = n
      by_cases hn : n + 1 < p.attempts
      · have hmin : min n (p.attempts - 1) = n ∧ min (n + 1) (p.attempts - 1) = n + 1 := by omega
        have hnone : n - (p.attempts - 1) = 0 ∧ n + 1 - (p.attempts - 1) = 0 := by omega
        simp [hn, hmin, hnone, List.replicate_succ']
      · have hmin : min n (p.attempts - 1) = p.attempts - 1 ∧
            min (n + 1) (p.attempts - 1) = p.attempts - 1 := by omega
        have hmore : n + 1 - (p.attempts - 1) = n - (p.attempts - 1) + 1 := by omega
        simp [hn, hmin, hmore, List.replicate_succ']

lemma waits_lt (hpos : 0 < p.period.nanos) (hle : p.period ≤ p.total) :
    (p.attempts - 1) * p.period.nanos < p.total.nanos := by
  have hle' : p.period.nanos ≤ p.total.nanos := hle
  have hmost : p.attempts ≤ max 1 (p.total.nanos / p.period.nanos) := by
    rw [attempts, if_neg hpos.ne']
    exact min_le_right _ _
  have hone : 1 ≤ p.total.nanos / p.period.nanos := (Nat.one_le_div_iff hpos).mpr hle'
  rw [max_eq_right hone] at hmost
  calc (p.attempts - 1) * p.period.nanos
      < p.attempts * p.period.nanos := by
        have := p.attempts_pos
        exact Nat.mul_lt_mul_of_pos_right (by omega) hpos
    _ ≤ p.total.nanos / p.period.nanos * p.period.nanos := Nat.mul_le_mul_right _ hmost
    _ ≤ p.total.nanos := Nat.div_mul_le_self _ _

structure Allows (p : RetryPolicy) : Prop where
  attempts : p.attempts = if p.period = .zero then 1
    else min (2 ^ 32 - 1) (max 1 (p.total.nanos / p.period.nanos))
  budget : p.budget.remaining + 1 = p.attempts ∧ p.budget.made = 0
  nth : ∀ (uses : List Use) (n : ℕ), uses.count .missed + 1 = n →
    let b := (p.budget.useAll uses).2
    (b.spend.1 = .retryAfter p.period ↔ n < p.attempts) ∧
      (n < p.attempts →
        0 < b.remaining ∧ b.spend.2 = { b with remaining := b.remaining - 1 }) ∧
      (p.attempts ≤ n → b.spend = (.giveUp, b))
  granted : ∀ uses : List Use, (p.budget.useAll uses).1 =
    .replicate (min (uses.count .missed) (p.attempts - 1)) (.retryAfter p.period) ++
      .replicate (uses.count .missed - (p.attempts - 1)) .giveUp
  wait : .zero < p.period → p.period ≤ p.total →
    (p.attempts - 1) * p.period.nanos < p.total.nanos

lemma allows (p : RetryPolicy) : p.Allows where
  attempts := by
    have hzero : p.period.nanos = 0 ↔ p.period = .zero :=
      ⟨fun h => congrArg Span.mk h, fun h => congrArg Span.nanos h⟩
    simp only [RetryPolicy.attempts, hzero]
    rfl
  budget := ⟨Nat.sub_add_cancel p.attempts_pos, rfl⟩
  nth := by
    rintro uses n rfl
    simp only [useAll_budget, spend_after]
    by_cases hn : uses.count .missed + 1 < p.attempts
    · have hpos : 0 < p.attempts - 1 - uses.count .missed := by omega
      rw [if_pos hn, ← Nat.sub_sub]
      exact ⟨iff_of_true rfl hn, fun _ => ⟨hpos, rfl⟩, fun h => absurd hn h.not_gt⟩
    · have hleft : p.attempts - 1 - (uses.count .missed + 1) =
          p.attempts - 1 - uses.count .missed := by omega
      rw [if_neg hn, hleft]
      exact ⟨iff_of_false nofun hn, fun h => absurd h hn, fun _ => rfl⟩
  granted uses := by rw [useAll_budget]
  wait hpos hle := waits_lt hpos hle

end RetryPolicy

/-- For all durations the words count as many attempts as the period goes into the total, and just
so many come out of the budget. -/
theorem Duration.attempts_exact (period total : Duration) :
    let p : RetryPolicy := ⟨period.span, total.span⟩
    (Duration.attempts period total).toNat = p.attempts ∧
      (Duration.attempts period total - 1).toNat = p.budget.remaining ∧ p.Allows := by
  intro p
  have hattempts := Duration.toNat_attempts period total
  refine ⟨hattempts, ?_, p.allows⟩
  have hle : (1 : UInt32) ≤ Duration.attempts period total := by
    rw [UInt32.le_iff_toNat_le, hattempts]
    exact p.attempts_pos
  rw [UInt32.toNat_sub_of_le _ _ hle, hattempts]
  rfl

end LedgerQuery
