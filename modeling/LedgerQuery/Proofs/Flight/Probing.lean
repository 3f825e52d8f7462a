import LedgerQuery.Proofs.Flight.Clock
import LedgerQuery.Proofs.Retry.Allowance

/-! A query that probes until it finds something. A probe that finds nothing, for whatever reason,
is followed by the next one a period after its answer, as long as the allowance lasts. -/

namespace LedgerQuery

variable {κ τ ν : Type}

def Misses : Outcome (Option ν) → Prop
  | .ok (some _) => False
  | _ => True

lemma misses_iff {a : Outcome (Option ν)} : Misses a ↔ ∀ value, a ≠ .ok (some value) := by
  rcases a with e | _ | value
  · simp [Misses]
  · simp [Misses]
  · simp [Misses]

namespace RetryPolicy

def after (p : RetryPolicy) (made : ℕ) : RetryBudget := ⟨p.attempts - 1 - made, made, p.period⟩

lemma budget_eq (p : RetryPolicy) : p.budget = p.after 0 := rfl

def conclusion (p : RetryPolicy) : Outcome (Option ν) → Outcome ν
  | .ok (some value) => .ok value
  | _ => .error (.retryExhausted p.attempts)

lemma conclusion_of_misses (p : RetryPolicy) {a : Outcome (Option ν)} (ha : Misses a) :
    p.conclusion a = .error (.retryExhausted p.attempts) := by
  rcases a with e | _ | value
  · rfl
  · rfl
  · exact ha.elim

end RetryPolicy

def Call.attempt (p : RetryPolicy) (made : ℕ) : Call κ τ := .probe (p.after made).recordAttempt

namespace Flight

section Receive

variable {q : Query τ} {p : RetryPolicy} {delay : Span} {state : RetryState}
  {a : Outcome (Option ν)}

lemma retry_of_miss (label : String) (b : RetryBudget) (ha : Misses a) :
    let missed : Retry.Step ν × Notes := Retry.afterMiss label b
    Retry.receive label b a = (missed.1, Retry.missNote label b.made a ++ missed.2) := by
  cases a with
  | error e => rfl
  | ok found =>
    cases found with
    | none => rfl
    | some value => exact ha.elim

lemma receive_again (hq : q.plan = .probing p delay state) (ha : Misses a) {made : ℕ}
    (hm : made + 1 < p.attempts) :
    let after : Query τ × Effects κ τ ν := q.receive (.attempt p made) (.probe a)
    after.1 = q ∧ after.2.submitted = [] ∧
      after.2.scheduled = [(p.period, .probe (p.after (made + 1)))] ∧
      after.2.onward = none ∧ after.2.delivered = none := by
  have hb : ¬ p.attempts - 1 - made = 0 := by omega
  have hnext : p.after (made + 1) = ⟨p.attempts - 1 - made - 1, made + 1, p.period⟩ :=
    congrArg (RetryBudget.mk · (made + 1) p.period) (Nat.sub_sub _ made 1).symm
  rw [hnext]
  simp [Query.receive, Query.receiveProbe, Call.attempt, hq, retry_of_miss q.label _ ha,
    Retry.afterMiss, RetryBudget.spend, RetryBudget.recordAttempt, RetryPolicy.after, hb]

lemma receive_last (hq : q.plan = .probing p delay state) {made : ℕ}
    (ha : Misses a → made + 1 = p.attempts) :
    let after : Query τ × Effects κ τ ν := q.receive (.attempt p made) (.probe a)
    ((∃ ended, after.1 = { q with plan := .probing p delay ended }) ∧ after.2.submitted = [] ∧
      after.2.scheduled = [] ∧ after.2.onward = none ∧
      after.2.delivered = some ((p.conclusion a).map .value)) := by
  by_cases hm : Misses a
  · have hb : p.attempts - 1 - made = 0 := by have := ha hm; omega
    have hconclusion : p.conclusion a = .error (.retryExhausted (made + 1)) := by
      rw [ha hm, p.conclusion_of_misses hm]
    refine ⟨⟨.givenUp, ?_⟩, ?_⟩
    · simp [Query.receive, Query.receiveProbe, Call.attempt, hq, retry_of_miss q.label _ hm,
        Retry.afterMiss, RetryBudget.spend, RetryBudget.recordAttempt, RetryPolicy.after, hb]
    · simp [Query.receive, Query.receiveProbe, Call.attempt, hq, retry_of_miss q.label _ hm,
        Retry.afterMiss, RetryBudget.spend, RetryBudget.recordAttempt, RetryPolicy.after, hb,
        Query.deliver, hconclusion, Except.map]
  · cases a with
    | error e => exact absurd trivial hm
    | ok found =>
      cases found with
      | none => exact absurd trivial hm
      | some value =>
        refine ⟨⟨.succeeded, ?_⟩, ?_⟩ <;>
          simp [Query.receive, Query.receiveProbe, Call.attempt, hq, Retry.receive, Query.deliver,
            RetryPolicy.conclusion, Except.map]

lemma receive_created (hq : q.plan = .probing p delay state) (found : Option ν) :
    let after : Query τ × Effects κ τ ν := q.receive .create (.probe (.ok found))
    after.1 = q ∧ after.2.submitted = [] ∧ after.2.scheduled = [(delay, .probe p.budget)] ∧
      after.2.onward = none ∧ after.2.delivered = none := by
  simp [Query.receive, Query.receiveCreate, hq]

lemma receive_existing (hq : q.plan = .probing p delay state) (reason : String) :
    let after : Query τ × Effects κ τ ν :=
      q.receive .create (.probe (.error (.submission reason)))
    after.1 = q ∧ after.2.submitted = [] ∧ after.2.scheduled = [] ∧
      after.2.onward = some .lookup ∧ after.2.delivered = none := by
  simp [Query.receive, Query.receiveCreate, hq]

lemma receive_refused (hq : q.plan = .probing p delay state) {e : QueryError}
    (he : ∀ reason, e ≠ .submission reason) :
    let after : Query τ × Effects κ τ ν := q.receive .create (.probe (.error e))
    after.1 = q ∧ after.2.submitted = [] ∧ after.2.scheduled = [] ∧ after.2.onward = none ∧
      after.2.delivered = some (.error e) := by
  cases e with
  | submission reason => exact absurd rfl (he reason)
  | transport e => simp [Query.receive, Query.receiveCreate, hq, Query.deliver]
  | decode reason => simp [Query.receive, Query.receiveCreate, hq, Query.deliver]
  | protocol reason => simp [Query.receive, Query.receiveCreate, hq, Query.deliver]
  | invalidArgument field reason => simp [Query.receive, Query.receiveCreate, hq, Query.deliver]
  | retryExhausted attempts => simp [Query.receive, Query.receiveCreate, hq, Query.deliver]
  | abandoned => simp [Query.receive, Query.receiveCreate, hq, Query.deliver]

def lookedUp : Outcome (Option ν) → Outcome ν
  | .ok (some value) => .ok value
  | .ok none => .error (.retryExhausted 1)
  | .error e => .error e

lemma receive_lookup (q : Query τ) (a : Outcome (Option ν)) :
    let after : Query τ × Effects κ τ ν := q.receive .lookup (.probe a)
    after.1 = q ∧ after.2.submitted = [] ∧ after.2.scheduled = [] ∧ after.2.onward = none ∧
      after.2.delivered = some ((lookedUp a).map .value) := by
  cases a with
  | error e => simp [Query.receive, Query.receiveLookup, Query.deliver, lookedUp, Except.map]
  | ok found =>
    cases found <;> simp [Query.receive, Query.receiveLookup, Query.deliver, lookedUp, Except.map]

end Receive

end Flight

structure Exchange (α : Type) where
  asked : Span
  heard : Span
  answer : α

abbrev Hearing (ν : Type) := Exchange (Outcome (Option ν))

namespace Exchange

variable {α β : Type}

def map (f : α → β) (h : Exchange α) : Exchange β := ⟨h.asked, h.heard, f h.answer⟩

def dueAfter (period : Span) : Option Span → List (Exchange α) → Option Span
  | due, [] => due
  | _, h :: rest => dueAfter period (some (h.heard + period)) rest

/-- Each probe is made when it is due: the first if there is a time for it, each other one a period
after the answer to the one before. -/
def Paced (period : Span) : Option Span → List (Exchange α) → Prop
  | _, [] => True
  | due, h :: rest =>
    (∀ d, due = some d → h.asked = d) ∧ Paced period (some (h.heard + period)) rest

lemma dueAfter_snoc (period : Span) (due : Option Span) (probes : List (Exchange α))
    (h : Exchange α) : dueAfter period due (probes ++ [h]) = some (h.heard + period) := by
  induction probes generalizing due with
  | nil => rfl
  | cons g probes ih => exact ih _

lemma paced_snoc {period : Span} {due : Option Span} {probes : List (Exchange α)} {h : Exchange α} :
    Paced period due (probes ++ [h]) ↔
      Paced period due probes ∧ ∀ d, dueAfter period due probes = some d → h.asked = d := by
  induction probes generalizing due with
  | nil => simp [Paced, dueAfter]
  | cons g probes ih =>
    simp only [List.cons_append, Paced, dueAfter, ih]
    exact and_assoc.symm

lemma paced_map {period : Span} {due : Option Span} {probes : List (Exchange α)} (f : α → β) :
    Paced period due (probes.map (map f)) ↔ Paced period due probes := by
  induction probes generalizing due with
  | nil => rfl
  | cons h probes ih => exact and_congr_right fun _ => ih

end Exchange

namespace Clocked

open Flight Exchange

def AnswersProbes (admits : Call κ τ → Answer τ ν → Prop) : Prop :=
  ∀ call answer, (∀ c p, call ≠ .page c p) → admits call answer → ∃ a, answer = .probe a

namespace Log

def probed (before : Log κ τ ν) (p : RetryPolicy) (probes : List (Hearing ν)) : Log κ τ ν where
  sent := before.sent ++ probes.zipIdx.map fun x => (x.1.asked, .attempt p x.2)
  heard := before.heard ++ probes.map fun h => (h.heard, .probe h.answer)
  schedules := before.schedules ++ probes.map fun h => (h.heard, p.period)
  delivered := before.delivered

end Log

structure Pursuit (admits : Call κ τ → Answer τ ν → Prop) (p : RetryPolicy) (first : Option Span)
    (probes : List (Hearing ν)) : Prop where
  paced : Paced p.period first probes
  misses : ∀ h ∈ probes, Misses h.answer
  admitted : ∀ h ∈ probes, ∃ b, admits (.probe b) (.probe h.answer)
  left : probes.length < p.attempts

inductive Probing (admits : Call κ τ → Answer τ ν → Prop) (p : RetryPolicy) (first : Option Span)
    (before : Log κ τ ν) : Clocked κ τ → Log κ τ ν → Prop
  | waiting {s : Clocked κ τ} {delay : Span} {probes : List (Hearing ν)} :
      Pursuit admits p first probes → s.query.plan = .probing p delay .attempting →
      s.tasks = {(dueAfter p.period first probes, .probe (p.after probes.length))} →
      s.calls = 0 → (∀ d, dueAfter p.period first probes = some d → s.now ≤ d) →
      Probing admits p first before s (before.probed p probes)
  | asking {s : Clocked κ τ} {delay : Span} {probes : List (Hearing ν)} {t : Span} :
      Pursuit admits p first probes → s.query.plan = .probing p delay .attempting →
      s.tasks = 0 → s.calls = {.attempt p probes.length} →
      (∀ d, dueAfter p.period first probes = some d → t = d) →
      Probing admits p first before s
        ((before.probed p probes).add (t, .begun (.attempt p probes.length)))
  | ended {s : Clocked κ τ} {delay : Span} {probes : List (Hearing ν)} {last : Hearing ν}
      {state : RetryState} {log : Log κ τ ν} :
      Pursuit admits p first probes → s.query.plan = .probing p delay state →
      s.tasks = 0 → s.calls = 0 → Paced p.period first (probes ++ [last]) →
      (∃ b, admits (.probe b) (.probe last.answer)) →
      (Misses last.answer → probes.length + 1 = p.attempts) →
      log.sent = (before.probed p (probes ++ [last])).sent →
      log.heard = (before.probed p (probes ++ [last])).heard →
      log.schedules = (before.probed p probes).schedules →
      log.delivered =
        before.delivered ++ [(last.heard, (p.conclusion last.answer).map .value)] →
      Probing admits p first before s log

section Steps

variable {admits : Call κ τ → Answer τ ν → Prop} {p : RetryPolicy} {first : Option Span}
  {before log : Log κ τ ν} {s t : Clocked κ τ} {moment : Span × Turn κ τ ν}
  {probes : List (Hearing ν)} {h : Hearing ν}

lemma probed_snoc (before : Log κ τ ν) (p : RetryPolicy) (probes : List (Hearing ν))
    (h : Hearing ν) : before.probed p (probes ++ [h]) =
      { sent := (before.probed p probes).sent ++
          [(h.asked, .attempt p probes.length)]
        heard := (before.probed p probes).heard ++ [(h.heard, .probe h.answer)]
        schedules := (before.probed p probes).schedules ++ [(h.heard, p.period)]
        delivered := (before.probed p probes).delivered } := by
  simp [Log.probed, List.zipIdx_append]

lemma Pursuit.snoc (hp : Pursuit admits p first probes)
    (ht : ∀ d, dueAfter p.period first probes = some d → h.asked = d) (hm : Misses h.answer)
    (ha : ∃ b, admits (.probe b) (.probe h.answer)) (hl : probes.length + 1 < p.attempts) :
    Pursuit admits p first (probes ++ [h]) := by
  refine ⟨paced_snoc.mpr ⟨hp.paced, ht⟩, fun g hg => ?_, fun g hg => ?_, by simpa using hl⟩
  · rcases List.mem_append.mp hg with hg | hg
    · exact hp.misses g hg
    · rwa [List.mem_singleton.mp hg]
  · rcases List.mem_append.mp hg with hg | hg
    · exact hp.admitted g hg
    · rwa [List.mem_singleton.mp hg]

section Answered

variable {delay asked now : Span} {a : Outcome (Option ν)}

lemma Probing.concluded (hp : Pursuit admits p first probes)
    (hq : s.query.plan = .probing p delay .attempting) (ht : s.tasks = 0)
    (hd : ∀ d, dueAfter p.period first probes = some d → asked = d)
    (ha : ∃ b, admits (.probe b) (.probe a)) (hl : Misses a → probes.length + 1 = p.attempts) :
    Probing admits p first before
      (s.settle now (.attempt p probes.length) (.probe a : Answer τ ν) 0)
      (((before.probed p probes).add (asked, .begun (.attempt p probes.length))).add
        (now, .answered (.attempt p probes.length) (.probe a)
          (s.query.receive (.attempt p probes.length) (.probe a)).2)) := by
  obtain ⟨⟨state, hquery⟩, hsub, hsched, honward, hdel⟩ := receive_last (κ := κ) hq hl
  let call : Call κ τ := .attempt p probes.length
  let after := s.settle now call (.probe a : Answer τ ν) 0
  have hplan : after.query.plan = .probing p delay state := by simp [after, call, settle, hquery]
  have htasks : after.tasks = 0 := by simp [after, call, settle, hsub, hsched, handedOut, ht]
  have hcalls : after.calls = 0 := by simp [after, call, settle, honward]
  have hpaced : Paced p.period first (probes ++ [⟨asked, now, a⟩]) :=
    paced_snoc.mpr ⟨hp.paced, hd⟩
  refine .ended hp hplan htasks hcalls hpaced ha hl ?_ ?_ ?_ ?_
  · simp [Log.add, honward, probed_snoc]
  · simp [Log.add, probed_snoc]
  · simp [Log.add, hsched]
  · simp [Log.add, hdel, Log.probed]

lemma Probing.continued (hp : Pursuit admits p first probes)
    (hq : s.query.plan = .probing p delay .attempting) (ht : s.tasks = 0)
    (hd : ∀ d, dueAfter p.period first probes = some d → asked = d)
    (ha : ∃ b, admits (.probe b) (.probe a)) (hm : Misses a)
    (hl : probes.length + 1 < p.attempts) :
    Probing admits p first before
      (s.settle now (.attempt p probes.length) (.probe a : Answer τ ν) 0)
      (((before.probed p probes).add (asked, .begun (.attempt p probes.length))).add
        (now, .answered (.attempt p probes.length) (.probe a)
          (s.query.receive (.attempt p probes.length) (.probe a)).2)) := by
  obtain ⟨hquery, hsub, hsched, honward, hdel⟩ := receive_again (κ := κ) hq hm hl
  have hdue := dueAfter_snoc p.period first probes ⟨asked, now, a⟩
  have hlog : ((before.probed p probes).add (asked, .begun (.attempt p probes.length))).add
      (now, .answered (.attempt p probes.length) (.probe a)
        (s.query.receive (.attempt p probes.length) (.probe a)).2) =
      before.probed p (probes ++ [⟨asked, now, a⟩]) := by
    rw [probed_snoc]
    simp [Log.add, honward, hsched, hdel]
  rw [hlog]
  refine .waiting (hp.snoc hd hm ha hl) (by rw [settle, hquery, hq]) ?_ ?_ fun d hd => ?_
  · simp [settle, hsub, hsched, handedOut, ht, hdue]
  · simp [settle, honward]
  · rw [hdue] at hd
    rw [← Option.some.inj hd]
    exact Span.le_add_right now p.period

end Answered

lemma Probing.step (ha : AnswersProbes admits) (h : Probing admits p first before s log)
    (hs : Step admits s moment t) : Probing admits p first before t (log.add moment) := by
  cases h with
  | waiting hp hq ht hc hnow =>
    obtain ⟨now, rfl, hdue, rfl⟩ := hs.of_task ht hc
    exact .asking hp hq rfl rfl hdue
  | @asking delay probes asked hp hq ht hc hd =>
    obtain ⟨now, answer, hadmits, rfl, rfl⟩ := hs.of_call ht hc
    obtain ⟨a, rfl⟩ := ha _ _ (by simp [Call.attempt]) hadmits
    -- The query ends with a find or with its last attempt.
    by_cases hl : Misses a → probes.length + 1 = p.attempts
    · exact .concluded hp hq ht hd ⟨_, hadmits⟩ hl
    · rw [Classical.not_imp] at hl
      have hlt := hp.left
      exact .continued hp hq ht hd ⟨_, hadmits⟩ hl.1 (by omega)
  | ended hp hq ht hc => exact absurd ⟨ht, hc⟩ hs.not_idle

end Steps

end Clocked

end LedgerQuery
