import LedgerQuery.Proofs.Flight.Course
import LedgerQuery.Proofs.Flight.Probing

/-! A creation on its way, in any order of turns and without their times. Whatever it waits for it
waits for alone; when that is cancelled, the creation itself and the single lookup fail with it,
while a probe has only been in vain. -/

namespace LedgerQuery

variable {κ τ ν : Type}

namespace Flight

open Clocked (AnswersProbes)

def pursued (p : RetryPolicy) (made : ℕ) : List (Call κ τ) :=
  .create :: (List.range made).map (.attempt p)

inductive Underway (p : RetryPolicy) (delay : Span) : List (Turn κ τ ν) → Flight κ τ → Prop
  | queued {s : Flight κ τ} : s.query.plan = .probing p delay .attempting →
      s.tasks = {.create} → s.calls = 0 → Underway p delay [] s
  | posting {turns : List (Turn κ τ ν)} {s : Flight κ τ} :
      s.query.plan = .probing p delay .attempting → s.tasks = 0 → s.calls = {.create} →
      callsMade turns = pursued p 0 → deliveries turns = [] → Underway p delay turns s
  | looking {turns : List (Turn κ τ ν)} {s : Flight κ τ} : s.tasks = 0 → s.calls = {.lookup} →
      deliveries turns = [] → Underway p delay turns s
  | waiting {turns : List (Turn κ τ ν)} {s : Flight κ τ} {made : ℕ} :
      s.query.plan = .probing p delay .attempting → made < p.attempts →
      s.tasks = {.probe (p.after made)} → s.calls = 0 → callsMade turns = pursued p made →
      deliveries turns = [] → Underway p delay turns s
  | asking {turns : List (Turn κ τ ν)} {s : Flight κ τ} {made : ℕ} :
      s.query.plan = .probing p delay .attempting → made < p.attempts → s.tasks = 0 →
      s.calls = {.attempt p made} → callsMade turns = pursued p (made + 1) →
      deliveries turns = [] → Underway p delay turns s
  | ended {turns : List (Turn κ τ ν)} {s : Flight κ τ} : s.Idle → Underway p delay turns s

section Steps

variable {admits : Call κ τ → Answer τ ν → Prop} {p : RetryPolicy} {delay : Span}
  {turns : List (Turn κ τ ν)} {turn : Turn κ τ ν} {s t : Flight κ τ} {call : Call κ τ}
  {answer : Answer τ ν} {a : Outcome (Option ν)}

lemma Step.not_idle (h : Step admits s turn t) : ¬ s.Idle := by
  intro hs
  cases h with
  | begin ht => exact absurd (hs.1.symm.trans ht) Multiset.zero_ne_cons
  | answer hc => exact absurd (hs.2.symm.trans hc) Multiset.zero_ne_cons

lemma Step.of_task (h : Step admits s turn t) {task : Task κ τ} (ht : s.tasks = {task})
    (hc : s.calls = 0) : turn = .begun task.call ∧ t = ⟨s.query, 0, {task.call}⟩ := by
  cases h with
  | begin hs =>
    obtain ⟨rfl, rfl⟩ := (Multiset.singleton_eq_cons_iff _).mp (ht.symm.trans hs)
    exact ⟨rfl, by rw [start, hc]; rfl⟩
  | answer hs => exact absurd (hc.symm.trans hs) Multiset.zero_ne_cons

lemma Step.of_call (h : Step admits s turn t) (ht : s.tasks = 0) (hc : s.calls = {call}) :
    ∃ answer, admits call answer ∧
      turn = .answered call answer (s.query.receive call answer).2 ∧
      t = s.settle call answer 0 := by
  cases h with
  | begin hs => exact absurd (ht.symm.trans hs) Multiset.zero_ne_cons
  | answer hs hadmits =>
    obtain ⟨rfl, rfl⟩ := (Multiset.singleton_eq_cons_iff _).mp (hc.symm.trans hs)
    exact ⟨_, hadmits, rfl, rfl⟩

lemma callsMade_begun (turns : List (Turn κ τ ν)) (call : Call κ τ) :
    callsMade (turns ++ [.begun call]) = callsMade turns ++ [call] := by
  simp [callsMade, Turn.calls]

lemma deliveries_begun (turns : List (Turn κ τ ν)) (call : Call κ τ) :
    deliveries (turns ++ [.begun call]) = deliveries turns := by
  simp [deliveries_snoc, Turn.delivered]

lemma pursued_succ (p : RetryPolicy) (made : ℕ) :
    (pursued p (made + 1) : List (Call κ τ)) = pursued p made ++ [.attempt p made] := by
  simp [pursued, List.range_succ]

lemma settle_idle (ht : s.tasks = 0) (hsub : (s.query.receive call answer).2.submitted = [])
    (hsched : (s.query.receive call answer).2.scheduled = [])
    (honward : (s.query.receive call answer).2.onward = none) :
    (s.settle call answer 0).Idle := by
  refine ⟨?_, ?_⟩
  · simp [settle, Effects.tasks, hsub, hsched, ht]
  · simp [settle, honward]

lemma settle_next (ht : s.tasks = 0) (hsub : (s.query.receive call answer).2.submitted = [])
    {later : Span × Task κ τ} (hsched : (s.query.receive call answer).2.scheduled = [later])
    (honward : (s.query.receive call answer).2.onward = none) :
    (s.settle call answer 0).tasks = {later.2} ∧ (s.settle call answer 0).calls = 0 := by
  refine ⟨?_, ?_⟩
  · simp [settle, Effects.tasks, hsub, hsched, ht]
  · simp [settle, honward]

lemma Underway.created (hq : s.query.plan = .probing p delay .attempting) (ht : s.tasks = 0)
    (hmade : callsMade turns = pursued p 0) (hd : deliveries turns = [])
    (a : Outcome (Option ν)) :
    Underway p delay (turns ++ [.answered .create (.probe a)
      (s.query.receive .create (.probe a)).2]) (s.settle .create (.probe a : Answer τ ν) 0) := by
  cases a with
  | ok found =>
    obtain ⟨hquery, hsub, hsched, honward, hdel⟩ := receive_created (κ := κ) hq found
    obtain ⟨htasks, hcalls⟩ := settle_next ht hsub hsched honward
    refine .waiting (by rw [settle, hquery, hq]) p.attempts_pos htasks hcalls ?_ ?_
    · rw [callsMade_quiet _ honward, hmade]
    · simp [deliveries_snoc, Turn.delivered, hdel, hd]
  | error e =>
    by_cases he : ∃ reason, e = .submission reason
    · obtain ⟨reason, rfl⟩ := he
      obtain ⟨-, hsub, hsched, honward, hdel⟩ := receive_existing (κ := κ) (ν := ν) hq reason
      refine .looking ?_ ?_ ?_
      · simp [settle, Effects.tasks, hsub, hsched, ht]
      · simp [settle, honward]
      · simp [deliveries_snoc, Turn.delivered, hdel, hd]
    · have he : ∀ reason, e ≠ .submission reason := fun reason hr => he ⟨reason, hr⟩
      obtain ⟨-, hsub, hsched, honward, -⟩ := receive_refused (κ := κ) (ν := ν) hq he
      exact .ended (settle_idle ht hsub hsched honward)

lemma Underway.probed (hq : s.query.plan = .probing p delay .attempting) {made : ℕ}
    (hlt : made < p.attempts) (ht : s.tasks = 0) (hmade : callsMade turns = pursued p (made + 1))
    (hd : deliveries turns = []) (a : Outcome (Option ν)) :
    Underway p delay (turns ++ [.answered (.attempt p made) (.probe a)
      (s.query.receive (.attempt p made) (.probe a)).2])
      (s.settle (.attempt p made) (.probe a : Answer τ ν) 0) := by
  -- It ends with a find or with the last attempt; otherwise there is a next probe.
  by_cases hlast : Misses a → made + 1 = p.attempts
  · obtain ⟨-, hsub, hsched, honward, -⟩ := receive_last (κ := κ) hq hlast
    exact .ended (settle_idle ht hsub hsched honward)
  · obtain ⟨hmiss, hne⟩ := Classical.not_imp.mp hlast
    have hleft : made + 1 < p.attempts := by omega
    obtain ⟨hquery, hsub, hsched, honward, hdel⟩ := receive_again (κ := κ) hq hmiss hleft
    obtain ⟨htasks, hcalls⟩ := settle_next ht hsub hsched honward
    refine .waiting (by rw [settle, hquery, hq]) hleft htasks hcalls ?_ ?_
    · rw [callsMade_quiet _ honward, hmade]
    · simp [deliveries_snoc, Turn.delivered, hdel, hd]

lemma Underway.step (h : Underway p delay turns s) (ha : AnswersProbes admits)
    (hs : Step admits s turn t) : Underway p delay (turns ++ [turn]) t := by
  cases h with
  | queued hq ht hc =>
    obtain ⟨rfl, rfl⟩ := hs.of_task ht hc
    exact .posting hq rfl rfl rfl rfl
  | posting hq ht hc hmade hd =>
    obtain ⟨answer, hadmits, rfl, rfl⟩ := hs.of_call ht hc
    obtain ⟨a, rfl⟩ := ha _ _ (by simp) hadmits
    exact .created hq ht hmade hd a
  | looking ht hc =>
    obtain ⟨answer, hadmits, rfl, rfl⟩ := hs.of_call ht hc
    obtain ⟨a, rfl⟩ := ha _ _ (by simp) hadmits
    obtain ⟨-, hsub, hsched, honward, -⟩ := receive_lookup (κ := κ) s.query a
    exact .ended (settle_idle ht hsub hsched honward)
  | waiting hq hlt ht hc hmade hd =>
    obtain ⟨rfl, rfl⟩ := hs.of_task ht hc
    refine .asking hq hlt rfl rfl ?_ ?_
    · rw [callsMade_begun, hmade, pursued_succ]
      rfl
    · rw [deliveries_begun, hd]
  | asking hq hlt ht hc hmade hd =>
    obtain ⟨answer, hadmits, rfl, rfl⟩ := hs.of_call ht hc
    obtain ⟨a, rfl⟩ := ha _ _ (by simp [Call.attempt]) hadmits
    exact .probed hq hlt ht hmade hd a
  | ended hidle => exact absurd hidle hs.not_idle

lemma Underway.run (h : Underway p delay ([] : List (Turn κ τ ν)) s) (ha : AnswersProbes admits)
    (hr : Run admits s turns t) : Underway p delay turns t := by
  induction hr with
  | nil => exact h
  | snoc _ hs ih => exact ih.step ha hs

lemma underway_flight (label : String) (p : RetryPolicy) (delay : Span) :
    Underway p delay ([] : List (Turn κ τ ν))
      (Launch.createAndAwait label p delay : Launch κ τ).flight :=
  .queued rfl rfl rfl

end Steps

section Cancelled

variable {admits : Call κ τ → Answer τ ν → Prop} {p : RetryPolicy} {delay : Span}
  {turns : List (Turn κ τ ν)} {s t : Flight κ τ} {call : Call κ τ}

lemma Run.of_idle (h : Run admits s turns t) (hs : s.Idle) : turns = [] ∧ t = s := by
  induction h with
  | nil => exact ⟨rfl, rfl⟩
  | snoc _ hstep ih =>
    obtain ⟨-, rfl⟩ := ih
    exact absurd hs hstep.not_idle

lemma Run.of_task (h : Run admits s turns t) {task : Task κ τ} (ht : s.tasks = {task})
    (hc : s.calls = 0) : turns = [] ∧ t = s ∨ ∃ rest, turns = .begun task.call :: rest := by
  induction h with
  | nil => exact Or.inl ⟨rfl, rfl⟩
  | @snoc turns turn t u _ hstep ih =>
    rcases ih with ⟨rfl, rfl⟩ | ⟨rest, rfl⟩
    · obtain ⟨rfl, -⟩ := hstep.of_task ht hc
      exact Or.inr ⟨[], rfl⟩
    · exact Or.inr ⟨rest ++ [turn], rfl⟩

lemma Underway.refused (h : Underway p delay turns s) (hc : call ∈ s.calls)
    (hcall : call = .create ∨ call = .lookup) :
    let cancelled : Answer τ ν := .failure (.transport .cancelled) call
    s = ⟨s.query, 0, {call}⟩ ∧ deliveries turns = [] ∧ (s.settle call cancelled 0).Idle ∧
      (s.query.receive call cancelled).2.onward = none ∧
      (s.query.receive call cancelled).2.delivered = some (.error (.transport .cancelled)) := by
  cases h with
  | queued _ _ hcalls => simp [hcalls] at hc
  | posting hq htasks hcalls _ hd =>
    rw [hcalls, Multiset.mem_singleton] at hc
    subst hc
    obtain ⟨-, hsub, hsched, honward, hdel⟩ :=
      receive_refused (κ := κ) (ν := ν) (e := .transport .cancelled) hq nofun
    exact ⟨by rw [← htasks, ← hcalls], hd, settle_idle htasks hsub hsched honward, honward, hdel⟩
  | looking htasks hcalls hd =>
    rw [hcalls, Multiset.mem_singleton] at hc
    subst hc
    obtain ⟨-, hsub, hsched, honward, hdel⟩ :=
      receive_lookup (κ := κ) (ν := ν) s.query (.error (.transport .cancelled))
    exact ⟨by rw [← htasks, ← hcalls], hd, settle_idle htasks hsub hsched honward, honward, hdel⟩
  | waiting _ _ _ hcalls => simp [hcalls] at hc
  | asking _ _ _ hcalls =>
    rw [hcalls, Multiset.mem_singleton] at hc
    rcases hcall with rfl | rfl
    · cases hc
    · cases hc
  | ended hidle => simp [hidle.2] at hc

lemma Underway.attempting (h : Underway p delay turns s) {budget : RetryBudget}
    (hc : .probe budget ∈ s.calls) :
    ∃ made < p.attempts, .probe budget = (.attempt p made : Call κ τ) ∧
      s = ⟨s.query, 0, {.attempt p made}⟩ ∧ s.query.plan = .probing p delay .attempting ∧
      callsMade turns = pursued p (made + 1) ∧ deliveries turns = [] := by
  cases h with
  | queued _ _ hcalls => simp [hcalls] at hc
  | posting _ _ hcalls => simp [hcalls] at hc
  | looking _ hcalls => simp [hcalls] at hc
  | waiting _ _ _ hcalls => simp [hcalls] at hc
  | @asking _ _ made hq hlt htasks hcalls hmade hd =>
    rw [hcalls, Multiset.mem_singleton] at hc
    exact ⟨made, hlt, hc, by rw [← htasks, ← hcalls], hq, hmade, hd⟩
  | ended hidle => simp [hidle.2] at hc

end Cancelled

end Flight

end LedgerQuery
