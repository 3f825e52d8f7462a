import LedgerQuery.Proofs.Flight.Probing

/-! A query that creates something and waits until it can be seen. The answer to the creation
decides whether it goes on with probes, with a single lookup, or not at all. -/

namespace LedgerQuery

variable {κ τ ν : Type}

namespace Clocked

open Flight Exchange

def Log.made (t u delay : Span) (found : Option ν) : Log κ τ ν where
  sent := [(t, .create)]
  heard := [(u, .probe (.ok found))]
  schedules := [(u, delay)]

inductive Creating (admits : Call κ τ → Answer τ ν → Prop) (p : RetryPolicy) (delay : Span) :
    Clocked κ τ → Log κ τ ν → Prop
  | queued {s : Clocked κ τ} : s.query.plan = .probing p delay .attempting →
      s.tasks = {(none, .create)} → s.calls = 0 → Creating admits p delay s {}
  | posting {s : Clocked κ τ} {t : Span} : s.query.plan = .probing p delay .attempting →
      s.tasks = 0 → s.calls = {.create} → Creating admits p delay s { sent := [(t, .create)] }
  | looking {s : Clocked κ τ} {t u : Span} {reason : String} : s.tasks = 0 →
      s.calls = {.lookup} → admits .create (.probe (.error (.submission reason))) →
      Creating admits p delay s
        { sent := [(t, .create), (u, .lookup)]
          heard := [(u, .probe (.error (.submission reason)))] }
  | found {s : Clocked κ τ} {t u v : Span} {reason : String} {a : Outcome (Option ν)} :
      s.tasks = 0 → s.calls = 0 → admits .create (.probe (.error (.submission reason))) →
      admits .lookup (.probe a) →
      Creating admits p delay s
        { sent := [(t, .create), (u, .lookup)]
          heard := [(u, .probe (.error (.submission reason))), (v, .probe a)]
          delivered := [(v, (lookedUp a).map .value)] }
  | refused {s : Clocked κ τ} {t u : Span} {e : QueryError} : s.tasks = 0 → s.calls = 0 →
      admits .create (.probe (.error e)) → (∀ reason, e ≠ .submission reason) →
      Creating admits p delay s
        { sent := [(t, .create)], heard := [(u, .probe (.error e))], delivered := [(u, .error e)] }
  | created {s : Clocked κ τ} {t u : Span} {found : Option ν} {log : Log κ τ ν} :
      admits .create (.probe (.ok found)) →
      Probing admits p (some (u + delay)) (.made t u delay found) s log →
      Creating admits p delay s log

section Steps

variable {admits : Call κ τ → Answer τ ν → Prop} {p : RetryPolicy} {delay : Span}
  {log : Log κ τ ν} {s t : Clocked κ τ} {moment : Span × Turn κ τ ν}
  {moments : List (Span × Turn κ τ ν)}

lemma Creating.answered (hq : s.query.plan = .probing p delay .attempting) (ht : s.tasks = 0)
    (asked now : Span) {a : Outcome (Option ν)} (ha : admits .create (.probe a)) :
    Creating admits p delay (s.settle now .create (.probe a : Answer τ ν) 0)
      (Log.add { sent := [(asked, .create)] }
        (now, .answered .create (.probe a) (s.query.receive .create (.probe a)).2)) := by
  cases a with
  | ok found =>
    obtain ⟨hquery, hsub, hsched, honward, hdel⟩ := receive_created (κ := κ) hq found
    refine .created (t := asked) (u := now) ha ?_
    have hlog : Log.add { sent := [(asked, .create)] }
        (now, .answered .create (.probe (.ok found))
          (s.query.receive .create (.probe (.ok found))).2) =
        (Log.made asked now delay found : Log κ τ ν).probed p [] := by
      simp [Log.add, Log.made, Log.probed, honward, hsched, hdel]
    rw [hlog]
    refine .waiting ⟨trivial, by simp, by simp, p.attempts_pos⟩ (by rw [settle, hquery, hq]) ?_ ?_
      fun d hd => ?_
    · simp [settle, hsub, hsched, handedOut, ht, dueAfter, p.budget_eq]
    · simp [settle, honward]
    · obtain rfl : now + delay = d := Option.some.inj hd
      exact Span.le_add_right now delay
  | error e =>
    by_cases he : ∃ reason, e = .submission reason
    · obtain ⟨reason, rfl⟩ := he
      obtain ⟨-, hsub, hsched, honward, hdel⟩ := receive_existing (κ := κ) (ν := ν) hq reason
      simp only [Log.add, honward, hsched, hdel]
      refine .looking ?_ ?_ ha
      · simp [settle, hsub, hsched, handedOut, ht]
      · simp [settle, honward]
    · have he : ∀ reason, e ≠ .submission reason := fun reason hr => he ⟨reason, hr⟩
      obtain ⟨-, hsub, hsched, honward, hdel⟩ := receive_refused (κ := κ) (ν := ν) hq he
      simp only [Log.add, honward, hsched, hdel]
      refine .refused ?_ ?_ ha he
      · simp [settle, hsub, hsched, handedOut, ht]
      · simp [settle, honward]

lemma Creating.step (ha : AnswersProbes admits) (h : Creating admits p delay s log)
    (hs : Step admits s moment t) : Creating admits p delay t (log.add moment) := by
  cases h with
  | queued hq ht hc =>
    obtain ⟨now, rfl, -, rfl⟩ := hs.of_task ht hc
    exact .posting hq rfl rfl
  | @posting asked hq ht hc =>
    obtain ⟨now, answer, hadmits, rfl, rfl⟩ := hs.of_call ht hc
    obtain ⟨a, rfl⟩ := ha _ _ (by simp) hadmits
    exact .answered hq ht asked now hadmits
  | looking ht hc hexists =>
    obtain ⟨now, answer, hadmits, rfl, rfl⟩ := hs.of_call ht hc
    obtain ⟨a, rfl⟩ := ha _ _ (by simp) hadmits
    obtain ⟨-, hsub, hsched, honward, hdel⟩ := receive_lookup (κ := κ) s.query a
    simp only [Log.add, honward, hsched, hdel]
    refine .found ?_ ?_ hexists hadmits
    · simp [settle, hsub, hsched, handedOut, ht]
    · simp [settle, honward]
  | found ht hc => exact absurd ⟨ht, hc⟩ hs.not_idle
  | refused ht hc => exact absurd ⟨ht, hc⟩ hs.not_idle
  | created hcreated hprobing => exact .created hcreated (hprobing.step ha hs)

lemma Creating.run (ha : AnswersProbes admits) (h : Creating admits p delay s {})
    (hr : Run admits s moments t) : Creating admits p delay t (Log.of moments) := by
  induction hr with
  | nil => exact h
  | snoc _ hs ih =>
    rw [Log.of_snoc]
    exact ih.step ha hs

lemma creating_clocked (label : String) (p : RetryPolicy) (delay now : Span) :
    Creating admits p delay ((Launch.createAndAwait label p delay).clocked now : Clocked κ τ) {} :=
  .queued rfl rfl rfl

end Steps

section Facts

variable {admits : Call κ τ → Answer τ ν → Prop} {p : RetryPolicy} {delay : Span}
  {first : Option Span} {before log : Log κ τ ν} {s : Clocked κ τ} {probes : List (Hearing ν)}
  {moments : List (Span × Turn κ τ ν)}

lemma length_le_log (moments : List (Span × Turn κ τ ν)) :
    moments.length ≤ (Log.of moments).sent.length + (Log.of moments).heard.length := by
  induction moments using List.reverseRecOn with
  | nil => simp
  | append_singleton moments moment ih =>
    obtain ⟨t, turn⟩ := moment
    rw [Log.of_snoc]
    cases turn with
    | begun call => simp [Log.add]; omega
    | answered call answer effects => simp [Log.add]; omega

lemma length_probed (before : Log κ τ ν) (p : RetryPolicy) (probes : List (Hearing ν)) :
    (before.probed p probes).sent.length = before.sent.length + probes.length ∧
      (before.probed p probes).heard.length = before.heard.length + probes.length := by
  simp [Log.probed]

lemma Probing.length_le (h : Probing admits p first before s log) :
    log.sent.length ≤ before.sent.length + p.attempts ∧
      log.heard.length ≤ before.heard.length + p.attempts := by
  cases h with
  | @waiting _ probes hp =>
    obtain ⟨hsent, hheard⟩ := length_probed before p probes
    have hleft := hp.left
    omega
  | @asking _ probes t hp =>
    obtain ⟨hsent, hheard⟩ := length_probed before p probes
    have hleft := hp.left
    simp only [Log.add, List.length_append, List.length_singleton]
    omega
  | @ended _ probes last _ _ hp _ _ _ _ _ _ hs hh =>
    obtain ⟨hsent, hheard⟩ := length_probed before p (probes ++ [last])
    have hleft := hp.left
    rw [hs, hh, hsent, hheard, List.length_append, List.length_singleton]
    omega

lemma Creating.length_le (h : Creating admits p delay s log) :
    log.sent.length ≤ p.attempts + 1 ∧ log.heard.length ≤ p.attempts + 1 := by
  have hpos := p.attempts_pos
  cases h with
  | created _ hprobing =>
    have hle := hprobing.length_le
    simp only [Log.made, List.length_singleton] at hle
    omega
  | queued => simp
  | posting => simp
  | looking => simp; omega
  | found => simp; omega
  | refused => simp

lemma Probing.sent (h : Probing admits p first before s log) :
    ∃ more, log.sent = before.sent ++ more ∧ ∀ sent ∈ more, ∃ k, sent.2 = .attempt p k := by
  have hprobed (probes : List (Hearing ν)) :
      ∀ sent ∈ probes.zipIdx.map fun x => (x.1.asked, (Call.attempt p x.2 : Call κ τ)),
        ∃ k, sent.2 = .attempt p k := by
    intro sent hs
    obtain ⟨⟨h, k⟩, -, rfl⟩ := List.mem_map.mp hs
    exact ⟨k, rfl⟩
  cases h with
  | @waiting _ probes => exact ⟨_, rfl, hprobed probes⟩
  | @asking _ probes t =>
    refine ⟨_, List.append_assoc _ _ _, fun sent hs => ?_⟩
    rcases List.mem_append.mp hs with hs | hs
    · exact hprobed probes sent hs
    · obtain rfl := List.mem_singleton.mp hs
      exact ⟨_, rfl⟩
  | @ended _ probes last _ _ _ _ _ _ _ _ _ hs => exact ⟨_, hs, hprobed (probes ++ [last])⟩

lemma step_of_task {due : Option Span} {task : Task κ τ} (ht : s.tasks = {(due, task)})
    (hd : ∀ d, due = some d → s.now ≤ d) :
    ∃ (moment : Span × Turn κ τ ν) (t : Clocked κ τ), Step admits s moment t := by
  have htasks : s.tasks = (due, task) ::ₘ 0 := ht
  cases due with
  | none => exact ⟨_, _, .begin htasks ⟨Span.le_refl s.now, by simp⟩ nofun⟩
  | some d => exact ⟨_, _, .begin htasks ⟨hd d rfl, by simp⟩ fun _ h => Option.some.inj h⟩

lemma step_of_call {call : Call κ τ} (ht : s.tasks = 0) (hc : s.calls = {call})
    (ha : ∃ answer, admits call answer) :
    ∃ (moment : Span × Turn κ τ ν) (t : Clocked κ τ), Step admits s moment t := by
  obtain ⟨answer, ha⟩ := ha
  have hcalls : s.calls = call ::ₘ 0 := hc
  exact ⟨_, _, .answer hcalls ⟨Span.le_refl s.now, by simp [ht]⟩ ha⟩

lemma Probing.goes_on (h : Probing admits p first before s log) (hs : ¬ s.Idle)
    (ha : ∀ call, ∃ answer, admits call answer) (hb : before.delivered = []) :
    log.delivered = [] ∧
      ∃ (moment : Span × Turn κ τ ν) (t : Clocked κ τ), Step admits s moment t := by
  cases h with
  | waiting _ _ ht _ hnow => exact ⟨hb, step_of_task ht hnow⟩
  | asking _ _ ht hc => exact ⟨hb, step_of_call ht hc (ha _)⟩
  | ended _ _ ht hc => exact absurd ⟨ht, hc⟩ hs

lemma Creating.goes_on (h : Creating admits p delay s log) (hs : ¬ s.Idle)
    (ha : ∀ call, ∃ answer, admits call answer) :
    log.delivered = [] ∧
      ∃ (moment : Span × Turn κ τ ν) (t : Clocked κ τ), Step admits s moment t := by
  cases h with
  | queued _ ht => exact ⟨rfl, step_of_task ht nofun⟩
  | posting _ ht hc => exact ⟨rfl, step_of_call ht hc (ha _)⟩
  | looking ht hc => exact ⟨rfl, step_of_call ht hc (ha _)⟩
  | found ht hc => exact absurd ⟨ht, hc⟩ hs
  | refused ht hc => exact absurd ⟨ht, hc⟩ hs
  | created _ hprobing => exact hprobing.goes_on hs ha rfl

lemma Probing.lone (h : Probing admits p first before s log) : s.Lone := by
  cases h with
  | waiting _ _ ht hc => simp [Lone, ht, hc]
  | asking _ _ ht hc => simp [Lone, ht, hc]
  | ended _ _ ht hc => simp [Lone, ht, hc]

lemma Creating.lone (h : Creating admits p delay s log) : s.Lone := by
  cases h with
  | queued _ ht hc => simp [Lone, ht, hc]
  | posting _ ht hc => simp [Lone, ht, hc]
  | looking ht hc => simp [Lone, ht, hc]
  | found ht hc => simp [Lone, ht, hc]
  | refused ht hc => simp [Lone, ht, hc]
  | created _ hprobing => exact hprobing.lone

lemma Creating.in_order {s₀ : Clocked κ τ} (ha : AnswersProbes admits)
    (h : Creating admits p delay s₀ {}) (hc : s₀.calls = 0) (hr : Run admits s₀ moments s)
    (hs : s.Idle) :
    (Log.of moments).sent.map (·.2) = (replies moments).map (·.2.1) := by
  obtain ⟨waiting, hw, hsent⟩ := hr.in_order hc fun _ _ hr => (h.run ha hr).lone
  have hnone : waiting = [] := (Multiset.coe_eq_zero waiting).mp (hw.symm.trans hs.2)
  rw [hsent, hnone, List.append_nil]

lemma Probing.ended_of_idle (h : Probing admits p first before s log) (hs : s.Idle) :
    ∃ probes last, Pursuit admits p first probes ∧ Paced p.period first (probes ++ [last]) ∧
      (∃ b, admits (.probe b) (.probe last.answer)) ∧
      (Misses last.answer → probes.length + 1 = p.attempts) ∧
      log = { sent := (before.probed p (probes ++ [last])).sent
              heard := (before.probed p (probes ++ [last])).heard
              schedules := (before.probed p probes).schedules
              delivered :=
                before.delivered ++ [(last.heard, (p.conclusion last.answer).map .value)] } := by
  cases h with
  | waiting _ _ ht => exact absurd (ht.symm.trans hs.1) (Multiset.singleton_ne_zero _)
  | asking _ _ _ hc => exact absurd (hc.symm.trans hs.2) (Multiset.singleton_ne_zero _)
  | @ended _ probes last _ log hp _ _ _ hpaced hadmits hlast hsent hheard hsched hdel =>
    refine ⟨probes, last, hp, hpaced, hadmits, hlast, ?_⟩
    rw [← hsent, ← hheard, ← hsched, ← hdel]

end Facts

end Clocked

end LedgerQuery
