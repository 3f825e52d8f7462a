import LedgerQuery.Proofs.Flight.Creating
import LedgerQuery.Proofs.Simulation.Pending
import LedgerQuery.Proofs.Traffic.Projection

/-! A retry loop on its own, fed with an endless stream of answers that come after any delays. It
probes up to the first answer that finds something, or as often as its policy allows. -/

namespace LedgerQuery

variable {σ κ τ ν : Type}

def Query.retryState? (q : Query τ) : Option RetryState :=
  match q.plan with
  | .probing _ _ state => some state
  | _ => none

def RetryState.after {α : Type} : List (Outcome α) → RetryState
  | [] => .attempting
  | .ok _ :: _ => .succeeded
  | .error _ :: _ => .givenUp

/-- With the answer of this number a loop ends: it is the first that finds something, or the last
that the policy allows to ask for. -/
structure LastProbe (p : RetryPolicy) (stream : ℕ → Outcome (Option ν)) (n : ℕ) : Prop where
  misses : ∀ k < n, Misses (stream k)
  left : n < p.attempts
  last : Misses (stream n) → n + 1 = p.attempts

section Streams

variable {p : RetryPolicy} {stream : ℕ → Outcome (Option ν)} {k n : ℕ}

lemma LastProbe.le (h : LastProbe p stream n) (hm : ∀ i < k, Misses (stream i))
    (hk : k < p.attempts) : k ≤ n := by
  by_contra hlt
  have hn := h.last (hm n (by omega))
  omega

lemma LastProbe.eq (h : LastProbe p stream n) (h' : LastProbe p stream k) : k = n :=
  Nat.le_antisymm (h.le h'.misses h'.left) (h'.le h.misses h.left)

lemma exists_lastProbe (p : RetryPolicy) (stream : ℕ → Outcome (Option ν)) :
    ∃ n, LastProbe p stream n := by
  classical
  have hpos := p.attempts_pos
  have hend : ∃ n, Misses (stream n) → n + 1 = p.attempts := ⟨p.attempts - 1, fun _ => by omega⟩
  have hearlier {k : ℕ} (hk : k < Nat.find hend) : Misses (stream k) ∧ k + 1 ≠ p.attempts := by
    simpa using Nat.find_min hend hk
  refine ⟨Nat.find hend, fun k hk => (hearlier hk).1, ?_, Nat.find_spec hend⟩
  -- The attempt before the allowance is used up would have been the end.
  by_contra hlt
  have hlast : p.attempts - 1 < Nat.find hend := by omega
  exact (hearlier hlast).2 (by omega)

end Streams

section Receive

variable {q : Query τ} {p : RetryPolicy} {delay : Span}

lemma retryState?_receive (hq : q.plan = .probing p delay .attempting) (b : RetryBudget)
    (a : Outcome (Option ν)) :
    let after : Query τ × Effects κ τ ν := q.receive (.probe b) (.probe a)
    after.1.retryState? = some (.after after.2.delivered.toList) := by
  by_cases hm : Misses a
  · by_cases hb : b.remaining = 0
    · simp [Query.receive, Query.receiveProbe, hq, Flight.retry_of_miss q.label b hm,
        Retry.afterMiss, RetryBudget.spend, hb, Query.deliver, Query.retryState?,
        RetryState.after, Except.map]
    · simp [Query.receive, Query.receiveProbe, hq, Flight.retry_of_miss q.label b hm,
        Retry.afterMiss, RetryBudget.spend, hb, Query.retryState?, RetryState.after]
  · rcases a with e | _ | value
    · exact absurd trivial hm
    · exact absurd trivial hm
    · simp [Query.receive, Query.receiveProbe, hq, Retry.receive, Query.deliver,
        Query.retryState?, RetryState.after, Except.map]

end Receive

namespace Clocked

open Flight Exchange

def Heard (stream : ℕ → Outcome (Option ν)) (log : Log κ τ ν) : Prop :=
  ∃ k, log.heard.map (·.2) = (List.range k).map fun i => .probe (stream i)

section Steps

variable {admits : Call κ τ → Answer τ ν → Prop} {p : RetryPolicy} {first : Option Span}
  {log : Log κ τ ν} {s t : Clocked κ τ} {moments : List (Span × Turn κ τ ν)}
  {moment : Span × Turn κ τ ν}

def Settles (s : Clocked κ τ) (log : Log κ τ ν) : Prop :=
  s.query.retryState? = some (.after (log.delivered.map (·.2)))

lemma Probing.settles (ha : AnswersProbes admits) (h : Probing admits p first {} s log)
    (hw : Settles s log) (hs : Step admits s moment t) : Settles t (log.add moment) := by
  cases h with
  | waiting hp hq ht hc hnow =>
    obtain ⟨now, rfl, -, rfl⟩ := hs.of_task ht hc
    exact hw
  | @asking delay probes asked hp hq ht hc hd =>
    obtain ⟨now, answer, hadmits, rfl, rfl⟩ := hs.of_call ht hc
    obtain ⟨a, rfl⟩ := ha _ _ (by simp [Call.attempt]) hadmits
    have hstate := retryState?_receive (κ := κ) hq (p.after probes.length).recordAttempt a
    simpa [Settles, Log.add, Log.probed, Function.comp_def] using! hstate
  | ended hp hq ht hc => exact absurd ⟨ht, hc⟩ hs.not_idle

lemma Probing.balance (h : Probing admits p first {} s log) {b : RetryBudget}
    (hb : .probe b ∈ s.calls) :
    (∃ delay, s.query.plan = .probing p delay .attempting) ∧
      b.made + b.remaining = p.attempts := by
  cases h with
  | waiting hp hq ht hc hnow => simp [hc] at hb
  | @asking delay probes asked hp hq ht hc hd =>
    rw [hc, Multiset.mem_singleton] at hb
    obtain rfl := Call.probe.inj hb
    have hlt := hp.left
    refine ⟨⟨delay, hq⟩, ?_⟩
    simp only [RetryPolicy.after, RetryBudget.recordAttempt]
    omega
  | ended hp hq ht hc => simp [hc] at hb

lemma probing_clocked (label : String) (tracked : Bool) (p : RetryPolicy) (delay : Option Span)
    (now : Span) :
    let s : Clocked κ τ := (Launch.probe label tracked p delay).clocked now
    Probing admits p (delay.map (now + ·)) ({} : Log κ τ ν) s {} := by
  have hp : Pursuit admits p (delay.map (now + ·)) [] := ⟨trivial, nofun, nofun, p.attempts_pos⟩
  cases delay with
  | none => exact .waiting hp rfl rfl rfl nofun
  | some d =>
    refine .waiting hp rfl rfl rfl ?_
    intro due hdue
    obtain rfl : now + d = due := Option.some.inj hdue
    exact Span.le_add_right now d

lemma Probing.run {s₀ : Clocked κ τ} (ha : AnswersProbes admits)
    (h : Probing admits p first {} s₀ {}) (hw : Settles s₀ ({} : Log κ τ ν))
    (hr : Run admits s₀ moments s) :
    Probing admits p first {} s (Log.of moments) ∧ Settles s (Log.of moments) := by
  induction hr with
  | nil => exact ⟨h, hw⟩
  | snoc _ hs ih =>
    rw [Log.of_snoc]
    exact ⟨ih.1.step ha hs, ih.1.settles ha ih.2 hs⟩

end Steps

section Fed

variable {admits : Call κ τ → Answer τ ν → Prop} {p : RetryPolicy} {first : Option Span}
  {stream : ℕ → Outcome (Option ν)} {s : Clocked κ τ} {log : Log κ τ ν} {n : ℕ}
  {probes : List (Hearing ν)}

lemma Heard.answers (h : Heard stream log)
    (hp : log.heard = probes.map fun h => (h.heard, .probe h.answer)) :
    probes.map (·.answer) = (List.range probes.length).map stream := by
  obtain ⟨k, hk⟩ := h
  rw [hp] at hk
  have hlength := congrArg List.length hk
  simp only [List.length_map, List.length_range] at hlength
  subst hlength
  have hinj : Function.Injective (Answer.probe : Outcome (Option ν) → Answer τ ν) :=
    fun _ _ => Answer.probe.inj
  apply List.map_injective_iff.mpr hinj
  simpa [Function.comp_def] using hk

lemma Pursuit.stream_misses (hp : Pursuit admits p first probes)
    (ha : probes.map (·.answer) = (List.range probes.length).map stream) :
    ∀ k < probes.length, Misses (stream k) := by
  intro k hk
  have hanswer : (probes.map (·.answer))[k]? = some (stream k) := by
    rw [ha, List.getElem?_map, List.getElem?_range hk, Option.map_some]
  obtain ⟨h, hh, hstream⟩ := List.mem_map.mp (List.mem_of_getElem? hanswer)
  rw [← hstream]
  exact hp.misses h hh

lemma Pursuit.length_le (hp : Pursuit admits p first probes) (hn : LastProbe p stream n)
    (ha : probes.map (·.answer) = (List.range probes.length).map stream) :
    probes.length ≤ n :=
  hn.le (hp.stream_misses ha) hp.left

lemma Pursuit.length_eq (hp : Pursuit admits p first probes) (hn : LastProbe p stream n)
    {last : Hearing ν} (hl : Misses last.answer → probes.length + 1 = p.attempts)
    (ha : (probes ++ [last]).map (·.answer) =
      (List.range (probes ++ [last]).length).map stream) : probes.length = n := by
  rw [List.length_append, List.length_singleton, List.range_succ, List.map_append,
    List.map_append] at ha
  obtain ⟨hprobes, hlast⟩ := List.append_inj' ha rfl
  have hanswer : last.answer = stream probes.length := List.singleton_inj.mp hlast
  exact hn.eq ⟨hp.stream_misses hprobes, hp.left, hanswer ▸ hl⟩

lemma Probing.fed_le (h : Probing admits p first {} s log) (hn : LastProbe p stream n)
    (hheard : Heard stream log) : log.sent.length ≤ n + 1 ∧ log.heard.length ≤ n + 1 := by
  cases h with
  | @waiting delay probes hp =>
    have hle := hp.length_le hn (hheard.answers rfl)
    simp only [Log.probed, List.nil_append, List.length_map, List.length_zipIdx]
    omega
  | @asking delay probes asked hp =>
    have hle := hp.length_le hn (hheard.answers rfl)
    simp only [Log.add, Log.probed, List.nil_append, List.length_append, List.length_map,
      List.length_zipIdx, List.length_singleton]
    omega
  | @ended delay probes last state log hp hq ht hc hpaced hb hl hsent hh =>
    have heq := hp.length_eq hn hl (hheard.answers hh)
    rw [hsent, hh]
    simp only [Log.probed, List.nil_append, List.length_append, List.length_map,
      List.length_zipIdx, List.length_singleton]
    omega

lemma Probing.fed_goes_on (h : Probing Call.Fits p first {} s log) (hs : ¬ s.Idle)
    (hheard : Heard stream log) :
    log.delivered = [] ∧ ∃ (moment : Span × Turn κ τ ν) (t : Clocked κ τ),
      Step Call.Fits s moment t ∧ Heard stream (log.add moment) := by
  cases h with
  | waiting hp hq ht hc hnow =>
    obtain ⟨moment, t, hstep⟩ : ∃ (moment : Span × Turn κ τ ν) (t : Clocked κ τ),
      Step Call.Fits s moment t := step_of_task ht hnow
    obtain ⟨now, rfl, -, -⟩ := hstep.of_task ht hc
    exact ⟨rfl, _, t, hstep, hheard⟩
  | @asking delay probes asked hp hq ht hc =>
    obtain ⟨k, hk⟩ := hheard
    have hcalls : s.calls = .attempt p probes.length ::ₘ 0 := hc
    have hfits : (Call.attempt p probes.length : Call κ τ).Fits (.probe (stream k)) := trivial
    have hlater : Allows s.now s.tasks s.now := ⟨Span.le_refl s.now, by simp [ht]⟩
    refine ⟨rfl, _, _, .answer hcalls hlater hfits, k + 1, ?_⟩
    simp only [Log.add, List.map_append, List.range_succ] at hk ⊢
    rw [hk]
    rfl
  | ended hp hq ht hc => exact absurd ⟨ht, hc⟩ hs

end Fed

/-- A retry loop that has ended with the answer of that number, and what it sent, heard, scheduled
and delivered on the way. -/
structure Concluded (p : RetryPolicy) (first : Option Span) (stream : ℕ → Outcome (Option ν))
    (n : ℕ) (log : Log κ τ ν) (probes : List (Hearing ν)) (last : Hearing ν) : Prop where
  answers : (probes ++ [last]).map (·.answer) = (List.range (n + 1)).map stream
  paced : Paced p.period first (probes ++ [last])
  sent : log.sent = (probes ++ [last]).zipIdx.map fun x => (x.1.asked, .attempt p x.2)
  heard : log.heard = (probes ++ [last]).map fun h => (h.heard, .probe h.answer)
  schedules : log.schedules = probes.map fun h => (h.heard, p.period)
  delivered : log.delivered = [(last.heard, (p.conclusion (stream n)).map .value)]

lemma Probing.concludes {p : RetryPolicy} {first : Option Span}
    {stream : ℕ → Outcome (Option ν)} {s : Clocked κ τ} {log : Log κ τ ν} {n : ℕ}
    (h : Probing Call.Fits p first {} s log) (hs : s.Idle) (hn : LastProbe p stream n)
    (hheard : Heard stream log) : ∃ probes last, Concluded p first stream n log probes last := by
  obtain ⟨probes, last, hp, hpaced, -, hl, rfl⟩ := h.ended_of_idle hs
  have hanswers : (probes ++ [last]).map (·.answer) =
      (List.range (probes ++ [last]).length).map stream := hheard.answers rfl
  obtain rfl := hp.length_eq hn hl hanswers
  have hlast : last.answer = stream probes.length := by
    rw [List.length_append, List.length_singleton, List.range_succ, List.map_append,
      List.map_append] at hanswers
    exact List.singleton_inj.mp (List.append_inj' hanswers rfl).2
  refine ⟨probes, last, ?_, hpaced, rfl, rfl, rfl, ?_⟩
  · simpa using hanswers
  · rw [hlast]
    rfl

structure Retries (p : RetryPolicy) (first : Option Span) (stream : ℕ → Outcome (Option ν))
    (n : ℕ) (moments : List (Span × Turn κ τ ν)) (s : Clocked κ τ) : Prop where
  sent : (Log.of moments).sent.length ≤ n + 1
  length : moments.length ≤ 2 * (n + 1)
  state : s.query.retryState? = some (.after ((Log.of moments).delivered.map (·.2)))
  balance : ∀ b, .probe b ∈ s.calls → b.made + b.remaining = p.attempts
  handover : ∀ {σ : Type} (sim : Simulation σ κ τ ν) (i : ℕ),
    sim.roster.queries[i]? = some s.query → ∀ b, .probe b ∈ s.calls → ∀ a,
      ∃ (found : Simulation σ κ τ ν) (q : Query τ) (delivered : Option (Outcome (Yield τ ν))),
        (sim.settle i (.probe b) (.probe a)).1 = (delivered.map (found.deliver i)).getD found ∧
        found.roster.queries[i]? = some q ∧ q.retryState? = some (.after delivered.toList)
  goes_on : ¬ s.Idle → (Log.of moments).delivered = [] ∧
    ∃ (moment : Span × Turn κ τ ν) (t : Clocked κ τ), Step Call.Fits s moment t ∧
      Heard stream (Log.of (moments ++ [moment]))
  ends : s.Idle → ∃ probes last, Concluded p first stream n (Log.of moments) probes last

lemma fits_answersProbes : AnswersProbes (Call.Fits (κ := κ) (τ := τ) (ν := ν)) := by
  intro call answer hcall h
  cases answer with
  | probe a => exact ⟨a, rfl⟩
  | page a =>
    cases call with
    | page c progress => exact absurd rfl (hcall c progress)
    | probe budget => exact h.elim
    | create => exact h.elim
    | lookup => exact h.elim

theorem retry_loop_ends_once (label : String) (tracked : Bool) (p : RetryPolicy)
    (delay : Option Span) (now : Span) (stream : ℕ → Outcome (Option ν)) :
    ∃ n, LastProbe p stream n ∧ ∀ (moments : List (Span × Turn κ τ ν)) (s : Clocked κ τ),
      Run Call.Fits ((Launch.probe label tracked p delay).clocked now) moments s →
      Heard stream (Log.of moments) → Retries p (delay.map (now + ·)) stream n moments s := by
  obtain ⟨n, hn⟩ := exists_lastProbe p stream
  refine ⟨n, hn, fun moments s hr hheard => ?_⟩
  obtain ⟨hprobing, hsettles⟩ := (probing_clocked label tracked p delay now).run
    fits_answersProbes rfl hr
  have hle := hprobing.fed_le hn hheard
  have hlength := length_le_log moments
  refine ⟨hle.1, by omega, hsettles, fun b hb => (hprobing.balance hb).2, ?_, ?_, ?_⟩
  · intro σ sim i hq b hb a
    obtain ⟨found, hfound, hsettle⟩ := sim.settle_then_deliver i (.probe b) (.probe a)
    obtain ⟨hqueries, heffects⟩ := Roster.receive_of_some hq (.probe b) (.probe a : Answer τ ν)
    have hlt := (List.getElem?_eq_some_iff.mp hq).1
    obtain ⟨⟨delay, hplan⟩, -⟩ := hprobing.balance hb
    refine ⟨found, _, _, heffects ▸ hsettle, ?_, retryState?_receive hplan b a⟩
    rw [hfound, hqueries, List.getElem?_set_self hlt]
  · intro hs
    simpa only [Log.of_snoc] using hprobing.fed_goes_on hs hheard
  · exact fun hs => hprobing.concludes hs hn hheard

def fourProbes : RetryPolicy := ⟨.ofSeconds 5, .ofSeconds 20⟩

def foundSecond : ℕ → Outcome (Option ℕ)
  | 0 => .error (.transport .cancelled)
  | _ => .ok (some 7)

theorem retry_loop_ends_once_found :
    ∃ (moments : List (Span × Turn ℕ ℕ ℕ)) (s : Clocked ℕ ℕ),
      Run Call.Fits ((Launch.probe "probe" false fourProbes (some (.ofSeconds 1))).clocked .zero)
        moments s ∧ s.Idle ∧
      (Log.of moments).schedules = [(.ofSeconds 3, .ofSeconds 5)] ∧
      (Log.of moments).delivered = [(.ofSeconds 9, .ok (.value 7))] ∧
      Retries fourProbes (some (.zero + .ofSeconds 1)) foundSecond 1 moments s := by
  have hattempts : fourProbes.attempts = 4 := by decide
  obtain ⟨n, hn, hall⟩ := retry_loop_ends_once (κ := ℕ) (τ := ℕ) "probe" false fourProbes
    (some (.ofSeconds 1)) .zero foundSecond
  have hmisses : ∀ k < 1, Misses (foundSecond k) := by
    intro k hk
    obtain rfl := Nat.lt_one_iff.mp hk
    trivial
  obtain rfl : 1 = n := hn.eq ⟨hmisses, by omega, fun h => h.elim⟩
  have h₀ : Run Call.Fits _ ([] : List (Span × Turn ℕ ℕ ℕ))
      ((Launch.probe "probe" false fourProbes (some (.ofSeconds 1))).clocked .zero) := .nil
  have h₁ := h₀.begin (.zero + .ofSeconds 1) (some (.zero + .ofSeconds 1))
    (.probe (fourProbes.after 0)) 0 rfl ⟨Nat.zero_le _, by simp⟩ fun d hd => Option.some.inj hd
  have h₂ := h₁.answer (.ofSeconds 3) (.attempt fourProbes 0) 0 (.probe (foundSecond 0)) rfl
    ⟨by decide, by simp [Clocked.start]⟩ trivial
  have h₃ := h₂.begin (.ofSeconds 3 + fourProbes.period)
    (some (.ofSeconds 3 + fourProbes.period)) (.probe (fourProbes.after 1)) 0 rfl
    ⟨Span.le_add_right _ _, by simp⟩ fun d hd => Option.some.inj hd
  have h₄ := h₃.answer (.ofSeconds 9) (.attempt fourProbes 1) 0 (.probe (foundSecond 1)) rfl
    ⟨by decide, by simp [Clocked.start]⟩ trivial
  exact ⟨_, _, h₄, ⟨rfl, rfl⟩, rfl, rfl, hall _ _ h₄ ⟨2, rfl⟩⟩

end Clocked

end LedgerQuery
