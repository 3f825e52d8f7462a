import LedgerQuery.Proofs.Flight.Retrying

/-! Loops that are started on one scheduler. Each of them has its own allowance and its own handler;
the state is that of the scheduler and shared by all of them. -/

namespace LedgerQuery

variable {κ τ ν : Type}

structure Loops (κ τ : Type) where
  query : Query τ
  started : ℕ := 0
  tasks : Multiset (ℕ × Task κ τ) := 0
  calls : Multiset (ℕ × Call κ τ) := 0

namespace Loops

inductive Event (κ τ ν : Type) where
  | started (delay : Option Span)
  | turned (i : ℕ) (turn : Turn κ τ ν)

def Event.outcome? : Event κ τ ν → Option (ℕ × Outcome (Yield τ ν))
  | started _ => none
  | turned i turn => turn.delivered.map (i, ·)

def Event.isStart : Event κ τ ν → Bool
  | started _ => true
  | turned _ _ => false

def outcomes (events : List (Event κ τ ν)) : List (ℕ × Outcome (Yield τ ν)) :=
  events.filterMap Event.outcome?

def scheduler (label : String) (policy : RetryPolicy) : Loops κ τ where
  query := (Launch.retryLoop label policy none : Launch κ τ).query

def state? (s : Loops κ τ) : Option RetryState := s.query.retryState?

def start (s : Loops κ τ) (l : Launch κ τ) : Loops κ τ :=
  { s with started := s.started + 1, tasks := l.flight.tasks.map (s.started, ·) + s.tasks }

def begin (s : Loops κ τ) (i : ℕ) (task : Task κ τ) (rest : Multiset (ℕ × Task κ τ)) :
    Loops κ τ :=
  { s with tasks := rest, calls := (i, task.call) ::ₘ s.calls }

def settle (s : Loops κ τ) (i : ℕ) (call : Call κ τ) (answer : Answer τ ν)
    (rest : Multiset (ℕ × Call κ τ)) : Loops κ τ :=
  let after := s.query.receive call answer
  { s with
    query := after.1
    tasks := ↑(after.2.tasks.map (i, ·)) + s.tasks
    calls := ↑(after.2.onward.toList.map (i, ·)) + rest }

inductive Step (label : String) (policy : RetryPolicy) :
    Loops κ τ → Event κ τ ν → Loops κ τ → Prop
  | start {s : Loops κ τ} (delay : Option Span) :
      Step label policy s (.started delay) (s.start (.retryLoop label policy delay))
  | begin {s : Loops κ τ} {i : ℕ} {task : Task κ τ} {rest : Multiset (ℕ × Task κ τ)} :
      s.tasks = (i, task) ::ₘ rest →
      Step label policy s (.turned i (.begun task.call)) (s.begin i task rest)
  | answer {s : Loops κ τ} {i : ℕ} {call : Call κ τ} {rest : Multiset (ℕ × Call κ τ)}
      {answer : Answer τ ν} : s.calls = (i, call) ::ₘ rest → call.Fits answer →
      Step label policy s (.turned i (.answered call answer (s.query.receive call answer).2))
        (s.settle i call answer rest)

inductive Run (label : String) (policy : RetryPolicy) (s : Loops κ τ) :
    List (Event κ τ ν) → Loops κ τ → Prop
  | nil : Run label policy s [] s
  | snoc {events : List (Event κ τ ν)} {event : Event κ τ ν} {t u : Loops κ τ} :
      Run label policy s events t → Step label policy t event u →
      Run label policy s (events ++ [event]) u

section Runs

variable {label : String} {policy : RetryPolicy} {events : List (Event κ τ ν)} {s t : Loops κ τ}

lemma Run.start (h : Run label policy s events t) (delay : Option Span) :
    Run label policy s (events ++ [.started delay]) (t.start (.retryLoop label policy delay)) :=
  h.snoc (.start delay)

lemma Run.begin (h : Run label policy s events t) (i : ℕ) (task : Task κ τ)
    (rest : Multiset (ℕ × Task κ τ)) (ht : t.tasks = (i, task) ::ₘ rest) :
    Run label policy s (events ++ [.turned i (.begun task.call)]) (t.begin i task rest) :=
  h.snoc (.begin ht)

lemma Run.answer (h : Run label policy s events t) (i : ℕ) (call : Call κ τ)
    (rest : Multiset (ℕ × Call κ τ)) (answer : Answer τ ν) (hc : t.calls = (i, call) ::ₘ rest)
    (hf : call.Fits answer) :
    Run label policy s
      (events ++ [.turned i (.answered call answer (t.query.receive call answer).2)])
      (t.settle i call answer rest) :=
  h.snoc (.answer hc hf)

end Runs

def left (s : Loops κ τ) : Multiset ℕ := s.tasks.map (·.1) + s.calls.map (·.1)

structure Looping (label : String) (policy : RetryPolicy) (events : List (Event κ τ ν))
    (s : Loops κ τ) : Prop where
  query : s.query = ⟨label, false,
    .probing policy .zero (.after ((outcomes events).map (·.2)).reverse), true⟩
  task : ∀ task ∈ s.tasks, ∃ b, task.2 = .probe b
  call : ∀ call ∈ s.calls, ∃ b, call.2 = .probe b
  started : s.started = events.countP Event.isStart
  once : s.left + ↑((outcomes events).map (·.1)) = Multiset.range s.started

section Steps

variable {label : String} {policy : RetryPolicy} {events more : List (Event κ τ ν)}
  {event : Event κ τ ν} {s t : Loops κ τ} {q : Query τ} {p : RetryPolicy} {delay : Span}
  {state : RetryState}

lemma receive_probe (hq : q.plan = .probing p delay state) (b : RetryBudget)
    (a : Outcome (Option ν)) :
    let after : Query τ × Effects κ τ ν := q.receive (.probe b) (.probe a)
    after.2.onward = none ∧ (∀ task ∈ after.2.tasks, ∃ b, task = .probe b) ∧
      after.1 = { q with
        plan := .probing p delay (after.2.delivered.elim state fun o => .after [o]) } ∧
      after.2.tasks.length + after.2.delivered.toList.length = 1 := by
  intro after
  refine ⟨Query.receiveProbe_onward q b a, ?_⟩
  by_cases hm : Misses a
  · by_cases hb : b.remaining = 0
    · simp [after, Query.receive, Query.receiveProbe, hq, Flight.retry_of_miss q.label b hm,
        Retry.afterMiss, RetryBudget.spend, hb, Query.deliver, RetryState.after, Except.map,
        Effects.tasks]
    · simp [after, Query.receive, Query.receiveProbe, hq, Flight.retry_of_miss q.label b hm,
        Retry.afterMiss, RetryBudget.spend, hb, Effects.tasks]
      rw [← hq]
  · rcases a with e | _ | value
    · exact absurd trivial hm
    · exact absurd trivial hm
    · simp [after, Query.receive, Query.receiveProbe, hq, Retry.receive, Query.deliver,
        RetryState.after, Except.map, Effects.tasks]

lemma outcomes_snoc (events : List (Event κ τ ν)) (event : Event κ τ ν) :
    outcomes (events ++ [event]) = outcomes events ++ event.outcome?.toList := by
  cases h : event.outcome? <;> simp [outcomes, h]

lemma countP_turned (events : List (Event κ τ ν)) (i : ℕ) (turn : Turn κ τ ν) :
    (events ++ [Event.turned i turn]).countP Event.isStart = events.countP Event.isStart := by
  simp [List.countP_append, Event.isStart]

lemma numbered_one {α β : Type} (i : ℕ) {as : List α} {bs : List β}
    (h : as.length + bs.length = 1) :
    (↑(as.map fun _ => i) + ↑(bs.map fun _ => i) : Multiset ℕ) = {i} := by
  rw [List.map_const', List.map_const', Multiset.coe_replicate, Multiset.coe_replicate,
    ← Multiset.replicate_add, h, Multiset.replicate_one]

lemma Looping.start (h : Looping label policy events s) (delay : Option Span) :
    Looping label policy (events ++ [.started delay])
      (s.start (.retryLoop label policy delay)) := by
  have htasks : (s.start (.retryLoop label policy delay)).tasks =
      (s.started, .probe policy.budget) ::ₘ s.tasks := by
    cases delay <;> rfl
  have houtcomes : outcomes (events ++ [.started delay]) = outcomes events := by
    simp [outcomes_snoc, Event.outcome?]
  constructor
  · rw [houtcomes]
    exact h.query
  · rw [htasks]
    rintro task htask
    rcases Multiset.mem_cons.mp htask with rfl | htask
    · exact ⟨_, rfl⟩
    · exact h.task task htask
  · exact h.call
  · rw [List.countP_append, ← h.started]
    rfl
  · have hleft : (s.start (.retryLoop label policy delay)).left = s.started ::ₘ s.left := by
      rw [left, htasks, Multiset.map_cons, Multiset.cons_add]
      rfl
    rw [houtcomes, hleft, Multiset.cons_add, h.once, ← Multiset.range_succ]
    rfl

lemma Looping.begin (h : Looping label policy events s) {i : ℕ} {task : Task κ τ}
    {rest : Multiset (ℕ × Task κ τ)} (ht : s.tasks = (i, task) ::ₘ rest) :
    Looping label policy (events ++ [.turned i (.begun task.call)]) (s.begin i task rest) := by
  have houtcomes : outcomes (events ++ [.turned i (.begun task.call)]) = outcomes events := by
    simp [outcomes_snoc, Event.outcome?, Turn.delivered]
  constructor
  · rw [houtcomes]
    exact h.query
  · intro other hother
    exact h.task other (ht ▸ Multiset.mem_cons_of_mem hother)
  · rintro call hcall
    rcases Multiset.mem_cons.mp hcall with rfl | hcall
    · obtain ⟨b, rfl⟩ := h.task (i, task) (ht ▸ Multiset.mem_cons_self _ _)
      exact ⟨_, rfl⟩
    · exact h.call call hcall
  · rw [countP_turned, ← h.started]
    rfl
  · have hleft : (s.begin i task rest).left = s.left := by
      simp [left, Loops.begin, ht]
    rw [houtcomes, hleft]
    exact h.once

lemma Looping.answer (h : Looping label policy events s) {i : ℕ} {call : Call κ τ}
    {rest : Multiset (ℕ × Call κ τ)} {answer : Answer τ ν} (hc : s.calls = (i, call) ::ₘ rest)
    (hf : call.Fits answer) :
    Looping label policy
      (events ++ [.turned i (.answered call answer (s.query.receive call answer).2)])
      (s.settle i call answer rest) := by
  obtain ⟨b, rfl⟩ := h.call (i, call) (hc ▸ Multiset.mem_cons_self _ _)
  cases answer with
  | page a => exact hf.elim
  | probe a =>
    obtain ⟨honward, hprobes, hquery, hone⟩ := receive_probe (κ := κ)
      (congrArg Query.plan h.query) b a
    generalize hafter : s.query.receive (.probe b) (.probe a) = after at *
    have htasks : (s.settle i (.probe b) (.probe a) rest).tasks =
        (after.2.tasks.map (i, ·) : Multiset (ℕ × Task κ τ)) + s.tasks := by
      rw [settle, hafter]
    have hcalls : (s.settle i (.probe b) (.probe a) rest).calls = rest := by
      simp [settle, hafter, honward]
    have hsettled : (s.settle i (.probe b) (.probe a) rest).query = after.1 := by
      rw [settle, hafter]
    have hout : outcomes (events ++ [.turned i (.answered (.probe b) (.probe a) after.2)]) =
        outcomes events ++ after.2.delivered.toList.map (i, ·) := by
      rw [outcomes_snoc]
      cases hd : after.2.delivered <;> simp [Event.outcome?, Turn.delivered, hd]
    constructor
    · rw [hout, hsettled, hquery, h.query]
      cases after.2.delivered with
      | none => simp
      | some outcome => cases outcome <;> simp [RetryState.after]
    · rw [htasks]
      intro task htask
      rcases Multiset.mem_add.mp htask with hnew | hold
      · obtain ⟨new, hmem, rfl⟩ := List.mem_map.mp (Multiset.mem_coe.mp hnew)
        exact hprobes new hmem
      · exact h.task task hold
    · rw [hcalls]
      exact fun other hother => h.call other (hc ▸ Multiset.mem_cons_of_mem hother)
    · rw [countP_turned]
      exact h.started
    · -- The loop has either a new task or an outcome in the place of its call.
      have honce := h.once
      rw [left, hc, Multiset.map_cons, ← Multiset.singleton_add, ← numbered_one i hone] at honce
      rw [hout, left, htasks, hcalls]
      refine Eq.trans ?_ honce
      simp only [List.map_append, List.map_map, Function.comp_def, Multiset.map_add,
        Multiset.map_coe, ← Multiset.coe_add]
      abel

lemma Looping.step (h : Looping label policy events s) (hs : Step label policy s event t) :
    Looping label policy (events ++ [event]) t := by
  cases hs with
  | start delay => exact h.start delay
  | begin ht => exact h.begin ht
  | answer hc hf => exact h.answer hc hf

lemma Run.looping (h : Run label policy (scheduler label policy) events s) :
    Looping label policy events s := by
  induction h with
  | nil => exact ⟨rfl, nofun, nofun, rfl, rfl⟩
  | snoc _ hs ih => exact ih.step hs

lemma Looping.nodup (h : Looping label policy events s) :
    ((outcomes events).map (·.1)).Nodup := by
  have hle : ↑((outcomes events).map (·.1)) ≤ Multiset.range s.started :=
    h.once ▸ Multiset.le_add_left _ _
  exact Multiset.coe_nodup.mp (Multiset.nodup_of_le hle (Multiset.nodup_range _))

lemma Looping.length_le (h : Looping label policy events s) :
    (outcomes events).length ≤ events.countP Event.isStart := by
  have hcard := congrArg Multiset.card h.once
  rw [Multiset.card_add, Multiset.coe_card, List.length_map, Multiset.card_range,
    h.started] at hcard
  omega

lemma Looping.state_eq (h : Looping label policy events s) :
    s.state? = some (.after ((outcomes events).map (·.2)).reverse) := by
  rw [state?, h.query]
  rfl

lemma outcomes_append (events more : List (Event κ τ ν)) :
    outcomes (events ++ more) = outcomes events ++ outcomes more :=
  List.filterMap_append

structure EndsOnce (events : List (Event κ τ ν)) (s : Loops κ τ) : Prop where
  once : ((outcomes events).map (·.1)).Nodup
  kept : ∀ i < events.countP Event.isStart,
    i ∈ s.left ∨ ∃ outcome, (i, outcome) ∈ outcomes events
  state : s.state? = some (.after ((outcomes events).map (·.2)).reverse)
  length_le : (outcomes events).length ≤ events.countP Event.isStart

theorem loops_end_once (h : Run label policy (scheduler label policy) (events ++ more) s)
    (ht : Run label policy (scheduler label policy) events t) :
    EndsOnce (events ++ more) s ∧ ((events ++ more).countP Event.isStart ≤ 1 →
      t.state? ≠ some .attempting → s.state? = t.state? ∧ outcomes more = []) := by
  have hs := h.looping
  refine ⟨⟨hs.nodup, fun i hi => ?_, hs.state_eq, hs.length_le⟩, fun hstarts hended => ?_⟩
  · rw [← hs.started, ← Multiset.mem_range, ← hs.once, Multiset.mem_add] at hi
    refine hi.imp_right fun hi => ?_
    obtain ⟨⟨_, outcome⟩, hmem, rfl⟩ := List.mem_map.mp hi
    exact ⟨outcome, hmem⟩
  · have hlength := hs.length_le
    rw [outcomes_append, List.length_append] at hlength
    have hsome : outcomes events ≠ [] := by
      intro hnone
      rw [ht.looping.state_eq, hnone] at hended
      exact hended rfl
    have hpos := List.length_pos_iff.mpr hsome
    have hmore : outcomes more = [] := List.length_eq_zero_iff.mp (by omega)
    refine ⟨?_, hmore⟩
    rw [hs.state_eq, ht.looping.state_eq, outcomes_append, hmore, List.append_nil]

end Steps

theorem loops_end_once_of_one :
    ∃ (events more : List (Event Unit Unit ℕ)) (s t : Loops Unit Unit),
      Run "probe" .single (scheduler "probe" .single) (events ++ more) s ∧
      Run "probe" .single (scheduler "probe" .single) events t ∧
      EndsOnce (events ++ more) s ∧ t.state? = some .succeeded ∧ s.state? = t.state? := by
  let b : RetryBudget := RetryPolicy.single.budget
  let call : Call Unit Unit := .probe b.recordAttempt
  have h₀ : Run "probe" .single (scheduler "probe" .single) ([] : List (Event Unit Unit ℕ))
    (scheduler "probe" .single) := .nil
  have h₁ := h₀.start none
  have h₂ := h₁.begin 0 (.probe b) 0 rfl
  have h₃ := h₂.answer 0 call 0 (.probe (.ok (some 7))) rfl trivial
  have h₄ := h₃
  rw [← List.append_nil (_ ++ _)] at h₄
  obtain ⟨hends, hsame⟩ := loops_end_once h₄ h₃
  exact ⟨_, _, _, _, h₄, h₃, hends, rfl, (hsame (by decide) (by decide)).1⟩

theorem second_loop_changes_state :
    ∃ (events more : List (Event Unit Unit ℕ)) (s t : Loops Unit Unit),
      Run "probe" .single (scheduler "probe" .single) events s ∧
      Run "probe" .single (scheduler "probe" .single) (events ++ more) t ∧
      s.state? = some .succeeded ∧ t.state? = some .givenUp ∧
      outcomes (events ++ more) = [(0, .ok (.value 7)), (1, .error (.retryExhausted 1))] := by
  let b : RetryBudget := RetryPolicy.single.budget
  let call : Call Unit Unit := .probe b.recordAttempt
  have h₀ : Run "probe" .single (scheduler "probe" .single) ([] : List (Event Unit Unit ℕ))
    (scheduler "probe" .single) := .nil
  have h₁ := h₀.start none
  have h₂ := h₁.start none
  have h₃ := h₂.begin 1 (.probe b) {(0, .probe b)} rfl
  have h₄ := h₃.begin 0 (.probe b) 0 rfl
  have h₅ := h₄.answer 0 call {(1, call)} (.probe (.ok (some 7))) rfl trivial
  have h₆ := h₅.answer 1 call 0 (.probe (.ok none)) rfl trivial
  exact ⟨_, _, _, _, h₅, h₆, rfl, rfl, rfl⟩

end Loops

end LedgerQuery
