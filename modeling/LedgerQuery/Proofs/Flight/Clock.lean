import LedgerQuery.Proofs.Flight.Basic

/-! A query in flight on a clock. A task handed out for at once is run sooner or later, one handed
out for later is run exactly when it is due, and a call is answered after any time. -/

namespace LedgerQuery

variable {κ τ ν : Type}

namespace Span

lemma le_refl (d : Span) : d ≤ d := Nat.le_refl d.nanos

lemma le_add_right (d e : Span) : d ≤ d + e := Nat.le_add_right d.nanos e.nanos

end Span

def handedOut (now : Span) (submitted : List (Task κ τ)) (scheduled : List (Span × Task κ τ)) :
    List (Option Span × Task κ τ) :=
  submitted.map (none, ·) ++ scheduled.map fun later => (some (now + later.1), later.2)

lemma handedOut_tasks (now : Span) (submitted : List (Task κ τ))
    (scheduled : List (Span × Task κ τ)) :
    (handedOut now submitted scheduled).map (·.2) = submitted ++ scheduled.map (·.2) := by
  simp [handedOut, Function.comp_def]

structure Clocked (κ τ : Type) where
  query : Query τ
  now : Span
  tasks : Multiset (Option Span × Task κ τ)
  calls : Multiset (Call κ τ)

def Launch.clocked (l : Launch κ τ) (now : Span) : Clocked κ τ :=
  ⟨l.query, now, ↑(handedOut now l.submitted l.scheduled), 0⟩

namespace Clocked

def flight (s : Clocked κ τ) : Flight κ τ := ⟨s.query, s.tasks.map (·.2), s.calls⟩

def Idle (s : Clocked κ τ) : Prop := s.tasks = 0 ∧ s.calls = 0

/-- Time can pass up to then, for none of the tasks is due before. -/
def Allows (now : Span) (tasks : Multiset (Option Span × Task κ τ)) (t : Span) : Prop :=
  now ≤ t ∧ ∀ task ∈ tasks, ∀ due, task.1 = some due → t ≤ due

def start (s : Clocked κ τ) (t : Span) (task : Task κ τ)
    (rest : Multiset (Option Span × Task κ τ)) : Clocked κ τ :=
  { s with now := t, tasks := rest, calls := task.call ::ₘ s.calls }

def settle (s : Clocked κ τ) (t : Span) (call : Call κ τ) (answer : Answer τ ν)
    (rest : Multiset (Call κ τ)) : Clocked κ τ :=
  let after := s.query.receive call answer
  { query := after.1
    now := t
    tasks := ↑(handedOut t after.2.submitted after.2.scheduled) + s.tasks
    calls := ↑after.2.onward.toList + rest }

inductive Step (admits : Call κ τ → Answer τ ν → Prop) :
    Clocked κ τ → Span × Turn κ τ ν → Clocked κ τ → Prop
  | begin {s : Clocked κ τ} {t : Span} {due : Option Span} {task : Task κ τ}
      {rest : Multiset (Option Span × Task κ τ)} :
      s.tasks = (due, task) ::ₘ rest → Allows s.now rest t → (∀ d, due = some d → t = d) →
      Step admits s (t, .begun task.call) (s.start t task rest)
  | answer {s : Clocked κ τ} {t : Span} {call : Call κ τ} {rest : Multiset (Call κ τ)}
      {answer : Answer τ ν} :
      s.calls = call ::ₘ rest → Allows s.now s.tasks t → admits call answer →
      Step admits s (t, .answered call answer (s.query.receive call answer).2)
        (s.settle t call answer rest)

inductive Run (admits : Call κ τ → Answer τ ν → Prop) (s : Clocked κ τ) :
    List (Span × Turn κ τ ν) → Clocked κ τ → Prop
  | nil : Run admits s [] s
  | snoc {moments : List (Span × Turn κ τ ν)} {moment : Span × Turn κ τ ν} {t u : Clocked κ τ} :
      Run admits s moments t → Step admits t moment u → Run admits s (moments ++ [moment]) u

section Runs

variable {admits : Call κ τ → Answer τ ν → Prop} {s t u : Clocked κ τ}
  {moments : List (Span × Turn κ τ ν)} {moment : Span × Turn κ τ ν}

lemma Step.flight (h : Step admits s moment t) : Flight.Step admits s.flight moment.2 t.flight := by
  cases h with
  | @begin now due task rest ht ha hd =>
    have htasks : s.flight.tasks = task ::ₘ rest.map (·.2) := by
      simp only [Clocked.flight, ht, Multiset.map_cons]
    exact .begin htasks
  | @answer now call rest answer hc ha hadmits =>
    have hstep := Flight.Step.answer (s := s.flight) hc hadmits
    have hafter : (s.settle now call answer rest).flight = s.flight.settle call answer rest := by
      simp only [Clocked.flight, Clocked.settle, Flight.settle, Multiset.map_add,
        Multiset.map_coe, handedOut_tasks]
      rfl
    rw [hafter]
    exact hstep

lemma Step.not_idle (h : Step admits s moment t) : ¬ s.Idle := by
  intro hs
  cases h with
  | begin ht => exact absurd (hs.1.symm.trans ht) Multiset.zero_ne_cons
  | answer hc => exact absurd (hs.2.symm.trans hc) Multiset.zero_ne_cons

lemma Step.of_task (h : Step admits s moment t) {due : Option Span} {task : Task κ τ}
    (ht : s.tasks = {(due, task)}) (hc : s.calls = 0) :
    ∃ now, moment = (now, .begun task.call) ∧ (∀ d, due = some d → now = d) ∧
      t = ⟨s.query, now, 0, {task.call}⟩ := by
  cases h with
  | @begin now _ _ _ hs _ hdue =>
    obtain ⟨heq, rfl⟩ := (Multiset.singleton_eq_cons_iff _).mp (ht.symm.trans hs)
    obtain ⟨rfl, rfl⟩ := Prod.mk.inj heq
    exact ⟨now, rfl, hdue, by rw [start, hc]; rfl⟩
  | answer hs => exact absurd (hc.symm.trans hs) Multiset.zero_ne_cons

lemma Step.of_call (h : Step admits s moment t) {call : Call κ τ} (ht : s.tasks = 0)
    (hc : s.calls = {call}) :
    ∃ now answer, admits call answer ∧
      moment = (now, .answered call answer (s.query.receive call answer).2) ∧
      t = s.settle now call answer 0 := by
  cases h with
  | begin hs => exact absurd (ht.symm.trans hs) Multiset.zero_ne_cons
  | @answer now _ _ answer hs _ hadmits =>
    obtain ⟨rfl, rfl⟩ := (Multiset.singleton_eq_cons_iff _).mp (hc.symm.trans hs)
    exact ⟨now, answer, hadmits, rfl, rfl⟩

lemma Run.flight (h : Run admits s moments t) :
    Flight.Run admits s.flight (moments.map (·.2)) t.flight := by
  induction h with
  | nil => exact .nil
  | snoc _ hs ih =>
    rw [List.map_append]
    exact ih.snoc hs.flight

lemma Run.begin (h : Run admits s moments t) (now : Span) (due : Option Span) (task : Task κ τ)
    (rest : Multiset (Option Span × Task κ τ)) (ht : t.tasks = (due, task) ::ₘ rest)
    (ha : Allows t.now rest now) (hd : ∀ d, due = some d → now = d) :
    Run admits s (moments ++ [(now, .begun task.call)]) (t.start now task rest) :=
  h.snoc (.begin ht ha hd)

lemma Run.answer (h : Run admits s moments t) (now : Span) (call : Call κ τ)
    (rest : Multiset (Call κ τ)) (answer : Answer τ ν) (hc : t.calls = call ::ₘ rest)
    (hn : Allows t.now t.tasks now) (ha : admits call answer) :
    Run admits s (moments ++ [(now, .answered call answer (t.query.receive call answer).2)])
      (t.settle now call answer rest) :=
  h.snoc (.answer hc hn ha)

end Runs

structure Log (κ τ ν : Type) where
  sent : List (Span × Call κ τ) := []
  heard : List (Span × Answer τ ν) := []
  schedules : List (Span × Span) := []
  delivered : List (Span × Outcome (Yield τ ν)) := []

namespace Log

def add (log : Log κ τ ν) : Span × Turn κ τ ν → Log κ τ ν
  | (t, .begun call) => { log with sent := log.sent ++ [(t, call)] }
  | (t, .answered _ answer effects) =>
    { sent := log.sent ++ effects.onward.toList.map (t, ·)
      heard := log.heard ++ [(t, answer)]
      schedules := log.schedules ++ effects.scheduled.map fun later => (t, later.1)
      delivered := log.delivered ++ effects.delivered.toList.map (t, ·) }

def of (moments : List (Span × Turn κ τ ν)) : Log κ τ ν := moments.foldl add {}

lemma of_snoc (moments : List (Span × Turn κ τ ν)) (moment : Span × Turn κ τ ν) :
    of (moments ++ [moment]) = (of moments).add moment := by
  simp [of]

end Log

def replies (moments : List (Span × Turn κ τ ν)) : List (Span × Call κ τ × Answer τ ν) :=
  moments.filterMap fun
    | (_, .begun _) => none
    | (t, .answered call answer _) => some (t, call, answer)

lemma replies_snoc (moments : List (Span × Turn κ τ ν)) (moment : Span × Turn κ τ ν) :
    replies (moments ++ [moment]) = replies moments ++ replies [moment] :=
  List.filterMap_append

lemma heard_of (moments : List (Span × Turn κ τ ν)) :
    (Log.of moments).heard = (replies moments).map fun reply => (reply.1, reply.2.2) := by
  induction moments using List.reverseRecOn with
  | nil => rfl
  | append_singleton moments moment ih =>
    rw [Log.of_snoc, replies_snoc, List.map_append, ← ih]
    obtain ⟨t, _ | _⟩ := moment
    · exact (List.append_nil _).symm
    · rfl

def Lone (s : Clocked κ τ) : Prop := s.tasks.card + s.calls.card ≤ 1

section Turns

variable {admits : Call κ τ → Answer τ ν → Prop} {s t : Clocked κ τ}
  {moments : List (Span × Turn κ τ ν)}

/-- With one thing to be done at a time, the calls are answered in the order in which they were
sent. -/
lemma Run.in_order (h : Run admits s moments t) (hs : s.calls = 0)
    (hlone : ∀ moments t, Run admits s moments t → t.Lone) :
    ∃ waiting : List (Call κ τ), t.calls = ↑waiting ∧
      (Log.of moments).sent.map (·.2) = (replies moments).map (·.2.1) ++ waiting := by
  induction h with
  | nil => exact ⟨[], hs, rfl⟩
  | @snoc moments moment t u hr hstep ih =>
    obtain ⟨waiting, hw, hsent⟩ := ih
    have hone := hlone moments t hr
    rw [Log.of_snoc, replies_snoc, List.map_append]
    cases hstep with
    | @begin now due task rest ht =>
      have hnone : waiting = [] := by
        rw [Lone, ht, hw, Multiset.card_cons, Multiset.coe_card] at hone
        exact List.length_eq_zero_iff.mp (by omega)
      rw [hnone] at hw hsent
      refine ⟨[task.call], by rw [Clocked.start, hw]; rfl, ?_⟩
      simp [Log.add, hsent, replies]
    | @answer now call rest answer hc =>
      have hrest : rest = 0 := by
        rw [Lone, hc, Multiset.card_cons] at hone
        exact Multiset.card_eq_zero.mp (by omega)
      have hcall : waiting = [call] := by
        rw [hrest, hw] at hc
        exact Multiset.coe_eq_singleton.mp hc
      refine ⟨(t.query.receive call answer).2.onward.toList, by simp [Clocked.settle, hrest], ?_⟩
      simp [Log.add, hsent, hcall, replies]

end Turns

end Clocked

end LedgerQuery
