import LedgerQuery.Query.Launch
import Mathlib.Data.Multiset.Basic
import Mathlib.Tactic

/-! A query in flight, in any order. Tasks wait to be run and calls wait for an answer; each task is
run once, each call gets one answer, and nothing is said about which of them comes next. -/

namespace LedgerQuery

variable {κ τ ν : Type}

def Effects.tasks (e : Effects κ τ ν) : List (Task κ τ) := e.submitted ++ e.scheduled.map (·.2)

def Call.Fits : Call κ τ → Answer τ ν → Prop
  | .page _ _, .page _ => True
  | .page _ _, .probe _ => False
  | _, .page _ => False
  | _, .probe _ => True

namespace Query

variable {q : Query τ} {call next : Call κ τ} {answer : Answer τ ν}

lemma receivePage_onward (q : Query τ) (chunk : Chunk κ) (progress : Drain.Progress τ)
    (a : Outcome (Page τ)) :
    (q.receivePage chunk progress a : Query τ × Effects κ τ ν).2.onward = none := by
  unfold receivePage
  cases q.plan with
  | chunked rules coordinator =>
    simp only
    split
    · rfl
    · split <;> split <;> rfl
  | single rules =>
    simp only
    split <;> rfl
  | probing policy delay state => rfl

lemma receiveProbe_onward (q : Query τ) (budget : RetryBudget) (a : Outcome (Option ν)) :
    (q.receiveProbe budget a : Query τ × Effects κ τ ν).2.onward = none := by
  unfold receiveProbe
  cases q.plan with
  | chunked rules coordinator => rfl
  | single rules => rfl
  | probing policy delay state =>
    simp only
    split <;> rfl

lemma receiveCreate_onward {a : Outcome (Option ν)}
    (h : (q.receiveCreate a : Query τ × Effects κ τ ν).2.onward = some next) :
    next = .lookup ∧ (q.receiveCreate a : Query τ × Effects κ τ ν).2.delivered = none := by
  unfold receiveCreate at h ⊢
  cases hp : q.plan with
  | chunked rules coordinator => simp [hp] at h
  | single rules => simp [hp] at h
  | probing policy delay state =>
    simp only [hp] at h ⊢
    split at h
    · simp at h
    · exact ⟨(Option.some.inj h).symm, rfl⟩
    · simp [deliver] at h

lemma receive_onward (h : (q.receive call answer).2.onward = some next) :
    call = .create ∧ next = .lookup ∧ (q.receive call answer).2.delivered = none := by
  cases answer with
  | page a =>
    cases call with
    | page chunk progress => simp [receive, receivePage_onward] at h
    | probe budget => simp [receive] at h
    | create => simp [receive] at h
    | lookup => simp [receive] at h
  | probe a =>
    cases call with
    | page chunk progress => simp [receive] at h
    | probe budget => simp [receive, receiveProbe_onward] at h
    | create => exact ⟨rfl, receiveCreate_onward h⟩
    | lookup => simp [receive, receiveLookup, deliver] at h

end Query

inductive Turn (κ τ ν : Type) where
  | begun (call : Call κ τ)
  | answered (call : Call κ τ) (answer : Answer τ ν) (effects : Effects κ τ ν)

namespace Turn

def calls : Turn κ τ ν → List (Call κ τ)
  | begun call => [call]
  | answered _ _ effects => effects.onward.toList

def delivered : Turn κ τ ν → Option (Outcome (Yield τ ν))
  | begun _ => none
  | answered _ _ effects => effects.delivered

def submitted : Turn κ τ ν → List (Task κ τ)
  | begun _ => []
  | answered _ _ effects => effects.submitted

end Turn

structure Flight (κ τ : Type) where
  query : Query τ
  tasks : Multiset (Task κ τ)
  calls : Multiset (Call κ τ)

def Launch.flight (l : Launch κ τ) : Flight κ τ :=
  ⟨l.query, ↑(l.submitted ++ l.scheduled.map (·.2)), 0⟩

namespace Flight

def Idle (s : Flight κ τ) : Prop := s.tasks = 0 ∧ s.calls = 0

def start (s : Flight κ τ) (task : Task κ τ) (rest : Multiset (Task κ τ)) : Flight κ τ :=
  { s with tasks := rest, calls := task.call ::ₘ s.calls }

def settle (s : Flight κ τ) (call : Call κ τ) (answer : Answer τ ν)
    (rest : Multiset (Call κ τ)) : Flight κ τ where
  query := (s.query.receive call answer).1
  tasks := ↑(s.query.receive call answer).2.tasks + s.tasks
  calls := ↑(s.query.receive call answer).2.onward.toList + rest

inductive Step (admits : Call κ τ → Answer τ ν → Prop) :
    Flight κ τ → Turn κ τ ν → Flight κ τ → Prop
  | begin {s : Flight κ τ} {task : Task κ τ} {rest : Multiset (Task κ τ)} :
      s.tasks = task ::ₘ rest → Step admits s (.begun task.call) (s.start task rest)
  | answer {s : Flight κ τ} {call : Call κ τ} {rest : Multiset (Call κ τ)} {answer : Answer τ ν} :
      s.calls = call ::ₘ rest → admits call answer →
      Step admits s (.answered call answer (s.query.receive call answer).2)
        (s.settle call answer rest)

inductive Run (admits : Call κ τ → Answer τ ν → Prop) (s : Flight κ τ) :
    List (Turn κ τ ν) → Flight κ τ → Prop
  | nil : Run admits s [] s
  | snoc {turns : List (Turn κ τ ν)} {turn : Turn κ τ ν} {t u : Flight κ τ} :
      Run admits s turns t → Step admits t turn u → Run admits s (turns ++ [turn]) u

section Traces

variable (turns : List (Turn κ τ ν))

def callsMade : List (Call κ τ) := turns.flatMap Turn.calls

def submissions : List (Task κ τ) := turns.flatMap Turn.submitted

def deliveries : List (Outcome (Yield τ ν)) := turns.filterMap Turn.delivered

end Traces

variable {admits admits' : Call κ τ → Answer τ ν → Prop} {s t u : Flight κ τ}
  {turns more : List (Turn κ τ ν)} {turn : Turn κ τ ν}

lemma deliveries_append (turns more : List (Turn κ τ ν)) :
    deliveries (turns ++ more) = deliveries turns ++ deliveries more :=
  List.filterMap_append

lemma deliveries_snoc (turns : List (Turn κ τ ν)) (turn : Turn κ τ ν) :
    deliveries (turns ++ [turn]) = deliveries turns ++ turn.delivered.toList := by
  cases h : turn.delivered <;> simp [deliveries, h]

lemma Run.begin (h : Run admits s turns t) (task : Task κ τ) (rest : Multiset (Task κ τ))
    (ht : t.tasks = task ::ₘ rest) :
    Run admits s (turns ++ [.begun task.call]) (t.start task rest) :=
  h.snoc (.begin ht)

lemma Run.answer (h : Run admits s turns t) (call : Call κ τ) (rest : Multiset (Call κ τ))
    (answer : Answer τ ν) (hc : t.calls = call ::ₘ rest) (ha : admits call answer) :
    Run admits s (turns ++ [.answered call answer (t.query.receive call answer).2])
      (t.settle call answer rest) :=
  h.snoc (.answer hc ha)

lemma Run.prior (h : Run admits s (turns ++ more) u) : ∃ t, Run admits s turns t := by
  induction more using List.reverseRecOn generalizing u with
  | nil => exact ⟨u, by simpa using h⟩
  | append_singleton more turn ih =>
    rw [← List.append_assoc] at h
    generalize hw : turns ++ more ++ [turn] = whole at h
    cases h with
    | nil => simp at hw
    | snoc hr _ =>
      obtain ⟨rfl, -⟩ := List.append_inj' hw rfl
      exact ih hr

end Flight

end LedgerQuery
