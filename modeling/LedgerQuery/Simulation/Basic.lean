import LedgerQuery.Agenda
import LedgerQuery.Gate
import LedgerQuery.Query.Roster

/-!
Queries on virtual time. What is due stands in the agenda; calls that have no answer yet wait. The
outside is a service that answers a call at once, after a delay, or never. Tasks can be turned away,
and a query none of whose tasks is left is abandoned.
-/

namespace LedgerQuery

/-- How a service treats a call; without an answer the call waits for ever. -/
structure Reply (τ ν : Type) where
  delay : Span
  answer : Option (Answer τ ν)

structure Service (σ κ τ ν : Type) where
  ask : σ → Span → Nat → Call κ τ → σ × Reply τ ν
  cancelNotes : Nat → σ → Call κ τ → List Event

inductive Action (κ τ : Type) where
  | run (query : Nat) (task : Task κ τ)
  | arrive (ticket : Nat)
  | nudge (ticket : Nat)

structure Waiting (κ τ ν : Type) where
  ticket : Nat
  generation : Nat
  query : Nat
  call : Call κ τ
  answer : Option (Answer τ ν)

inductive Happening (κ τ ν : Type) where
  | submitted
  | scheduled (delay : Span)
  | called (query : Nat) (call : Call κ τ)
  | delivered (query : Nat) (outcome : Outcome (Yield τ ν))

structure Simulation (σ κ τ ν : Type) where
  service : σ
  roster : Roster τ := {}
  now : Span := .zero
  numbered : Nat := 0
  agenda : List (Entry (Action κ τ)) := []
  waiting : List (Waiting κ τ ν) := []
  gate : Gate := {}
  -- so many more tasks are taken in; all, if there is no number
  room : Option Nat := none
  awaited : List Nat := []
  history : List (Span × Happening κ τ ν) := []
  journal : List Event := []

namespace Simulation

variable {σ κ τ ν : Type}

def record (s : Simulation σ κ τ ν) (h : Happening κ τ ν) : Simulation σ κ τ ν :=
  { s with history := (s.now, h) :: s.history }

def note (s : Simulation σ κ τ ν) (events : List Event) : Simulation σ κ τ ν :=
  { s with journal := events.reverse ++ s.journal }

def enter (s : Simulation σ κ τ ν) (due : Span) (action : Action κ τ) : Simulation σ κ τ ν :=
  { s with
    numbered := s.numbered + 1
    agenda := Agenda.insert ⟨due, s.numbered, action⟩ s.agenda }

def take (s : Simulation σ κ τ ν) (n : Nat) (task : Task κ τ) (delay : Span) :
    Simulation σ κ τ ν :=
  match s.room with
  | none => s.enter (s.now + delay) (.run n task)
  | some 0 => s
  | some (k + 1) => { s with room := some k }.enter (s.now + delay) (.run n task)

def submit (s : Simulation σ κ τ ν) (n : Nat) (task : Task κ τ) : Simulation σ κ τ ν :=
  (s.record .submitted).take n task .zero

def schedule (s : Simulation σ κ τ ν) (n : Nat) (task : Span × Task κ τ) : Simulation σ κ τ ν :=
  (s.record (.scheduled task.1)).take n task.2 task.1

def hand (s : Simulation σ κ τ ν) (n : Nat) (submitted : List (Task κ τ))
    (scheduled : List (Span × Task κ τ)) : Simulation σ κ τ ν :=
  scheduled.foldl (schedule · n) (submitted.foldl (submit · n) s)

def deliver (s : Simulation σ κ τ ν) (n : Nat) (outcome : Outcome (Yield τ ν)) :
    Simulation σ κ τ ν :=
  if n ∈ s.awaited then
    { s with awaited := s.awaited.erase n }.record (.delivered n outcome)
  else s

def alive (s : Simulation σ κ τ ν) (n : Nat) : Bool :=
  (s.agenda.any fun e =>
    match e.action with
    | .run m _ => m == n
    | _ => false) || s.waiting.any (·.query == n)

/-- Gives up the awaited queries none of whose tasks is left. -/
def abandon (s : Simulation σ κ τ ν) : Simulation σ κ τ ν :=
  (s.awaited.filter fun n => !s.alive n).foldl (fun s n => s.deliver n (.error .abandoned)) s

def launch (s : Simulation σ κ τ ν) (l : Launch κ τ) : Simulation σ κ τ ν :=
  let n := s.roster.queries.length
  let s := { s with roster := s.roster.launch l, awaited := s.awaited ++ [n] }
  (s.note l.notes.events).hand n l.submitted l.scheduled

def forget (s : Simulation σ κ τ ν) (n : Nat) : Simulation σ κ τ ν :=
  { s with awaited := s.awaited.erase n }

end Simulation

end LedgerQuery
