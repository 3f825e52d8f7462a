import LedgerQuery.Simulation.Basic

/-!
Running a simulation, one entry of the agenda after the other. Calls that wait can be cancelled
all at once.
-/

namespace LedgerQuery

namespace Simulation

variable {σ κ τ ν : Type}

def settle (s : Simulation σ κ τ ν) (n : Nat) (call : Call κ τ) (answer : Answer τ ν) :
    Simulation σ κ τ ν × Option (Call κ τ) :=
  let (roster, effects) := s.roster.receive n call answer
  let s := ({ s with roster }.note effects.notes.events).hand n effects.submitted effects.scheduled
  let s :=
    match effects.delivered with
    | none => s
    | some outcome => s.deliver n outcome
  (s, effects.onward)

def suspend (s : Simulation σ κ τ ν) (n : Nat) (call : Call κ τ) (reply : Reply τ ν) :
    Simulation σ κ τ ν :=
  let ticket := s.numbered
  let s := { s with
    numbered := ticket + 1
    waiting := s.waiting ++ [⟨ticket, s.gate.generation, n, call, reply.answer⟩] }
  match reply.answer with
  | none => s
  | some _ => s.enter (s.now + reply.delay) (.arrive ticket)

def perform (svc : Service σ κ τ ν) (n : Nat) :
    Nat → Simulation σ κ τ ν → Call κ τ → Simulation σ κ τ ν
  | 0, s, _ => s
  | fuel + 1, s, call =>
    let s := { s with roster := s.roster.begin n call }.record (.called n call)
    let (service, reply) := svc.ask s.service s.now n call
    let s := { s with service }
    match reply.answer with
    | none => s.suspend n call reply
    | some answer =>
      if reply.delay = .zero then
        match s.settle n call answer with
        | (s, none) => s
        | (s, some onward) => perform svc n fuel s onward
      else s.suspend n call reply

def callsInARow : Nat := 2

def isArrival (ticket : Nat) (e : Entry (Action κ τ)) : Bool :=
  match e.action with
  | .arrive t => t == ticket
  | _ => false

/-- Ends the waiting of a call, with a cancellation if its generation has ended. -/
def resume (svc : Service σ κ τ ν) (s : Simulation σ κ τ ν) (ticket : Nat) :
    Simulation σ κ τ ν :=
  match s.waiting.find? (·.ticket == ticket) with
  | none => s
  | some w =>
    let left := s.waiting.filter (·.ticket != ticket)
    let finish (s : Simulation σ κ τ ν) (answer : Answer τ ν) : Simulation σ κ τ ν :=
      match s.settle w.query w.call answer with
      | (s, none) => s
      | (s, some onward) => perform svc w.query callsInARow s onward
    if s.gate.hasEnded w.generation then
      let agenda := s.agenda.filter fun e => !isArrival ticket e
      let s := { s with waiting := left, agenda }
      finish (s.note (svc.cancelNotes w.query s.service w.call))
        (Answer.failure (.transport .cancelled) w.call)
    else
      match w.answer with
      | none => s
      | some answer => finish { s with waiting := left } answer

def step (svc : Service σ κ τ ν) (s : Simulation σ κ τ ν) (e : Entry (Action κ τ)) :
    Simulation σ κ τ ν :=
  let s := { s with now := e.due }
  let s :=
    match e.action with
    | .run n task => perform svc n callsInARow s task.call
    | .arrive ticket => resume svc s ticket
    | .nudge ticket => resume svc s ticket
  s.abandon

def cancelAll (s : Simulation σ κ τ ν) : Simulation σ κ τ ν :=
  let current := s.waiting.filter fun w => !s.gate.hasEnded w.generation
  let s := { s with gate := s.gate.cancelAll }.note [Gate.cancelNote]
  current.foldl (fun s w => s.enter s.now (.nudge w.ticket)) s

def pagesLeft (s : Simulation σ κ τ ν) (n pages : Nat) : Nat :=
  match s.roster.queries[n]? with
  | none => 0
  | some q =>
    match q.plan with
    | .chunked rules _ => rules.ceiling - pages
    | .single rules => rules.ceiling - pages
    | .probing _ _ _ => 0

def callCredit (s : Simulation σ κ τ ν) (n : Nat) : Call κ τ → Nat
  | .page _ p => 2 * s.pagesLeft n p.pages
  | .probe b => 2 * b.remaining
  | .lookup => 0
  | .create =>
    match s.roster.queries[n]? with
    | none => 1
    | some q =>
      match q.plan with
      | .probing policy _ _ => 1 + 2 * policy.attempts
      | _ => 1

/-- How many entries may still be run: those of the agenda and all that may follow from them. -/
def credit (s : Simulation σ κ τ ν) : Nat :=
  let entries := s.agenda.map fun e =>
    match e.action with
    | .run n task => 2 + s.callCredit n task.call
    | _ => 1
  let calls := s.waiting.map fun w => s.callCredit w.query w.call
  (entries ++ calls).foldl (· + ·) 0

def runEntries (svc : Service σ κ τ ν) (limit : Option Span) (count : Nat) :
    Nat → Simulation σ κ τ ν → Nat × Simulation σ κ τ ν
  | 0, s => (count, s)
  | fuel + 1, s =>
    match Agenda.popDue limit s.agenda with
    | none => (count, s)
    | some (e, rest) => runEntries svc limit (count + 1) fuel (step svc { s with agenda := rest } e)

def run (svc : Service σ κ τ ν) (s : Simulation σ κ τ ν) (most : Option Nat) :
    Nat × Simulation σ κ τ ν :=
  runEntries svc none 0 (most.getD s.credit) s

def advance (svc : Service σ κ τ ν) (s : Simulation σ κ τ ν) (span : Span) :
    Nat × Simulation σ κ τ ν :=
  let goal := s.now + span
  let (count, s) := runEntries svc (some goal) 0 s.credit s
  (count, { s with now := goal })

end Simulation

end LedgerQuery
