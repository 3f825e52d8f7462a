import LedgerQuery.Json.Basic
import LedgerQuery.Simulation.History
import LedgerQuery.Simulation.Run

/-!
Queries that are run against scripts. A script says what each call of its query is answered; a
drain whose script has come to its end gets one last page that holds the keys of the chunk, a probe
finds nothing.
-/

namespace LedgerQuery

structure Cue (α : Type) where
  delay : Span := .zero
  outcome : Option (Outcome α)
deriving Inhabited

structure Script where
  pages : List (Nat × List (Cue (Page Json))) := []
  probes : List (Cue (Option Json)) := []
  create : Cue (Option Json) := ⟨.zero, some (.ok none)⟩

namespace Script

def takePage (index : Nat) : List (Nat × List (Cue (Page Json))) →
    Option (Cue (Page Json)) × List (Nat × List (Cue (Page Json)))
  | [] => (none, [])
  | (i, cues) :: rest =>
    if i = index then (cues.head?, (i, cues.drop 1) :: rest)
    else
      let (cue, rest) := takePage index rest
      (cue, (i, cues) :: rest)

def perform (s : Script) : Call Json Json → Script × Reply Json Json
  | .page chunk _ =>
    let (cue, pages) := takePage chunk.index s.pages
    let cue := cue.getD ⟨.zero, some (.ok (.last chunk.keys))⟩
    ({ s with pages }, ⟨cue.delay, cue.outcome.map .page⟩)
  | .create => (s, ⟨s.create.delay, s.create.outcome.map .probe⟩)
  | _ =>
    let cue := s.probes.headD ⟨.zero, some (.ok none)⟩
    ({ s with probes := s.probes.drop 1 }, ⟨cue.delay, cue.outcome.map .probe⟩)

end Script

structure Check where
  forbidden : Option Json
  minLength : Option Nat
  maxLength : Option Nat
  error : QueryError

namespace Check

def validate (c : Check) (items : List Json) : Outcome Unit :=
  if c.forbidden.any (fun j => items.any j.same) ||
      c.minLength.any (fun n => decide (items.length < n)) ||
      c.maxLength.any (fun n => decide (n < items.length)) then
    .error c.error
  else .ok ()

end Check

structure Part where
  launch : Outcome (Launch Json Json)
  script : Script := {}

structure Rehearsal where
  simulation : Simulation (List Script) Json Json Json
  parts : List (Outcome Nat) := []

namespace Rehearsal

def service : Service (List Script) Json Json Json where
  ask scripts _ n call :=
    match scripts[n]? with
    | none => (scripts, ⟨.zero, none⟩)
    | some script =>
      let (script, reply) := script.perform call
      (scripts.set n script, reply)
  cancelNotes _ _ _ := []

def empty (counters : Counters) (room : Option Nat) : Rehearsal where
  simulation := { service := [], roster := { counters }, room }

def start (r : Rehearsal) (p : Part) : Rehearsal :=
  match p.launch with
  | .error e => { r with parts := r.parts ++ [.error e] }
  | .ok launch =>
    let s := r.simulation
    let s := { s with service := s.service ++ [p.script] }
    ⟨s.launch launch, r.parts ++ [.ok s.roster.queries.length]⟩

def play (counters : Counters) (room : Option Nat) (parts : List Part) : Rehearsal :=
  let r := parts.foldl start (empty counters room)
  { r with simulation := (r.simulation.abandon.run service none).2 }

def pageCalls (r : Rehearsal) (n : Nat) : List (Span × Nat × Option Cursor) :=
  (r.simulation.calls n).filterMap fun (t, call) =>
    match call with
    | .page chunk progress => some (t, chunk.index, progress.cursor)
    | _ => none

def probeTimes (r : Rehearsal) (n : Nat) : List Span :=
  (r.simulation.calls n).filterMap fun (t, call) =>
    match call with
    | .probe _ => some t
    | .lookup => some t
    | _ => none

def retryState (r : Rehearsal) (n : Nat) : RetryState :=
  match r.simulation.roster.queries[n]? with
  | none => .attempting
  | some q =>
    match q.plan with
    | .probing _ _ state => state
    | _ => .attempting

def result (r : Rehearsal) (n : Nat) : Option (Span × Outcome (Yield Json Json)) :=
  (r.simulation.deliveries.find? (·.2.1 == n)).map fun d => (d.1, d.2.2)

end Rehearsal

end LedgerQuery
