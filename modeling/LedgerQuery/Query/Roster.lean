import LedgerQuery.Query.Launch

/-!
All queries of one orchestrator, known by their numbers in the order of their start, and the
counters they share.
-/

namespace LedgerQuery

structure Roster (τ : Type) where
  counters : Counters := {}
  queries : List (Query τ) := []

namespace Roster

variable {κ τ ν : Type}

def count (r : Roster τ) (q : Query τ) (counts : List Count) : Roster τ :=
  if q.counted then { r with counters := r.counters.recordAll counts } else r

def launch (r : Roster τ) (l : Launch κ τ) : Roster τ :=
  let r := r.count l.query l.notes.counts
  { r with queries := r.queries ++ [l.query] }

def begin (r : Roster τ) (n : Nat) (call : Call κ τ) : Roster τ :=
  match r.queries[n]? with
  | none => r
  | some q => r.count q call.counts

def receive (r : Roster τ) (n : Nat) (call : Call κ τ) (answer : Answer τ ν) :
    Roster τ × Effects κ τ ν :=
  match r.queries[n]? with
  | none => (r, {})
  | some q =>
    let (q, effects) := q.receive call answer
    let r := r.count q effects.notes.counts
    ({ r with queries := r.queries.set n q }, effects)

end Roster

end LedgerQuery
