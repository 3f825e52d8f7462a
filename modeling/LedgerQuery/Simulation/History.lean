import LedgerQuery.Simulation.Basic

/-!
What happened in a simulation: submissions, schedules, calls and deliveries, each in order.
-/

namespace LedgerQuery

namespace Simulation

variable {σ κ τ ν : Type}

def submissions (s : Simulation σ κ τ ν) : Nat :=
  s.history.countP fun h =>
    match h.2 with
    | .submitted => true
    | _ => false

def schedules (s : Simulation σ κ τ ν) : List (Span × Span) :=
  s.history.reverse.filterMap fun h =>
    match h.2 with
    | .scheduled delay => some (h.1, delay)
    | _ => none

def deliveries (s : Simulation σ κ τ ν) : List (Span × Nat × Outcome (Yield τ ν)) :=
  s.history.reverse.filterMap fun h =>
    match h.2 with
    | .delivered n outcome => some (h.1, n, outcome)
    | _ => none

def calls (s : Simulation σ κ τ ν) (n : Nat) : List (Span × Call κ τ) :=
  s.history.reverse.filterMap fun h =>
    match h.2 with
    | .called m call => if m = n then some (h.1, call) else none
    | _ => none

end Simulation

end LedgerQuery
