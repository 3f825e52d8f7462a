import LedgerQuery.Agenda

/-!
Tasks that do nothing but run, at once or after a delay, where there is a runtime to run them.
-/

namespace LedgerQuery

namespace Executor

def unavailable : String := "No tokio runtime available"

def entries (first : Nat) : List (Option Span) → List (Entry Nat)
  | [] => []
  | delay :: rest => Agenda.insert ⟨delay.getD .zero, first, first⟩ (entries (first + 1) rest)

def run (runtime : Bool) (delays : List (Option Span)) : Except String (List (Span × Nat)) :=
  if runtime then .ok ((entries 0 delays).map fun e => (e.due, e.action)) else .error unavailable

end Executor

end LedgerQuery
