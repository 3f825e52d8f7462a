import LedgerQuery.Error

/-!
Handing over one outcome, at most once. The sender delivers it or is dropped; the receiver finds
nothing yet, the outcome, or that it will never come.
-/

namespace LedgerQuery

inductive Completion (α : Type) where
  | awaited
  | delivered (outcome : Outcome α)
  | dropped

namespace Completion

variable {α : Type}

/-- Delivers an outcome; only the first one counts. -/
def deliver (c : Completion α) (outcome : Outcome α) : Completion α :=
  match c with
  | awaited => delivered outcome
  | c => c

def drop : Completion α → Completion α
  | awaited => dropped
  | c => c

def poll : Completion α → Option (Outcome α)
  | awaited => none
  | delivered outcome => some outcome
  | dropped => some (.error .abandoned)

end Completion

end LedgerQuery
