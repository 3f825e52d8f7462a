import LedgerQuery.Error
import LedgerQuery.Notes

/-!
Cancelling all outstanding sends at once. Sends belong to generations: a send joins the current one
when it is first polled, and cancelling ends the current generation and opens the next. A send of an
ended generation resolves to a cancellation, even if its answer has arrived in the meantime.
-/

namespace LedgerQuery

structure Gate where
  generation : Nat := 0
deriving DecidableEq, Repr, Inhabited

inductive Send (α : Type) where
  | unpolled
  | outstanding (generation : Nat)
  | resolved (result : Except TransportError α)
deriving Repr

namespace Gate

variable {α : Type}

def hasEnded (g : Gate) (generation : Nat) : Bool := generation < g.generation

def cancelAll (g : Gate) : Gate := ⟨g.generation + 1⟩

def cancelNote : Event := ⟨.info, Event.transportTarget, "Cancelling all outstanding requests"⟩

def cancelledNote (path : String) : Event :=
  ⟨.debug, Event.transportTarget, "Request to " ++ path ++ " cancelled"⟩

def poll (g : Gate) (send : Send α) (inner : Option (Except TransportError α)) : Send α :=
  match send with
  | .resolved result => .resolved result
  | .unpolled =>
    match inner with
    | some result => .resolved result
    | none => .outstanding g.generation
  | .outstanding generation =>
    if g.hasEnded generation then .resolved (.error .cancelled)
    else
      match inner with
      | some result => .resolved result
      | none => .outstanding generation

end Gate

end LedgerQuery
