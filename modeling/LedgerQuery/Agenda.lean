import LedgerQuery.Span

/-!
Entries that fall due. The agenda is kept in order of due time, and of number among equals. Times
are spans since the start.
-/

namespace LedgerQuery

structure Entry (α : Type) where
  due : Span
  number : Nat
  action : α
deriving Repr

namespace Agenda

variable {α : Type}

def before (a b : Entry α) : Bool := a.due < b.due || (a.due = b.due && a.number < b.number)

def insert (e : Entry α) : List (Entry α) → List (Entry α)
  | [] => [e]
  | f :: rest => if before e f then e :: f :: rest else f :: insert e rest

def popDue (limit : Option Span) : List (Entry α) → Option (Entry α × List (Entry α))
  | [] => none
  | e :: rest =>
    match limit with
    | none => some (e, rest)
    | some t => if e.due ≤ t then some (e, rest) else none

end Agenda

end LedgerQuery
