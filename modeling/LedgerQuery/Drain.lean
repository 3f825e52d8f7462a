import LedgerQuery.Error
import LedgerQuery.Notes
import LedgerQuery.Page

/-!
Draining one chunk. Pages are asked for one after the other, each with the cursor of the page
before, until a page carries none. A chain that comes back to a cursor, that carries an empty page
or that is too long is given up. An error discards all items gathered so far.
-/

namespace LedgerQuery

namespace Drain

structure Rules (τ : Type) where
  maxPages : Nat := 1000
  validate : List τ → Outcome Unit := fun _ => .ok ()

variable {τ : Type}

def Rules.ceiling (r : Rules τ) : Nat := max r.maxPages 1

structure Progress (τ : Type) where
  items : List τ := []
  pages : Nat := 0
  cursor : Option Cursor := none
  seen : List Cursor := []
deriving DecidableEq, Repr

inductive Step (τ : Type) where
  | finished (outcome : Outcome (List τ))
  | follow (progress : Progress τ)

def note (message : String) : Notes := .event .debug Event.pagingTarget message

/-- What forbids to follow a cursor, in order of precedence. -/
def objection (r : Rules τ) (seen : List Cursor) (pages : Nat) (empty : Bool) (next : Cursor) :
    Option QueryError :=
  if next ∈ seen then some (.protocol ("cursor '" ++ next.token ++ "' was already followed"))
  else if empty then some (.protocol ("empty page carried cursor '" ++ next.token ++ "'"))
  else if r.ceiling ≤ pages then
    some (.protocol ("chunk exceeded " ++ toString r.ceiling ++ " pages"))
  else none

def close (r : Rules τ) (items : List τ) : Outcome (List τ) :=
  match r.validate items with
  | .ok () => .ok items
  | .error e => .error e

def receive (r : Rules τ) (index : Nat) (p : Progress τ) (answer : Outcome (Page τ)) :
    Step τ × Notes :=
  match answer with
  | .error e =>
    (.finished (.error e),
      note ("Chunk " ++ toString index ++ " failed on page " ++ toString (p.pages + 1) ++ ": "
        ++ e.message))
  | .ok page =>
    let items := p.items ++ page.items
    let pages := p.pages + 1
    let counted := Notes.count .page
    match page.next with
    | none =>
      (.finished (close r items),
        counted ++ note ("Chunk " ++ toString index ++ " drained: " ++ toString items.length
          ++ " items over " ++ toString pages ++ " pages"))
    | some next =>
      match objection r p.seen pages page.items.isEmpty next with
      | some e => (.finished (.error e), counted)
      | none =>
        (.follow ⟨items, pages, some next, next :: p.seen⟩,
          counted ++ note ("Chunk " ++ toString index ++ " page " ++ toString pages ++ " -> next '"
            ++ next.token ++ "'"))

end Drain

end LedgerQuery
