import LedgerQuery.Journal.Event
import LedgerQuery.Text.Natural

/-!
Which events are kept. A limit holds for all events but those that tell how queries ended, which
have a limit of their own.
-/

namespace LedgerQuery

namespace Level

def ofDetail? : Nat → Option Level
  | 1 => some error
  | 2 => some warn
  | 3 => some info
  | 4 => some debug
  | 5 => some trace
  | _ => none

def ofName? (s : String) : Option Level :=
  [error, warn, info, debug, trace].find? fun level => Text.sameLetters s level.name

def ofText? (s : String) : Option Level :=
  match (Text.natural64? s).bind ofDetail? with
  | some level => some level
  | none => ofName? s

end Level

structure Directive where
  target : String
  limit : Level
deriving DecidableEq, Repr

namespace Directive

def cares (d : Directive) (target : String) : Bool := d.target.toList.isPrefixOf target.toList

end Directive

/-- Directives, of which the longest that cares for an event decides. -/
structure Filter where
  directives : List Directive
deriving DecidableEq, Repr

namespace Filter

def longer (d : Directive) : Option Directive → Directive
  | none => d
  | some e => if d.target.length < e.target.length then e else d

def deciding (f : Filter) (target : String) : Option Directive :=
  (f.directives.filter (·.cares target)).foldr (fun d best => some (longer d best)) none

def keeps (f : Filter) (e : Event) : Bool :=
  (f.deciding e.target).any fun d => e.level.atLeast d.limit

/-- Outcomes of queries are kept from `info` on, all else from the given level on. -/
def outcomesAnd (limit : Level) : Filter :=
  ⟨[⟨Event.outcomeTarget, .info⟩, ⟨"", limit⟩]⟩

end Filter

end LedgerQuery
