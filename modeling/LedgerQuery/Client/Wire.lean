import LedgerQuery.Client.Request
import LedgerQuery.Error
import LedgerQuery.Span

/-!
The connection to a service whose responses were laid down beforehand, one for each request in the
order of the requests. Every request that comes through is recorded.
-/

namespace LedgerQuery

/-- A response and how long it takes; without a result it never comes. -/
structure Response where
  delay : Span := .zero
  result : Option (Except TransportError (List UInt8))
deriving Inhabited

structure Wire where
  responses : List Response
  hangWhenEmpty : Bool
  recorded : List (Span × Request) := []

namespace Wire

def fallback (w : Wire) : Response :=
  ⟨.zero, if w.hangWhenEmpty then none else some (.error (.io "no canned response"))⟩

def send (w : Wire) (now : Span) (r : Request) : Wire × Response :=
  ({ w with responses := w.responses.drop 1, recorded := (now, r) :: w.recorded },
    w.responses.headD w.fallback)

def respond (w : Wire) (more : List Response) : Wire := { w with responses := w.responses ++ more }

def requests (w : Wire) : List (Span × Request) := w.recorded.reverse

end Wire

end LedgerQuery
