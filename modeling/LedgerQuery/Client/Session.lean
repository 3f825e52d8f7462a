import LedgerQuery.Client.Basic
import LedgerQuery.Client.Wire
import LedgerQuery.Simulation.History
import LedgerQuery.Simulation.Run

/-!
A client at work: its questions are sent over a wire, on virtual time.
-/

namespace LedgerQuery

namespace Client

structure Outside (τ : Type) where
  wire : Wire
  inquiries : List (Inquiry τ) := []

variable {τ : Type}

namespace Outside

def request (o : Outside τ) (n : Nat) (call : Call String τ) : Option (Inquiry τ × Request) :=
  o.inquiries[n]?.map fun q => (q, q.request call)

def ask (o : Outside τ) (n : Nat) (now : Span) (call : Call String τ) :
    Outside τ × Reply τ (List τ) :=
  match o.request n call with
  | none => (o, ⟨.zero, none⟩)
  | some (q, request) =>
    let (wire, response) := o.wire.send now request
    ({ o with wire }, ⟨response.delay, response.result.map (q.answer call)⟩)

def cancelNotes (n : Nat) (o : Outside τ) (call : Call String τ) : List Event :=
  match o.request n call with
  | none => []
  | some (_, request) => [Gate.cancelledNote request.path]

def service : Service (Outside τ) String τ (List τ) where
  ask o now n call := o.ask n now call
  cancelNotes := cancelNotes

end Outside

abbrev Session (τ : Type) := Simulation (Outside τ) String τ (List τ)

namespace Session

def start (wire : Wire) : Session τ := { service := { wire } }

def ask (s : Session τ) (q : Question τ) : Session τ :=
  let o : Outside τ := s.service
  let o := { o with inquiries := o.inquiries ++ [q.inquiry] }
  Simulation.launch { s with service := o } q.launch

def run (s : Session τ) (most : Option Nat) : Nat × Session τ :=
  Simulation.run Outside.service s most

def advance (s : Session τ) (span : Span) : Nat × Session τ :=
  Simulation.advance Outside.service s span

def cancel (s : Session τ) : Session τ := Simulation.cancelAll s

def respond (s : Session τ) (more : List Response) : Session τ :=
  let o : Outside τ := s.service
  { s with service := { o with wire := o.wire.respond more } }

end Session

end Client

end LedgerQuery
