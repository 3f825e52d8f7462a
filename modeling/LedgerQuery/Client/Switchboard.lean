import LedgerQuery.Client.Wire
import LedgerQuery.Gate

/-!
Sends over one wire that can all be cancelled at once. A send is prepared first; its request goes
out when it is first polled.
-/

namespace LedgerQuery

structure Sending where
  request : Request
  send : Send (List UInt8) := .unpolled
  inner : Option (Except TransportError (List UInt8)) := none

structure Switchboard where
  wire : Wire
  gate : Gate := {}
  sendings : List Sending := []
  journal : List Event := []

namespace Switchboard

def prepare (b : Switchboard) (request : Request) : Switchboard :=
  { b with sendings := b.sendings ++ [{ request }] }

def create (b : Switchboard) (path : String) : Switchboard := b.prepare (.get path)

def cancelAll (b : Switchboard) : Switchboard :=
  { b with gate := b.gate.cancelAll, journal := Gate.cancelNote :: b.journal }

def transmit (b : Switchboard) (s : Sending) : Switchboard × Sending :=
  match s.send with
  | .unpolled =>
    let (wire, response) := b.wire.send .zero s.request
    ({ b with wire }, { s with inner := response.result })
  | _ => (b, s)

def poll (b : Switchboard) (n : Nat) : Switchboard :=
  match b.sendings[n]? with
  | none => b
  | some s =>
    let (b, s) := b.transmit s
    let polled := b.gate.poll s.send s.inner
    let cancelled :=
      match s.send with
      | .outstanding generation => b.gate.hasEnded generation
      | _ => false
    { b with
      sendings := b.sendings.set n { s with send := polled }
      journal := if cancelled then Gate.cancelledNote s.request.path :: b.journal else b.journal }

end Switchboard

end LedgerQuery
