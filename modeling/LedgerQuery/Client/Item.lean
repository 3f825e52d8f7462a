import LedgerQuery.Error
import LedgerQuery.Json.Texts

/-!
Some things that the items of a page can be expected to be, and which statuses of items are
acceptable.
-/

namespace LedgerQuery

inductive ItemKind where
  | any
  | entity
  | transaction
deriving DecidableEq, Repr, Inhabited

namespace ItemKind

def texts : ItemKind → Option Json.Texts
  | any => none
  | entity => some ⟨"Entity", ["id"]⟩
  | transaction => some ⟨"Tx", ["id", "status"]⟩

def read (kind : ItemKind) (bytes : List UInt8) : Except Json.Fault Json :=
  match kind.texts with
  | none => Json.read bytes
  | some t => t.read bytes

def convert (kind : ItemKind) (j : Json) : Except Json.Cause Json :=
  match kind.texts with
  | none => .ok j
  | some t => t.convert j

def take (kind : ItemKind) (j : Json) : Except String Json := (kind.convert j).mapError (·.text)

def status (item : Json) : String :=
  match item.get? "status" with
  | some (.str s) => s
  | _ => ""

end ItemKind

structure Capabilities where
  revert : Bool := false
  reject : Bool := false
deriving DecidableEq, Repr, Inhabited

namespace Capabilities

def acceptsStatus (c : Capabilities) (status : String) : Bool :=
  if status = "confirmed" ∨ status = "submitted" ∨ status = "failed" then true
  else if status = "reverted" then c.revert
  else if status = "rejected" then c.reject
  else false

def validate {τ : Type} (c : Capabilities) (status : τ → String) (transactions : List τ) :
    Outcome Unit :=
  if transactions.all fun t => c.acceptsStatus (status t) then .ok ()
  else .error (.protocol "Invalid Transactions")

end Capabilities

end LedgerQuery
