import LedgerQuery.Client.Item
import LedgerQuery.Page

/-!
The envelope in which the service sends a page: the items stand under the name of their resource
among `_embedded`, and the link to the next page under `next` among `_links`. Either may be absent.
-/

namespace LedgerQuery

structure Envelope where
  embedded : List (String × Json) := []
  next : Option String := none
deriving Repr, Inhabited

namespace Envelope

def link : Json.Texts := ⟨"Link", ["href"]⟩

abbrev Links := Option (Option String)

def linksRecord : Json.Record Links where
  name := "Links"
  empty := none
  fields := [{
    name := "next"
    filled := Option.isSome
    read := fun depth _ s => do
      let (fields, s) ← s.optional (link.record.read depth)
      .ok (some (fields.bind fun fields => fields.head?.map (·.2)), s)
    missing := some fun _ => some none
    short := none }]

structure Parts where
  embedded : Option (List (String × Json)) := none
  links : Option Links := none

def record : Json.Record Parts where
  name := "Envelope"
  empty := {}
  fields := [
    { name := "_embedded"
      filled := fun p => p.embedded.isSome
      read := fun depth p s => do
        let (members, s) ← s.object depth
        .ok ({ p with embedded := some members }, s)
      missing := some id
      short := some id },
    { name := "_links"
      filled := fun p => p.links.isSome
      read := fun depth p s => do
        let (links, s) ← linksRecord.read depth s
        .ok ({ p with links := some links }, s)
      missing := some id
      short := some id }]

def ofParts (p : Parts) : Envelope where
  embedded := p.embedded.getD []
  next := (p.links.bind id).bind id

def read (bytes : List UInt8) : Except Json.Fault Envelope := ofParts <$> record.readAll bytes

section Items

variable {τ : Type}

def takeAll (take : Json → Except String τ) : List Json → Except String (List τ)
  | [] => .ok []
  | j :: rest => do
    let item ← take j
    let more ← takeAll take rest
    .ok (item :: more)

def itemsBy (e : Envelope) (resource : String) (take : Json → Except String τ) :
    Outcome (List τ) :=
  match Json.lookup resource e.embedded with
  | none => .ok []
  | some (.arr values) => (takeAll take values).mapError .decode
  | some other => .error (.decode ("'" ++ resource ++ "' is not an array: " ++ other.write))

def pageBy (e : Envelope) (resource : String) (take : Json → Except String τ) :
    Outcome (Page τ) :=
  match e.itemsBy resource take with
  | .ok items => .ok ⟨items, e.next.map Cursor.mk⟩
  | .error error => .error error

def readPageBy (bytes : List UInt8) (resource : String) (take : Json → Except String τ) :
    Outcome (Page τ) :=
  match read bytes with
  | .ok e => e.pageBy resource take
  | .error fault => .error (.decode fault.text)

end Items

def readPage (bytes : List UInt8) (resource : String) (kind : ItemKind) : Outcome (Page Json) :=
  readPageBy bytes resource kind.take

end Envelope

def ItemKind.decode (kind : ItemKind) (bytes : List UInt8) : Outcome Json :=
  (kind.read bytes).mapError fun fault => .decode fault.text

end LedgerQuery
