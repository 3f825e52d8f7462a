import LedgerQuery.Json.Record

/-!
Records whose fields are all strings, read from a text or taken from a value that was read before.
The two ways differ in what they say of a list that is too long and of a field given twice.
-/

namespace LedgerQuery.Json

structure Texts where
  name : String
  fields : List String
deriving DecidableEq, Repr

namespace Texts

abbrev Filled := List (String × String)

def field (name : String) : Field Filled where
  name := name
  filled := fun a => a.any (·.1 == name)
  read := fun _ a s => do
    let (text, s) ← s.text
    .ok (a ++ [(name, text)], s)
  missing := none
  short := none

def record (t : Texts) : Record Filled := ⟨t.name, [], t.fields.map field⟩

def toJson (a : Filled) : Json := ofMembers (a.map fun f => (f.1, .str f.2))

def read (t : Texts) (bytes : List UInt8) : Except Fault Json :=
  toJson <$> t.record.readAll bytes

def textOf : Json → Except Cause String
  | .str s => .ok s
  | j => .error (.invalidType j.found "a string")

def ofMembers (t : Texts) : List (String × Json) → Except Cause Filled
  | [] => .ok []
  | (key, j) :: rest =>
    if t.fields.contains key then do
      let text ← textOf j
      let more ← t.ofMembers rest
      .ok ((key, text) :: more)
    else t.ofMembers rest

def ofItems (t : Texts) (n : Nat) : List String → List Json → Except Cause Filled
  | [], [] => .ok []
  | [], rest => .error (.invalidLength (n + rest.length) "fewer elements in array")
  | _ :: _, [] => .error (.invalidLength n t.record.expectedLength)
  | key :: fields, j :: rest => do
    let text ← textOf j
    let more ← t.ofItems (n + 1) fields rest
    .ok ((key, text) :: more)

def lacking (t : Texts) (a : Filled) : Option String :=
  t.fields.find? fun name => !a.any (·.1 == name)

def convert (t : Texts) : Json → Except Cause Json
  | .obj members => do
    let a ← t.ofMembers members
    match t.lacking a with
    | some name => .error (.missingField name)
    | none => .ok (toJson a)
  | .arr items => toJson <$> t.ofItems 0 t.fields items
  | j => .error (.invalidType j.found t.record.expected)

end Texts

end LedgerQuery.Json
