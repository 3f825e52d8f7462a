import LedgerQuery.Toml.Marked
import LedgerQuery.Toml.Table

/-!
Reading a TOML text: first its statements, then the document that they describe.
-/

namespace LedgerQuery.Toml

def isBareKeyChar (c : Char) : Bool := c.isAlphanum || c == '_' || c == '-'

def keyPart (cs : List Char) : Option (String × List Char) :=
  match cs with
  | '"' :: rest => basicString [] (rest.length + 1) rest
  | '\'' :: rest => literalString [] rest
  | _ =>
    let name := cs.takeWhile isBareKeyChar
    if name.isEmpty then none else some (String.ofList name, cs.dropWhile isBareKeyChar)

def keyParts (acc : List String) : Nat → List Char → Option (List String × List Char)
  | 0, _ => none
  | fuel + 1, cs => do
    let (part, rest) ← keyPart (skipBlanks cs)
    match skipBlanks rest with
    | '.' :: rest => keyParts (part :: acc) fuel rest
    | rest => some ((part :: acc).reverse, rest)

def levels : Nat := 79

def key (cs : List Char) : Option (List String × List Char) := do
  let (parts, rest) ← keyParts [] (cs.length + 1) cs
  if parts.length ≤ levels then some (parts, rest) else none

def pair (value : List Char → Option (Value × List Char)) (cs : List Char) :
    Option ((List String × Value) × List Char) := do
  let (k, cs) ← key cs
  let cs ← skipChar '=' cs
  let (v, cs) ← value (skipBlanks cs)
  some ((k, v), cs)

def arrayItems (value : List Char → Option (Value × List Char)) (acc : List Value) :
    Nat → List Char → Option (List Value × List Char)
  | 0, _ => none
  | fuel + 1, cs =>
    match skipTrivia cs.length cs with
    | ']' :: rest => some (acc.reverse, rest)
    | cs => do
      let (v, rest) ← value cs
      match skipTrivia rest.length rest with
      | ']' :: rest => some ((v :: acc).reverse, rest)
      | ',' :: rest => arrayItems value (v :: acc) fuel rest
      | _ => none

def inlinePairs (value : List Char → Option (Value × List Char)) (ms : Members) :
    Nat → List Char → Option (Members × List Char)
  | 0, _ => none
  | fuel + 1, cs => do
    let ((k, v), rest) ← pair value cs
    let ms ← ms.addPair k v
    match skipBlanks rest with
    | '}' :: rest => some (ms, rest)
    | ',' :: rest => inlinePairs value ms fuel rest
    | _ => none

def inlineTable (value : List Char → Option (Value × List Char)) (cs : List Char) :
    Option (Value × List Char) :=
  match skipBlanks cs with
  | '}' :: rest => some (.table [], rest)
  | cs => (inlinePairs value [] (cs.length + 1) cs).map fun (ms, rest) =>
      (.table (Node.closeMembers ms), rest)

def value : Nat → List Char → Option (Value × List Char)
  | 0, cs =>
    match cs with
    | '[' :: _ => none
    | '{' :: _ => none
    | cs => scalarOrString cs
  | n + 1, cs =>
    match cs with
    | '[' :: rest => (arrayItems (value n) [] (rest.length + 1) rest).map fun (items, rest) =>
        (.array items, rest)
    | '{' :: rest => inlineTable (value n) rest
    | cs => scalarOrString cs
where
  scalarOrString (cs : List Char) : Option (Value × List Char) :=
    match string cs with
    | some (s, rest) => some (.string s, rest)
    | none => scalar cs

inductive Statement where
  | pair (key : List String) (value : Value)
  | table (path : List String)
  | listed (path : List String)

def header (cs : List Char) : Option (List String × List Char) := do
  let (path, cs) ← key cs
  let cs ← skipChar ']' cs
  some (path, cs)

def statement (cs : List Char) : Option (Statement × List Char) :=
  match cs with
  | '[' :: '[' :: rest => do
    let (path, rest) ← header rest
    let rest ← skipChar ']' rest
    some (.listed path, rest)
  | '[' :: rest => do
    let (path, rest) ← header rest
    some (.table path, rest)
  | cs => do
    let ((k, v), rest) ← pair (value levels) cs
    some (.pair k v, rest)

def statements : Nat → List Char → Option (List Statement)
  | 0, _ => none
  | fuel + 1, cs =>
    match skipTrivia cs.length cs with
    | [] => some []
    | cs => do
      let (s, rest) ← statement cs
      let rest ← finishLine rest
      let more ← statements fuel rest
      some (s :: more)

def build (ms : Members) (current : List String) : List Statement → Option Members
  | [] => some ms
  | .pair k v :: rest => do
    let ms ← ms.within .implied (Members.addPair k v) current
    build ms current rest
  | .table path :: rest => do
    let ms ← ms.openTable path
    build ms path rest
  | .listed path :: rest => do
    let ms ← ms.openListed path
    build ms path rest

def read (s : String) : Option Value := do
  let cs := s.toList
  let lines ← statements (cs.length + 1) (if cs.head? = some '\ufeff' then cs.tail else cs)
  let ms ← build [] [] lines
  (Value.table (Node.closeMembers ms)).settle

end LedgerQuery.Toml
