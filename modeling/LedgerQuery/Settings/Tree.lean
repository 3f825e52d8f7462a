import LedgerQuery.Settings.Datum

/-!
Settings of several sources, one laid over the other. Tables are merged name by name; any other
value replaces what is there. Names have no case, and a name with points is the path of a setting.
-/

namespace LedgerQuery.Settings

/-- Merged settings. What a source gives keeps its origin; what merging makes on the way has none,
and so have the tables outside lists. -/
inductive Tree where
  | leaf (origin : Option String) (value : Datum)
  | list (origin : Option String) (items : List Tree)
  | table (origin : Option String) (members : List (String × Tree))
deriving Repr, Inhabited

inductive PathStep where
  | name (s : String)
  | index (n : Int)
deriving DecidableEq, Repr

namespace PathStep

def lowerChar (c : Char) : Char := if c = '\u212a' then 'k' else c.toLower

def lower (s : String) : String := s.map lowerChar

def isNameChar (c : Char) : Bool := c.isAlphanum || c == ' ' || c == '_' || c == '-'

def nameOf? (cs : List Char) : Option (PathStep × List Char) :=
  let s := cs.takeWhile isNameChar
  if s.isEmpty then none else some (name (String.ofList s), cs.dropWhile isNameChar)

def skipBlanks (cs : List Char) : List Char := cs.dropWhile fun c => c == ' ' || c == '\t'

def indexOf? (cs : List Char) : Option (PathStep × List Char) :=
  let cs := skipBlanks cs
  let negative := cs.head? == some '-'
  let cs := if negative then cs.tail else cs
  let digits := cs.takeWhile Char.isDigit
  match Text.natural64Digits digits, skipBlanks (cs.dropWhile Char.isDigit) with
  | some n, ']' :: rest =>
    if negative then (if n ≤ Nat.pow 2 63 then some (index (-n), rest) else none)
    else if n < Nat.pow 2 63 then some (index n, rest)
    else none
  | _, _ => none

def more : Nat → List Char → Option (List PathStep)
  | _, [] => some []
  | fuel + 1, '.' :: rest => do
    let (step, rest) ← nameOf? rest
    let steps ← more fuel rest
    some (step :: steps)
  | fuel + 1, '[' :: rest => do
    let (step, rest) ← indexOf? rest
    let steps ← more fuel rest
    some (step :: steps)
  | _, _ => none

/-- The path that a name with points denotes, in small letters; any other name is a path of one
step. -/
def path (key : String) : List PathStep :=
  let key := lower key
  let steps := do
    let (first, rest) ← nameOf? key.toList
    let steps ← more rest.length rest
    some (first :: steps)
  steps.getD [name key]

end PathStep

namespace Tree

def empty : Tree := table none []

def absent : Tree := leaf none .nothing

def members : Tree → List (String × Tree)
  | table _ ms => ms
  | _ => []

def tableOrigin : Tree → Option String
  | table origin _ => origin
  | _ => none

def listOrigin : Tree → Option String
  | list origin _ => origin
  | _ => none

def items : Tree → List Tree
  | list _ ts => ts
  | _ => []

def lookup (name : String) (ms : List (String × Tree)) : Option Tree :=
  (ms.find? (·.1 == name)).map (·.2)

def insert (name : String) (t : Tree) : List (String × Tree) → List (String × Tree)
  | [] => [(name, t)]
  | (k, u) :: rest => if k = name then (k, t) :: rest else (k, u) :: insert name t rest

def put (name : String) (member : Tree) (t : Tree) : Tree :=
  table t.tableOrigin (insert name member t.members)

mutual

def ofDatum (origin : String) : Datum → Tree
  | .list ds => list (some origin) (ofItems origin ds)
  | .table ms => table (some origin) (ofMembers origin ms)
  | d => leaf (some origin) d

def ofItems (origin : String) : List Datum → List Tree
  | [] => []
  | d :: rest => ofDatum origin d :: ofItems origin rest

def ofMembers (origin : String) : List (String × Datum) → List (String × Tree)
  | [] => []
  | (name, d) :: rest => (name, ofDatum origin d) :: ofMembers origin rest

end

mutual

def merge (origin name : String) (d : Datum) (t : Tree) : Tree :=
  let name := PathStep.lower name
  match d with
  | .table incoming =>
    put name (mergeAll origin incoming ((lookup name t.members).getD empty)) t
  | d => put name (ofDatum origin d) t

def mergeAll (origin : String) : List (String × Datum) → Tree → Tree
  | [], t => t
  | (name, d) :: rest, t => mergeAll origin rest (merge origin name d t)

end

/-- The place that an index means in a list, and the list made long enough for it. Negative indices
count from the end; a list that is too short for one is made longer at its start. -/
def reach (n : Int) (ts : List Tree) : Nat × List Tree :=
  if n < 0 then
    let missing := (-n).toNat - ts.length
    ((ts.length + n).toNat, List.replicate missing absent ++ ts)
  else (n.toNat, ts ++ List.replicate (n.toNat + 1 - ts.length) absent)

/-- Lays a value over what stands at a path. What is on the way becomes what the path takes it
for. -/
def place (origin : String) (d : Datum) : List PathStep → Tree → Tree
  | [], t => t
  | [.name s], t => merge origin s d t
  | .name s :: path, t => put s (place origin d path ((lookup s t.members).getD absent)) t
  | [.index n], t =>
    let (i, ts) := reach n t.items
    list t.listOrigin (ts.set i (ofDatum origin d))
  | .index n :: path, t =>
    let (i, ts) := reach n t.items
    list t.listOrigin (ts.set i (place origin d path (ts[i]?.getD absent)))

def lay (origin : String) (t : Tree) (source : List (String × Datum)) : Tree :=
  source.foldl (fun t m => place origin m.2 (PathStep.path m.1) t) t

def blame : Tree → Datum × Option String
  | leaf origin d => (d, origin)
  | list origin _ => (.list [], origin)
  | table origin _ => (.table [], origin)

end Tree

end LedgerQuery.Settings
