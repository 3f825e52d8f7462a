import LedgerQuery.Toml.Basic

/-!
Tables while a document is read. A table knows how it came about, because that decides whether it
may still be extended: a header opens a table once, dotted keys extend only tables of dotted keys,
and a written value is closed.
-/

namespace LedgerQuery.Toml

inductive Rise where
  | header
  | implied
  | dotted
deriving DecidableEq, Repr

inductive Node where
  | value (v : Value)
  | table (rise : Rise) (members : List (String × Node))
  | tables (items : List (List (String × Node)))
deriving Repr, Inhabited

abbrev Members := List (String × Node)

namespace Members

def alter (key : String) (f : Option Node → Option Node) : Members → Option Members
  | [] => (f none).map fun node => [(key, node)]
  | (k, node) :: rest =>
    if k = key then (f (some node)).map fun node => (k, node) :: rest
    else (alter key f rest).map ((k, node) :: ·)

/-- Changes the members of a table on a path. Tables that are not there yet come about as told; in a
list of tables the path goes on in the latest. -/
def within (rise : Rise) (f : Members → Option Members) : List String → Members → Option Members
  | [], ms => f ms
  | key :: path, ms =>
    alter key (fun
      | none => (within rise f path []).map (.table rise)
      | some (.value _) => none
      | some (.table r inner) =>
        if rise = .dotted ∧ r = .header then none
        else (within rise f path inner).map (.table r)
      | some (.tables []) => none
      | some (.tables (latest :: earlier)) =>
        (within rise f path latest).map fun latest => .tables (latest :: earlier)) ms

def addValue (key : String) (v : Value) (ms : Members) : Option Members :=
  alter key (fun
    | none => some (.value v)
    | some _ => none) ms

def addToDotted (key : String) (v : Value) : Option Node → Option Node
  | none => some (.table .dotted [(key, .value v)])
  | some (.table .dotted inner) => (addValue key v inner).map (.table .dotted)
  | some _ => none

def addPair (key : List String) (v : Value) (ms : Members) : Option Members :=
  match key.reverse with
  | [] => none
  | [name] => addValue name v ms
  | name :: last :: path => within .dotted (alter last (addToDotted name v)) path.reverse ms

def raise (name : String) (ms : Members) : Option Members :=
  let others := ms.filter (·.1 != name)
  match (ms.find? (·.1 == name)).map (·.2) with
  | none => some (others ++ [(name, .table .header [])])
  | some (.table .implied inner) => some (others ++ [(name, .table .header inner)])
  | some _ => none

def openTable (path : List String) (ms : Members) : Option Members :=
  match path.reverse with
  | [] => none
  | name :: path => within .implied (raise name) path.reverse ms

def openListed (path : List String) (ms : Members) : Option Members :=
  match path.reverse with
  | [] => none
  | name :: path =>
    within .implied (alter name fun
      | none => some (.tables [[]])
      | some (.tables items) => some (.tables ([] :: items))
      | some _ => none) path.reverse ms

end Members

mutual

def Node.close : Node → Value
  | .value v => v
  | .table _ ms => .table (Node.closeMembers ms)
  | .tables items => .array (Node.closeTables items).reverse

def Node.closeMembers : List (String × Node) → List (String × Value)
  | [] => []
  | (key, node) :: rest => (key, node.close) :: Node.closeMembers rest

def Node.closeTables : List (List (String × Node)) → List Value
  | [] => []
  | ms :: rest => .table (Node.closeMembers ms) :: Node.closeTables rest

end

end LedgerQuery.Toml
