import LedgerQuery.Number.Shortest

/-!
JSON values. Whole numbers of 64 bits are kept exactly, all other numbers in floating point. The
members of an object are kept in increasing order of their names, each name once.
-/

namespace LedgerQuery

inductive Number where
  | natural (n : Nat)
  | negative (n : Nat)
  | float (x : Binary64)
deriving DecidableEq, Repr, Inhabited

inductive Json where
  | null
  | bool (b : Bool)
  | num (n : Number)
  | str (s : String)
  | arr (items : List Json)
  | obj (members : List (String × Json))
deriving Repr, Inhabited

namespace Number

def text : Number → String
  | natural n => toString n
  | negative n => "-" ++ toString n
  | float x => x.compactText

def same : Number → Number → Bool
  | natural m, natural n => m == n
  | negative m, negative n => m == n
  | float x, float y => x.same y
  | _, _ => false

end Number

namespace Json

def insert (key : String) (value : Json) : List (String × Json) → List (String × Json)
  | [] => [(key, value)]
  | (k, v) :: rest =>
    if key < k then (key, value) :: (k, v) :: rest
    else if key = k then (key, value) :: rest
    else (k, v) :: insert key value rest

/-- The object with these members; of two of one name the later counts. -/
def ofMembers (members : List (String × Json)) : Json :=
  obj (members.foldl (fun acc m => insert m.1 m.2 acc) [])

def lookup (key : String) (members : List (String × Json)) : Option Json :=
  (members.find? (·.1 == key)).map (·.2)

def get? (key : String) : Json → Option Json
  | obj members => lookup key members
  | _ => none

def escapeChar (c : Char) : List Char :=
  match c.toNat with
  | 0x22 => ['\\', '\"']
  | 0x5c => ['\\', '\\']
  | 0x08 => ['\\', 'b']
  | 0x09 => ['\\', 't']
  | 0x0a => ['\\', 'n']
  | 0x0c => ['\\', 'f']
  | 0x0d => ['\\', 'r']
  | n =>
    if n < 0x20 then
      ['\\', 'u', '0', '0', Nat.digitChar (n / 16), Nat.digitChar (n % 16)]
    else [c]

def writeString (s : String) : String :=
  "\"" ++ String.ofList (s.toList.flatMap escapeChar) ++ "\""

mutual

def write : Json → String
  | null => "null"
  | bool true => "true"
  | bool false => "false"
  | num n => n.text
  | str s => writeString s
  | arr items => "[" ++ String.intercalate "," (writeItems items) ++ "]"
  | obj members => "\x7b" ++ String.intercalate "," (writeMembers members) ++ "\x7d"

def writeItems : List Json → List String
  | [] => []
  | j :: rest => write j :: writeItems rest

def writeMembers : List (String × Json) → List String
  | [] => []
  | (k, v) :: rest => (writeString k ++ ":" ++ write v) :: writeMembers rest

end

mutual

def same : Json → Json → Bool
  | null, null => true
  | bool a, bool b => a == b
  | num m, num n => m.same n
  | str s, str t => s == t
  | arr xs, arr ys => sameItems xs ys
  | obj xs, obj ys => sameMembers xs ys
  | _, _ => false

def sameItems : List Json → List Json → Bool
  | [], [] => true
  | x :: xs, y :: ys => same x y && sameItems xs ys
  | _, _ => false

def sameMembers : List (String × Json) → List (String × Json) → Bool
  | [], [] => true
  | (k, x) :: xs, (l, y) :: ys => k == l && same x y && sameMembers xs ys
  | _, _ => false

end

end Json

end LedgerQuery
