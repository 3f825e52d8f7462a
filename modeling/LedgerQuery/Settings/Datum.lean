import LedgerQuery.Json.Basic
import LedgerQuery.Number.Word
import LedgerQuery.Text.Natural
import LedgerQuery.Text.Quoted
import LedgerQuery.Toml.Basic

/-!
Values as a source of settings gives them, and what they mean where a number or a text is wanted.
-/

namespace LedgerQuery.Settings

inductive Datum where
  | nothing
  | truth (b : Bool)
  | integer (n : Int)
  | float (x : Binary64)
  | text (s : String)
  | list (items : List Datum)
  | table (members : List (String × Datum))
deriving Repr, Inhabited

inductive Wanted where
  | integer
  | unsigned
  | string
  | map
  | group (name : String)
deriving DecidableEq, Repr

structure Mismatch where
  found : Datum
  wanted : Wanted
  key : Option String := none
  origin : Option String := none
deriving Repr

namespace Datum

mutual

def ofJson : Json → Datum
  | .null => nothing
  | .bool b => truth b
  | .num (.natural n) => if n < Nat.pow 2 63 then integer n else float (.ofNat n)
  | .num (.negative n) => integer (-n)
  | .num (.float x) => float x
  | .str s => text s
  | .arr items => list (ofJsonItems items)
  | .obj members => table (ofJsonMembers members)

def ofJsonItems : List Json → List Datum
  | [] => []
  | j :: rest => ofJson j :: ofJsonItems rest

def ofJsonMembers : List (String × Json) → List (String × Datum)
  | [] => []
  | (key, j) :: rest => (key, ofJson j) :: ofJsonMembers rest

end

mutual

def ofToml : Toml.Value → Datum
  | .string s => text s
  | .integer n => integer n
  | .float x => float x
  | .boolean b => truth b
  | .moment m => text m.text
  | .array items => list (ofTomlItems items)
  | .table members => table (ofTomlMembers members)

def ofTomlItems : List Toml.Value → List Datum
  | [] => []
  | v :: rest => ofToml v :: ofTomlItems rest

def ofTomlMembers : List (String × Toml.Value) → List (String × Datum)
  | [] => []
  | (key, v) :: rest => (key, ofToml v) :: ofTomlMembers rest

end

def describe : Datum → String
  | nothing => "unit value"
  | truth b => "boolean `" ++ toString b ++ "`"
  | integer n => "64-bit integer `" ++ toString n ++ "`"
  | float x => "floating point `" ++ x.plainText ++ "`"
  | text s => "string " ++ Text.quoted s
  | list _ => "sequence"
  | table _ => "map"

def describePlainly : Datum → String
  | integer n => "integer `" ++ toString n ++ "`"
  | float x => "floating point `" ++ x.pointedText ++ "`"
  | d => d.describe

def roundFloat (x : Binary64) : Nat :=
  if x.negative ∨ Binary64.infinity < x.place then 0
  else if x.isInfinite then Word.max
  else min Word.max x.roundAway

def wordNumber? (s : String) : Option Nat :=
  if ["true", "on", "yes"].any (Text.sameLetters s) then some 1
  else if ["false", "off", "no"].any (Text.sameLetters s) then some 0
  else none

def unsigned : Datum → Except Wanted Nat
  | integer n => if n < 0 then .error .unsigned else .ok n.toNat
  | float x => .ok (roundFloat x)
  | truth b => .ok (if b then 1 else 0)
  | text s =>
    match wordNumber? s with
    | some n => .ok n
    | none =>
      match Text.natural64? s with
      | some n => .ok n
      | none => .error .integer
  | _ => .error .integer

def string : Datum → Except Wanted String
  | text s => .ok s
  | truth b => .ok (toString b)
  | integer n => .ok (toString n)
  | float x => .ok x.plainText
  | _ => .error .string

end Datum

namespace Wanted

def describe : Wanted → String
  | integer => "an integer"
  | unsigned => "an unsigned 64 bit or less integer"
  | string => "a string"
  | map => "a map"
  | group name => "struct " ++ name

end Wanted

namespace Mismatch

def message (m : Mismatch) : String :=
  match m.wanted with
  | .group _ => "invalid type: " ++ m.found.describePlainly ++ ", expected " ++ m.wanted.describe
  | _ =>
    "invalid type: " ++ m.found.describe ++ ", expected " ++ m.wanted.describe
      ++ (match m.key with
        | some key => " for key `" ++ key ++ "`"
        | none => "")
      ++ (match m.origin with
        | some origin => " in " ++ origin
        | none => "")

end Mismatch

end LedgerQuery.Settings
