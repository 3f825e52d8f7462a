import LedgerQuery.Json.Basic
import LedgerQuery.Text.Quoted

/-!
What can be wrong with a JSON text, and where. Each cause has one wording.
-/

namespace LedgerQuery.Json

inductive Found where
  | null
  | bool (b : Bool)
  | num (n : Number)
  | str (s : String)
  | arr
  | obj
deriving DecidableEq, Repr

def found : Json → Found
  | .null => .null
  | .bool b => .bool b
  | .num n => .num n
  | .str s => .str s
  | .arr _ => .arr
  | .obj _ => .obj

inductive Cause where
  | endInValue
  | endInString
  | endInObject
  | endInList
  | expectedValue
  | expectedIdent
  | expectedColon
  | expectedObjectEnd
  | expectedListEnd
  | keyNotString
  | trailingComma
  | trailingCharacters
  | invalidNumber
  | numberOutOfRange
  | invalidEscape
  | endOfSurrogate
  | loneSurrogate
  | invalidUnicode
  | controlCharacter
  | tooDeep
  | missingField (name : String)
  | duplicateField (name : String)
  | invalidType (found : Found) (expected : String)
  | invalidLength (n : Nat) (expected : String)
deriving DecidableEq, Repr

def Found.text : Found → String
  | null => "null"
  | bool b => "boolean `" ++ toString b ++ "`"
  | num (.float x) => "floating point `" ++ x.compactText ++ "`"
  | num n => "integer `" ++ n.text ++ "`"
  | str s => "string " ++ Text.quoted s
  | arr => "sequence"
  | obj => "map"

def Cause.text : Cause → String
  | endInValue => "EOF while parsing a value"
  | endInString => "EOF while parsing a string"
  | endInObject => "EOF while parsing an object"
  | endInList => "EOF while parsing a list"
  | expectedValue => "expected value"
  | expectedIdent => "expected ident"
  | expectedColon => "expected `:`"
  | expectedObjectEnd => "expected `,` or `\x7d`"
  | expectedListEnd => "expected `,` or `]`"
  | keyNotString => "key must be a string"
  | trailingComma => "trailing comma"
  | trailingCharacters => "trailing characters"
  | invalidNumber => "invalid number"
  | numberOutOfRange => "number out of range"
  | invalidEscape => "invalid escape"
  | endOfSurrogate => "unexpected end of hex escape"
  | loneSurrogate => "lone leading surrogate in hex escape"
  | invalidUnicode => "invalid unicode code point"
  | controlCharacter => "control character (\\u0000-\\u001F) found while parsing a string"
  | tooDeep => "recursion limit exceeded"
  | missingField name => "missing field `" ++ name ++ "`"
  | duplicateField name => "duplicate field `" ++ name ++ "`"
  | invalidType found expected => "invalid type: " ++ found.text ++ ", expected " ++ expected
  | invalidLength n expected => "invalid length " ++ toString n ++ ", expected " ++ expected

structure Position where
  line : Nat
  column : Nat
deriving DecidableEq, Repr

structure Fault where
  cause : Cause
  position : Position
deriving DecidableEq, Repr

def Fault.text (f : Fault) : String :=
  f.cause.text ++ " at line " ++ toString f.position.line ++ " column "
    ++ toString f.position.column

end LedgerQuery.Json
