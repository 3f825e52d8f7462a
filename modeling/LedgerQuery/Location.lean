/-!
Places of files and directories, and paths. A path is a row of steps from the current directory, or
from the top one if it begins with a slash.
-/

namespace LedgerQuery

inductive Anchor where
  | above (levels : Nat)
  | top
deriving DecidableEq, Repr

structure Location where
  anchor : Anchor := .above 0
  names : List String
deriving DecidableEq, Repr

namespace Location

def current : Location := ⟨.above 0, []⟩

def below (l : Location) (name : String) : Location := { l with names := l.names ++ [name] }

def parent : Location → Location
  | ⟨.above n, []⟩ => ⟨.above (n + 1), []⟩
  | ⟨anchor, names⟩ => ⟨anchor, names.dropLast⟩

def isInside (l : Location) : Bool := l.anchor == .above 0

def text (l : Location) : String := String.intercalate "/" l.names

def ways (l : Location) : List Location :=
  (List.range l.names.length).map fun n => { l with names := l.names.take (n + 1) }

end Location

namespace Path

def maxNameLength : Nat := 255

def maxLength : Nat := 4095

def isUsable (path : String) : Bool := path.utf8ByteSize ≤ maxLength && !path.contains '\x00'

def isName (s : String) : Bool := s.utf8ByteSize ≤ maxNameLength

def start (path : String) : Location :=
  if path.startsWith "/" then ⟨.top, []⟩ else .current

def steps (path : String) : List String := (path.splitOn "/").filter (· != "")

def names (path : String) : List String := (steps path).filter (· != ".")

def join (directory path : String) : String :=
  if path.startsWith "/" then path
  else if directory.isEmpty || directory.endsWith "/" then directory ++ path
  else directory ++ "/" ++ path

end Path

end LedgerQuery
