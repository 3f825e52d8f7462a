/-!
Stamps of time. A line of a file begins with the second in which it was written, and the name of a
rolled file ends with its hour; neither is told.
-/

namespace LedgerQuery

namespace Stamp

def hasShape : List Char → List Char → Bool
  | [], [] => true
  | s :: shape, c :: cs => (if s = '0' then c.isDigit else c == s) && hasShape shape cs
  | _, _ => false

def second : String := "0000-00-00 00:00:00 "

def hour : String := "0000-00-00-00"

def anyHour : String := "*"

def dropSecond (line : String) : String :=
  let cs := line.toList
  if hasShape second.toList (cs.take second.length) then
    String.ofList (cs.drop second.length)
  else line

def openHour (name : String) : String :=
  let cs := name.toList
  let n := cs.length - hour.length
  if hasShape hour.toList (cs.drop n) then String.ofList (cs.take n) ++ anyHour else name

end Stamp

end LedgerQuery
