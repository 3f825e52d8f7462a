import LedgerQuery.Number.Word

/-!
Natural numbers of 64 bits in decimal text.
-/

namespace LedgerQuery.Text

def natural64Digits (ds : List Char) : Option Nat :=
  if ds.isEmpty || !ds.all Char.isDigit then none
  else
    let n := ds.foldl (fun n d => n * 10 + (d.toNat - 48)) 0
    if n ≤ Word.max then some n else none

def natural64? (s : String) : Option Nat :=
  match s.toList with
  | '+' :: ds => natural64Digits ds
  | ds => natural64Digits ds

def sameLetters (s t : String) : Bool := s.toLower == t.toLower

end LedgerQuery.Text
