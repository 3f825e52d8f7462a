import LedgerQuery.Number.Binary64

/-!
Values of TOML documents, and the normal text of dates and times.
-/

namespace LedgerQuery.Toml

structure Date where
  year : Nat
  month : Nat
  day : Nat
deriving DecidableEq, Repr

structure Time where
  hour : Nat
  minute : Nat
  second : Nat
  nanos : Nat
deriving DecidableEq, Repr

inductive Offset where
  | universal
  | minutes (ahead : Bool) (n : Nat)
deriving DecidableEq, Repr

inductive Moment where
  | date (d : Date)
  | time (t : Time)
  | civil (d : Date) (t : Time)
  | offset (d : Date) (t : Time) (o : Offset)
deriving DecidableEq, Repr

inductive Value where
  | string (s : String)
  | integer (n : Int)
  | float (x : Binary64)
  | boolean (b : Bool)
  | moment (m : Moment)
  | array (items : List Value)
  | table (members : List (String × Value))
deriving Repr, Inhabited

def padded (width n : Nat) : String :=
  let ds := Nat.toDigits 10 n
  String.ofList (List.replicate (width - ds.length) '0' ++ ds)

namespace Date

def isLeap (year : Nat) : Bool := year % 4 == 0 && (year % 100 != 0 || year % 400 == 0)

def lastDay (year month : Nat) : Nat :=
  if month = 2 then (if isLeap year then 29 else 28)
  else if month = 4 ∨ month = 6 ∨ month = 9 ∨ month = 11 then 30
  else 31

def isValid (d : Date) : Bool :=
  1 ≤ d.month && d.month ≤ 12 && 1 ≤ d.day && d.day ≤ lastDay d.year d.month

def text (d : Date) : String :=
  padded 4 d.year ++ "-" ++ padded 2 d.month ++ "-" ++ padded 2 d.day

end Date

namespace Time

def fraction (nanos : Nat) : String :=
  let ds := (padded 9 nanos).toList
  String.ofList (ds.reverse.dropWhile (· == '0')).reverse

def text (t : Time) : String :=
  padded 2 t.hour ++ ":" ++ padded 2 t.minute ++ ":" ++ padded 2 t.second
    ++ (if t.nanos = 0 then "" else "." ++ fraction t.nanos)

end Time

namespace Offset

def text : Offset → String
  | universal => "Z"
  | minutes ahead n =>
    (if ahead || n == 0 then "+" else "-") ++ padded 2 (n / 60) ++ ":" ++ padded 2 (n % 60)

end Offset

namespace Moment

def text : Moment → String
  | date d => d.text
  | time t => t.text
  | civil d t => d.text ++ "T" ++ t.text
  | offset d t o => d.text ++ "T" ++ t.text ++ o.text

end Moment

end LedgerQuery.Toml
