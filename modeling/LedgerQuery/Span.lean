/-!
Spans of time, counted in nanoseconds.
-/

namespace LedgerQuery

structure Span where
  nanos : Nat
deriving DecidableEq, Repr, Inhabited

namespace Span

def perSecond : Nat := 1000000000

def perMilli : Nat := 1000000

def ofSeconds (n : Nat) : Span := ⟨n * perSecond⟩

def ofMillis (n : Nat) : Span := ⟨n * perMilli⟩

def zero : Span := ⟨0⟩

instance : Add Span := ⟨fun d e => ⟨d.nanos + e.nanos⟩⟩

instance : LT Span := ⟨fun d e => d.nanos < e.nanos⟩

instance : LE Span := ⟨fun d e => d.nanos ≤ e.nanos⟩

instance (d e : Span) : Decidable (d < e) := inferInstanceAs (Decidable (d.nanos < e.nanos))

instance (d e : Span) : Decidable (d ≤ e) := inferInstanceAs (Decidable (d.nanos ≤ e.nanos))

def seconds (d : Span) : Nat := d.nanos / perSecond

def subsecond (d : Span) : Nat := d.nanos % perSecond

def millis (d : Span) : Nat := d.nanos / perMilli

def fractionDigits (n places : Nat) : List Char :=
  let ds := Nat.toDigits 10 n
  let padded := List.replicate (places - ds.length) '0' ++ ds
  (padded.reverse.dropWhile (· == '0')).reverse

def inUnit (nanos places : Nat) (unit : String) : String :=
  let part := fractionDigits (nanos % Nat.pow 10 places) places
  toString (nanos / Nat.pow 10 places) ++ (if part.isEmpty then "" else "." ++ String.ofList part) ++ unit

def text (d : Span) : String :=
  if perSecond ≤ d.nanos then inUnit d.nanos 9 "s"
  else if perMilli ≤ d.nanos then inUnit d.nanos 6 "ms"
  else if 1000 ≤ d.nanos then inUnit d.nanos 3 "µs"
  else inUnit d.nanos 0 "ns"

end Span

end LedgerQuery
