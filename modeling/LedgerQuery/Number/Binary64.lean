/-!
Floating point numbers with 53 significant bits. A magnitude is named by its place in the increasing
list of all magnitudes, so that place order is value order, and its value is a whole number of units
of `2 ^ (-1074)`. All arithmetic is exact arithmetic on units followed by one rounding.
-/

namespace LedgerQuery

/-- A signed magnitude. Place `0` is zero and place `Binary64.infinity` lies beyond all finite
ones. -/
structure Binary64 where
  negative : Bool
  place : Nat
deriving DecidableEq, Repr, Inhabited

namespace Binary64

def binade : Nat := Nat.pow 2 52

def infinity : Nat := 2047 * binade

def undefinedPlace : Nat := infinity + Nat.pow 2 51

def one : Nat := Nat.pow 2 1074

def units (place : Nat) : Nat :=
  if place < binade then place
  else (binade + place % binade) * Nat.pow 2 (place / binade - 1)

def nearest (n d : Nat) : Nat :=
  let q := n / d
  let r := n % d
  if 2 * r < d then q
  else if d < 2 * r then q + 1
  else if q % 2 = 0 then q else q + 1

def placeOf (n d : Nat) : Nat :=
  let e := Nat.log2 (n * one / d) - 52
  min infinity (e * binade + nearest (n * one) (d * Nat.pow 2 e))

def zero : Binary64 := ⟨false, 0⟩

def ofNat (n : Nat) : Binary64 := ⟨false, placeOf n 1⟩

def neg (x : Binary64) : Binary64 := ⟨!x.negative, x.place⟩

def isZero (x : Binary64) : Bool := x.place == 0

def isInfinite (x : Binary64) : Bool := x.place == infinity

def isFinite (x : Binary64) : Bool := x.place < infinity

def same (x y : Binary64) : Bool :=
  x.place ≤ infinity && x.place == y.place && (x.negative == y.negative || x.place == 0)

def mul (x y : Binary64) : Binary64 :=
  ⟨x.negative != y.negative, placeOf (units x.place * units y.place) (one * one)⟩

def div (x y : Binary64) : Binary64 :=
  ⟨x.negative != y.negative, placeOf (units x.place) (units y.place)⟩

/-- The number nearest to `m * 10 ^ e`. Exponents far outside the range are not expanded. -/
def ofDecimal (m : Nat) (e : Int) : Binary64 :=
  if m = 0 then zero
  else
    let top := e + (Nat.log2 m / 3 + 1 : Nat)
    if 400 < e then ⟨false, infinity⟩
    else if top < -400 then zero
    else if 0 ≤ e then ⟨false, placeOf (m * Nat.pow 10 e.toNat) 1⟩
    else ⟨false, placeOf m (Nat.pow 10 (-e).toNat)⟩

def roundAway (x : Binary64) : Nat := (2 * units x.place + one) / (2 * one)

def bits (x : Binary64) : Nat := (if x.negative then Nat.pow 2 63 else 0) + x.place

end Binary64

end LedgerQuery
