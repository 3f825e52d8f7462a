import LedgerQuery.Number.Binary64

/-!
The shortest decimal that reads back as a given floating point number. Among the decimals of the
least possible number of digits the one nearest to the number is taken.
-/

namespace LedgerQuery

/-- The decimal `0.d₁d₂…dₙ * 10 ^ point`, without zeros at either end. -/
structure Decimal where
  digits : List Nat
  point : Int
deriving DecidableEq, Repr, Inhabited

namespace Binary64

def tenfold (n : Nat) (k : Int) : Nat × Nat :=
  if 0 ≤ k then (n * Nat.pow 10 k.toNat, 1) else (n, Nat.pow 10 (-k).toNat)

def roundsTo (p d : Nat) (k : Int) : Bool :=
  let (n, m) := tenfold d k
  let x := 2 * n * one
  let low := (units (p - 1) + units p) * m
  let high := (units p + units (p + 1)) * m
  if p % 2 = 0 then low ≤ x && x ≤ high else low < x && x < high

def neighbours (p : Nat) (k : Int) : List Nat :=
  let (n, m) := tenfold (units p) (-k)
  let d := n / (m * one)
  let r := n % (m * one)
  if 2 * r < m * one || (2 * r == m * one && d % 2 == 0) then [d, d + 1] else [d + 1, d]

def leadingExponent (p : Nat) : Int :=
  let guess : Int := ((Nat.log2 (units p) : Int) - 1074) * 30103 / 100000
  let reaches (e : Int) : Bool :=
    let (n, m) := tenfold 1 e
    n * one ≤ units p * m
  if reaches (guess + 1) then guess + 1 else if reaches guess then guess else guess - 1

def search (p : Nat) (k : Int) : Nat → Nat × Int
  | 0 => ((neighbours p k).headD 0, k)
  | fuel + 1 =>
    match (neighbours p k).find? (fun d => d != 0 && roundsTo p d k) with
    | some d => (d, k)
    | none => search p (k - 1) fuel

def digitsOf (n : Nat) : List Nat :=
  (Nat.toDigits 10 n).map fun c => c.toNat - 48

def shortest (p : Nat) : Decimal :=
  let (d, k) := search p (leadingExponent p) 17
  let ds := digitsOf d
  ⟨(ds.reverse.dropWhile (· == 0)).reverse, k + ds.length⟩

end Binary64

namespace Decimal

def text (ds : List Nat) : String :=
  String.ofList (ds.map fun d => Char.ofNat (48 + d))

def zeros (n : Nat) : String := String.ofList (List.replicate n '0')

def positional (d : Decimal) (tail : String) : String :=
  let n := d.digits.length
  if d.point ≤ 0 then "0." ++ zeros (-d.point).toNat ++ text d.digits
  else if (n : Int) ≤ d.point then text d.digits ++ zeros (d.point.toNat - n) ++ tail
  else text (d.digits.take d.point.toNat) ++ "." ++ text (d.digits.drop d.point.toNat)

def scientific (d : Decimal) : String :=
  let head := text (d.digits.take 1)
  let more := d.digits.drop 1
  let exponent := d.point - 1
  head ++ (if more.isEmpty then "" else "." ++ text more) ++
    "e" ++ (if 0 ≤ exponent then "+" else "-") ++ toString exponent.natAbs

end Decimal

namespace Binary64

def signText (x : Binary64) : String := if x.negative then "-" else ""

/-- Text of a finite number with a point or an exponent: positional from `10 ^ (-5)` up to
`10 ^ 16`, scientific outside. -/
def compactText (x : Binary64) : String :=
  if x.place = 0 then signText x ++ "0.0"
  else
    let d := shortest x.place
    signText x ++ (if -5 < d.point ∧ d.point ≤ 16 then d.positional ".0" else d.scientific)

def plainText (x : Binary64) : String :=
  if infinity < x.place then "NaN"
  else if x.place = infinity then signText x ++ "inf"
  else if x.place = 0 then signText x ++ "0"
  else signText x ++ (shortest x.place).positional ""

def pointedText (x : Binary64) : String :=
  if infinity ≤ x.place then plainText x
  else if x.place = 0 then signText x ++ "0.0"
  else signText x ++ (shortest x.place).positional ".0"

end Binary64

end LedgerQuery
