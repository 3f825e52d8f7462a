import LedgerQuery.Json.Scan
import LedgerQuery.Number.Word

/-!
Numbers in a JSON text. The digits are gathered into one significand of 64 bits; digits that would
exceed it are dropped and only counted. A number with a point, an exponent or dropped digits is the
floating point significand times or divided by a floating point power of ten.
-/

namespace LedgerQuery.Json

def absorb (m : Nat) : List Nat → Nat × Nat
  | [] => (m, 0)
  | d :: ds => if m * 10 + d ≤ Word.max then absorb (m * 10 + d) ds else (m, ds.length + 1)

def powerOfTen (n : Nat) : Binary64 := .ofNat (Nat.pow 10 n)

def scaleDown (x : Binary64) (n : Nat) : Binary64 :=
  if n ≤ 308 then x.div (powerOfTen n)
  else if x.isZero then x
  else scaleDown (x.div (powerOfTen 308)) (n - 308)
termination_by n

def scale (m : Nat) (e : Int) : Option Binary64 :=
  let x := Binary64.ofNat m
  if e < 0 then some (scaleDown x (-e).toNat)
  else if x.isZero then some x
  else if 308 < e then none
  else
    let y := x.mul (powerOfTen e.toNat)
    if y.isFinite then some y else none

def signed (negative : Bool) (x : Binary64) : Number := .float ⟨negative, x.place⟩

def whole (negative : Bool) (m : Nat) : Number :=
  if !negative then .natural m
  else if m = 0 ∨ Nat.pow 2 63 < m then signed true (.ofNat m)
  else .negative m

namespace Scan

def scaled (s : Scan) (negative : Bool) (m : Nat) (e : Int) : Except Fault (Number × Scan) :=
  match scale m e with
  | some x => .ok (signed negative x, s)
  | none => s.fail .numberOutOfRange

def exponentDigits (line column n : Nat) : List UInt8 → Except Scan (Nat × Scan)
  | [] => .ok (n, ⟨line, column, []⟩)
  | b :: rest =>
    if isDigit b then
      if n * 10 + digitValue b ≤ Nat.pow 2 31 - 1 then
        exponentDigits line (column + 1) (n * 10 + digitValue b) rest
      else .error ⟨line, column + 1, rest⟩
    else .ok (n, ⟨line, column, b :: rest⟩)

def exponent (s : Scan) (negative : Bool) (m : Nat) (e : Int) : Except Fault (Number × Scan) :=
  let s := s.next
  let down := s.peek == some 0x2d
  let s := if down || s.peek == some 0x2b then s.next else s
  match s.peek with
  | none => s.fail .endInValue
  | some b =>
    if isDigit b then
      match exponentDigits s.line s.column 0 s.rest with
      | .ok (n, s) => s.scaled negative m (if down then e - n else e + n)
      | .error s =>
        if m ≠ 0 ∧ !down then s.fail .numberOutOfRange
        else .ok (signed negative .zero, s.digits.2)
    else s.next.fail .invalidNumber

def fraction (s : Scan) (negative : Bool) (m dropped : Nat) : Except Fault (Number × Scan) :=
  let (ds, s) := s.next.digits
  if ds.isEmpty then
    s.failAhead (if s.peek.isSome then .invalidNumber else .endInValue)
  else
    let (m, left) := absorb m ds
    let e : Int := dropped - (ds.length - left : Nat)
    if s.peekExponent then s.exponent negative m e else s.scaled negative m e

def afterWhole (s : Scan) (negative : Bool) (m dropped : Nat) : Except Fault (Number × Scan) :=
  if s.peekPoint then s.fraction negative m dropped
  else if s.peekExponent then s.exponent negative m dropped
  else if dropped = 0 then .ok (whole negative m, s)
  else s.scaled negative m dropped

def number (s : Scan) (negative : Bool) : Except Fault (Number × Scan) :=
  match s.peek with
  | none => s.fail .endInValue
  | some b =>
    if b = 0x30 then
      if s.next.peekDigit then s.next.failAhead .invalidNumber
      else s.next.afterWhole negative 0 0
    else if isDigit b then
      let (ds, s) := s.digits
      let (m, dropped) := absorb 0 ds
      s.afterWhole negative m dropped
    else s.next.fail .invalidNumber

def passExponent (s : Scan) : Except Fault Scan :=
  let s := s.next
  let s := if s.peek == some 0x2d || s.peek == some 0x2b then s.next else s
  if s.peekDigit then .ok s.digits.2 else s.next.fail .invalidNumber

def passNumber (s : Scan) : Except Fault Scan :=
  let afterPoint (s : Scan) : Except Fault Scan :=
    if s.peekExponent then s.passExponent else .ok s
  let afterDigits (s : Scan) : Except Fault Scan :=
    if s.peekPoint then
      let (ds, s) := s.next.digits
      if ds.isEmpty then s.failAhead .invalidNumber else afterPoint s
    else afterPoint s
  if s.peek == some 0x30 then
    if s.next.peekDigit then s.next.failAhead .invalidNumber else afterDigits s.next
  else if s.peekDigit then afterDigits s.digits.2
  else s.next.fail .invalidNumber

end Scan

end LedgerQuery.Json
