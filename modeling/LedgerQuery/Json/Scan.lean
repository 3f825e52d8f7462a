import LedgerQuery.Json.Fault
import LedgerQuery.Text.Utf8

/-!
The rest of a text together with its position, and the smallest steps on it: one byte, blanks,
digits. A fault is reported where the scan stands, one byte further, or some bytes behind.
-/

namespace LedgerQuery.Json

structure Scan where
  line : Nat
  column : Nat
  rest : List UInt8
deriving DecidableEq, Repr

namespace Scan

def start (bytes : List UInt8) : Scan := ⟨1, 0, bytes⟩

def peek (s : Scan) : Option UInt8 := s.rest.head?

def next (s : Scan) : Scan :=
  match s.rest with
  | [] => s
  | b :: rest => if b = 0x0a then ⟨s.line + 1, 0, rest⟩ else ⟨s.line, s.column + 1, rest⟩

def here (s : Scan) : Position := ⟨s.line, s.column⟩

def fail {α : Type} (s : Scan) (cause : Cause) : Except Fault α := .error ⟨cause, s.here⟩

def failAhead {α : Type} (s : Scan) (cause : Cause) : Except Fault α := s.next.fail cause

def failBehind {α : Type} (s : Scan) (n : Nat) (cause : Cause) : Except Fault α :=
  .error ⟨cause, ⟨s.line, s.column - n⟩⟩

def skip (s : Scan) : Nat → Scan
  | 0 => s
  | n + 1 => s.next.skip n

def toEnd (s : Scan) : Scan := s.skip s.rest.length

def blanksFrom (line column : Nat) : List UInt8 → Scan
  | [] => ⟨line, column, []⟩
  | b :: rest =>
    if b = 0x0a then blanksFrom (line + 1) 0 rest
    else if b = 0x20 ∨ b = 0x09 ∨ b = 0x0d then blanksFrom line (column + 1) rest
    else ⟨line, column, b :: rest⟩

def blanks (s : Scan) : Scan := blanksFrom s.line s.column s.rest

def isDigit (b : UInt8) : Bool := 0x30 ≤ b && b ≤ 0x39

def digitValue (b : UInt8) : Nat := b.toNat - 0x30

def spanDigits : List UInt8 → List Nat × List UInt8
  | [] => ([], [])
  | b :: rest =>
    if isDigit b then
      let (ds, tail) := spanDigits rest
      (digitValue b :: ds, tail)
    else ([], b :: rest)

def digits (s : Scan) : List Nat × Scan :=
  let (ds, tail) := spanDigits s.rest
  (ds, ⟨s.line, s.column + ds.length, tail⟩)

def peekDigit (s : Scan) : Bool := s.peek.any isDigit

def peekExponent (s : Scan) : Bool := s.peek.any fun b => b = 0x65 || b = 0x45

def peekPoint (s : Scan) : Bool := s.peek == some 0x2e

def word (s : Scan) : List UInt8 → Except Fault Scan
  | [] => .ok s
  | b :: more =>
    match s.peek with
    | none => s.fail .endInValue
    | some c => if c = b then s.next.word more else s.next.fail .expectedIdent

end Scan

end LedgerQuery.Json
