import LedgerQuery.Json.Scan

/-!
Strings in a JSON text. A kept string is unescaped and must then be UTF-8; a passed one only needs
complete escapes and no control characters.
-/

namespace LedgerQuery.Json.Scan

def hexValue (b : UInt8) : Option Nat :=
  if isDigit b then some (digitValue b)
  else if 0x61 ≤ b && b ≤ 0x66 then some (b.toNat - 0x57)
  else if 0x41 ≤ b && b ≤ 0x46 then some (b.toNat - 0x37)
  else none

def hexFour (s : Scan) : Except Fault (Nat × Scan) :=
  match s.rest with
  | a :: b :: c :: d :: _ =>
    match hexValue a, hexValue b, hexValue c, hexValue d with
    | some a, some b, some c, some d => .ok (((a * 16 + b) * 16 + c) * 16 + d, s.skip 4)
    | _, _, _, _ => (s.skip 4).fail .invalidEscape
  | _ => s.toEnd.fail .endInString

def pairByte (s : Scan) (b : UInt8) : Except Fault Scan :=
  match s.peek with
  | none => s.fail .endInString
  | some c => if c = b then .ok s.next else s.next.fail .endOfSurrogate

def escapedPoint (s : Scan) : Except Fault (Char × Scan) := do
  let (n, s) ← s.hexFour
  if 0xdc00 ≤ n ∧ n < 0xe000 then s.fail .loneSurrogate
  else if n < 0xd800 ∨ 0xe000 ≤ n then .ok (Char.ofNat n, s)
  else
    let s ← s.pairByte 0x5c
    let s ← s.pairByte 0x75
    let (m, s) ← s.hexFour
    if 0xdc00 ≤ m ∧ m < 0xe000 then
      .ok (Char.ofNat (0x10000 + (n - 0xd800) * 0x400 + (m - 0xdc00)), s)
    else s.fail .loneSurrogate

def simpleEscape (b : UInt8) : Option UInt8 :=
  if b = 0x22 ∨ b = 0x5c ∨ b = 0x2f then some b
  else if b = 0x62 then some 0x08
  else if b = 0x66 then some 0x0c
  else if b = 0x6e then some 0x0a
  else if b = 0x72 then some 0x0d
  else if b = 0x74 then some 0x09
  else none

def escape (s : Scan) : Except Fault (List UInt8 × Scan) :=
  match s.peek with
  | none => s.fail .endInString
  | some b =>
    match simpleEscape b with
    | some c => .ok ([c], s.next)
    | none =>
      if b = 0x75 then do
        let (c, s) ← s.next.escapedPoint
        .ok (Utf8.encodeChar c, s)
      else s.next.fail .invalidEscape

def stringBytes (s : Scan) (acc : List UInt8) : Nat → Except Fault (List UInt8 × Scan)
  | 0 => s.fail .endInString
  | fuel + 1 =>
    match s.peek with
    | none => s.fail .endInString
    | some b =>
      if b = 0x22 then .ok (acc.reverse, s.next)
      else if b = 0x5c then do
        let (bytes, s) ← s.next.escape
        s.stringBytes (bytes.reverse ++ acc) fuel
      else if b < 0x20 then s.next.fail .controlCharacter
      else s.next.stringBytes (b :: acc) fuel

/-- A string; its opening quote has been read. Where its bytes cease to be text is reported as if
every escape took no more bytes than what it stands for. -/
def string (s : Scan) : Except Fault (String × Scan) := do
  let (bytes, s) ← s.stringBytes [] (s.rest.length + 1)
  match Utf8.toString? bytes with
  | some text => .ok (text, s)
  | none => s.failBehind (bytes.length - Utf8.validLength bytes) .invalidUnicode

def passEscape (s : Scan) : Except Fault Scan :=
  match s.peek with
  | none => s.fail .endInString
  | some b =>
    if (simpleEscape b).isSome then .ok s.next
    else if b = 0x75 then (·.2) <$> s.next.hexFour
    else s.next.fail .invalidEscape

def passStringBytes (s : Scan) : Nat → Except Fault Scan
  | 0 => s.fail .endInString
  | fuel + 1 =>
    match s.peek with
    | none => s.fail .endInString
    | some b =>
      if b = 0x22 then .ok s.next
      else if b = 0x5c then do
        let s ← s.next.passEscape
        s.passStringBytes fuel
      else if b < 0x20 then s.fail .controlCharacter
      else s.next.passStringBytes fuel

def passString (s : Scan) : Except Fault Scan := s.passStringBytes (s.rest.length + 1)

end LedgerQuery.Json.Scan
