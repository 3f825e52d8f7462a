/-!
Characters as bytes. `encode` writes a character list in UTF-8 and `decode` reads it back, refusing
stray bytes, forms longer than needed, surrogates and code points beyond the last one. `mend` reads
whatever there is and marks the places where it is no character.
-/

namespace LedgerQuery.Utf8

def trail (n : Nat) : UInt8 := UInt8.ofNat (0x80 + n % 0x40)

def encodeChar (c : Char) : List UInt8 :=
  let n := c.toNat
  if n < 0x80 then [UInt8.ofNat n]
  else if n < 0x800 then [UInt8.ofNat (0xc0 + n / 0x40), trail n]
  else if n < 0x10000 then [UInt8.ofNat (0xe0 + n / 0x1000), trail (n / 0x40), trail n]
  else [UInt8.ofNat (0xf0 + n / 0x40000), trail (n / 0x1000), trail (n / 0x40), trail n]

def encode (cs : List Char) : List UInt8 := cs.flatMap encodeChar

def isTrail (b : UInt8) : Bool := 0x80 ≤ b && b < 0xc0

def join (lead : Nat) (trails : List UInt8) : Nat :=
  trails.foldl (fun n b => n * 0x40 + (b.toNat - 0x80)) lead

def decode : List UInt8 → Option (List Char)
  | [] => some []
  | a :: rest =>
    if a < 0x80 then (decode rest).map (Char.ofNat a.toNat :: ·)
    else if a < 0xc2 then none
    else if a < 0xe0 then
      match rest with
      | b :: rest =>
        if isTrail b then (decode rest).map (Char.ofNat (join (a.toNat - 0xc0) [b]) :: ·) else none
      | _ => none
    else if a < 0xf0 then
      match rest with
      | b :: c :: rest =>
        let n := join (a.toNat - 0xe0) [b, c]
        if isTrail b && isTrail c && 0x800 ≤ n && !(0xd800 ≤ n && n < 0xe000) then
          (decode rest).map (Char.ofNat n :: ·)
        else none
      | _ => none
    else if a < 0xf5 then
      match rest with
      | b :: c :: d :: rest =>
        let n := join (a.toNat - 0xf0) [b, c, d]
        if isTrail b && isTrail c && isTrail d && 0x10000 ≤ n && n < 0x110000 then
          (decode rest).map (Char.ofNat n :: ·)
        else none
      | _ => none
    else none

def trailCount? (a : UInt8) : Option Nat :=
  if a < 0x80 then some 0
  else if a < 0xc2 then none
  else if a < 0xe0 then some 1
  else if a < 0xf0 then some 2
  else if a < 0xf5 then some 3
  else none

def mayFollow (a b : UInt8) : Bool :=
  isTrail b &&
    (if a = 0xe0 then 0xa0 ≤ b
    else if a = 0xed then b < 0xa0
    else if a = 0xf0 then 0x90 ≤ b
    else if a = 0xf4 then b < 0x90
    else true)

/-- The length of the beginning of a character at the start of some bytes, and whether it is the
whole character. A byte with which no character begins stands alone. -/
def beginning : List UInt8 → Nat × Bool
  | [] => (0, false)
  | [a] => (1, trailCount? a == some 0)
  | a :: b :: rest =>
    match trailCount? a with
    | none => (1, false)
    | some 0 => (1, true)
    | some (n + 1) =>
      if mayFollow a b then
        let k := ((rest.take n).takeWhile isTrail).length
        (k + 2, k == n)
      else (1, false)

def validFrom : Nat → List UInt8 → Nat
  | 0, _ => 0
  | fuel + 1, bytes =>
    let (n, whole) := beginning bytes
    if whole then n + validFrom fuel (bytes.drop n) else 0

def validLength (bytes : List UInt8) : Nat := validFrom bytes.length bytes

def mendFrom : Nat → List UInt8 → List Char
  | 0, _ => []
  | _, [] => []
  | fuel + 1, bytes =>
    let (n, whole) := beginning bytes
    (if whole then (decode (bytes.take n)).getD [] else ['\ufffd']) ++ mendFrom fuel (bytes.drop n)

def mend (bytes : List UInt8) : String := String.ofList (mendFrom bytes.length bytes)

def ofString (s : String) : List UInt8 := encode s.toList

def toString? (bytes : List UInt8) : Option String := (decode bytes).map String.ofList

end LedgerQuery.Utf8
