import LedgerQuery.Json.Literal
import LedgerQuery.Json.Numeral

/-!
Reading JSON values. The first fault in reading order is the one reported. Values that are kept nest
at most 127 deep; values that are passed over may nest freely and are checked less strictly.
-/

namespace LedgerQuery.Json.Scan

def levels : Nat := 128

def colon (s : Scan) : Except Fault Scan :=
  let s := s.blanks
  match s.peek with
  | none => s.failAhead .endInObject
  | some b => if b = 0x3a then .ok s.next else s.failAhead .expectedColon

def listGoesOn (s : Scan) (first : Bool) : Except Fault (Bool × Scan) :=
  let s := s.blanks
  match s.peek with
  | none => s.failAhead .endInList
  | some b =>
    if b = 0x5d then .ok (false, s)
    else if first then .ok (true, s)
    else if b = 0x2c then
      let s := s.next.blanks
      match s.peek with
      | none => s.failAhead .endInValue
      | some b => if b = 0x5d then s.failAhead .trailingComma else .ok (true, s)
    else s.failAhead .expectedListEnd

def objectGoesOn (s : Scan) (first : Bool) : Except Fault (Bool × Scan) :=
  let s := s.blanks
  match s.peek with
  | none => s.failAhead .endInObject
  | some b =>
    if b = 0x7d then .ok (false, s)
    else if first then if b = 0x22 then .ok (true, s) else s.failAhead .keyNotString
    else if b = 0x2c then
      let s := s.next.blanks
      match s.peek with
      | none => s.failAhead .endInValue
      | some b =>
        if b = 0x22 then .ok (true, s)
        else if b = 0x7d then s.failAhead .trailingComma
        else s.failAhead .keyNotString
    else s.failAhead .expectedObjectEnd

def scalar (s : Scan) (b : UInt8) : Except Fault (Json × Scan) :=
  if b = 0x6e then do
    let s ← s.next.word [0x75, 0x6c, 0x6c]
    .ok (.null, s)
  else if b = 0x74 then do
    let s ← s.next.word [0x72, 0x75, 0x65]
    .ok (.bool true, s)
  else if b = 0x66 then do
    let s ← s.next.word [0x61, 0x6c, 0x73, 0x65]
    .ok (.bool false, s)
  else if b = 0x2d then do
    let (n, s) ← s.next.number true
    .ok (.num n, s)
  else if isDigit b then do
    let (n, s) ← s.number false
    .ok (.num n, s)
  else if b = 0x22 then do
    let (text, s) ← s.next.string
    .ok (.str text, s)
  else s.failAhead .expectedValue

mutual

def value (s : Scan) (depth : Nat) : Nat → Except Fault (Json × Scan)
  | 0 => s.fail .endInValue
  | fuel + 1 =>
    let s := s.blanks
    match s.peek with
    | none => s.failAhead .endInValue
    | some b =>
      if b = 0x5b then
        if depth ≤ 1 then s.failAhead .tooDeep
        else do
          let (items, s) ← s.next.items (depth - 1) true [] fuel
          .ok (.arr items, s)
      else if b = 0x7b then
        if depth ≤ 1 then s.failAhead .tooDeep
        else do
          let (members, s) ← s.next.members (depth - 1) true [] fuel
          .ok (.obj members, s)
      else s.scalar b

def items (s : Scan) (depth : Nat) (first : Bool) (acc : List Json) :
    Nat → Except Fault (List Json × Scan)
  | 0 => s.fail .endInList
  | fuel + 1 => do
    let (more, s) ← s.listGoesOn first
    if more then
      let (j, s) ← s.value depth fuel
      s.items depth false (j :: acc) fuel
    else .ok (acc.reverse, s.next)

def members (s : Scan) (depth : Nat) (first : Bool) (acc : List (String × Json)) :
    Nat → Except Fault (List (String × Json) × Scan)
  | 0 => s.fail .endInObject
  | fuel + 1 => do
    let (more, s) ← s.objectGoesOn first
    if more then
      let (key, s) ← s.next.string
      let s ← s.colon
      let (j, s) ← s.value depth fuel
      s.members depth false (Json.insert key j acc) fuel
    else .ok (acc, s.next)

end

def passScalar (s : Scan) (b : UInt8) : Except Fault Scan :=
  if b = 0x6e then s.next.word [0x75, 0x6c, 0x6c]
  else if b = 0x74 then s.next.word [0x72, 0x75, 0x65]
  else if b = 0x66 then s.next.word [0x61, 0x6c, 0x73, 0x65]
  else if b = 0x2d then s.next.passNumber
  else if isDigit b then s.passNumber
  else if b = 0x22 then s.next.passString
  else s.failAhead .expectedValue

mutual

def pass (s : Scan) : Nat → Except Fault Scan
  | 0 => s.fail .endInValue
  | fuel + 1 =>
    let s := s.blanks
    match s.peek with
    | none => s.failAhead .endInValue
    | some b =>
      if b = 0x5b then
        let t := s.next.blanks
        if t.peek == some 0x5d then .ok t.next
        else if t.peek == none then t.failAhead .endInList
        else t.passItems fuel
      else if b = 0x7b then
        let t := s.next.blanks
        if t.peek == some 0x7d then .ok t.next
        else t.passMembers fuel
      else s.passScalar b

def passItems (s : Scan) : Nat → Except Fault Scan
  | 0 => s.fail .endInList
  | fuel + 1 => do
    let s ← s.pass fuel
    let s := s.blanks
    match s.peek with
    | none => s.failAhead .endInList
    | some b =>
      if b = 0x2c then s.next.passItems fuel
      else if b = 0x5d then .ok s.next
      else s.failAhead .expectedListEnd

def passMembers (s : Scan) : Nat → Except Fault Scan
  | 0 => s.fail .endInObject
  | fuel + 1 => do
    let s := s.blanks
    match s.peek with
    | none => s.failAhead .endInObject
    | some b =>
      if b = 0x22 then
        let s ← s.next.passString
        let s ← s.colon
        let s ← s.pass fuel
        let s := s.blanks
        match s.peek with
        | none => s.failAhead .endInObject
        | some b =>
          if b = 0x2c then s.next.passMembers fuel
          else if b = 0x7d then .ok s.next
          else s.failAhead .expectedObjectEnd
      else s.failAhead .keyNotString

end

def fuel (s : Scan) : Nat := 2 * s.rest.length + 2

def finish {α : Type} (a : α) (s : Scan) : Except Fault α :=
  let s := s.blanks
  if s.rest.isEmpty then .ok a else s.failAhead .trailingCharacters

end LedgerQuery.Json.Scan

namespace LedgerQuery.Json

def read (bytes : List UInt8) : Except Fault Json := do
  let s := Scan.start bytes
  let (j, s) ← s.value Scan.levels s.fuel
  s.finish j

end LedgerQuery.Json
