import LedgerQuery.Json.Reader

/-!
Reading a text straight into a record. A record may be written as an object, its fields in any order
and unknown ones passed over, or as a list of its fields in their order. What is wrong with a value
is reported as soon as the value has begun, what is wrong with the record once its end was tried.
-/

namespace LedgerQuery.Json

namespace Scan

/-- Reads past a value of the wrong kind: a scalar as a whole, of a container nothing. -/
def mismatch {α : Type} (s : Scan) (expected : String) : Except Fault α :=
  match s.peek with
  | none => s.failAhead .expectedValue
  | some b =>
    if b = 0x5b then s.fail (.invalidType .arr expected)
    else if b = 0x7b then s.fail (.invalidType .obj expected)
    else do
      let (j, s) ← s.scalar b
      s.fail (.invalidType j.found expected)

def closeObject (s : Scan) : Scan :=
  let s := s.blanks
  if s.peek == some 0x7d then s.next else s

def closeList (s : Scan) : Scan :=
  let s := s.blanks
  if s.peek == some 0x5d then s.next
  else if s.peek == some 0x2c then s.next.blanks
  else s

def endList (s : Scan) : Except Fault Scan :=
  let s := s.blanks
  match s.peek with
  | none => s.failAhead .endInList
  | some b =>
    if b = 0x5d then .ok s.next
    else if b = 0x2c then
      let s := s.next.blanks
      s.failAhead (if s.peek == some 0x5d then .trailingComma else .trailingCharacters)
    else s.failAhead .trailingCharacters

def text (s : Scan) : Except Fault (String × Scan) :=
  let s := s.blanks
  match s.peek with
  | none => s.failAhead .endInValue
  | some b => if b = 0x22 then s.next.string else s.mismatch "a string"

def object (s : Scan) (depth : Nat) : Except Fault (List (String × Json) × Scan) :=
  let s := s.blanks
  match s.peek with
  | none => s.failAhead .endInValue
  | some b =>
    if b = 0x7b then
      if depth ≤ 1 then s.failAhead .tooDeep else s.next.members (depth - 1) true [] s.fuel
    else s.mismatch "a map"

def optional {α : Type} (s : Scan) (read : Scan → Except Fault (α × Scan)) :
    Except Fault (Option α × Scan) :=
  let s := s.blanks
  if s.peek == some 0x6e then do
    let s ← s.next.word [0x75, 0x6c, 0x6c]
    .ok (none, s)
  else do
    let (a, s) ← read s
    .ok (some a, s)

end Scan

structure Field (σ : Type) where
  name : String
  filled : σ → Bool
  read : Nat → σ → Scan → Except Fault (σ × Scan)
  -- what is stored when an object lacks the field, and when a list ends before it, if they may
  missing : Option (σ → σ)
  short : Option (σ → σ)

structure Record (σ : Type) where
  name : String
  empty : σ
  fields : List (Field σ)

namespace Record

variable {σ : Type}

def expected (r : Record σ) : String := "struct " ++ r.name

def expectedLength (r : Record σ) : String :=
  let n := r.fields.length
  r.expected ++ " with " ++ toString n ++ (if n = 1 then " element" else " elements")

def complete (a : σ) : List (Field σ) → Except String σ
  | [] => .ok a
  | f :: rest =>
    if f.filled a then complete a rest
    else
      match f.missing with
      | some store => complete (store a) rest
      | none => .error f.name

def named (r : Record σ) (depth : Nat) (a : σ) (s : Scan) (first : Bool) :
    Nat → Except Fault (σ × Scan)
  | 0 => s.fail .endInObject
  | fuel + 1 => do
    let (more, s) ← s.objectGoesOn first
    if more then
      let (key, s) ← s.next.string
      match r.fields.find? (·.name == key) with
      | none =>
        let s ← s.colon
        let s ← s.pass s.fuel
        r.named depth a s false fuel
      | some f =>
        if f.filled a then s.closeObject.fail (.duplicateField key)
        else
          let s ← s.colon
          let (a, s) ← f.read depth a s
          r.named depth a s false fuel
    else
      match complete a r.fields with
      | .ok a => .ok (a, s.next)
      | .error name => s.closeObject.fail (.missingField name)

def listed (r : Record σ) (depth : Nat) (a : σ) (s : Scan) (n : Nat) :
    List (Field σ) → Except Fault (σ × Scan)
  | [] => do
    let s ← s.endList
    .ok (a, s)
  | f :: rest => do
    let (more, s) ← s.listGoesOn (n == 0)
    if more then
      let (a, s) ← f.read depth a s
      r.listed depth a s (n + 1) rest
    else
      match f.short with
      | some store => r.listed depth (store a) s n rest
      | none => s.closeList.fail (.invalidLength n r.expectedLength)

def read (r : Record σ) (depth : Nat) (s : Scan) : Except Fault (σ × Scan) :=
  let s := s.blanks
  match s.peek with
  | none => s.failAhead .endInValue
  | some b =>
    if b = 0x5b then
      if depth ≤ 1 then s.failAhead .tooDeep else r.listed (depth - 1) r.empty s.next 0 r.fields
    else if b = 0x7b then
      if depth ≤ 1 then s.failAhead .tooDeep
      else r.named (depth - 1) r.empty s.next true s.fuel
    else s.mismatch r.expected

def readAll (r : Record σ) (bytes : List UInt8) : Except Fault σ := do
  let (a, s) ← r.read Scan.levels (Scan.start bytes)
  s.finish a

end Record

end LedgerQuery.Json
