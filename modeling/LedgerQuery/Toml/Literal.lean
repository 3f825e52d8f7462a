import LedgerQuery.Toml.Basic

/-!
The smallest parts of a TOML text: blanks, comments, line ends, strings, numbers and moments. Every
reader takes a text and returns what it read and the rest, or nothing if it cannot read.
-/

namespace LedgerQuery.Toml

def isBlank (c : Char) : Bool := c == ' ' || c == '\t'

def skipBlanks (cs : List Char) : List Char := cs.dropWhile isBlank

def isPrintable (c : Char) : Bool := c == '\t' || (' ' ≤ c && c != '\x7f')

def lineEnd : List Char → Option (List Char)
  | '\n' :: rest => some rest
  | '\r' :: '\n' :: rest => some rest
  | _ => none

def skipComment : List Char → List Char
  | '#' :: rest => rest.dropWhile isPrintable
  | cs => cs

def finishLine (cs : List Char) : Option (List Char) :=
  match skipComment (skipBlanks cs) with
  | [] => some []
  | cs => lineEnd cs

def skipTrivia : Nat → List Char → List Char
  | 0, cs => cs
  | fuel + 1, cs =>
    let cs := skipComment (skipBlanks cs)
    match lineEnd cs with
    | some rest => skipTrivia fuel rest
    | none => cs

/-! ### Strings -/

def hexValue (c : Char) : Option Nat :=
  if '0' ≤ c ∧ c ≤ '9' then some (c.toNat - 0x30)
  else if 'a' ≤ c ∧ c ≤ 'f' then some (c.toNat - 0x57)
  else if 'A' ≤ c ∧ c ≤ 'F' then some (c.toNat - 0x37)
  else none

def codePoint (n : Nat) : Nat → List Char → Option (Char × List Char)
  | 0, cs => if n.isValidChar then some (Char.ofNat n, cs) else none
  | k + 1, c :: rest =>
    match hexValue c with
    | some d => codePoint (n * 16 + d) k rest
    | none => none
  | _ + 1, [] => none

def escape : List Char → Option (Char × List Char)
  | 'b' :: rest => some ('\x08', rest)
  | 't' :: rest => some ('\t', rest)
  | 'n' :: rest => some ('\n', rest)
  | 'f' :: rest => some ('\x0c', rest)
  | 'r' :: rest => some ('\r', rest)
  | '"' :: rest => some ('"', rest)
  | '\\' :: rest => some ('\\', rest)
  | 'u' :: rest => codePoint 0 4 rest
  | 'U' :: rest => codePoint 0 8 rest
  | _ => none

def basicString (acc : List Char) : Nat → List Char → Option (String × List Char)
  | 0, _ => none
  | fuel + 1, cs =>
    match cs with
    | '"' :: rest => some (String.ofList acc.reverse, rest)
    | '\\' :: rest =>
      match escape rest with
      | some (c, rest) => basicString (c :: acc) fuel rest
      | none => none
    | c :: rest => if isPrintable c then basicString (c :: acc) fuel rest else none
    | [] => none

def literalString (acc : List Char) : List Char → Option (String × List Char)
  | '\'' :: rest => some (String.ofList acc.reverse, rest)
  | c :: rest => if isPrintable c then literalString (c :: acc) rest else none
  | [] => none

def skipLines : Nat → List Char → List Char
  | 0, cs => cs
  | fuel + 1, cs =>
    match lineEnd (skipBlanks cs) with
    | some rest => skipLines fuel rest
    | none => skipBlanks cs

def joinLines (cs : List Char) : Option (List Char) :=
  (lineEnd (skipBlanks cs)).map fun rest => skipLines rest.length rest

/-- What a run of so many quotes in a string of several lines means: content only, or content and
then the end of the string, of which up to two quotes more than the end itself belong to it. -/
def quoteRun (n : Nat) : Nat × Bool := if n < 3 then (n, false) else (min (n - 3) 2, true)

def multilineString (quote : Char) (acc : List Char) : Nat → List Char → Option (String × List Char)
  | 0, _ => none
  | fuel + 1, cs =>
    match cs with
    | [] => none
    | c :: rest =>
      if c = quote then
        let (content, ends) := quoteRun (cs.takeWhile (· == quote)).length
        let acc := List.replicate content quote ++ acc
        if ends then some (String.ofList acc.reverse, cs.drop (content + 3))
        else multilineString quote acc fuel (cs.drop content)
      else
        match lineEnd cs with
        | some rest => multilineString quote ('\n' :: acc) fuel rest
        | none =>
          if c = '\\' ∧ quote = '"' then
            match joinLines rest with
            | some rest => multilineString quote acc fuel rest
            | none =>
              match escape rest with
              | some (d, rest) => multilineString quote (d :: acc) fuel rest
              | none => none
          else if isPrintable c then multilineString quote (c :: acc) fuel rest
          else none

def openMultiline (quote : Char) (cs : List Char) : Option (String × List Char) :=
  multilineString quote [] (cs.length + 1) ((lineEnd cs).getD cs)

def string : List Char → Option (String × List Char)
  | '"' :: '"' :: '"' :: rest => openMultiline '"' rest
  | '\'' :: '\'' :: '\'' :: rest => openMultiline '\'' rest
  | '"' :: rest => basicString [] (rest.length + 1) rest
  | '\'' :: rest => literalString [] rest
  | _ => none

/-! ### Numbers -/

def digitRun (isDigit : Char → Bool) : List Char → List Char × List Char
  | [] => ([], [])
  | c :: rest =>
    if isDigit c then
      let (ds, tail) := digitRun isDigit rest
      (c :: ds, tail)
    else if c = '_' ∧ rest.head?.any isDigit then digitRun isDigit rest
    else ([], c :: rest)

def digits (isDigit : Char → Bool) (cs : List Char) : Option (List Char × List Char) :=
  if cs.head?.any isDigit then some (digitRun isDigit cs) else none

def valueOf (base : Nat) (ds : List Char) : Nat :=
  ds.foldl (fun n d => n * base + (hexValue d).getD 0) 0

def sign : List Char → Bool × List Char
  | '-' :: rest => (true, rest)
  | '+' :: rest => (false, rest)
  | cs => (false, cs)

def decimalDigits : List Char → Option (List Char × List Char)
  | '0' :: rest => some (['0'], rest)
  | cs => digits Char.isDigit cs

def isHexDigit (c : Char) : Bool := (hexValue c).isSome

def based (base : Nat) (isDigit : Char → Bool) (cs : List Char) : Option (Int × List Char) := do
  let (ds, rest) ← digits isDigit cs
  let n := valueOf base ds
  if n < Nat.pow 2 63 then some ((n : Int), rest) else none

def integer : List Char → Option (Int × List Char)
  | '0' :: 'x' :: rest => based 16 isHexDigit rest
  | '0' :: 'o' :: rest => based 8 (fun c => '0' ≤ c && c ≤ '7') rest
  | '0' :: 'b' :: rest => based 2 (fun c => c == '0' || c == '1') rest
  | cs => do
    let (negative, cs) := sign cs
    let (ds, rest) ← decimalDigits cs
    let n := valueOf 10 ds
    if negative then (if n ≤ Nat.pow 2 63 then some (-(n : Int), rest) else none)
    else if n < Nat.pow 2 63 then some ((n : Int), rest)
    else none

def fractionPart : List Char → Option (List Char × List Char)
  | '.' :: rest => digits Char.isDigit rest
  | cs => some ([], cs)

def exponentPart (cs : List Char) : Option (Option Int × List Char) :=
  match cs with
  | [] => some (none, [])
  | c :: rest =>
    if c = 'e' ∨ c = 'E' then do
      let (negative, rest) := sign rest
      let (ds, rest) ← digits Char.isDigit rest
      let n : Int := valueOf 10 ds
      some (some (if negative then -n else n), rest)
    else some (none, cs)

def specialFloat (cs : List Char) : Option (Binary64 × List Char) :=
  let (negative, cs) := sign cs
  match cs with
  | 'i' :: 'n' :: 'f' :: rest => some (⟨negative, Binary64.infinity⟩, rest)
  | 'n' :: 'a' :: 'n' :: rest => some (⟨negative, Binary64.undefinedPlace⟩, rest)
  | _ => none

def decimalFloat (cs : List Char) : Option (Binary64 × List Char) := do
  let (negative, cs) := sign cs
  let (whole, cs) ← decimalDigits cs
  let (fraction, cs) ← fractionPart cs
  let (exponent, cs) ← exponentPart cs
  if fraction.isEmpty && exponent.isNone then none
  else
    let x := Binary64.ofDecimal (valueOf 10 (whole ++ fraction)) (exponent.getD 0 - fraction.length)
    if x.isInfinite && !negative then none else some (⟨negative, x.place⟩, cs)

/-! ### Moments -/

def fixedDigits (n : Nat) : Nat → List Char → Option (Nat × List Char)
  | 0, cs => some (n, cs)
  | k + 1, c :: rest => if c.isDigit then fixedDigits (n * 10 + (c.toNat - 48)) k rest else none
  | _ + 1, [] => none

def skipChar (c : Char) : List Char → Option (List Char)
  | d :: rest => if d = c then some rest else none
  | [] => none

def date (cs : List Char) : Option (Date × List Char) := do
  let (year, cs) ← fixedDigits 0 4 cs
  let cs ← skipChar '-' cs
  let (month, cs) ← fixedDigits 0 2 cs
  let cs ← skipChar '-' cs
  let (day, cs) ← fixedDigits 0 2 cs
  let d : Date := ⟨year, month, day⟩
  if d.isValid then some (d, cs) else none

def secondFraction : List Char → Option (Nat × List Char)
  | '.' :: rest =>
    let ds := rest.takeWhile Char.isDigit
    if ds.isEmpty then none
    else
      let kept := ds.take 9
      some (valueOf 10 kept * Nat.pow 10 (9 - kept.length), rest.dropWhile Char.isDigit)
  | cs => some (0, cs)

def time (cs : List Char) : Option (Time × List Char) := do
  let (hour, cs) ← fixedDigits 0 2 cs
  let cs ← skipChar ':' cs
  let (minute, cs) ← fixedDigits 0 2 cs
  let cs ← skipChar ':' cs
  let (second, cs) ← fixedDigits 0 2 cs
  let (nanos, cs) ← secondFraction cs
  if hour ≤ 23 && minute ≤ 59 && second ≤ 60 then some (⟨hour, minute, second, nanos⟩, cs)
  else none

def offset (cs : List Char) : Option (Option Offset × List Char) :=
  match cs with
  | [] => some (none, [])
  | c :: rest =>
    if c = 'Z' ∨ c = 'z' then some (some .universal, rest)
    else if c = '+' ∨ c = '-' then do
      let (hours, rest) ← fixedDigits 0 2 rest
      let rest ← skipChar ':' rest
      let (minutes, rest) ← fixedDigits 0 2 rest
      if hours ≤ 23 && minutes ≤ 59 then
        some (some (.minutes (c == '+') (hours * 60 + minutes)), rest)
      else none
    else some (none, cs)

def isTimeMark (c : Char) : Bool := c == 'T' || c == 't' || c == ' '

def afterDate (d : Date) (cs : List Char) : Option (Moment × List Char) :=
  let timed : Option (Time × List Char) :=
    match cs with
    | c :: rest => if isTimeMark c then time rest else none
    | [] => none
  match timed with
  | none => some (.date d, cs)
  | some (t, rest) => do
    let (o, rest) ← offset rest
    match o with
    | none => some (.civil d t, rest)
    | some o => some (.offset d t o, rest)

def moment (cs : List Char) : Option (Moment × List Char) :=
  match date cs with
  | some (d, rest) => afterDate d rest
  | none => (time cs).map fun (t, rest) => (.time t, rest)

def Moment.ofText? (s : String) : Option Moment :=
  match Toml.moment s.toList with
  | some (m, []) => some m
  | _ => none

/-! ### Scalars -/

def scalar (cs : List Char) : Option (Value × List Char) :=
  match cs with
  | 't' :: 'r' :: 'u' :: 'e' :: rest => some (.boolean true, rest)
  | 'f' :: 'a' :: 'l' :: 's' :: 'e' :: rest => some (.boolean false, rest)
  | _ =>
    match moment cs with
    | some (m, rest) => some (.moment m, rest)
    | none =>
      match specialFloat cs with
      | some (x, rest) => some (.float x, rest)
      | none =>
        match decimalFloat cs with
        | some (x, rest) => some (.float x, rest)
        | none => (integer cs).map fun (n, rest) => (.integer n, rest)

end LedgerQuery.Toml
