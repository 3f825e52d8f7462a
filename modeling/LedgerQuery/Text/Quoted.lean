import LedgerQuery.Text.Hidden

/-!
Text in double quotes, as messages show it: quotes and backslashes are escaped, common controls have
a letter, and other characters that would not show are written by number.
-/

namespace LedgerQuery.Text

def hex (n : Nat) : String := String.ofList (Nat.toDigits 16 n)

def quotedChar (c : Char) : String :=
  match c.toNat with
  | 0x00 => "\\0"
  | 0x09 => "\\t"
  | 0x0a => "\\n"
  | 0x0d => "\\r"
  | 0x22 => "\\\""
  | 0x5c => "\\\\"
  | n => if isHidden c then "\\u\x7b" ++ hex n ++ "\x7d" else c.toString

def quoted (s : String) : String :=
  "\"" ++ String.join (s.toList.map quotedChar) ++ "\""

end LedgerQuery.Text
