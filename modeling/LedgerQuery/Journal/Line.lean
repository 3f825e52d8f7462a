import LedgerQuery.Journal.Event
import LedgerQuery.Text.Replace

/-!
How events are written. A file names level and target; the console shows the message, with a
coloured level if it is grave, and with the words of success and failure painted.
-/

namespace LedgerQuery

namespace Event

def escape : String := "\x1b["

def paint (style text : String) : String := escape ++ style ++ "m" ++ text ++ escape ++ "0m"

def successWord : String := "SUCCESS"

def failureWord : String := "FAILED"

def bold (color word : String) : String := paint ("1;" ++ color) word

def successColor : String := "92"

def failureColor : String := "91"

def highlight (word color text : String) : String :=
  String.ofList (Text.replaceWord word.toList (bold color word).toList text.toList)

/-- Paints the word of success, or that of failure where there is no success. -/
def colorize (text : String) : String :=
  if Text.occurs successWord.toList text.toList then highlight successWord successColor text
  else if Text.occurs failureWord.toList text.toList then highlight failureWord failureColor text
  else text

def fileText (e : Event) : String :=
  "[" ++ e.level.name ++ "] " ++ e.target ++ ": " ++ e.message

def consoleText (e : Event) : String :=
  (if e.level.atLeast .warn then "[" ++ paint "33" e.level.name ++ "] " else "")
    ++ colorize e.message

def lines (cs line : List Char) : List String :=
  match cs with
  | [] => []
  | '\n' :: rest =>
    let line :=
      match line with
      | '\r' :: before => before
      | line => line
    String.ofList line.reverse :: lines rest []
  | c :: rest => lines rest (c :: line)

def linesOf (entries : List String) : List String :=
  entries.flatMap fun entry => lines (entry.toList ++ ['\n']) []

end Event

end LedgerQuery
