import LedgerQuery.Journal.Filter
import LedgerQuery.Journal.Line
import LedgerQuery.Journal.Stamp
import LedgerQuery.Settings.Basic
import LedgerQuery.Workspace

/-!
Setting up the journal. There is one for the whole program: the first setup that succeeds stays. A
setup that fails may have created its directory or file before.
-/

namespace LedgerQuery

inductive LogSetup where
  | file (path level : String)
  | rolling (settings : LogSettings)
deriving DecidableEq, Repr

inductive SetupError where
  | directory (path : String)
  | file (path : String)
  | level (text : String)
  | alreadySet
deriving DecidableEq, Repr

namespace SetupError

def message : SetupError → String
  | directory path => "Failed to create log directory " ++ path
  | file path => "Failed to create log file " ++ path
  | level text => "Invalid log level '" ++ text ++ "'"
  | alreadySet => "Failed to set global subscriber"

end SetupError

structure Sink where
  file : Location
  fileFilter : Filter
  consoleFilter : Option Filter
deriving Repr

structure Journal where
  workspace : Workspace := {}
  sink : Option Sink := none
deriving Repr, Inhabited

namespace Journal

def levelOf (text : String) : Except SetupError Level :=
  match Level.ofText? text with
  | some level => .ok level
  | none => .error (.level text)

def install (j : Journal) (s : Sink) : Except SetupError Journal :=
  match j.sink with
  | some _ => .error .alreadySet
  | none => .ok { j with sink := some s }

def rolledPath (s : LogSettings) : String :=
  Path.join s.directory
    (if s.filePrefix.isEmpty then Stamp.hour else s.filePrefix ++ "." ++ Stamp.hour)

def openFile (w : Workspace) (path : String) : Workspace × Except SetupError Location :=
  match w.createFile? path with
  | none => (w, .error (.file path))
  | some (w, l) => (w, .ok l)

def openHour (w : Workspace) (s : LogSettings) : Workspace × Except SetupError Location :=
  match w.createFile? (rolledPath s) with
  | some (w, l) => (w, .ok l)
  | none =>
    let (w, _) := w.createHolder (rolledPath s)
    openFile w (rolledPath s)

def openRolled (w : Workspace) (s : LogSettings) : Workspace × Except SetupError Location :=
  match w.createDirectory s.directory with
  | (w, true) => openHour w s
  | (w, false) => (w, .error (.directory s.directory))

/-- Sets the journal up; what was created stays even if the setup fails. -/
def setup (j : Journal) : LogSetup → Journal × Except SetupError Unit
  | .file path level =>
    let (workspace, opened) := openFile j.workspace path
    let j := { j with workspace }
    let result := do
      let file ← opened
      let limit ← levelOf level
      j.install ⟨file, .outcomesAnd limit, none⟩
    match result with
    | .ok j => (j, .ok ())
    | .error e => (j, .error e)
  | .rolling settings =>
    let (workspace, opened) := openRolled j.workspace settings
    let j := { j with workspace }
    let result := do
      let file ← opened
      let fileLimit ← levelOf settings.fileLevel
      let consoleLimit ← levelOf settings.consoleLevel
      j.install ⟨file, .outcomesAnd fileLimit, some (.outcomesAnd consoleLimit)⟩
    match result with
    | .ok j => (j, .ok ())
    | .error e => (j, .error e)

/-- The lines of a file after some events, without their stamps. A further line of a message that
begins like a stamp loses its beginning too. -/
def fileLines (j : Journal) (file : Location) (events : List Event) : List String :=
  match j.sink with
  | none => []
  | some s =>
    if s.file = file then
      (Event.linesOf ((events.filter s.fileFilter.keeps).map Event.fileText)).map Stamp.dropSecond
    else []

def consoleLines (j : Journal) (events : List Event) : List String :=
  match j.sink with
  | none => []
  | some s =>
    match s.consoleFilter with
    | none => []
    | some f => Event.linesOf ((events.filter f.keeps).map Event.consoleText)

def files (j : Journal) (events : List Event) : List (String × List String) :=
  let named := (j.workspace.files.filter (·.isInside)).map fun l =>
    (Stamp.openHour l.text, j.fileLines l events)
  named.mergeSort fun a b => a.1 ≤ b.1

end Journal

end LedgerQuery
