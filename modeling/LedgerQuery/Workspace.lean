import LedgerQuery.Location

/-!
The files and directories around the current directory: which exist, which can be created, and what
a path leads to. All files are empty at first.
-/

namespace LedgerQuery

structure Workspace where
  files : List Location := []
  directories : List Location := []
deriving DecidableEq, Repr, Inhabited

namespace Workspace

inductive Kind where
  | file
  | directory
  | device
deriving DecidableEq, Repr

inductive Obstacle where
  | missing
  | blocked
deriving DecidableEq, Repr

def fromTop (names : List String) : Location := ⟨.top, names⟩

def commonDirectories : List Location :=
  ["bin", "boot", "dev", "etc", "home", "lib", "media", "mnt", "opt", "proc", "root", "run", "sbin",
    "srv", "sys", "tmp", "usr", "var"].map (fun name => fromTop [name]) ++
  [fromTop ["usr", "bin"], fromTop ["usr", "lib"], fromTop ["var", "log"], fromTop ["var", "tmp"]]

def commonFiles : List Location :=
  ["group", "hostname", "hosts", "passwd"].map fun name => fromTop ["etc", name]

def devices : List Location :=
  ["full", "null", "random", "stderr", "stdout", "urandom", "zero"].map fun name =>
    fromTop ["dev", name]

def isSealed (l : Location) : Bool :=
  l.anchor == .top && (l.names.head? == some "proc" || l.names.head? == some "sys")

def kind? (w : Workspace) (l : Location) : Option Kind :=
  if l.names.isEmpty || w.directories.contains l || commonDirectories.contains l then
    some .directory
  else if w.files.contains l || commonFiles.contains l then some .file
  else if devices.contains l then some .device
  else none

def walk (w : Workspace) : Location → List String → Except Obstacle Location
  | l, [] => .ok l
  | l, step :: rest =>
    if step = "." then walk w l rest
    else if step = ".." then walk w l.parent rest
    else if !Path.isName step then .error .blocked
    else
      match w.kind? (l.below step) with
      | some .directory => walk w (l.below step) rest
      | some _ => .error .blocked
      | none => .error .missing

def reach (w : Workspace) (l : Location) (steps : List String) :
    Except Obstacle (Location × Option Kind) :=
  match steps.reverse with
  | [] => .ok (l, some .directory)
  | last :: way => do
    let l ← w.walk l way.reverse
    if last = "." then .ok (l, some .directory)
    else if last = ".." then .ok (l.parent, some .directory)
    else if !Path.isName last then .error .blocked
    else .ok (l.below last, w.kind? (l.below last))

def put (w : Workspace) (l : Location) : Workspace where
  files := if w.files.contains l then w.files else w.files ++ [l]
  directories := w.directories ++ l.parent.ways.filter (!w.directories.contains ·)

def place (path : String) : Location := { Path.start path with names := Path.names path }

def touch (w : Workspace) (path : String) : Workspace := w.put (place path)

def createOne (w : Workspace) (l : Location) (steps : List String) : Except Obstacle Workspace := do
  let (place, kind) ← w.reach l steps
  match kind with
  | none =>
    if isSealed place then .error .blocked
    else .ok { w with directories := w.directories ++ [place] }
  | some .directory => .ok w
  | some _ => .error .blocked

/-- Creates the directory of the first row of steps. If something on its way is missing, that of the
next row is created before it. What was created stays even if the last creation fails. -/
def createAll (w : Workspace) (l : Location) : List (List String) → Workspace × Bool
  | [] => (w, true)
  | steps :: shorter =>
    match w.createOne l steps with
    | .ok w => (w, true)
    | .error .blocked => (w, false)
    | .error .missing =>
      match createAll w l shorter with
      | (w, false) => (w, false)
      | (w, true) =>
        match w.createOne l steps with
        | .ok w => (w, true)
        | .error _ => (w, false)

def shortened (names : List String) : List (List String) :=
  ((List.range names.length).reverse.filter (0 < ·)).map names.take

def createDirectory (w : Workspace) (path : String) : Workspace × Bool :=
  if path.isEmpty then (w, true)
  else if !Path.isUsable path then (w, false)
  else w.createAll (Path.start path) (Path.steps path :: shortened (Path.names path))

def createHolder (w : Workspace) (path : String) : Workspace × Bool :=
  w.createAll (Path.start path) (shortened (Path.names path))

def createFile? (w : Workspace) (path : String) : Option (Workspace × Location) :=
  if path.isEmpty || path.endsWith "/" || !Path.isUsable path then none
  else
    match w.reach (Path.start path) (Path.steps path) with
    | .ok (l, none) => if isSealed l then none else some ({ w with files := w.files ++ [l] }, l)
    | .ok (_, some .directory) => none
    | .ok (l, some _) => some (w, l)
    | .error _ => none

def file? (w : Workspace) (path : String) : Option Location :=
  if path.endsWith "/" || !Path.isUsable path then none
  else
    match w.reach (Path.start path) (Path.steps path) with
    | .ok (l, some .file) => some l
    | _ => none

end Workspace

end LedgerQuery
