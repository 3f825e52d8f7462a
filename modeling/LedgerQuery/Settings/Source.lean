import LedgerQuery.Json.Reader
import LedgerQuery.Settings.Datum
import LedgerQuery.Settings.Tree
import LedgerQuery.Text.Replace
import LedgerQuery.Toml.Reader
import LedgerQuery.Workspace

/-!
Where settings come from: a file, in a format told by its extension, and the environment.
-/

namespace LedgerQuery

namespace Settings

inductive Format where
  | toml
  | json
deriving DecidableEq, Repr

inductive LoadFault where
  | notFound (path : String)
  | unregistered (path : String)
  | malformed
  | root (m : Mismatch) (file : String)
  | mismatch (m : Mismatch)
deriving Repr

namespace LoadFault

def message : LoadFault → String
  | notFound path => "configuration file \"" ++ path ++ "\" not found"
  | unregistered path =>
    "configuration file \"" ++ path ++ "\" is not of a registered file format"
  | malformed => ""
  | root m file => m.message ++ " in " ++ file
  | mismatch m => m.message

end LoadFault

namespace Format

def all : List Format := [toml, json]

def extension : Format → String
  | toml => "toml"
  | json => "json"

def ofName? (name : String) : Option Format :=
  match (name.splitOn ".").reverse with
  | ext :: stem :: more =>
    if stem.isEmpty && more.isEmpty then none else all.find? (·.extension == ext)
  | _ => none

def read (f : Format) (text : String) : Option Datum :=
  match f with
  | toml => (Toml.read text).map Datum.ofToml
  | json =>
    match Json.read (Utf8.ofString text) with
    | .ok j => some (.ofJson j)
    | .error _ => none

end Format

abbrev Files := List (String × String)

namespace Files

def workspace (files : Files) : Workspace := files.foldl (fun w f => w.touch f.1) {}

def textAt (files : Files) (l : Location) : String :=
  ((files.find? fun f => Workspace.place f.1 = l).map (·.2)).getD ""

def text? (files : Files) (directory path : String) : Option String :=
  if Path.isUsable (Path.join directory path) then
    (files.workspace.file? path).map files.textAt
  else none

end Files

structure Found where
  name : String
  format : Format
  text : String

def withExtension (names : List String) (f : Format) : String :=
  String.intercalate "/" names ++ "." ++ f.extension

def findExtended (files : Files) (directory : String) (names : List String) :
    List Format → Option Found
  | [] => none
  | f :: rest =>
    match files.text? directory (withExtension names f) with
    | some text => some ⟨withExtension names f, f, text⟩
    | none => findExtended files directory names rest

def find (files : Files) (directory path : String) : Except LoadFault Found :=
  let names := Path.names path
  match files.text? directory path with
  | some text =>
    match names.getLast?.bind Format.ofName? with
    | some format => .ok ⟨String.intercalate "/" names, format, text⟩
    | none => .error (.unregistered (Path.join directory path))
  | none =>
    if names.isEmpty || names.getLast? = some ".." || path.startsWith "/" then
      .error (.notFound path)
    else
      match findExtended files directory names Format.all with
      | some found => .ok found
      | none => .error (.notFound path)

def ofFile (f : Found) : Except LoadFault (List (String × Datum)) :=
  match f.format.read f.text with
  | none => .error .malformed
  | some (.table ms) => .ok ms
  | some d => .error (.root ⟨d, .map, none, some f.name⟩ f.name)

def variablePrefix : String := "query_core__"

def pathOfVariable? (name : String) : Option String :=
  let cs := (PathStep.lower name).toList
  let start := variablePrefix.toList
  if start.isPrefixOf cs then
    some (String.ofList (Text.replaceWord ['_', '_'] ['.'] (cs.drop start.length)))
  else none

def environment : String := "the environment"

def ofVariables (vars : List (String × String)) : List (String × Datum) :=
  vars.filterMap fun (name, value) =>
    (pathOfVariable? name).map fun path => (path, .text value)

end Settings

end LedgerQuery
