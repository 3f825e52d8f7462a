import LedgerQuery.Settings.Group
import LedgerQuery.Settings.Source

/-!
Loading the settings: those of a file, over them those of the environment, then the check.
-/

namespace LedgerQuery

namespace Settings

def gather (files : Files) (directory path : String) (vars : List (String × String)) :
    Except LoadFault Settings := do
  let file ← find files directory path
  let members ← ofFile file
  let tree := Tree.empty.lay file.name members
  match ofTree (tree.lay environment (ofVariables vars)) with
  | .ok s => .ok s
  | .error m => .error (.mismatch m)

def load (files : Files) (directory path : String) (vars : List (String × String)) :
    Except SettingsError Settings :=
  match gather files directory path vars with
  | .error fault => .error (.load path fault.message)
  | .ok s =>
    match s.validate with
    | .ok () => .ok s
    | .error e => .error e

end Settings

end LedgerQuery
