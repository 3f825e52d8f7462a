import LedgerQuery.Settings.Basic
import LedgerQuery.Settings.Tree

/-!
Settings from merged sources. What no source gives keeps its default. A group of settings may be
given as a list of their values in order.
-/

namespace LedgerQuery

namespace Settings

structure Given where
  name : String
  key : String
  value : Tree

def givenByName (names : List String) (qualify : String → String) (ms : List (String × Tree)) :
    List Given :=
  names.filterMap fun name => (Tree.lookup name ms).map fun t => ⟨name, qualify name, t⟩

def givenInOrder (key : String) (n : Nat) : List String → List Tree → List Given
  | name :: names, t :: ts =>
    ⟨name, key ++ "[" ++ toString n ++ "]", t⟩ :: givenInOrder key (n + 1) names ts
  | _, _ => []

def givenGroup (key kind : String) (names : List String) : Tree → Except Mismatch (List Given)
  | .table _ ms => .ok (givenByName names (fun name => key ++ "." ++ name) ms)
  | .list _ ts => .ok (givenInOrder key 0 names ts)
  | .leaf _ d => .error ⟨d, .group kind, none, none⟩

def read {α : Type} (convert : Datum → Except Wanted α) (fallback : α) (name : String)
    (given : List Given) : Except Mismatch α :=
  match given.find? (·.name == name) with
  | none => .ok fallback
  | some g =>
    let (d, origin) := g.value.blame
    match convert d with
    | .ok a => .ok a
    | .error wanted => .error ⟨d, wanted, some g.key, origin⟩

def retryNames : List String := ["period_secs", "duration_secs", "initial_delay_secs"]

def retryOf (t : Tree) : Except Mismatch RetrySettings := do
  let given ← givenGroup "retry" "RetryConfig" retryNames t
  let d : RetrySettings := {}
  let periodSeconds ← read Datum.unsigned d.periodSeconds "period_secs" given
  let durationSeconds ← read Datum.unsigned d.durationSeconds "duration_secs" given
  let initialDelaySeconds ← read Datum.unsigned d.initialDelaySeconds "initial_delay_secs" given
  .ok { periodSeconds, durationSeconds, initialDelaySeconds }

def logNames : List String := ["directory", "file_prefix", "file_level", "console_level"]

def loggingOf (t : Tree) : Except Mismatch LogSettings := do
  let given ← givenGroup "logging" "LoggingConfig" logNames t
  let d : LogSettings := {}
  let directory ← read Datum.string d.directory "directory" given
  let filePrefix ← read Datum.string d.filePrefix "file_prefix" given
  let fileLevel ← read Datum.string d.fileLevel "file_level" given
  let consoleLevel ← read Datum.string d.consoleLevel "console_level" given
  .ok { directory, filePrefix, fileLevel, consoleLevel }

def group {α : Type} (convert : Tree → Except Mismatch α) (fallback : α) (name : String)
    (ms : List (String × Tree)) : Except Mismatch α :=
  match Tree.lookup name ms with
  | none => .ok fallback
  | some t => convert t

def names : List String := ["chunk_size", "max_page_size", "max_pages_per_chunk"]

def ofTree (t : Tree) : Except Mismatch Settings := do
  let given := givenByName names id t.members
  let d : Settings := {}
  let chunkSize ← read Datum.unsigned d.chunkSize "chunk_size" given
  let maxPageSize ← read Datum.unsigned d.maxPageSize "max_page_size" given
  let maxPagesPerChunk ← read Datum.unsigned d.maxPagesPerChunk "max_pages_per_chunk" given
  let retry ← group retryOf d.retry "retry" t.members
  let logging ← group loggingOf d.logging "logging" t.members
  .ok { chunkSize, maxPageSize, maxPagesPerChunk, retry, logging }

end Settings

end LedgerQuery
