import LedgerQuery.Chunk
import LedgerQuery.Retry

/-!
The settings of a client, their defaults, and the conditions they have to meet.
-/

namespace LedgerQuery

structure RetrySettings where
  periodSeconds : Nat := 5
  durationSeconds : Nat := 240
  initialDelaySeconds : Nat := 2
deriving DecidableEq, Repr, Inhabited

structure LogSettings where
  directory : String := "logs"
  filePrefix : String := "query-core"
  fileLevel : String := "warn"
  consoleLevel : String := "error"
deriving DecidableEq, Repr, Inhabited

structure Settings where
  chunkSize : Nat := Chunk.defaultSize
  maxPageSize : Nat := 20
  maxPagesPerChunk : Nat := 1000
  retry : RetrySettings := {}
  logging : LogSettings := {}
deriving DecidableEq, Repr, Inhabited

namespace RetrySettings

def policy (r : RetrySettings) : RetryPolicy :=
  ⟨.ofSeconds r.periodSeconds, .ofSeconds r.durationSeconds⟩

def initialDelay (r : RetrySettings) : Span := .ofSeconds r.initialDelaySeconds

end RetrySettings

inductive SettingsError where
  | load (path message : String)
  | invalidValue (field reason : String)
deriving DecidableEq, Repr, Inhabited

namespace SettingsError

def message : SettingsError → String
  | load path message => "Failed to load configuration from '" ++ path ++ "': " ++ message
  | invalidValue field reason => "Invalid value for '" ++ field ++ "': " ++ reason

end SettingsError

namespace Settings

def positive (field : String) (n : Nat) : Except SettingsError Unit :=
  if n = 0 then .error (.invalidValue field "must be greater than zero") else .ok ()

def validate (s : Settings) : Except SettingsError Unit := do
  positive "chunk_size" s.chunkSize
  positive "max_page_size" s.maxPageSize
  positive "max_pages_per_chunk" s.maxPagesPerChunk
  positive "retry.period_secs" s.retry.periodSeconds
  if s.retry.durationSeconds < s.retry.periodSeconds then
    .error (.invalidValue "retry.duration_secs" "must be at least one retry period")

end Settings

end LedgerQuery
