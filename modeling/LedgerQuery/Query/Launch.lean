import LedgerQuery.Query.Basic

/-!
The queries there are, and how each of them starts.
-/

namespace LedgerQuery

structure Launch (κ τ : Type) where
  query : Query τ
  notes : Notes := .none
  submitted : List (Task κ τ) := []
  scheduled : List (Span × Task κ τ) := []

namespace Launch

variable {κ τ : Type}

/-- Drains every chunk of the keys and merges what they yield. Keys that cannot be cut into chunks
are refused before anything is started. -/
def chunked (label : String) (keys : List κ) (size : Nat) (rules : Drain.Rules τ) :
    Outcome (Launch κ τ) :=
  match Chunk.partition keys size with
  | .error e => .error e
  | .ok chunks =>
    .ok {
      query := ⟨label, true, .chunked rules (Coordinator.start label chunks), true⟩
      notes := .event .info Event.orchestratorTarget
          (label ++ ": " ++ toString chunks.length ++ " chunks of up to " ++ toString size
            ++ " keys") ++ .count .queryStarted
      submitted := chunks.map fun chunk => .page chunk {} }

def bulkLabel : String := "bulk"

def retryingLabel : String := "retrying"

def retryLoopLabel : String := "probe"

def paged (label : String) (rules : Drain.Rules τ) : Launch κ τ where
  query := ⟨label, true, .single rules, true⟩
  notes := .event .debug Event.orchestratorTarget (label ++ ": paged query") ++
    .count .queryStarted
  submitted := [.page (.whole []) {}]

def drain (chunk : Chunk κ) (rules : Drain.Rules τ) (counted : Bool) : Launch κ τ where
  query := ⟨"", false, .single rules, counted⟩
  submitted := [.page chunk {}]

def drainChunk (keys : List κ) (size index : Nat) (rules : Drain.Rules τ) (counted : Bool) :
    Outcome (Launch κ τ) :=
  match Chunk.partition keys size with
  | .error e => .error e
  | .ok chunks => .ok (drain (chunks[index]?.getD ⟨index, []⟩) rules counted)

def probe (label : String) (tracked : Bool) (policy : RetryPolicy) (delay : Option Span) :
    Launch κ τ where
  query := ⟨label, tracked, .probing policy .zero .attempting, true⟩
  notes := if tracked then .count .queryStarted else .none
  submitted := if delay.isNone then [.probe policy.budget] else []
  scheduled := delay.toList.map fun d => (d, .probe policy.budget)

def retrying (label : String) (policy : RetryPolicy) (delay : Option Span) : Launch κ τ :=
  probe label true policy delay

def retryLoop (label : String) (policy : RetryPolicy) (delay : Option Span) : Launch κ τ :=
  probe label false policy delay

def createAndAwait (label : String) (policy : RetryPolicy) (initialDelay : Span) : Launch κ τ where
  query := ⟨label, true, .probing policy initialDelay .attempting, true⟩
  notes := .count .queryStarted
  submitted := [.create]

end Launch

end LedgerQuery
