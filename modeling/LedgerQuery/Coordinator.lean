import LedgerQuery.Chunk
import LedgerQuery.Notes

/-!
Folding the outcomes of all chunks of a query into one. The query succeeds with its last chunk and
fails with the first chunk that fails; whatever is reported afterwards is dropped and counted.
-/

namespace LedgerQuery

inductive Phase where
  | pending
  | succeeded
  | failed
deriving DecidableEq, Repr, Inhabited

inductive Signal (τ : Type) where
  | completed (index : Nat) (items : List τ)
  | failed (index : Nat) (error : QueryError)
deriving Repr

structure Coordinator (τ : Type) where
  label : String
  phase : Phase
  pending : List Nat
  merged : List τ
deriving Repr

namespace Coordinator

variable {τ κ : Type}

structure Reaction (τ : Type) where
  coordinator : Coordinator τ
  delivered : Option (Outcome (List τ)) := none
  notes : Notes := .none

def defaultLabel : String := "query"

def start (label : String) (chunks : List (Chunk κ)) : Coordinator τ :=
  ⟨label, .pending, (chunks.map (·.index)).eraseDups, []⟩

def drop (c : Coordinator τ) (level : Level) (message : String) : Reaction τ :=
  ⟨c, none, .count .lateSignal ++
    .event level Event.coordinatorTarget (c.label ++ ": " ++ message)⟩

def complete (c : Coordinator τ) (index : Nat) (items : List τ) : Reaction τ :=
  let chunk := "chunk " ++ toString index
  match c.phase with
  | .succeeded => c.drop .warn (chunk ++ " completed after the query already succeeded")
  | .failed => c.drop .debug ("dropping " ++ chunk ++ " result, query failed")
  | .pending =>
    if index ∈ c.pending then
      let left := c.pending.erase index
      let merged := c.merged ++ items
      let notes := Notes.count (.chunkFinished true) ++
        .event .debug Event.coordinatorTarget
          (c.label ++ ": " ++ chunk ++ " done, " ++ toString left.length ++ " pending")
      if left.isEmpty then
        ⟨{ c with phase := .succeeded, pending := [], merged := [] }, some (.ok merged),
          notes ++ .event .info Event.outcomeTarget
            (c.label ++ " SUCCESS: " ++ toString merged.length ++ " items merged")⟩
      else ⟨{ c with pending := left, merged := merged }, none, notes⟩
    else c.drop .warn ("ignoring repeated or unknown " ++ chunk)

def fail (c : Coordinator τ) (index : Nat) (error : QueryError) : Reaction τ :=
  let chunk := "chunk " ++ toString index
  match c.phase with
  | .succeeded =>
    c.drop .warn (chunk ++ " failed after the query already succeeded: " ++ error.message)
  | .failed => c.drop .debug ("dropping " ++ chunk ++ " error: " ++ error.message)
  | .pending =>
    ⟨{ c with phase := .failed, merged := [] }, some (.error error),
      .count (.chunkFinished false) ++ .event .info Event.outcomeTarget
        (c.label ++ " FAILED on " ++ chunk ++ ": " ++ error.message)⟩

def receive (c : Coordinator τ) : Signal τ → Reaction τ
  | .completed index items => c.complete index items
  | .failed index error => c.fail index error

structure Run (τ : Type) where
  coordinator : Coordinator τ
  delivered : List (Outcome (List τ)) := []
  notes : Notes := .none

def receiveAll (c : Coordinator τ) : List (Signal τ) → Run τ
  | [] => ⟨c, [], .none⟩
  | s :: rest =>
    let first := c.receive s
    let more := first.coordinator.receiveAll rest
    ⟨more.coordinator, first.delivered.toList ++ more.delivered, first.notes ++ more.notes⟩

/-- Takes in a signal where the receiver of the outcome at once sends signals of its own. -/
def receiveReentrant (reentry : List (Signal τ)) (c : Coordinator τ) (s : Signal τ) : Run τ :=
  let first := c.receive s
  match first.delivered with
  | none => ⟨first.coordinator, [], first.notes⟩
  | some outcome =>
    let more := first.coordinator.receiveAll reentry
    ⟨more.coordinator, outcome :: more.delivered, first.notes ++ more.notes⟩

end Coordinator

end LedgerQuery
