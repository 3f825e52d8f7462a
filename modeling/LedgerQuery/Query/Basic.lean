import LedgerQuery.Coordinator
import LedgerQuery.Drain
import LedgerQuery.Retry

/-!
Queries as machines. A query hands out tasks; a task that is run makes a call to the outside and the
answer to the call is given back to the query, which may hand out further tasks, make one more call
at once, and deliver its outcome.
-/

namespace LedgerQuery

inductive Yield (τ ν : Type) where
  | items (items : List τ)
  | value (value : ν)
deriving DecidableEq, Repr

inductive Task (κ τ : Type) where
  | page (chunk : Chunk κ) (progress : Drain.Progress τ)
  | probe (budget : RetryBudget)
  | create
deriving Repr

inductive Call (κ τ : Type) where
  | page (chunk : Chunk κ) (progress : Drain.Progress τ)
  | probe (budget : RetryBudget)
  | create
  | lookup
deriving Repr

inductive Answer (τ ν : Type) where
  | page (answer : Outcome (Page τ))
  | probe (answer : Outcome (Option ν))

inductive Plan (τ : Type) where
  | chunked (rules : Drain.Rules τ) (coordinator : Coordinator τ)
  | single (rules : Drain.Rules τ)
  | probing (policy : RetryPolicy) (initialDelay : Span) (state : RetryState)

structure Query (τ : Type) where
  label : String
  tracked : Bool
  plan : Plan τ
  counted : Bool := true

structure Effects (κ τ ν : Type) where
  notes : Notes := .none
  submitted : List (Task κ τ) := []
  scheduled : List (Span × Task κ τ) := []
  onward : Option (Call κ τ) := none
  delivered : Option (Outcome (Yield τ ν)) := none

namespace Answer

variable {κ τ ν : Type}

def failure (e : QueryError) : Call κ τ → Answer τ ν
  | .page _ _ => .page (.error e)
  | .probe _ => .probe (.error e)
  | .create => .probe (.error e)
  | .lookup => .probe (.error e)

end Answer

namespace Task

variable {κ τ : Type}

def call : Task κ τ → Call κ τ
  | page chunk progress => .page chunk progress
  | probe budget => .probe budget.recordAttempt
  | create => .create

end Task

namespace Call

variable {κ τ : Type}

def counts : Call κ τ → List Count
  | page _ _ => []
  | probe _ => [.retryAttempt]
  | create => []
  | lookup => [.retryAttempt]

end Call

namespace Query

variable {κ τ ν : Type}

def deliver (q : Query τ) (outcome : Outcome (Yield τ ν)) (notes : Notes) : Effects κ τ ν :=
  { notes := notes ++ (if q.tracked then .count (.queryFinished outcome.isOk) else .none)
    delivered := some outcome }

def receivePage (q : Query τ) (chunk : Chunk κ) (progress : Drain.Progress τ)
    (answer : Outcome (Page τ)) : Query τ × Effects κ τ ν :=
  match q.plan with
  | .chunked rules coordinator =>
    match Drain.receive rules chunk.index progress answer with
    | (.follow progress, notes) => (q, { notes, submitted := [.page chunk progress] })
    | (.finished outcome, notes) =>
      let signal : Signal τ :=
        match outcome with
        | .ok xs => .completed chunk.index xs
        | .error e => .failed chunk.index e
      let reaction := coordinator.receive signal
      let q := { q with plan := .chunked rules reaction.coordinator }
      match reaction.delivered with
      | none => (q, { notes := notes ++ reaction.notes })
      | some outcome => (q, q.deliver (outcome.map .items) (notes ++ reaction.notes))
  | .single rules =>
    match Drain.receive rules chunk.index progress answer with
    | (.follow progress, notes) => (q, { notes, submitted := [.page chunk progress] })
    | (.finished outcome, notes) => (q, q.deliver (outcome.map .items) notes)
  | .probing _ _ _ => (q, {})

def receiveProbe (q : Query τ) (budget : RetryBudget) (answer : Outcome (Option ν)) :
    Query τ × Effects κ τ ν :=
  match q.plan with
  | .probing policy initialDelay _ =>
    match Retry.receive q.label budget answer with
    | (.again delay budget, notes) => (q, { notes, scheduled := [(delay, .probe budget)] })
    | (.finished state outcome, notes) =>
      ({ q with plan := .probing policy initialDelay state },
        q.deliver (outcome.map .value) notes)
  | _ => (q, {})

/-- The answer to a creation. What exists already is looked up at once. -/
def receiveCreate (q : Query τ) (answer : Outcome (Option ν)) : Query τ × Effects κ τ ν :=
  match q.plan with
  | .probing policy initialDelay _ =>
    match answer with
    | .ok _ =>
      (q, { notes := .event .debug Event.orchestratorTarget
              (q.label ++ ": created, first probe in " ++ initialDelay.text)
            scheduled := [(initialDelay, .probe policy.budget)] })
    | .error (.submission reason) =>
      (q, { notes := .event .debug Event.orchestratorTarget
              (q.label ++ ": already exists (" ++ reason ++ "), looking it up")
            onward := some .lookup })
    | .error e =>
      (q, q.deliver (.error e) (.event .info Event.outcomeTarget
        (q.label ++ " FAILED to create: " ++ e.message)))
  | _ => (q, {})

def receiveLookup (q : Query τ) (answer : Outcome (Option ν)) : Query τ × Effects κ τ ν :=
  let outcome : Outcome (Yield τ ν) :=
    match answer with
    | .ok (some v) => .ok (.value v)
    | .ok none => .error (.retryExhausted 1)
    | .error e => .error e
  let note : Notes :=
    match outcome with
    | .ok _ => .event .info Event.outcomeTarget (q.label ++ " SUCCESS on lookup")
    | .error e =>
      .event .info Event.outcomeTarget (q.label ++ " FAILED on lookup: " ++ e.message)
  (q, q.deliver outcome note)

def receive (q : Query τ) : Call κ τ → Answer τ ν → Query τ × Effects κ τ ν
  | .page chunk progress, .page answer => q.receivePage chunk progress answer
  | .probe budget, .probe answer => q.receiveProbe budget answer
  | .create, .probe answer => q.receiveCreate answer
  | .lookup, .probe answer => q.receiveLookup answer
  | _, _ => (q, {})

end Query

end LedgerQuery
