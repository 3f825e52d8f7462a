import LedgerQuery.Error
import LedgerQuery.Notes
import LedgerQuery.Span

/-!
Asking again for what is not visible yet. A probe is repeated with a fixed period until it finds
something or the allowance, fixed at the start, is used up. A failed probe counts as an empty one.
-/

namespace LedgerQuery

structure RetryPolicy where
  period : Span
  total : Span
deriving DecidableEq, Repr, Inhabited

inductive RetryState where
  | attempting
  | succeeded
  | givenUp
deriving DecidableEq, Repr, Inhabited

structure RetryBudget where
  remaining : Nat
  made : Nat
  period : Span
deriving DecidableEq, Repr, Inhabited

inductive RetryDecision where
  | retryAfter (delay : Span)
  | giveUp
deriving DecidableEq, Repr

namespace RetryPolicy

def standard : RetryPolicy := ⟨.ofSeconds 5, .ofSeconds 240⟩

def single : RetryPolicy := ⟨.ofSeconds 1, .ofSeconds 1⟩

def maxAttempts : Nat := Nat.pow 2 32 - 1

/-- How many probes are allowed: as often as the period goes into the total, at least once. -/
def attempts (p : RetryPolicy) : Nat :=
  if p.period.nanos = 0 then 1
  else min maxAttempts (max 1 (p.total.nanos / p.period.nanos))

def budget (p : RetryPolicy) : RetryBudget := ⟨p.attempts - 1, 0, p.period⟩

end RetryPolicy

namespace RetryBudget

def recordAttempt (b : RetryBudget) : RetryBudget := { b with made := b.made + 1 }

def spend (b : RetryBudget) : RetryDecision × RetryBudget :=
  if b.remaining = 0 then (.giveUp, b)
  else (.retryAfter b.period, { b with remaining := b.remaining - 1 })

end RetryBudget

namespace Retry

variable {ν : Type}

inductive Step (ν : Type) where
  | finished (state : RetryState) (outcome : Outcome ν)
  | again (delay : Span) (budget : RetryBudget)

def missNote (label : String) (made : Nat) : Outcome (Option ν) → Notes
  | .error e =>
    .event .debug Event.retryTarget (label ++ " attempt " ++ toString made
      ++ " failed, treating as not visible: " ++ e.message)
  | .ok _ =>
    .event .debug Event.retryTarget (label ++ " attempt " ++ toString made ++ " found no data")

def afterMiss (label : String) (b : RetryBudget) : Step ν × Notes :=
  match b.spend with
  | (.retryAfter delay, b) => (.again delay b, .none)
  | (.giveUp, b) =>
    (.finished .givenUp (.error (.retryExhausted b.made)),
      .count .retryExhausted ++ .event .warn Event.outcomeTarget
        (label ++ " FAILED: no data after " ++ toString b.made ++ " attempts"))

def receive (label : String) (b : RetryBudget) (answer : Outcome (Option ν)) : Step ν × Notes :=
  match answer with
  | .ok (some value) =>
    (.finished .succeeded (.ok value), .event .info Event.outcomeTarget
      (label ++ " SUCCESS after " ++ toString b.made ++ " attempts"))
  | miss =>
    let (step, notes) := afterMiss label b
    (step, missNote label b.made miss ++ notes)

end Retry

end LedgerQuery
