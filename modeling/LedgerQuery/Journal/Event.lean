/-!
Journal events. An event has a level, a target that says which part of the program speaks, and a
message.
-/

namespace LedgerQuery

inductive Level where
  | error
  | warn
  | info
  | debug
  | trace
deriving DecidableEq, Repr, Inhabited

namespace Level

def detail : Level → Nat
  | error => 1
  | warn => 2
  | info => 3
  | debug => 4
  | trace => 5

def name : Level → String
  | error => "ERROR"
  | warn => "WARN"
  | info => "INFO"
  | debug => "DEBUG"
  | trace => "TRACE"

def atLeast (level limit : Level) : Bool := level.detail ≤ limit.detail

end Level

structure Event where
  level : Level
  target : String
  message : String
deriving DecidableEq, Repr, Inhabited

namespace Event

def outcomeTarget : String := "query_outcome"

def coordinatorTarget : String := "query_core::coordinator"

def orchestratorTarget : String := "query_core::orchestrator"

def pagingTarget : String := "query_core::paging"

def retryTarget : String := "query_core::retry"

def transportTarget : String := "query_core::utils::transport"

end Event

end LedgerQuery
