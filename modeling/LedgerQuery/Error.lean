/-!
Everything that can go wrong, by cause. Each cause has one wording and belongs to one kind.
-/

namespace LedgerQuery

inductive TransportError where
  | timeout (millis : Nat) (endpoint : String)
  | refused (endpoint reason : String)
  | http (status : Nat) (endpoint : String)
  | cancelled
  | io (message : String)
deriving DecidableEq, Repr, Inhabited

inductive ErrorKind where
  | transport
  | decode
  | protocol
  | callerContract
  | retryExhausted
deriving DecidableEq, Repr

inductive QueryError where
  | transport (e : TransportError)
  | decode (reason : String)
  | protocol (reason : String)
  | submission (reason : String)
  | invalidArgument (field reason : String)
  | retryExhausted (attempts : Nat)
  | abandoned
deriving DecidableEq, Repr, Inhabited

namespace TransportError

def message : TransportError → String
  | timeout millis endpoint =>
    "Request timeout after " ++ toString millis ++ "ms to " ++ endpoint
  | refused endpoint reason => "Connection refused to " ++ endpoint ++ ": " ++ reason
  | http status endpoint => "HTTP error " ++ toString status ++ " from " ++ endpoint
  | cancelled => "Request cancelled"
  | io message => "I/O error: " ++ message

end TransportError

namespace QueryError

def message : QueryError → String
  | transport e => e.message
  | decode reason => "Failed to decode response: " ++ reason
  | protocol reason => "Protocol error: " ++ reason
  | submission reason => "Submission rejected: " ++ reason
  | invalidArgument field reason => "Invalid argument '" ++ field ++ "': " ++ reason
  | retryExhausted attempts => "No data after " ++ toString attempts ++ " attempts"
  | abandoned => "Query abandoned before completion"

def kind : QueryError → ErrorKind
  | transport _ => .transport
  | decode _ => .decode
  | protocol _ => .protocol
  | submission _ => .protocol
  | invalidArgument _ _ => .callerContract
  | retryExhausted _ => .retryExhausted
  | abandoned => .transport

def unprocessable : Nat := 422

def ofSubmission : TransportError → QueryError
  | .http status endpoint =>
    if status = unprocessable then .submission (endpoint ++ " rejected the submission")
    else .transport (.http status endpoint)
  | e => .transport e

end QueryError

abbrev Outcome (α : Type) := Except QueryError α

end LedgerQuery
