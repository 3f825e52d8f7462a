import LedgerQuery.Client.Basic
import LedgerQuery.Proofs.Flight.Course

/-! What a chunk sends and receives. A chunk of a resource holds one conversation with the service:
it asks for its first page with all its keys, and then for the page that the page before refers to,
by that reference alone. -/

namespace LedgerQuery

variable {τ ν : Type}

inductive Message (τ : Type) where
  | request (r : Request)
  | page (answer : Outcome (Page τ))

def Answer.messages : Answer τ ν → List (Message τ)
  | .page answer => [.page answer]
  | .probe _ => []

def Turn.messages (q : Inquiry τ) : Turn String τ ν → List (Message τ)
  | .begun call => [.request (q.request call)]
  | .answered _ answer effects =>
    answer.messages ++ effects.onward.toList.map fun call => .request (q.request call)

namespace Inquiry

end Inquiry

namespace Flight

open Drain

variable {name : String} {params : List (String × String)} {take : Json → Except String τ}
  {r : Rules τ} {c : Chunk String} {turns : List (Turn String τ ν)}
  {answers : List (Outcome (Page τ))} {stage : Stage}

def asking (name : String) (params : List (String × String)) (c : Chunk String)
    (answers : List (Outcome (Page τ))) : Request :=
  Inquiry.page name params c (gathered answers).cursor

def messages (q : Inquiry τ) (turns : List (Turn String τ ν)) : List (Message τ) :=
  turns.flatMap (Turn.messages q)

end Flight

end LedgerQuery
