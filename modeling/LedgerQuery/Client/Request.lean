import LedgerQuery.Json.Basic
import LedgerQuery.Page

/-!
Requests to the service: a method, a path, parameters in the order of their addition, perhaps a
body.
-/

namespace LedgerQuery

inductive Method where
  | get
  | post
deriving DecidableEq, Repr, Inhabited

structure Request where
  method : Method
  path : String
  params : List (String × String) := []
  body : Option Json := none
deriving Repr, Inhabited

namespace Method

def name : Method → String
  | get => "GET"
  | post => "POST"

end Method

namespace Request

def get (path : String) : Request := { method := .get, path }

def post (path : String) (body : Json) : Request := { method := .post, path, body := some body }

def follow (cursor : Cursor) : Request := get cursor.token

def param (r : Request) (key value : String) : Request :=
  { r with params := r.params ++ [(key, value)] }

def param? (r : Request) (key : String) (value : Option String) : Request :=
  match value with
  | some value => r.param key value
  | none => r

def paramValue (r : Request) (key : String) : Option String :=
  (r.params.find? (·.1 == key)).map (·.2)

end Request

end LedgerQuery
