import LedgerQuery.Toml.Literal

/-!
Moments written as tables. A table whose first member has a certain name stands for the moment that
this member gives as a string; its other members do not matter.
-/

namespace LedgerQuery.Toml

def momentName : String := "$__toml_private_datetime"

def momentOf : Value → Option Value
  | .string s => (Moment.ofText? s).map .moment
  | _ => none

mutual

def Value.settle : Value → Option Value
  | .array items => (settleItems items).map .array
  | .table ((name, v) :: rest) =>
    if name = momentName then momentOf v
    else do
      let first ← v.settle
      let more ← settleMembers rest
      some (.table ((name, first) :: more))
  | v => some v

def settleItems : List Value → Option (List Value)
  | [] => some []
  | v :: rest => do
    let first ← v.settle
    let more ← settleItems rest
    some (first :: more)

def settleMembers : List (String × Value) → Option (List (String × Value))
  | [] => some []
  | (name, v) :: rest => do
    let first ← v.settle
    let more ← settleMembers rest
    some ((name, first) :: more)

end

end LedgerQuery.Toml
