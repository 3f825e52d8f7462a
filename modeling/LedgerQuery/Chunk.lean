import LedgerQuery.Error

/-!
Chunks of a key list. A query over many keys is asked chunk by chunk; a chunk is known by its place.
-/

namespace LedgerQuery

structure Chunk (κ : Type) where
  index : Nat
  keys : List κ
deriving DecidableEq, Repr

namespace Chunk

variable {κ : Type}

def defaultSize : Nat := 50

def whole (keys : List κ) : Chunk κ := ⟨0, keys⟩

def cut (size index : Nat) : List κ → List (Chunk κ)
  | [] => []
  | k :: keys =>
    ⟨index, k :: keys.take (size - 1)⟩ :: cut size (index + 1) (keys.drop (size - 1))
termination_by keys => keys.length
decreasing_by
  simp only [List.length_cons, List.length_drop]
  omega

/-- The chunks of a key list in order; only the last may be shorter than `size`. -/
def partition (keys : List κ) (size : Nat) : Outcome (List (Chunk κ)) :=
  if keys.isEmpty then .error (.invalidArgument "keys" "empty key set")
  else if size = 0 then .error (.invalidArgument "chunk_size" "must be greater than zero")
  else .ok (cut size 0 keys)

end Chunk

end LedgerQuery
