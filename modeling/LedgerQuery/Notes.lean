import LedgerQuery.Counters
import LedgerQuery.Journal.Event

/-!
What a step of a query leaves behind for observers: counts and journal events, each in order.
-/

namespace LedgerQuery

structure Notes where
  counts : List Count := []
  events : List Event := []
deriving DecidableEq, Repr, Inhabited

namespace Notes

def none : Notes := {}

def append (a b : Notes) : Notes := ⟨a.counts ++ b.counts, a.events ++ b.events⟩

instance : Append Notes := ⟨append⟩

def count (c : Count) : Notes := ⟨[c], []⟩

def event (level : Level) (target message : String) : Notes := ⟨[], [⟨level, target, message⟩]⟩

@[simp] theorem counts_none : none.counts = [] := rfl

@[simp] theorem counts_append (a b : Notes) : (a ++ b).counts = a.counts ++ b.counts := rfl

@[simp] theorem counts_count (c : Count) : (count c).counts = [c] := rfl

@[simp] theorem counts_event (level : Level) (target message : String) :
    (event level target message).counts = [] := rfl

@[simp] theorem none_append (a : Notes) : none ++ a = a := rfl

theorem append_def (a b : Notes) : a ++ b = ⟨a.counts ++ b.counts, a.events ++ b.events⟩ := rfl

@[simp] theorem append_none (a : Notes) : a ++ none = a := by
  simp [append_def, none]

theorem append_assoc (a b c : Notes) : a ++ b ++ c = a ++ (b ++ c) := by
  simp [append_def]

end Notes

end LedgerQuery
