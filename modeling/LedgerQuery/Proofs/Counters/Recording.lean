import LedgerQuery.Counters
import Mathlib.Tactic

/-! What counters tell after things have been counted: how often each of them has been, in whatever
order, as long as that fits into the counter. -/

namespace LedgerQuery

namespace Counters

def value (m : Counters) : Count → UInt64
  | .queryStarted => m.started
  | .queryFinished true => m.succeeded
  | .queryFinished false => m.failed
  | .chunkFinished true => m.chunksCompleted
  | .chunkFinished false => m.chunksFailed
  | .page => m.pages
  | .lateSignal => m.lateSignals
  | .retryAttempt => m.attempts
  | .retryExhausted => m.exhausted

lemma value_record_self (m : Counters) (count : Count) :
    (m.record count).value count = m.value count + 1 := by
  rcases count with _ | (_ | _) | (_ | _) | _ | _ | _ | _ <;> rfl

lemma value_record_of_ne (m : Counters) {added count : Count} (h : added ≠ count) :
    (m.record added).value count = m.value count := by
  rcases added with _ | (_ | _) | (_ | _) | _ | _ | _ | _ <;>
    rcases count with _ | (_ | _) | (_ | _) | _ | _ | _ | _ <;>
      first | rfl | exact absurd rfl h

lemma value_recordAll (m : Counters) (counts : List Count) (count : Count) :
    ((m.recordAll counts).value count).toNat =
      ((m.value count).toNat + counts.count count) % 2 ^ 64 := by
  induction counts generalizing m with
  | nil =>
    rw [recordAll, List.foldl_nil, List.count_nil, Nat.add_zero]
    exact (Nat.mod_eq_of_lt (m.value count).toNat_lt).symm
  | cons added counts ih =>
    have hcons : m.recordAll (added :: counts) = (m.record added).recordAll counts := rfl
    rw [hcons, ih, List.count_cons]
    by_cases h : added = count
    · subst h
      rw [value_record_self]
      simp only [UInt64.toNat_add, UInt64.toNat_one, beq_self_eq_true, if_true]
      omega
    · rw [value_record_of_ne m h]
      simp [h]

lemma value_recordAll_replicate (m : Counters) (counts : List Count) (added count : Count)
    (k : ℕ) : (((m.recordAll counts).recordAll (.replicate k added)).value count).toNat =
      ((m.value count).toNat + counts.count count + if added = count then k else 0) % 2 ^ 64 := by
  rw [value_recordAll, value_recordAll, List.count_replicate, Nat.mod_add_mod]
  simp only [beq_iff_eq]

lemma value_fresh (counts : List Count) (count : Count) :
    (recordAll {} counts).value count = .ofNat (counts.count count) := by
  have hzero : (({} : Counters).value count).toNat = 0 := by
    rcases count with _ | (_ | _) | (_ | _) | _ | _ | _ | _ <;> rfl
  rw [← UInt64.toNat_inj, value_recordAll, hzero, Nat.zero_add, UInt64.toNat_ofNat']

lemma record_comm (m : Counters) (count other : Count) :
    (m.record count).record other = (m.record other).record count := by
  rcases count with _ | (_ | _) | (_ | _) | _ | _ | _ | _ <;>
    rcases other with _ | (_ | _) | (_ | _) | _ | _ | _ | _ <;> rfl

lemma recordAll_perm (m : Counters) {counts others : List Count} (h : counts.Perm others) :
    m.recordAll counts = m.recordAll others :=
  h.foldl_eq' (fun count _ other _ m => m.record_comm count other) m

lemma recordAll_append (m : Counters) (counts more : List Count) :
    m.recordAll (counts ++ more) = (m.recordAll counts).recordAll more :=
  List.foldl_append

end Counters

end LedgerQuery
