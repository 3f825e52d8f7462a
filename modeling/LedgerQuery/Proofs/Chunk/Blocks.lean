import LedgerQuery.Proofs.Chunk.Partition
import Mathlib.Algebra.Order.Floor.Div

/-! The blocks that a key list is cut into. Main statement: cutting comes to its end with as many
chunks as there are blocks, which are the keys in order, all of them full except perhaps the last. -/

namespace LedgerQuery

namespace Chunk

variable {κ : Type} {keys : List κ} {size index : ℕ}

inductive Cuts (size : ℕ) : List κ → List (Chunk κ) → ℕ → List (Chunk κ) → Prop
  | done {chunks} : Cuts size [] chunks 0 chunks
  | turn {keys chunks turns result} : keys ≠ [] →
      Cuts size (keys.drop size) (chunks ++ [⟨chunks.length, keys.take size⟩]) turns result →
      Cuts size keys chunks (turns + 1) result

structure Blocks (keys : List κ) (size : ℕ) (chunks : List (Chunk κ)) : Prop where
  cuts : Cuts size keys [] (keys.length ⌈/⌉ size) chunks
  length : chunks.length = keys.length ⌈/⌉ size
  index : ∀ i (h : i < chunks.length), chunks[i].index = i
  keys : chunks.flatMap (·.keys) = keys
  full : ∀ i (h : i + 1 < chunks.length), chunks[i].keys.length = size
  last : ∃ h : chunks ≠ [], 1 ≤ (chunks.getLast h).keys.length ∧
    (chunks.getLast h).keys.length ≤ size

/-- What becomes of a key list that is to be cut; a list without keys is refused first. -/
inductive Partitioned (keys : List κ) (size : ℕ) : Outcome (List (Chunk κ)) → Prop
  | noKeys : keys = [] →
      Partitioned keys size (.error (.invalidArgument "keys" "empty key set"))
  | noSize : keys ≠ [] → size = 0 →
      Partitioned keys size (.error (.invalidArgument "chunk_size" "must be greater than zero"))
  | blocks {chunks} : keys ≠ [] → 0 < size → Blocks keys size chunks →
      Partitioned keys size (.ok chunks)

lemma cut_eq_cons (hs : 0 < size) (hk : keys ≠ []) :
    cut size index keys = ⟨index, keys.take size⟩ :: cut size (index + 1) (keys.drop size) := by
  obtain ⟨n, rfl⟩ := Nat.exists_eq_add_one_of_ne_zero hs.ne'
  cases keys with
  | nil => exact absurd rfl hk
  | cons k keys => rw [cut, Nat.add_sub_cancel, List.take_succ_cons, List.drop_succ_cons]

lemma cuts_cut (hs : 0 < size) (chunks : List (Chunk κ)) (keys : List κ) :
    Cuts size keys chunks (cut size chunks.length keys).length
      (chunks ++ cut size chunks.length keys) := by
  induction hn : keys.length using Nat.strong_induction_on generalizing chunks keys with
  | _ n ih =>
    by_cases hk : keys = []
    · subst hk
      simpa [cut] using Cuts.done
    · have hlt : (keys.drop size).length < n := by
        have := List.length_pos_iff.mpr hk
        rw [List.length_drop]
        omega
      have hrest := ih _ hlt (chunks ++ [⟨chunks.length, keys.take size⟩]) _ rfl
      rw [cut_eq_cons hs hk, List.length_cons, List.append_cons]
      apply Cuts.turn hk
      simpa using hrest

lemma getElem?_cut (hs : 0 < size) (i : ℕ) :
    (cut size index keys)[i]? =
      if i * size < keys.length then some ⟨index + i, (keys.drop (i * size)).take size⟩
      else none := by
  induction i generalizing index keys with
  | zero =>
    by_cases hk : keys = []
    · simp [hk, cut]
    · simp [cut_eq_cons hs hk, List.length_pos_iff.mpr hk]
  | succ i ih =>
    by_cases hk : keys = []
    · simp [hk, cut]
    · have hnext : size + i * size = (i + 1) * size := by ring
      have hlt : i * size < (keys.drop size).length ↔ (i + 1) * size < keys.length := by
        rw [List.length_drop]
        omega
      rw [cut_eq_cons hs hk, List.getElem?_cons_succ, ih, List.drop_drop, hnext]
      simp only [hlt, Nat.add_assoc, Nat.add_comm 1]

lemma lt_length_cut (hs : 0 < size) (i : ℕ) :
    i < (cut size index keys).length ↔ i * size < keys.length := by
  have h : (cut size index keys)[i]? = _ := getElem?_cut hs i
  split_ifs at h with hi
  · exact iff_of_true (List.getElem?_eq_some_iff.mp h).1 hi
  · exact iff_of_false (List.getElem?_eq_none_iff.mp h).not_gt hi

lemma getElem_cut (hs : 0 < size) (i : ℕ) (h : i < (cut size index keys).length) :
    (cut size index keys)[i] = ⟨index + i, (keys.drop (i * size)).take size⟩ := by
  have hget : (cut size index keys)[i]? = _ := getElem?_cut hs i
  rw [if_pos ((lt_length_cut hs i).mp h), List.getElem?_eq_getElem h] at hget
  exact Option.some.inj hget

lemma length_cut (hs : 0 < size) : (cut size index keys).length = keys.length ⌈/⌉ size := by
  apply eq_of_forall_ge_iff
  intro i
  rw [ceilDiv_le_iff_le_mul hs, ← not_lt, lt_length_cut hs, not_lt, mul_comm]

lemma blocks_cut (hs : 0 < size) (hk : keys ≠ []) : Blocks keys size (cut size 0 keys) := by
  have hne : cut size 0 keys ≠ [] := by simp [cut_eq_cons hs hk]
  refine ⟨?_, length_cut hs, fun i hi => ?_, cut_keys, fun i hi => ?_, hne, ?_⟩
  · have hcuts := cuts_cut hs [] keys
    rwa [List.length_nil, List.nil_append, length_cut hs] at hcuts
  · rw [getElem_cut hs i hi, Nat.zero_add]
  · -- The block before another one ends where that one begins.
    have hnext := (lt_length_cut hs (i + 1)).mp hi
    rw [getElem_cut hs i (Nat.lt_of_succ_lt hi), List.length_take, List.length_drop]
    rw [Nat.add_one_mul] at hnext
    omega
  · exact length_keys_of_mem_cut hs (List.getLast_mem hne)

/-- Every key list is refused for want of keys, or else of a size, or cut into its blocks. -/
theorem partition_into_blocks (keys : List κ) (size : ℕ) :
    Partitioned keys size (partition keys size) := by
  by_cases hk : keys = []
  · rw [partition, if_pos (List.isEmpty_iff.mpr hk)]
    exact .noKeys hk
  · rcases Nat.eq_zero_or_pos size with hs | hs
    · rw [partition, if_neg (by simpa using hk), if_pos hs]
      exact .noSize hk hs
    · rw [partition_eq_ok.mpr ⟨hk, hs, rfl⟩]
      exact .blocks hk hs (blocks_cut hs hk)

end Chunk

end LedgerQuery
