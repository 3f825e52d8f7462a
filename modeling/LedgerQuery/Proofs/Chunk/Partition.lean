import LedgerQuery.Chunk
import Mathlib.Tactic

/-! The chunks of a key list: numbered in order, not empty, not too long, and together the keys. -/

namespace LedgerQuery

namespace Chunk

variable {κ : Type} {keys : List κ} {size index : ℕ}

lemma cut_index : (cut size index keys).map (·.index) =
    List.range' index (cut size index keys).length := by
  fun_induction cut size index keys with
  | case1 index => rfl
  | case2 index k keys ih => simp [ih, List.range'_succ]

lemma cut_keys : (cut size index keys).flatMap (·.keys) = keys := by
  fun_induction cut size index keys with
  | case1 index => rfl
  | case2 index k keys ih => simp [ih]

lemma length_keys_of_mem_cut (hs : 0 < size) {c : Chunk κ} (hc : c ∈ cut size index keys) :
    0 < c.keys.length ∧ c.keys.length ≤ size := by
  fun_induction cut size index keys with
  | case1 index => simp at hc
  | case2 index k keys ih =>
    rcases List.mem_cons.mp hc with rfl | hc
    · simp only [List.length_cons, List.length_take]
      omega
    · exact ih hc

lemma partition_eq_ok {chunks : List (Chunk κ)} :
    partition keys size = .ok chunks ↔ keys ≠ [] ∧ 0 < size ∧ chunks = cut size 0 keys := by
  unfold partition
  split_ifs with hk hs
  · simp [List.isEmpty_iff.mp hk]
  · simp [hs]
  · simp only [Except.ok.injEq, eq_comm (a := chunks)]
    exact ⟨fun h => ⟨by simpa using hk, Nat.pos_of_ne_zero hs, h⟩, fun h => h.2.2⟩

lemma partition_index {chunks : List (Chunk κ)} (h : partition keys size = .ok chunks) :
    chunks.map (·.index) = List.range chunks.length := by
  obtain ⟨-, -, rfl⟩ := partition_eq_ok.mp h
  rw [cut_index, List.range_eq_range']

lemma partition_nodup {chunks : List (Chunk κ)} (h : partition keys size = .ok chunks) :
    (chunks.map (·.index)).Nodup := by
  rw [partition_index h]
  exact List.nodup_range

lemma index_of_getElem? {chunks : List (Chunk κ)} (h : partition keys size = .ok chunks) {i : ℕ}
    {c : Chunk κ} (hc : chunks[i]? = some c) : c.index = i := by
  have hindex : (chunks.map (·.index))[i]? = some c.index := by
    rw [List.getElem?_map, hc, Option.map_some]
  have hlt : i < chunks.length := (List.getElem?_eq_some_iff.mp hc).1
  rw [partition_index h, List.getElem?_range hlt] at hindex
  exact (Option.some.inj hindex).symm

lemma partition_ne_nil {chunks : List (Chunk κ)} (h : partition keys size = .ok chunks) :
    chunks ≠ [] := by
  obtain ⟨hk, -, rfl⟩ := partition_eq_ok.mp h
  intro hc
  have hkeys : (cut size 0 keys).flatMap (·.keys) = keys := cut_keys
  rw [hc] at hkeys
  exact hk hkeys.symm

end Chunk

end LedgerQuery
