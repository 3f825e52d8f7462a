import LedgerQuery.Proofs.Coordinator.Reference
import LedgerQuery.Proofs.Counters.Recording

/-! What a coordinator counts. Every signal is counted, as completing a chunk, as failing the query
or as dropped, and what has been counted tells how many chunks are outstanding. -/

namespace LedgerQuery

def Count.ofChunk : Count → Bool
  | .chunkFinished _ => true
  | .lateSignal => true
  | _ => false

lemma Count.length_ofChunk {counts : List Count} (h : ∀ count ∈ counts, count.ofChunk = true) :
    counts.count (.chunkFinished true) + counts.count (.chunkFinished false) +
      counts.count .lateSignal = counts.length := by
  induction counts with
  | nil => rfl
  | cons count counts ih =>
    have hrest := ih fun other hmem => h other (List.mem_cons_of_mem _ hmem)
    have hfirst := h count List.mem_cons_self
    simp only [List.count_cons, List.length_cons]
    cases count with
    | chunkFinished ok => cases ok <;> simp <;> omega
    | lateSignal => simp; omega
    | _ => cases hfirst

namespace Coordinator

variable {κ τ : Type}

lemma receive_counts (c : Coordinator τ) (s : Signal τ) :
    ∃ count, (c.receive s).notes.counts = [count] ∧ count.ofChunk = true ∧
      [count].count (.chunkFinished false) =
        (c.receive s).delivered.toList.countP fun o => !o.isOk := by
  rcases receive_cases c s with ⟨hd, hn⟩ | ⟨i, e, -, hd, hn⟩ | ⟨items?, hd, hn⟩
  · exact ⟨_, hn, rfl, by rw [hd]; rfl⟩
  · exact ⟨_, hn, rfl, by rw [hd]; rfl⟩
  · refine ⟨_, hn, rfl, ?_⟩
    rw [hd]
    cases items? <;> rfl

lemma receiveAll_counts (c : Coordinator τ) (signals : List (Signal τ)) :
    let run := c.receiveAll signals
    (∀ count ∈ run.notes.counts, count.ofChunk = true) ∧
      run.notes.counts.length = signals.length ∧
      run.notes.counts.count (.chunkFinished false) = run.delivered.countP fun o => !o.isOk := by
  induction signals using List.reverseRecOn with
  | nil => exact ⟨nofun, rfl, rfl⟩
  | append_singleton signals s ih =>
    obtain ⟨hall, hlen, hfailed⟩ := ih
    obtain ⟨count, hcounts, hchunk, hone⟩ :=
      receive_counts (c.receiveAll signals).coordinator s
    rw [receiveAll_snoc]
    simp only [Notes.counts_append, hcounts]
    refine ⟨fun other ho => ?_, by simp [hlen], ?_⟩
    · rcases List.mem_append.mp ho with ho | ho
      · exact hall other ho
      · rwa [List.mem_singleton.mp ho]
    · rw [List.count_append, List.countP_append, hfailed, hone]

lemma receive_remaining (c : Coordinator τ) (s : Signal τ) :
    (c.receive s).notes.counts.count (.chunkFinished true) +
      (c.receive s).coordinator.pending.length = c.pending.length := by
  cases receive_effect c s with
  | dropped hr _ hn => simp [hr, hn]
  | failed i e _ _ hr _ hn => simp [hr, hn]
  | more i items _ hi hr _ hn =>
    rw [hn, hr, List.count_singleton_self, List.length_erase_of_mem hi]
    have := List.length_pos_of_mem hi
    omega
  | final i items _ hi hl hr _ hn =>
    have hone := List.length_erase_of_mem hi
    have hpos := List.length_pos_of_mem hi
    rw [hl, List.length_nil] at hone
    rw [hn, hr, List.count_singleton_self, List.length_nil]
    omega

lemma receiveAll_remaining (c : Coordinator τ) (signals : List (Signal τ)) :
    (c.receiveAll signals).notes.counts.count (.chunkFinished true) +
      (c.receiveAll signals).coordinator.pending.length = c.pending.length := by
  induction signals generalizing c with
  | nil => simp [receiveAll]
  | cons s rest ih =>
    rw [receiveAll, Notes.counts_append, List.count_append, Nat.add_assoc, ih, receive_remaining]

lemma length_start_pending (label : String) (chunks : List (Chunk κ)) :
    (start label chunks : Coordinator τ).pending.length =
      (chunks.map (·.index)).toFinset.card := by
  rw [start_pending, ← List.toFinset_card_of_nodup (nodup_eraseDups _)]
  congr 1
  ext i
  simp

section Histories

variable {asked left : Finset ℕ} {signals : List (Signal τ)} {phase : Phase}
  {delivered : List (Outcome (List τ))}

lemma Reference.countP_failed (h : Reference asked signals phase left delivered) :
    delivered.countP (fun o => !o.isOk) = if phase = .failed then 1 else 0 := by
  cases h with
  | pending _ _ => rfl
  | succeeded _ _ _ => rfl
  | failed _ _ => rfl

lemma Reference.succeeded_iff (h : Reference asked signals phase left delivered) :
    phase = .succeeded ↔ asked.Nonempty ∧ left = ∅ ∧ phase ≠ .failed := by
  cases h with
  | pending hc _ =>
    refine iff_of_false nofun ?_
    rintro ⟨hne, hleft, -⟩
    exact hc ⟨hne, Finset.sdiff_eq_empty_iff_subset.mp hleft⟩
  | succeeded _ _ hcov => exact iff_of_true rfl ⟨hcov.1, rfl, nofun⟩
  | failed _ _ => exact iff_of_false nofun fun h => h.2.2 rfl

end Histories

/-- So many completions, failures and late signals account for everything that was sent to a
coordinator, and for every chunk that it was asked for. -/
structure Accounted (asked : Finset ℕ) (sent : ℕ) (c : Coordinator τ) (completed failures late : ℕ) :
    Prop where
  signals : completed + failures + late = sent
  chunks : completed + c.pending.length = asked.card
  failed : failures = if c.phase = .failed then 1 else 0
  succeeded : c.phase = .succeeded ↔ asked.Nonempty ∧ c.pending.length = 0 ∧ failures = 0
  whole : c.phase = .succeeded → completed = asked.card

lemma receiveAll_accounted (label : String) (chunks : List (Chunk κ)) (signals : List (Signal τ)) :
    let run := (start label chunks : Coordinator τ).receiveAll signals
    Accounted (chunks.map (·.index)).toFinset signals.length run.coordinator
      (run.notes.counts.count (.chunkFinished true))
      (run.notes.counts.count (.chunkFinished false)) (run.notes.counts.count .lateSignal) := by
  intro run
  have href : Reference _ signals run.coordinator.phase run.coordinator.pending.toFinset
      run.delivered := (receiveAll_mirrors label chunks signals).reference
  obtain ⟨hchunk, hlength, hfailed⟩ :=
    receiveAll_counts (start label chunks : Coordinator τ) signals
  have hremaining := receiveAll_remaining (start label chunks : Coordinator τ) signals
  have hleft : run.coordinator.pending.length = 0 ↔ run.coordinator.pending.toFinset = ∅ := by
    rw [List.length_eq_zero_iff, List.toFinset_eq_empty_iff]
  rw [length_start_pending] at hremaining
  rw [href.countP_failed] at hfailed
  refine ⟨?_, hremaining, hfailed, ?_, fun hs => ?_⟩
  · rw [Count.length_ofChunk hchunk, hlength]
  · rw [hleft, hfailed, href.succeeded_iff]
    simp
  · have hnone := hleft.mpr (href.succeeded_iff.mp hs).2.1
    rwa [hnone] at hremaining

/-- After any signals the counters, fresh at the start, account for all of them: exactly as long as
that many can be counted in 64 bits, and always in the words that they are. -/
theorem signals_accounted (label : String) (chunks : List (Chunk κ)) (signals : List (Signal τ)) :
    let run := (start label chunks : Coordinator τ).receiveAll signals
    let asked := (chunks.map (·.index)).toFinset
    let m := Counters.recordAll {} run.notes.counts
    (signals.length < 2 ^ 64 → Accounted asked signals.length run.coordinator
      m.chunksCompleted.toNat m.chunksFailed.toNat m.lateSignals.toNat) ∧
    ∃ completed failures late,
      Accounted asked signals.length run.coordinator completed failures late ∧
        m.chunksCompleted = .ofNat completed ∧ m.chunksFailed = .ofNat failures ∧
        m.lateSignals = .ofNat late := by
  intro run asked m
  have hall : Accounted asked signals.length run.coordinator
      (run.notes.counts.count (.chunkFinished true))
      (run.notes.counts.count (.chunkFinished false)) (run.notes.counts.count .lateSignal) :=
    receiveAll_accounted label chunks signals
  have hcompleted : m.chunksCompleted = .ofNat (run.notes.counts.count (.chunkFinished true)) :=
    Counters.value_fresh _ (.chunkFinished true)
  have hfailures : m.chunksFailed = .ofNat (run.notes.counts.count (.chunkFinished false)) :=
    Counters.value_fresh _ (.chunkFinished false)
  have hlate : m.lateSignals = .ofNat (run.notes.counts.count .lateSignal) :=
    Counters.value_fresh _ .lateSignal
  refine ⟨fun hlt => ?_, _, _, _, hall, hcompleted, hfailures, hlate⟩
  -- None of the three can have been counted more often than there were signals.
  have hfits {n : ℕ} (hn : n ≤ signals.length) : (UInt64.ofNat n).toNat = n :=
    UInt64.toNat_ofNat_of_lt' (hn.trans_lt hlt)
  have hsum := hall.signals
  rw [hcompleted, hfailures, hlate, hfits (by omega), hfits (by omega), hfits (by omega)]
  exact hall

theorem signals_accounted_past_failure :
    let chunks : List (Chunk ℕ) := [⟨0, [1]⟩, ⟨1, [2]⟩]
    let signals : List (Signal ℕ) := [.completed 0 [5], .completed 0 [6], .completed 7 [],
      .failed 1 .abandoned, .completed 1 [8]]
    let run := (start "q" chunks : Coordinator ℕ).receiveAll signals
    signals.length < 2 ^ 64 ∧ run.coordinator.phase = .failed ∧
      Accounted (chunks.map (·.index)).toFinset 5 run.coordinator 1 1 3 := by
  intro chunks signals run
  have hlt : signals.length < 2 ^ 64 := by decide
  exact ⟨hlt, rfl, (signals_accounted "q" chunks signals).1 hlt⟩

end Coordinator

end LedgerQuery
