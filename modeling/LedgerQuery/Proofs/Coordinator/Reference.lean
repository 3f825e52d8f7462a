import LedgerQuery.Proofs.Coordinator.Signals
import Mathlib.Data.Finset.SDiff
import Mathlib.Data.Finset.Insert

/-! What a coordinator has come to, read off the whole history of the signals sent to it: the first
signal that completes the last chunk asked for, or the first failure, decides. -/

namespace LedgerQuery

namespace Signal

variable {τ : Type}

def index : Signal τ → ℕ
  | completed i _ => i
  | failed i _ => i

def items : Signal τ → List τ
  | completed _ items => items
  | failed _ _ => []

def error? : Signal τ → Option QueryError
  | completed _ _ => none
  | failed _ e => some e

def completes? : Signal τ → Option ℕ
  | completed i _ => some i
  | failed _ _ => none

end Signal

namespace Coordinator

variable {κ τ : Type}

def completedIn (signals : List (Signal τ)) : Finset ℕ :=
  (signals.filterMap Signal.completes?).toFinset

def HasFailed (signals : List (Signal τ)) : Prop :=
  ∃ i e, Signal.failed i e ∈ signals

def Covers (asked : Finset ℕ) (signals : List (Signal τ)) : Prop :=
  asked.Nonempty ∧ asked ⊆ completedIn signals

def addition (asked : Finset ℕ) (before : List (Signal τ)) : Signal τ → List τ
  | .completed i items => if i ∈ asked ∧ i ∉ completedIn before then items else []
  | .failed _ _ => []

def gatheredAfter (asked : Finset ℕ) (before : List (Signal τ)) : List (Signal τ) → List τ
  | [] => []
  | s :: rest => addition asked before s ++ gatheredAfter asked (before ++ [s]) rest

def gathered (asked : Finset ℕ) (signals : List (Signal τ)) : List τ :=
  gatheredAfter asked [] signals

/-- Phase, chunks outstanding and outcomes delivered that a history of signals entitles to. -/
inductive Reference (asked : Finset ℕ) :
    List (Signal τ) → Phase → Finset ℕ → List (Outcome (List τ)) → Prop
  | pending {signals} : ¬ Covers asked signals → ¬ HasFailed signals →
      Reference asked signals .pending (asked \ completedIn signals) []
  | succeeded {before s after} : ¬ Covers asked before → ¬ HasFailed (before ++ [s]) →
      Covers asked (before ++ [s]) →
      Reference asked (before ++ s :: after) .succeeded ∅ [.ok (gathered asked (before ++ [s]))]
  | failed {before i e after} : ¬ Covers asked before → ¬ HasFailed before →
      Reference asked (before ++ .failed i e :: after) .failed (asked \ completedIn before)
        [.error e]

section Histories

variable {asked : Finset ℕ} {signals : List (Signal τ)}

@[simp] lemma completedIn_nil : completedIn ([] : List (Signal τ)) = ∅ := rfl

@[simp] lemma completedIn_snoc_completed (i : ℕ) (items : List τ) :
    completedIn (signals ++ [.completed i items]) = insert i (completedIn signals) := by
  ext j
  simp [completedIn, Signal.completes?]

@[simp] lemma hasFailed_nil : ¬ HasFailed ([] : List (Signal τ)) := by
  simp [HasFailed]

@[simp] lemma hasFailed_snoc_completed (i : ℕ) (items : List τ) :
    HasFailed (signals ++ [.completed i items]) ↔ HasFailed signals := by
  simp [HasFailed]

lemma not_hasFailed_iff : ¬ HasFailed signals ↔ ∀ s ∈ signals, s.error? = none := by
  constructor
  · intro h s hs
    cases s with
    | completed i items => rfl
    | failed i e => exact absurd ⟨i, e, hs⟩ h
  · rintro h ⟨i, e, hf⟩
    exact absurd (h _ hf) (by simp [Signal.error?])

@[simp] lemma not_covers_nil : ¬ Covers asked ([] : List (Signal τ)) := by
  rintro ⟨⟨i, hi⟩, h⟩
  simpa using h hi

lemma gatheredAfter_snoc (before : List (Signal τ)) (s : Signal τ) :
    gatheredAfter asked before (signals ++ [s]) =
      gatheredAfter asked before signals ++ addition asked (before ++ signals) s := by
  induction signals generalizing before with
  | nil => simp [gatheredAfter]
  | cons t rest ih => simp [gatheredAfter, ih]

lemma gathered_snoc (s : Signal τ) :
    gathered asked (signals ++ [s]) = gathered asked signals ++ addition asked signals s := by
  simp [gathered, gatheredAfter_snoc]

lemma completedIn_subset (more : List (Signal τ)) :
    completedIn signals ⊆ completedIn (signals ++ more) := by
  simp [completedIn]

lemma index_mem_of_mem_completedIn {i : ℕ} (h : i ∈ completedIn signals) :
    i ∈ signals.map Signal.index := by
  obtain ⟨s, hs, hi⟩ := List.mem_filterMap.mp (List.mem_toFinset.mp h)
  cases s with
  | completed j items => exact List.mem_map.mpr ⟨_, hs, Option.some.inj hi⟩
  | failed j e => simp [Signal.completes?] at hi

lemma gathered_of_nodup (hn : (signals.map Signal.index).Nodup)
    (ha : ∀ s ∈ signals, s.index ∈ asked) :
    gathered asked signals = signals.flatMap Signal.items := by
  induction signals using List.reverseRecOn with
  | nil => rfl
  | append_singleton signals s ih =>
    rw [List.map_append, List.nodup_append] at hn
    have hs : s.index ∉ signals.map Signal.index := fun h => hn.2.2 _ h _ (by simp) rfl
    rw [gathered_snoc, ih hn.1 fun t ht => ha t (by simp [ht]), List.flatMap_append]
    congr 1
    cases s with
    | completed i items =>
      have hi : i ∉ completedIn signals := fun h => hs (index_mem_of_mem_completedIn h)
      simp [addition, Signal.items, hi, show i ∈ asked from ha (.completed i items) (by simp)]
    | failed i e => simp [addition, Signal.items]

def Decided (asked : Finset ℕ) (signals : List (Signal τ)) : Prop :=
  Covers asked signals ∨ HasFailed signals

lemma Decided.append (h : Decided asked signals) (more : List (Signal τ)) :
    Decided asked (signals ++ more) := by
  rcases h with ⟨hne, hsub⟩ | ⟨i, e, hf⟩
  · exact Or.inl ⟨hne, hsub.trans (completedIn_subset more)⟩
  · exact Or.inr ⟨i, e, List.mem_append_left _ hf⟩

lemma decided_once_aux {before before' after after' : List (Signal τ)} {s s' : Signal τ}
    (hw : before ++ s :: after = before' ++ s' :: after') (hd : Decided asked (before ++ [s]))
    (hn' : ¬ Decided asked before') (hl : before.length ≤ before'.length) :
    before = before' ∧ s = s' ∧ after = after' := by
  obtain ⟨more, rfl⟩ := (List.prefix_of_prefix_length_le ⟨_, hw⟩ ⟨_, rfl⟩ hl)
  rw [List.append_assoc, List.append_cancel_left_eq] at hw
  cases more with
  | nil => simpa using hw
  | cons t more =>
    obtain ⟨rfl, -⟩ := List.cons_eq_cons.mp hw
    refine absurd ?_ hn'
    have h := hd.append more
    simpa using h

lemma decided_once {before before' after after' : List (Signal τ)} {s s' : Signal τ}
    (hw : before ++ s :: after = before' ++ s' :: after')
    (hn : ¬ Decided asked before) (hd : Decided asked (before ++ [s]))
    (hn' : ¬ Decided asked before') (hd' : Decided asked (before' ++ [s'])) :
    before = before' ∧ s = s' ∧ after = after' := by
  rcases Nat.le_total before.length before'.length with hl | hl
  · exact decided_once_aux hw hd hn' hl
  · obtain ⟨h₁, h₂, h₃⟩ := decided_once_aux hw.symm hd' hn hl
    exact ⟨h₁.symm, h₂.symm, h₃.symm⟩

end Histories

section Decisions

def decision (asked : Finset ℕ) (before : List (Signal τ)) : Signal τ → Outcome (List τ)
  | .completed i items => .ok (gathered asked (before ++ [.completed i items]))
  | .failed _ e => .error e

variable {asked : Finset ℕ} {before after : List (Signal τ)} {s : Signal τ}

lemma covers_of_decided {i : ℕ} {items : List τ} (hn : ¬ Decided asked before)
    (hd : Decided asked (before ++ [.completed i items])) :
    Covers asked (before ++ [.completed i items]) := by
  rcases hd with hc | hf
  · exact hc
  · exact absurd (Or.inr ((hasFailed_snoc_completed i items).mp hf)) hn

lemma decided_of_perm (hne : asked.Nonempty)
    (hp : ∀ i ∈ asked, i ∈ before.map Signal.index) : Decided asked before := by
  by_contra hn
  have hf : ∀ s ∈ before, s.error? = none := not_hasFailed_iff.mp fun hf => hn (Or.inr hf)
  refine hn (Or.inl ⟨hne, fun i hi => ?_⟩)
  obtain ⟨s, hs, rfl⟩ := List.mem_map.mp (hp i hi)
  cases s with
  | completed i items => exact List.mem_toFinset.mpr (List.mem_filterMap.mpr ⟨_, hs, rfl⟩)
  | failed i e => simpa [Signal.error?] using hf _ hs

lemma nothing_after_cover (hn : ((before ++ s :: after).map Signal.index).Nodup)
    (ha : ∀ t ∈ before ++ s :: after, t.index ∈ asked) (hc : Covers asked (before ++ [s])) :
    after = [] := by
  refine List.eq_nil_iff_forall_not_mem.mpr fun t ht => ?_
  have hmem := index_mem_of_mem_completedIn (hc.2 (ha t (by simp [ht])))
  rw [show before ++ s :: after = (before ++ [s]) ++ after by simp, List.map_append,
    List.nodup_append] at hn
  exact hn.2.2 _ hmem _ (List.mem_map_of_mem ht) rfl

end Decisions

section Uniqueness

variable {asked : Finset ℕ} {signals : List (Signal τ)} {phase phase' : Phase}
  {left left' : Finset ℕ} {delivered delivered' : List (Outcome (List τ))}

lemma Reference.cases_decided (h : Reference asked signals phase left delivered) :
    (¬ Decided asked signals ∧ phase = .pending ∧ left = asked \ completedIn signals ∧
      delivered = []) ∨
    ∃ before s after, signals = before ++ s :: after ∧ ¬ Decided asked before ∧
      Decided asked (before ++ [s]) ∧
      ((∃ i items, s = .completed i items ∧ phase = .succeeded ∧ left = ∅ ∧
        delivered = [.ok (gathered asked (before ++ [s]))]) ∨
      ∃ i e, s = .failed i e ∧ phase = .failed ∧ left = asked \ completedIn before ∧
        delivered = [.error e]) := by
  cases h with
  | pending hc hf => exact Or.inl ⟨not_or.mpr ⟨hc, hf⟩, rfl, rfl, rfl⟩
  | @succeeded before s after hc hf hcov =>
    have hf' : ¬ HasFailed before := fun ⟨i, e, h⟩ => hf ⟨i, e, List.mem_append_left _ h⟩
    cases s with
    | completed i items =>
      exact Or.inr ⟨before, _, after, rfl, not_or.mpr ⟨hc, hf'⟩, Or.inl hcov,
        Or.inl ⟨i, items, rfl, rfl, rfl, rfl⟩⟩
    | failed i e => exact absurd ⟨i, e, by simp⟩ hf
  | @failed before i e after hc hf =>
    exact Or.inr ⟨before, _, after, rfl, not_or.mpr ⟨hc, hf⟩, Or.inr ⟨i, e, by simp⟩,
      Or.inr ⟨i, e, rfl, rfl, rfl, rfl⟩⟩

lemma Reference.delivered_of_undecided (h : Reference asked signals phase left delivered)
    (hn : ¬ Decided asked signals) : delivered = [] := by
  rcases h.cases_decided with ⟨-, -, -, hd⟩ | ⟨b, s, a, hw, -, hd, -⟩
  · exact hd
  · refine absurd ?_ hn
    simpa [hw] using hd.append a

lemma Reference.delivered_of_decided {before after : List (Signal τ)} {s : Signal τ}
    (h : Reference asked (before ++ s :: after) phase left delivered)
    (hn : ¬ Decided asked before) (hd : Decided asked (before ++ [s])) :
    delivered = [decision asked before s] := by
  rcases h.cases_decided with ⟨hn', -, -, -⟩ | ⟨b, t, a, hw, hn', hd', ht⟩
  · refine absurd ?_ hn'
    simpa using hd.append after
  · obtain ⟨rfl, rfl, rfl⟩ := decided_once hw hn hd hn' hd'
    rcases ht with ⟨i, items, rfl, -, -, rfl⟩ | ⟨i, e, rfl, -, -, rfl⟩
    · rfl
    · rfl

lemma Reference.unique (h : Reference asked signals phase left delivered)
    (h' : Reference asked signals phase' left' delivered') :
    phase = phase' ∧ left = left' ∧ delivered = delivered' := by
  rcases h.cases_decided with ⟨hn, rfl, rfl, rfl⟩ | ⟨b, s, a, hw, hn, hd, hs⟩
  · rcases h'.cases_decided with ⟨-, rfl, rfl, rfl⟩ | ⟨b', s', a', hw', -, hd', -⟩
    · exact ⟨rfl, rfl, rfl⟩
    · refine absurd ?_ hn
      simpa [hw'] using hd'.append a'
  · rcases h'.cases_decided with ⟨hn', -, -, -⟩ | ⟨b', s', a', hw', hn', hd', hs'⟩
    · refine absurd ?_ hn'
      simpa [hw] using hd.append a
    · obtain ⟨rfl, rfl, rfl⟩ := decided_once (hw.symm.trans hw') hn hd hn' hd'
      rcases hs with ⟨i, xs, rfl, rfl, rfl, rfl⟩ | ⟨i, e, rfl, rfl, rfl, rfl⟩
      · rcases hs' with ⟨j, ys, -, rfl, rfl, rfl⟩ | ⟨j, e, he, -⟩
        · exact ⟨rfl, rfl, rfl⟩
        · cases he
      · rcases hs' with ⟨j, ys, he, -⟩ | ⟨j, e', he, rfl, rfl, rfl⟩
        · cases he
        · cases he
          exact ⟨rfl, rfl, rfl⟩

end Uniqueness

lemma Reference.late {asked : Finset ℕ} {signals : List (Signal τ)} {phase : Phase}
    {left : Finset ℕ} {delivered : List (Outcome (List τ))}
    (h : Reference asked signals phase left delivered) (hp : phase ≠ .pending) (s : Signal τ) :
    Reference asked (signals ++ [s]) phase left delivered := by
  cases h with
  | pending _ _ => exact absurd rfl hp
  | succeeded hc hf hcov =>
    rw [List.append_assoc, List.cons_append]
    exact .succeeded hc hf hcov
  | failed hc hf =>
    rw [List.append_assoc, List.cons_append]
    exact .failed hc hf

structure Mirrors (asked : Finset ℕ) (signals : List (Signal τ)) (c : Coordinator τ)
    (delivered : List (Outcome (List τ))) : Prop where
  reference : Reference asked signals c.phase c.pending.toFinset delivered
  nodup : c.pending.Nodup
  merged : c.phase = .pending → c.merged = gathered asked signals

lemma start_mirrors (label : String) (chunks : List (Chunk κ)) :
    Mirrors (chunks.map (·.index)).toFinset [] (start label chunks : Coordinator τ) [] := by
  refine ⟨?_, nodup_eraseDups _, fun _ => rfl⟩
  have hp : (start label chunks : Coordinator τ).pending.toFinset =
      (chunks.map (·.index)).toFinset \ completedIn ([] : List (Signal τ)) := by
    ext i
    simp
  rw [hp]
  exact .pending not_covers_nil hasFailed_nil

section Steps

variable {asked : Finset ℕ} {signals : List (Signal τ)} {c : Coordinator τ}

lemma mirrors_failure (hc : ¬ Covers asked signals) (hf : ¬ HasFailed signals)
    (hp : c.phase = .pending) (hs : c.pending.toFinset = asked \ completedIn signals)
    (hn : c.pending.Nodup) (i : ℕ) (e : QueryError) :
    Mirrors asked (signals ++ [.failed i e]) (c.receive (.failed i e)).coordinator
      (c.receive (.failed i e)).delivered.toList := by
  obtain ⟨hr, hd, -⟩ := receive_failure hp i e
  rw [hr, hd]
  refine ⟨?_, hn, by simp⟩
  change Reference asked _ .failed c.pending.toFinset [.error e]
  rw [hs]
  exact .failed hc hf

lemma mirrors_unasked (hc : ¬ Covers asked signals) (hf : ¬ HasFailed signals)
    (hp : c.phase = .pending) (hs : c.pending.toFinset = asked \ completedIn signals)
    (hn : c.pending.Nodup) (hm : c.merged = gathered asked signals) {i : ℕ} (hi : i ∉ c.pending)
    (items : List τ) :
    Mirrors asked (signals ++ [.completed i items]) (c.receive (.completed i items)).coordinator
      (c.receive (.completed i items)).delivered.toList := by
  obtain ⟨hr, hd, -⟩ := receive_unasked hp hi items
  have hnew : ¬ (i ∈ asked ∧ i ∉ completedIn signals) := by
    rw [← Finset.mem_sdiff, ← hs, List.mem_toFinset]
    exact hi
  have hsame : asked \ completedIn (signals ++ [.completed i items]) =
      asked \ completedIn signals := by
    ext j
    simp only [completedIn_snoc_completed, Finset.mem_sdiff, Finset.mem_insert]
    grind
  have hcov : ¬ Covers asked (signals ++ [.completed i items]) := by
    rintro ⟨ha, hsub⟩
    rw [← Finset.sdiff_eq_empty_iff_subset, hsame, Finset.sdiff_eq_empty_iff_subset] at hsub
    exact hc ⟨ha, hsub⟩
  rw [hr, hd]
  refine ⟨?_, hn, fun _ => ?_⟩
  · rw [hp, hs, ← hsame]
    exact .pending hcov (by simpa using hf)
  · rw [gathered_snoc, hm, addition, if_neg hnew, List.append_nil]

lemma mirrors_asked (hf : ¬ HasFailed signals) (hc : ¬ Covers asked signals)
    (hp : c.phase = .pending) (hs : c.pending.toFinset = asked \ completedIn signals)
    (hn : c.pending.Nodup) (hm : c.merged = gathered asked signals) {i : ℕ} (hi : i ∈ c.pending)
    (items : List τ) :
    Mirrors asked (signals ++ [.completed i items]) (c.receive (.completed i items)).coordinator
      (c.receive (.completed i items)).delivered.toList := by
  have hnew : i ∈ asked ∧ i ∉ completedIn signals := by
    rw [← Finset.mem_sdiff, ← hs, List.mem_toFinset]
    exact hi
  have hmerged : gathered asked (signals ++ [.completed i items]) = c.merged ++ items := by
    rw [gathered_snoc, ← hm, addition, if_pos hnew]
  have hleft : asked \ completedIn (signals ++ [.completed i items]) =
      (c.pending.erase i).toFinset := by
    ext j
    have hj : j ∈ c.pending ↔ j ∈ asked ∧ j ∉ completedIn signals := by
      rw [← List.mem_toFinset, hs, Finset.mem_sdiff]
    simp only [completedIn_snoc_completed, Finset.mem_sdiff, Finset.mem_insert, List.mem_toFinset,
      hn.mem_erase_iff, hj]
    tauto
  have hcov : Covers asked (signals ++ [.completed i items]) ↔ c.pending.erase i = [] := by
    rw [Covers, ← Finset.sdiff_eq_empty_iff_subset, hleft, List.toFinset_eq_empty_iff]
    exact and_iff_right ⟨i, hnew.1⟩
  by_cases hl : c.pending.erase i = []
  · obtain ⟨hr, hd, -⟩ := receive_final hp hi hl items
    rw [hr, hd]
    refine ⟨?_, by simp, by simp⟩
    change Reference asked _ .succeeded ∅ [.ok (c.merged ++ items)]
    rw [← hmerged]
    exact .succeeded hc (by simpa using hf) (hcov.mpr hl)
  · obtain ⟨hr, hd, -⟩ := receive_more hp hi hl items
    rw [hr, hd]
    refine ⟨?_, hn.erase i, fun _ => hmerged.symm⟩
    change Reference asked _ c.phase (c.pending.erase i).toFinset []
    rw [hp, ← hleft]
    exact .pending (fun h => hl (hcov.mp h)) (by simpa using hf)

lemma receive_mirrors {delivered : List (Outcome (List τ))}
    (h : Mirrors asked signals c delivered) (s : Signal τ) :
    Mirrors asked (signals ++ [s]) (c.receive s).coordinator
      (delivered ++ (c.receive s).delivered.toList) := by
  obtain ⟨href, hn, hm⟩ := h
  by_cases hp : c.phase = .pending
  · rw [hp] at href
    generalize hs : c.pending.toFinset = left at href
    cases href with
    | pending hc hf =>
      cases s with
      | failed i e => exact mirrors_failure hc hf hp hs hn i e
      | completed i items =>
        by_cases hi : i ∈ c.pending
        · exact mirrors_asked hf hc hp hs hn (hm hp) hi items
        · exact mirrors_unasked hc hf hp hs hn (hm hp) hi items
  · obtain ⟨hr, hd, -⟩ := receive_settled hp s
    rw [hr, hd]
    refine ⟨?_, hn, fun h => absurd h hp⟩
    simpa using href.late hp s

end Steps

lemma receiveAll_mirrors (label : String) (chunks : List (Chunk κ)) (signals : List (Signal τ)) :
    let run := (start label chunks : Coordinator τ).receiveAll signals
    Mirrors (chunks.map (·.index)).toFinset signals run.coordinator run.delivered := by
  induction signals using List.reverseRecOn with
  | nil => exact start_mirrors label chunks
  | append_singleton signals s ih =>
    rw [receiveAll_snoc]
    exact receive_mirrors ih s

/-- After any signals, whatever chunks they name, a coordinator is in the phase, waits for the
chunks and has delivered the outcomes that the history of its signals entitles to. -/
theorem receiveAll_reference (label : String) (chunks : List (Chunk κ))
    (signals : List (Signal τ)) :
    let run := (start label chunks : Coordinator τ).receiveAll signals
    Reference (chunks.map (·.index)).toFinset signals run.coordinator.phase
        run.coordinator.pending.toFinset run.delivered ∧
      run.coordinator.pending.length = run.coordinator.pending.toFinset.card := by
  have h := receiveAll_mirrors label chunks signals
  exact ⟨h.reference, (List.toFinset_card_of_nodup h.nodup).symm⟩

end Coordinator

end LedgerQuery
