import LedgerQuery.Coordinator
import Mathlib.Tactic

/-! What one signal does to a coordinator, case by case, and how a run of signals is made up. -/

namespace LedgerQuery

namespace Coordinator

variable {κ τ : Type} {c : Coordinator τ}

@[simp] lemma start_phase (label : String) (chunks : List (Chunk κ)) :
    (start label chunks : Coordinator τ).phase = .pending := rfl

@[simp] lemma start_pending (label : String) (chunks : List (Chunk κ)) :
    (start label chunks : Coordinator τ).pending = (chunks.map (·.index)).eraseDups := rfl

@[simp] lemma start_merged (label : String) (chunks : List (Chunk κ)) :
    (start label chunks : Coordinator τ).merged = [] := rfl

lemma receive_settled (h : c.phase ≠ .pending) (s : Signal τ) :
    (c.receive s).coordinator = c ∧ (c.receive s).delivered = none ∧
      (c.receive s).notes.counts = [.lateSignal] := by
  cases s with
  | completed i items =>
    cases hp : c.phase with
    | pending => exact absurd hp h
    | succeeded => simp [receive, complete, drop, hp]
    | failed => simp [receive, complete, drop, hp]
  | failed i e =>
    cases hp : c.phase with
    | pending => exact absurd hp h
    | succeeded => simp [receive, fail, drop, hp]
    | failed => simp [receive, fail, drop, hp]

lemma receive_failure (h : c.phase = .pending) (i : ℕ) (e : QueryError) :
    (c.receive (.failed i e)).coordinator = { c with phase := .failed, merged := [] } ∧
      (c.receive (.failed i e)).delivered = some (.error e) ∧
      (c.receive (.failed i e)).notes.counts = [.chunkFinished false] := by
  simp [receive, fail, h]

lemma receive_unasked (h : c.phase = .pending) {i : ℕ} (hi : i ∉ c.pending) (items : List τ) :
    (c.receive (.completed i items)).coordinator = c ∧
      (c.receive (.completed i items)).delivered = none ∧
      (c.receive (.completed i items)).notes.counts = [.lateSignal] := by
  simp [receive, complete, drop, h, hi]

lemma receive_more (h : c.phase = .pending) {i : ℕ} (hi : i ∈ c.pending)
    (hl : c.pending.erase i ≠ []) (items : List τ) :
    (c.receive (.completed i items)).coordinator =
        { c with pending := c.pending.erase i, merged := c.merged ++ items } ∧
      (c.receive (.completed i items)).delivered = none ∧
      (c.receive (.completed i items)).notes.counts = [.chunkFinished true] := by
  simp [receive, complete, h, hi, hl]

lemma receive_final (h : c.phase = .pending) {i : ℕ} (hi : i ∈ c.pending)
    (hl : c.pending.erase i = []) (items : List τ) :
    (c.receive (.completed i items)).coordinator =
        { c with phase := .succeeded, pending := [], merged := [] } ∧
      (c.receive (.completed i items)).delivered = some (.ok (c.merged ++ items)) ∧
      (c.receive (.completed i items)).notes.counts = [.chunkFinished true] := by
  simp [receive, complete, h, hi, hl]

inductive Effect (c : Coordinator τ) (s : Signal τ) (r : Reaction τ) : Prop
  | dropped : r.coordinator = c → r.delivered = none → r.notes.counts = [.lateSignal] →
      Effect c s r
  | failed (i : ℕ) (e : QueryError) : s = .failed i e → c.phase = .pending →
      r.coordinator = { c with phase := .failed, merged := [] } → r.delivered = some (.error e) →
      r.notes.counts = [.chunkFinished false] → Effect c s r
  | more (i : ℕ) (items : List τ) : c.phase = .pending → i ∈ c.pending →
      r.coordinator = { c with pending := c.pending.erase i, merged := c.merged ++ items } →
      r.delivered = none → r.notes.counts = [.chunkFinished true] → Effect c s r
  | final (i : ℕ) (items : List τ) : c.phase = .pending → i ∈ c.pending → c.pending.erase i = [] →
      r.coordinator = { c with phase := .succeeded, pending := [], merged := [] } →
      r.delivered = some (.ok (c.merged ++ items)) → r.notes.counts = [.chunkFinished true] →
      Effect c s r

lemma receive_effect (c : Coordinator τ) (s : Signal τ) : Effect c s (c.receive s) := by
  by_cases hp : c.phase = .pending
  · cases s with
    | failed i e =>
      obtain ⟨hr, hd, hn⟩ := receive_failure hp i e
      exact .failed i e rfl hp hr hd hn
    | completed i items =>
      by_cases hi : i ∈ c.pending
      · by_cases hl : c.pending.erase i = []
        · obtain ⟨hr, hd, hn⟩ := receive_final hp hi hl items
          exact .final i items hp hi hl hr hd hn
        · obtain ⟨hr, hd, hn⟩ := receive_more hp hi hl items
          exact .more i items hp hi hr hd hn
      · obtain ⟨hr, hd, hn⟩ := receive_unasked hp hi items
        exact .dropped hr hd hn
  · obtain ⟨hr, hd, hn⟩ := receive_settled hp s
    exact .dropped hr hd hn

lemma receive_cases (c : Coordinator τ) (s : Signal τ) :
    ((c.receive s).delivered = none ∧ (c.receive s).notes.counts = [.lateSignal]) ∨
      (∃ i e, s = .failed i e ∧ (c.receive s).delivered = some (.error e) ∧
        (c.receive s).notes.counts = [.chunkFinished false]) ∨
      (∃ items? : Option (List τ), (c.receive s).delivered = items?.map .ok ∧
        (c.receive s).notes.counts = [.chunkFinished true]) := by
  cases receive_effect c s with
  | dropped _ hd hn => exact Or.inl ⟨hd, hn⟩
  | failed i e hs _ _ hd hn => exact Or.inr (Or.inl ⟨i, e, hs, hd, hn⟩)
  | more i items _ _ _ hd hn => exact Or.inr (Or.inr ⟨none, hd, hn⟩)
  | final i items _ _ _ _ hd hn => exact Or.inr (Or.inr ⟨some _, hd, hn⟩)

lemma receive_undecided (c : Coordinator τ) (s : Signal τ) :
    (c.receive s).coordinator.phase = .pending ↔
      c.phase = .pending ∧ (c.receive s).delivered = none := by
  cases receive_effect c s with
  | dropped hr hd _ => simp [hr, hd]
  | failed i e _ hp hr hd _ => simp [hr, hd]
  | more i items hp _ hr hd _ => simp [hr, hd, hp]
  | final i items hp _ _ hr hd _ => simp [hr, hd]

lemma decided_of_delivered {s : Signal τ} {o : Outcome (List τ)}
    (h : (c.receive s).delivered = some o) : (c.receive s).coordinator.phase ≠ .pending := by
  rw [Ne, receive_undecided, h]
  exact fun hp => nomatch hp.2

lemma receiveAll_append (c : Coordinator τ) (signals more : List (Signal τ)) :
    c.receiveAll (signals ++ more) =
      let run := c.receiveAll signals
      let rest := run.coordinator.receiveAll more
      ⟨rest.coordinator, run.delivered ++ rest.delivered, run.notes ++ rest.notes⟩ := by
  induction signals generalizing c with
  | nil => simp [receiveAll]
  | cons s signals ih => simp [receiveAll, ih, Notes.append_assoc]

lemma receiveAll_snoc (c : Coordinator τ) (signals : List (Signal τ)) (s : Signal τ) :
    c.receiveAll (signals ++ [s]) =
      let run := c.receiveAll signals
      let last := run.coordinator.receive s
      ⟨last.coordinator, run.delivered ++ last.delivered.toList, run.notes ++ last.notes⟩ := by
  simp [receiveAll_append, receiveAll]

lemma receiveAll_settled (h : c.phase ≠ .pending) (signals : List (Signal τ)) :
    (c.receiveAll signals).coordinator = c ∧ (c.receiveAll signals).delivered = [] ∧
      (c.receiveAll signals).notes.counts = .replicate signals.length .lateSignal := by
  induction signals with
  | nil => exact ⟨rfl, rfl, rfl⟩
  | cons s signals ih =>
    obtain ⟨hr, hd, hn⟩ := receive_settled h s
    obtain ⟨hc, hds, hns⟩ := ih
    simp [receiveAll, hr, hd, hn, hc, hds, hns, List.replicate_succ]

lemma nodup_eraseDups (l : List ℕ) : l.eraseDups.Nodup := by
  induction hn : l.length using Nat.strong_induction_on generalizing l with
  | _ n ih =>
    cases l with
    | nil => simp
    | cons a l =>
      rw [List.eraseDups_cons, List.nodup_cons]
      have hl : (l.filter fun b => !b == a).length < n := by
        have := List.length_filter_le (fun b => !b == a) l
        simp only [List.length_cons] at hn
        omega
      exact ⟨by simp, ih _ hl _ rfl⟩

end Coordinator

end LedgerQuery
