import LedgerQuery.Completion
import LedgerQuery.Proofs.Flight.Basic

/-! Flights whose work can be dropped unfinished. The completion of a query is held by its work: by
one task or call, or by one of every chunk of which any is left. Work that goes on hands its hold to
what comes of it, and when nobody holds the completion any more, it is dropped. -/

namespace LedgerQuery

variable {κ τ ν : Type}

inductive Custody.Move (κ τ ν : Type) where
  | turn (turn : Turn κ τ ν)
  | dropTask (task : Task κ τ)
  | dropCall (call : Call κ τ)

namespace Custody.Move

def turn? : Move κ τ ν → Option (Turn κ τ ν)
  | turn t => some t
  | _ => none

def task? : Move κ τ ν → Option (Task κ τ)
  | dropTask task => some task
  | _ => none

def call? : Move κ τ ν → Option (Call κ τ)
  | dropCall call => some call
  | _ => none

end Custody.Move

structure Custody (κ τ ν : Type) where
  flight : Flight κ τ
  holders : ℕ
  completion : Completion (Yield τ ν)

def Launch.custody (l : Launch κ τ) : Custody κ τ ν :=
  ⟨l.flight, (l.submitted ++ l.scheduled.map (·.2)).length, .awaited⟩

namespace Custody

def pass (s : Custody κ τ ν) (heirs : ℕ) : Custody κ τ ν :=
  let holders := s.holders - 1 + heirs
  { s with holders, completion := if holders = 0 then s.completion.drop else s.completion }

def settle (s : Custody κ τ ν) (call : Call κ τ) (answer : Answer τ ν)
    (rest : Multiset (Call κ τ)) : Custody κ τ ν :=
  let effects := (s.flight.query.receive call answer).2
  let called : Custody κ τ ν := { s with
    flight := s.flight.settle call answer rest
    completion := (effects.delivered.map s.completion.deliver).getD s.completion }
  called.pass (effects.tasks.length + effects.onward.toList.length)

def lose (s : Custody κ τ ν) (left : Flight κ τ) : Custody κ τ ν :=
  ({ s with flight := left } : Custody κ τ ν).pass 0

inductive Step (admits : Call κ τ → Answer τ ν → Prop) :
    Custody κ τ ν → Move κ τ ν → Custody κ τ ν → Prop
  | begin {s : Custody κ τ ν} {task : Task κ τ} {rest : Multiset (Task κ τ)} :
      s.flight.tasks = task ::ₘ rest →
      Step admits s (.turn (.begun task.call)) { s with flight := s.flight.start task rest }
  | answer {s : Custody κ τ ν} {call : Call κ τ} {rest : Multiset (Call κ τ)}
      {answer : Answer τ ν} : s.flight.calls = call ::ₘ rest → admits call answer →
      Step admits s (.turn (.answered call answer (s.flight.query.receive call answer).2))
        (s.settle call answer rest)
  | dropTask {s : Custody κ τ ν} {task : Task κ τ} {rest : Multiset (Task κ τ)} :
      s.flight.tasks = task ::ₘ rest →
      Step admits s (.dropTask task) (s.lose { s.flight with tasks := rest })
  | dropCall {s : Custody κ τ ν} {call : Call κ τ} {rest : Multiset (Call κ τ)} :
      s.flight.calls = call ::ₘ rest →
      Step admits s (.dropCall call) (s.lose { s.flight with calls := rest })

inductive Run (admits : Call κ τ → Answer τ ν → Prop) (s : Custody κ τ ν) :
    List (Move κ τ ν) → Custody κ τ ν → Prop
  | nil : Run admits s [] s
  | snoc {moves : List (Move κ τ ν)} {move : Move κ τ ν} {t u : Custody κ τ ν} :
      Run admits s moves t → Step admits t move u → Run admits s (moves ++ [move]) u

section Traces

variable (moves : List (Move κ τ ν))

def turns : List (Turn κ τ ν) := moves.filterMap Move.turn?

def droppedTasks : Multiset (Task κ τ) := ↑(moves.filterMap Move.task?)

def droppedCalls : Multiset (Call κ τ) := ↑(moves.filterMap Move.call?)

def Undropped : Prop := droppedTasks moves = 0 ∧ droppedCalls moves = 0

end Traces

/-- The flight as if what was dropped were still waiting and never had its turn. -/
def whole (s : Custody κ τ ν) (moves : List (Move κ τ ν)) : Flight κ τ :=
  ⟨s.flight.query, s.flight.tasks + droppedTasks moves, s.flight.calls + droppedCalls moves⟩

variable {admits : Call κ τ → Answer τ ν → Prop} {s t u : Custody κ τ ν}
  {moves more : List (Move κ τ ν)} {move : Move κ τ ν}

section Snoc

variable (moves : List (Move κ τ ν))

@[simp] lemma turns_snoc (move : Move κ τ ν) :
    turns (moves ++ [move]) = turns moves ++ move.turn?.toList := by
  cases h : move.turn? <;> simp [turns, h]

@[simp] lemma droppedTasks_snoc (move : Move κ τ ν) :
    droppedTasks (moves ++ [move]) = droppedTasks moves + ↑move.task?.toList := by
  rw [droppedTasks, List.filterMap_append, ← Multiset.coe_add]
  cases h : move.task? <;> simp [droppedTasks, h]

@[simp] lemma droppedCalls_snoc (move : Move κ τ ν) :
    droppedCalls (moves ++ [move]) = droppedCalls moves + ↑move.call?.toList := by
  rw [droppedCalls, List.filterMap_append, ← Multiset.coe_add]
  cases h : move.call? <;> simp [droppedCalls, h]

end Snoc

lemma Run.begin (h : Run admits s moves t) (task : Task κ τ) (rest : Multiset (Task κ τ))
    (ht : t.flight.tasks = task ::ₘ rest) :
    Run admits s (moves ++ [.turn (.begun task.call)])
      { t with flight := t.flight.start task rest } :=
  h.snoc (.begin ht)

lemma Run.answer (h : Run admits s moves t) (call : Call κ τ) (rest : Multiset (Call κ τ))
    (answer : Answer τ ν) (hc : t.flight.calls = call ::ₘ rest) (ha : admits call answer) :
    Run admits s
      (moves ++ [.turn (.answered call answer (t.flight.query.receive call answer).2)])
      (t.settle call answer rest) :=
  h.snoc (.answer hc ha)

lemma Run.dropCall (h : Run admits s moves t) (call : Call κ τ) (rest : Multiset (Call κ τ))
    (hc : t.flight.calls = call ::ₘ rest) :
    Run admits s (moves ++ [.dropCall call]) (t.lose { t.flight with calls := rest }) :=
  h.snoc (.dropCall hc)

lemma Run.whole {l : Launch κ τ} (h : Run admits l.custody moves s) :
    Flight.Run admits l.flight (turns moves) (s.whole moves) := by
  induction h with
  | nil =>
    have hwhole : (l.custody : Custody κ τ ν).whole ([] : List (Move κ τ ν)) = l.flight := by
      simp [Custody.whole, droppedTasks, droppedCalls, Launch.custody]
    rw [hwhole]
    exact .nil
  | @snoc moves move t u _ hs ih =>
    cases hs with
    | @begin task rest ht =>
      have htasks : (t.whole moves).tasks = task ::ₘ (rest + droppedTasks moves) := by
        simp [Custody.whole, ht]
      have hafter := ih.begin task _ htasks
      simpa [Custody.whole, Flight.start, Move.turn?, Move.task?, Move.call?] using hafter
    | @answer call rest answer hc hadmits =>
      have hcalls : (t.whole moves).calls = call ::ₘ (rest + droppedCalls moves) := by
        simp [Custody.whole, hc]
      have hafter := ih.answer call _ answer hcalls hadmits
      simpa [Custody.whole, Flight.settle, settle, pass, Move.turn?, Move.task?, Move.call?,
        add_assoc] using hafter
    | @dropTask task rest ht =>
      have hsame : (t.lose { t.flight with tasks := rest }).whole (moves ++ [.dropTask task]) =
          t.whole moves := by
        simp only [Custody.whole, lose, pass, ht, droppedTasks_snoc, droppedCalls_snoc, Move.task?,
          Move.call?, Option.toList_some, Option.toList_none, Multiset.coe_singleton,
          Multiset.coe_nil, add_zero, Multiset.cons_add]
        rw [← add_assoc, add_comm (_ + _), Multiset.singleton_add]
      simpa [hsame, Move.turn?] using ih
    | @dropCall call rest hc =>
      have hsame : (t.lose { t.flight with calls := rest }).whole (moves ++ [.dropCall call]) =
          t.whole moves := by
        simp only [Custody.whole, lose, pass, hc, droppedTasks_snoc, droppedCalls_snoc, Move.task?,
          Move.call?, Option.toList_some, Option.toList_none, Multiset.coe_singleton,
          Multiset.coe_nil, add_zero, Multiset.cons_add]
        rw [← add_assoc, add_comm (_ + _), Multiset.singleton_add]
      simpa [hsame, Move.turn?] using ih

def standing : List (Outcome (Yield τ ν)) → ℕ → Completion (Yield τ ν)
  | o :: _, _ => .delivered o
  | [], 0 => .dropped
  | [], _ + 1 => .awaited

structure Held (moves : List (Move κ τ ν)) (s : Custody κ τ ν) : Prop where
  holders : s.holders = s.flight.tasks.card + s.flight.calls.card
  completion : s.completion = standing (Flight.deliveries (turns moves)) s.holders

lemma pass_standing {delivered : List (Outcome (Yield τ ν))} {heirs : ℕ} (hpos : 0 < s.holders)
    (h : s.completion = standing delivered s.holders) :
    (s.pass heirs).completion = standing delivered (s.holders - 1 + heirs) := by
  cases delivered with
  | cons o delivered =>
    rw [pass, h]
    dsimp only
    split_ifs <;> rfl
  | nil =>
    obtain ⟨n, hn⟩ := Nat.exists_eq_succ_of_ne_zero hpos.ne'
    rw [pass, h, hn]
    dsimp only
    split_ifs with hzero
    · rw [hzero]
      rfl
    · obtain ⟨m, hm⟩ := Nat.exists_eq_succ_of_ne_zero hzero
      rw [hm]
      rfl

lemma deliver_standing {delivered : List (Outcome (Yield τ ν))} {n : ℕ} (hpos : 0 < n)
    (o : Option (Outcome (Yield τ ν))) :
    (o.map (standing delivered n).deliver).getD (standing delivered n) =
      standing (delivered ++ o.toList) n := by
  obtain ⟨m, rfl⟩ := Nat.exists_eq_succ_of_ne_zero hpos.ne'
  cases o with
  | none => simp
  | some o => cases delivered <;> rfl

lemma Held.step (h : Held moves s) (hs : Step admits s move t) : Held (moves ++ [move]) t := by
  have hholders := h.holders
  cases hs with
  | @begin task rest ht =>
    refine ⟨?_, ?_⟩
    · rw [ht, Multiset.card_cons] at hholders
      simp only [Flight.start, Multiset.card_cons]
      omega
    · rw [turns_snoc, Move.turn?, Option.toList_some, Flight.deliveries_snoc]
      exact h.completion.trans (congrArg (standing · s.holders) (List.append_nil _).symm)
  | @answer call rest answer hc hadmits =>
    rw [hc, Multiset.card_cons] at hholders
    have hpos : 0 < s.holders := by omega
    refine ⟨?_, ?_⟩
    · simp only [settle, pass, Flight.settle, Multiset.card_add, Multiset.coe_card]
      omega
    · rw [turns_snoc, Move.turn?, Option.toList_some, Flight.deliveries_snoc]
      refine pass_standing hpos ?_
      dsimp only
      rw [h.completion, deliver_standing hpos]
      rfl
  | @dropTask task rest ht =>
    rw [ht, Multiset.card_cons] at hholders
    refine ⟨?_, ?_⟩
    · simp only [lose, pass]
      omega
    · simp only [turns_snoc, Move.turn?, Option.toList_none, List.append_nil]
      exact pass_standing (by dsimp only; omega) h.completion
  | @dropCall call rest hc =>
    rw [hc, Multiset.card_cons] at hholders
    refine ⟨?_, ?_⟩
    · simp only [lose, pass]
      omega
    · simp only [turns_snoc, Move.turn?, Option.toList_none, List.append_nil]
      exact pass_standing (by dsimp only; omega) h.completion

lemma Held.run {l : Launch κ τ} (hl : l.submitted ++ l.scheduled.map (·.2) ≠ [])
    (hr : Run admits l.custody moves s) : Held moves s := by
  induction hr with
  | nil =>
    refine ⟨by simp [Launch.custody, Launch.flight], ?_⟩
    obtain ⟨n, hn⟩ := Nat.exists_eq_succ_of_ne_zero (List.length_pos_iff.mpr hl).ne'
    simp only [Launch.custody, hn]
    rfl
  | snoc _ hs ih => exact ih.step hs

lemma Held.idle_iff (h : Held moves s) : s.flight.Idle ↔ s.holders = 0 := by
  have hholders := h.holders
  constructor
  · rintro ⟨ht, hc⟩
    simp [hholders, ht, hc]
  · intro hzero
    exact ⟨Multiset.card_eq_zero.mp (by omega), Multiset.card_eq_zero.mp (by omega)⟩

lemma Step.poll (h : Step admits s move t) {o : Outcome (Yield τ ν)}
    (ho : s.completion.poll = some o) : t.completion.poll = some o := by
  have hdeliver (o' : Outcome (Yield τ ν)) : (s.completion.deliver o').poll = some o := by
    cases hc : s.completion <;> rw [hc] at ho
    · cases ho
    · exact ho
    · exact ho
  have hpass (t : Custody κ τ ν) (heirs : ℕ) (ht : t.completion.poll = some o) :
      (t.pass heirs).completion.poll = some o := by
    simp only [pass]
    split_ifs
    · cases hc : t.completion <;> rw [hc] at ht
      · cases ht
      · exact ht
      · exact ht
    · exact ht
  cases h with
  | begin ht => exact ho
  | @answer call rest answer hc hadmits =>
    apply hpass
    dsimp only
    cases (s.flight.query.receive call answer).2.delivered with
    | none => exact ho
    | some o' => exact hdeliver o'
  | dropTask ht => exact hpass _ 0 ho
  | dropCall hc => exact hpass _ 0 ho

lemma Run.poll (h : Run admits s moves t) {o : Outcome (Yield τ ν)}
    (ho : s.completion.poll = some o) : t.completion.poll = some o := by
  induction h with
  | nil => exact ho
  | snoc _ hs ih => exact hs.poll ih

end Custody

end LedgerQuery
