import LedgerQuery.Gate
import LedgerQuery.Proofs.Flight.Basic
import LedgerQuery.Query.Roster
import Mathlib.Data.Multiset.Filter

/-! Any number of queries at once, in any order. Calls are sent in generations, and all that are
outstanding can be cancelled at any moment; a call of an ended generation is answered with its
cancellation. -/

namespace LedgerQuery

variable {κ τ ν : Type}

structure Sent (κ τ : Type) where
  query : ℕ
  generation : ℕ
  call : Call κ τ

structure Traffic (κ τ : Type) where
  roster : Roster τ := {}
  gate : Gate := {}
  tasks : Multiset (ℕ × Task κ τ) := 0
  sends : Multiset (Sent κ τ) := 0

inductive Move (κ τ ν : Type) where
  | launched (l : Launch κ τ)
  | turned (n : ℕ) (turn : Turn κ τ ν)
  | cancelled

namespace Move

def launch? : Move κ τ ν → Option (Launch κ τ)
  | launched l => some l
  | _ => none

def turn? (n : ℕ) : Move κ τ ν → Option (Turn κ τ ν)
  | turned m turn => if m = n then some turn else none
  | _ => none

end Move

namespace Traffic

def launch (s : Traffic κ τ) (l : Launch κ τ) : Traffic κ τ :=
  { s with
    roster := s.roster.launch l
    tasks := l.flight.tasks.map (s.roster.queries.length, ·) + s.tasks }

def cancelAll (s : Traffic κ τ) : Traffic κ τ := { s with gate := s.gate.cancelAll }

def start (s : Traffic κ τ) (n : ℕ) (task : Task κ τ) (rest : Multiset (ℕ × Task κ τ)) :
    Traffic κ τ :=
  { s with
    roster := s.roster.begin n task.call
    tasks := rest
    sends := ⟨n, s.gate.generation, task.call⟩ ::ₘ s.sends }

def settle (s : Traffic κ τ) (sent : Sent κ τ) (answer : Answer τ ν) (rest : Multiset (Sent κ τ)) :
    Traffic κ τ :=
  let after := s.roster.receive sent.query sent.call answer
  { s with
    roster := after.2.onward.elim after.1 (after.1.begin sent.query)
    tasks := ↑(after.2.tasks.map (sent.query, ·)) + s.tasks
    sends := ↑(after.2.onward.toList.map (Sent.mk sent.query s.gate.generation)) + rest }

def Resolves (admits : ℕ → Call κ τ → Answer τ ν → Prop) (s : Traffic κ τ) (sent : Sent κ τ)
    (answer : Answer τ ν) : Prop :=
  if s.gate.hasEnded sent.generation then answer = .failure (.transport .cancelled) sent.call
  else admits sent.query sent.call answer

inductive Step (admits : ℕ → Call κ τ → Answer τ ν → Prop) :
    Traffic κ τ → Move κ τ ν → Traffic κ τ → Prop
  | launch {s : Traffic κ τ} {l : Launch κ τ} : Step admits s (.launched l) (s.launch l)
  | cancel {s : Traffic κ τ} : Step admits s .cancelled s.cancelAll
  | begin {s : Traffic κ τ} {n : ℕ} {task : Task κ τ} {rest : Multiset (ℕ × Task κ τ)} :
      s.tasks = (n, task) ::ₘ rest →
      Step admits s (.turned n (.begun task.call)) (s.start n task rest)
  | answer {s : Traffic κ τ} {sent : Sent κ τ} {rest : Multiset (Sent κ τ)} {answer : Answer τ ν} :
      s.sends = sent ::ₘ rest → s.Resolves admits sent answer →
      Step admits s
        (.turned sent.query
          (.answered sent.call answer (s.roster.receive sent.query sent.call answer).2))
        (s.settle sent answer rest)

inductive Run (admits : ℕ → Call κ τ → Answer τ ν → Prop) (s : Traffic κ τ) :
    List (Move κ τ ν) → Traffic κ τ → Prop
  | nil : Run admits s [] s
  | snoc {moves : List (Move κ τ ν)} {move : Move κ τ ν} {t u : Traffic κ τ} :
      Run admits s moves t → Step admits t move u → Run admits s (moves ++ [move]) u

def launches (moves : List (Move κ τ ν)) : List (Launch κ τ) := moves.filterMap Move.launch?

lemma launches_append (moves more : List (Move κ τ ν)) :
    launches (moves ++ more) = launches moves ++ launches more :=
  List.filterMap_append

def queryTurns (moves : List (Move κ τ ν)) (n : ℕ) : List (Turn κ τ ν) :=
  moves.filterMap (Move.turn? n)

section Runs

variable {admits : ℕ → Call κ τ → Answer τ ν → Prop} {s t u : Traffic κ τ}
  {moves more : List (Move κ τ ν)}

lemma Run.trans (h : Run admits s moves t) (h' : Run admits t more u) :
    Run admits s (moves ++ more) u := by
  induction h' with
  | nil => simpa using h
  | snoc _ hs ih =>
    rw [← List.append_assoc]
    exact ih.snoc hs

lemma Run.mono {admits' : ℕ → Call κ τ → Answer τ ν → Prop} (h : Run admits s moves t)
    (ha : ∀ n call answer, admits n call answer → admits' n call answer) :
    Run admits' s moves t := by
  induction h with
  | nil => exact .nil
  | snoc _ hs ih =>
    refine ih.snoc ?_
    cases hs with
    | launch => exact .launch
    | cancel => exact .cancel
    | begin ht => exact .begin ht
    | answer hc hr =>
      refine .answer hc ?_
      unfold Resolves at hr ⊢
      split_ifs at hr ⊢
      · exact hr
      · exact ha _ _ _ hr

lemma Run.launch (h : Run admits s moves t) (l : Launch κ τ) :
    Run admits s (moves ++ [.launched l]) (t.launch l) :=
  h.snoc .launch

lemma Run.cancel (h : Run admits s moves t) : Run admits s (moves ++ [.cancelled]) t.cancelAll :=
  h.snoc .cancel

lemma Run.begin (h : Run admits s moves t) (n : ℕ) (task : Task κ τ)
    (rest : Multiset (ℕ × Task κ τ)) (ht : t.tasks = (n, task) ::ₘ rest) :
    Run admits s (moves ++ [.turned n (.begun task.call)]) (t.start n task rest) :=
  h.snoc (.begin ht)

lemma Run.answer (h : Run admits s moves t) (sent : Sent κ τ) (rest : Multiset (Sent κ τ))
    (answer : Answer τ ν) (hs : t.sends = sent ::ₘ rest) (ha : t.Resolves admits sent answer) :
    Run admits s (moves ++ [.turned sent.query
      (.answered sent.call answer (t.roster.receive sent.query sent.call answer).2)])
      (t.settle sent answer rest) :=
  h.snoc (.answer hs ha)

end Runs

def Finished (s : Traffic κ τ) (n : ℕ) : Prop :=
  (∀ task ∈ s.tasks, task.1 ≠ n) ∧ ∀ sent ∈ s.sends, sent.query ≠ n

lemma finished_of_eq_zero {s : Traffic κ τ} (ht : s.tasks = 0) (hs : s.sends = 0) (n : ℕ) :
    s.Finished n :=
  ⟨by simp [ht], by simp [hs]⟩

end Traffic

end LedgerQuery
