import LedgerQuery.Proofs.Drain.Answers
import LedgerQuery.Proofs.Flight.Basic

/-! The course of one chunk in a flight: its turns alternate between a page request and the answer
to it, and its progress is what the answers so far have brought. -/

namespace LedgerQuery

variable {κ τ ν : Type}

def Task.chunk? : Task κ τ → Option ℕ
  | .page chunk _ => some chunk.index
  | _ => none

def Call.chunk? : Call κ τ → Option ℕ
  | .page chunk _ => some chunk.index
  | _ => none

def Turn.chunk? : Turn κ τ ν → Option ℕ
  | .begun call => call.chunk?
  | .answered call _ _ => call.chunk?

@[simp] lemma Task.call_chunk? (t : Task κ τ) : t.call.chunk? = t.chunk? := by
  cases t <;> rfl

def Signal.report (index : ℕ) : Outcome (List τ) → Signal τ
  | .ok items => .completed index items
  | .error e => .failed index e

def Turn.report? (r : Drain.Rules τ) : Turn κ τ ν → Option (Signal τ)
  | .answered (.page chunk progress) (.page answer) _ =>
    match (Drain.receive r chunk.index progress answer).1 with
    | .finished outcome => some (.report chunk.index outcome)
    | .follow _ => none
  | _ => none

def Signal.outcome : Signal τ → Outcome (List τ)
  | .completed _ items => .ok items
  | .failed _ e => .error e

@[simp] lemma Signal.outcome_report (index : ℕ) (o : Outcome (List τ)) :
    (Signal.report index o).outcome = o := by
  cases o <;> rfl

def Turn.page? : Turn κ τ ν → Option (Outcome (Page τ))
  | .answered _ (.page answer) _ => some answer
  | _ => none

namespace Flight

open Drain

def reports (r : Rules τ) (turns : List (Turn κ τ ν)) : List (Signal τ) :=
  turns.filterMap (Turn.report? r)

lemma reports_snoc (r : Rules τ) (turns : List (Turn κ τ ν)) (turn : Turn κ τ ν) :
    reports r (turns ++ [turn]) = reports r turns ++ (turn.report? r).toList := by
  cases h : turn.report? r <;> simp [reports, h]

@[simp] lemma report?_begun (r : Rules τ) (call : Call κ τ) :
    (Turn.begun call : Turn κ τ ν).report? r = none := rfl

inductive Stage where
  | queued
  | asked
  | ended
deriving DecidableEq

def Stage.tasks (c : Chunk κ) (answers : List (Outcome (Page τ))) : Stage → Multiset (Task κ τ)
  | .queued => {.page c (gathered answers)}
  | _ => 0

def Stage.calls (c : Chunk κ) (answers : List (Outcome (Page τ))) : Stage → Multiset (Call κ τ)
  | .asked => {.page c (gathered answers)}
  | _ => 0

inductive Course (r : Rules τ) (c : Chunk κ) :
    List (Turn κ τ ν) → List (Outcome (Page τ)) → Stage → Prop
  | start : Course r c [] [] .queued
  | begin {turns answers} : Course r c turns answers .queued →
      Course r c (turns ++ [.begun (.page c (gathered answers))]) answers .asked
  | follow {turns answers a} {e : Effects κ τ ν} : Course r c turns answers .asked →
      ¬ Stops r answers a → e.submitted = [.page c (gathered (answers ++ [a]))] →
      e.onward = none → e.delivered = none →
      Course r c (turns ++ [.answered (.page c (gathered answers)) (.page a) e]) (answers ++ [a])
        .queued
  | finish {turns answers a} {e : Effects κ τ ν} : Course r c turns answers .asked →
      Stops r answers a → e.submitted = [] → e.onward = none →
      Course r c (turns ++ [.answered (.page c (gathered answers)) (.page a) e]) (answers ++ [a])
        .ended

section Facts

variable {r : Rules τ} {c : Chunk κ} {turns : List (Turn κ τ ν)}
  {answers : List (Outcome (Page τ))} {stage : Stage}

lemma Course.followed (h : Course r c turns answers stage) (hs : stage ≠ .ended) :
    Followed r answers := by
  induction h with
  | start => exact followed_nil r
  | begin _ ih => exact ih (by simp)
  | follow _ hstop _ _ _ ih => exact followed_snoc.mpr ⟨ih (by simp), hstop⟩
  | finish => exact absurd rfl hs

lemma Course.comesTo (h : Course r c turns answers .ended) :
    ∃ earlier a, answers = earlier ++ [a] ∧ Followed r earlier ∧ Stops r earlier a := by
  cases h with
  | finish h hstop _ _ => exact ⟨_, _, rfl, h.followed (by simp), hstop⟩

lemma report?_of_not_stops {a : Outcome (Page τ)} {e : Effects κ τ ν} (h : ¬ Stops r answers a) :
    Turn.report? r (.answered (.page c (gathered answers)) (.page a) e) = none := by
  simp only [Turn.report?, receive_of_not_stops h]

lemma report?_of_stops {a : Outcome (Page τ)} {e : Effects κ τ ν} (h : Stops r answers a) :
    Turn.report? r (.answered (.page c (gathered answers)) (.page a) e) =
      some (.report c.index (verdict r answers a)) := by
  simp only [Turn.report?, receive_of_stops h]

lemma Course.reports_open (h : Course r c turns answers stage) (hs : stage ≠ .ended) :
    reports r turns = [] := by
  induction h with
  | start => rfl
  | begin _ ih => simp [reports_snoc, ih (by simp)]
  | follow _ hstop _ _ _ ih => simp [reports_snoc, ih (by simp), report?_of_not_stops hstop]
  | finish => exact absurd rfl hs

lemma Course.reports_ended (h : Course r c turns answers .ended) :
    ∃ o, ComesTo r answers o ∧ reports r turns = [.report c.index o] := by
  cases h with
  | finish h hstop _ _ =>
    refine ⟨_, ⟨_, _, rfl, h.followed (by simp), hstop, rfl⟩, ?_⟩
    simp [reports_snoc, h.reports_open, report?_of_stops hstop]

lemma callsMade_quiet {call : Call κ τ} {answer : Answer τ ν} {e : Effects κ τ ν}
    (turns : List (Turn κ τ ν)) (h : e.onward = none) :
    callsMade (turns ++ [.answered call answer e]) = callsMade turns := by
  simp [callsMade, Turn.calls, h]

lemma take_snoc_congr (answers : List (Outcome (Page τ))) (a : Outcome (Page τ)) :
    ((List.range (answers.length + 1)).map fun k => Call.page c (gathered (answers.take k))) =
      (List.range (answers ++ [a]).length).map fun k =>
        Call.page c (gathered ((answers ++ [a]).take k)) := by
  rw [List.length_append, List.length_singleton]
  refine List.map_congr_left fun k hk => ?_
  rw [List.take_append_of_le_length (Nat.lt_succ_iff.mp (List.mem_range.mp hk))]

lemma Course.pages (h : Course r c turns answers stage) : turns.filterMap Turn.page? = answers := by
  induction h with
  | start => rfl
  | begin _ ih => simp [ih, Turn.page?]
  | follow _ _ _ _ _ ih => simp [ih, Turn.page?]
  | finish _ _ _ _ ih => simp [ih, Turn.page?]

lemma Course.calls (h : Course r c turns answers stage) :
    callsMade turns = (List.range (answers.length + if stage = .asked then 1 else 0)).map
      fun k => .page c (gathered (answers.take k)) := by
  induction h with
  | start => rfl
  | @begin turns answers _ ih =>
    have hcalls : callsMade (turns ++ [.begun (.page c (gathered answers))]) =
        callsMade turns ++ [.page c (gathered answers)] := by
      simp [callsMade, Turn.calls]
    rw [hcalls, ih]
    simp [List.range_succ]
  | @follow turns answers a e _ _ _ honward _ ih =>
    rw [callsMade_quiet _ honward, ih]
    exact take_snoc_congr answers a
  | @finish turns answers a e _ _ _ honward ih =>
    rw [callsMade_quiet _ honward, ih]
    exact take_snoc_congr answers a

lemma Course.tasks_called (h : Course r c turns answers stage) :
    (Task.page c {} :: submissions turns).map Task.call =
      callsMade turns ++ if stage = .queued then [.page c (gathered answers)] else [] := by
  induction h with
  | start => rfl
  | begin _ ih =>
    simp only [if_true] at ih
    simpa [callsMade, submissions, Turn.calls, Turn.submitted] using ih
  | follow _ _ hsub honward _ ih =>
    simp only [reduceCtorEq, if_false, List.append_nil] at ih
    simp [callsMade_quiet _ honward, ← ih, submissions, Turn.submitted, hsub, Task.call]
  | finish _ _ hsub honward ih =>
    simp only [reduceCtorEq, if_false, List.append_nil] at ih
    simp [callsMade_quiet _ honward, ← ih, submissions, Turn.submitted, hsub]

lemma Course.length_turns (h : Course r c turns answers stage) :
    turns.length = 2 * answers.length + if stage = .asked then 1 else 0 := by
  induction h with
  | start => rfl
  | begin _ ih => simp [ih]
  | follow _ _ _ _ _ ih => simp [ih]; omega
  | finish _ _ _ _ ih => simp [ih]; omega

lemma Course.length_le (h : Course r c turns answers stage) : turns.length ≤ 2 * r.ceiling := by
  have hlen := h.length_turns
  by_cases hs : stage = .ended
  · subst hs
    obtain ⟨earlier, a, rfl, hf, -⟩ := h.comesTo
    have hlt := hf.length_lt
    simp only [List.length_append, List.length_singleton, reduceCtorEq, if_false] at hlen
    omega
  · have hlt := (h.followed hs).length_lt
    split_ifs at hlen <;> omega

end Facts

end Flight

end LedgerQuery
