import LedgerQuery.Proofs.Flight.Course
import Mathlib.Data.Multiset.Filter

/-! Flights of queries that drain chunks. Whatever the order of the turns, every chunk keeps to its
course, and the tasks and calls of the flight are those of its chunks. -/

namespace LedgerQuery

variable {κ τ ν : Type}

def Query.rules? (q : Query τ) : Option (Drain.Rules τ) :=
  match q.plan with
  | .chunked rules _ => some rules
  | .single rules => some rules
  | .probing _ _ _ => none

namespace Flight

open Drain

section Receive

variable {q : Query τ} {r : Rules τ} {c : Chunk κ} {p p' : Progress τ} {a : Outcome (Page τ)}

lemma receive_follow (hq : q.rules? = some r) (h : (Drain.receive r c.index p a).1 = .follow p') :
    (q.receive (.page c p) (.page a) : Query τ × Effects κ τ ν) =
      (q, { notes := (Drain.receive r c.index p a).2, submitted := [.page c p'] }) := by
  generalize hd : Drain.receive r c.index p a = d at h ⊢
  obtain ⟨step, notes⟩ := d
  obtain rfl : step = .follow p' := h
  cases hp : q.plan with
  | chunked rules coordinator =>
    obtain rfl : rules = r := by simpa [Query.rules?, hp] using hq
    simp only [Query.receive, Query.receivePage, hp, hd]
  | single rules =>
    obtain rfl : rules = r := by simpa [Query.rules?, hp] using hq
    simp only [Query.receive, Query.receivePage, hp, hd]
  | probing policy delay state => simp [Query.rules?, hp] at hq

lemma receive_finish_chunked {coordinator : Coordinator τ} {o : Outcome (List τ)}
    (hp : q.plan = .chunked r coordinator)
    (h : (Drain.receive r c.index p a).1 = .finished o) :
    let reaction := coordinator.receive (.report c.index o)
    let after := (q.receive (.page c p) (.page a) : Query τ × Effects κ τ ν)
    after.1 = { q with plan := .chunked r reaction.coordinator } ∧
      after.2.submitted = [] ∧ after.2.scheduled = [] ∧ after.2.onward = none ∧
      after.2.delivered = reaction.delivered.map (Except.map .items) := by
  generalize hd : Drain.receive r c.index p a = d at h
  obtain ⟨step, notes⟩ := d
  obtain rfl : step = .finished o := h
  cases o with
  | ok items =>
    simp only [Query.receive, Query.receivePage, hp, hd, Signal.report]
    cases (coordinator.receive (.completed c.index items)).delivered with
    | none => simp
    | some outcome => simp [Query.deliver]
  | error e =>
    simp only [Query.receive, Query.receivePage, hp, hd, Signal.report]
    cases (coordinator.receive (.failed c.index e)).delivered with
    | none => simp
    | some outcome => simp [Query.deliver]

lemma receive_finish_single {o : Outcome (List τ)} (hp : q.plan = .single r)
    (h : (Drain.receive r c.index p a).1 = .finished o) :
    let after := (q.receive (.page c p) (.page a) : Query τ × Effects κ τ ν)
    after.1 = q ∧ after.2.submitted = [] ∧ after.2.scheduled = [] ∧ after.2.onward = none ∧
      after.2.delivered = some (o.map .items) := by
  generalize hd : Drain.receive r c.index p a = d at h
  obtain ⟨step, notes⟩ := d
  obtain rfl : step = .finished o := h
  simp [Query.receive, Query.receivePage, hp, hd, Query.deliver]

lemma receive_finish (hq : q.rules? = some r) {o : Outcome (List τ)}
    (h : (Drain.receive r c.index p a).1 = .finished o) :
    let after := (q.receive (.page c p) (.page a) : Query τ × Effects κ τ ν)
    after.1.rules? = some r ∧ after.2.submitted = [] ∧ after.2.scheduled = [] ∧
      after.2.onward = none := by
  cases hp : q.plan with
  | chunked rules coordinator =>
    obtain rfl : rules = r := by simpa [Query.rules?, hp] using hq
    obtain ⟨h₁, h₂, h₃, h₄, -⟩ := receive_finish_chunked (ν := ν) hp h
    exact ⟨by rw [h₁]; rfl, h₂, h₃, h₄⟩
  | single rules =>
    obtain rfl : rules = r := by simpa [Query.rules?, hp] using hq
    obtain ⟨h₁, h₂, h₃, h₄, -⟩ := receive_finish_single (ν := ν) hp h
    exact ⟨by rw [h₁]; exact hq, h₂, h₃, h₄⟩
  | probing policy delay state => simp [Query.rules?, hp] at hq

end Receive

def tasksOf (s : Flight κ τ) (i : ℕ) : Multiset (Task κ τ) :=
  s.tasks.filter fun t => t.chunk? = some i

def callsOf (s : Flight κ τ) (i : ℕ) : Multiset (Call κ τ) :=
  s.calls.filter fun call => call.chunk? = some i

def turnsOf (turns : List (Turn κ τ ν)) (i : ℕ) : List (Turn κ τ ν) :=
  turns.filter fun turn => turn.chunk? = some i

/-- A chunk keeps to its course, and what is in flight of it is what its stage says. -/
def OnCourse (r : Rules τ) (turns : List (Turn κ τ ν)) (s : Flight κ τ) (c : Chunk κ) : Prop :=
  ∃ answers stage, Course r c (turnsOf turns c.index) answers stage ∧
    s.tasksOf c.index = stage.tasks c answers ∧ s.callsOf c.index = stage.calls c answers

structure Draining (r : Rules τ) (chunks : List (Chunk κ)) (turns : List (Turn κ τ ν))
    (s : Flight κ τ) : Prop where
  rules : s.query.rules? = some r
  task_chunk : ∀ task ∈ s.tasks, ∃ c ∈ chunks, task.chunk? = some c.index
  call_chunk : ∀ call ∈ s.calls, ∃ c ∈ chunks, call.chunk? = some c.index
  turn_chunk : ∀ turn ∈ turns, ∃ c ∈ chunks, turn.chunk? = some c.index
  course : ∀ c ∈ chunks, OnCourse r turns s c

section Views

variable {s : Flight κ τ} {turns : List (Turn κ τ ν)} {i : ℕ}

lemma turnsOf_snoc {turn : Turn κ τ ν} (h : turn.chunk? = some i) :
    turnsOf (turns ++ [turn]) i = turnsOf turns i ++ [turn] := by
  simp [turnsOf, h]

lemma turnsOf_snoc_of_ne {turn : Turn κ τ ν} (h : turn.chunk? ≠ some i) :
    turnsOf (turns ++ [turn]) i = turnsOf turns i := by
  simp [turnsOf, h]

lemma filter_cons_chunk {α : Type} {chunk? : α → Option ℕ} {a : α} (rest : Multiset α)
    (h : chunk? a = some i) :
    (a ::ₘ rest).filter (fun b => chunk? b = some i) =
      a ::ₘ rest.filter (fun b => chunk? b = some i) :=
  Multiset.filter_cons_of_pos rest h

lemma filter_cons_chunk_of_ne {α : Type} {chunk? : α → Option ℕ} {a : α} (rest : Multiset α)
    (h : chunk? a ≠ some i) :
    (a ::ₘ rest).filter (fun b => chunk? b = some i) = rest.filter (fun b => chunk? b = some i) :=
  Multiset.filter_cons_of_neg rest h

lemma start_tasksOf_of_ne {task : Task κ τ} {rest : Multiset (Task κ τ)}
    (hs : s.tasks = task ::ₘ rest) (h : task.chunk? ≠ some i) :
    (s.start task rest).tasksOf i = s.tasksOf i := by
  rw [tasksOf, tasksOf, hs, filter_cons_chunk_of_ne rest h]
  rfl

variable {call : Call κ τ} {answer : Answer τ ν} {rest : Multiset (Call κ τ)}

lemma settle_tasksOf :
    (s.settle call answer rest).tasksOf i =
      ((s.query.receive call answer).2.tasks.filter fun t => t.chunk? = some i : List _) +
        s.tasksOf i := by
  simp only [tasksOf, settle, Multiset.filter_add, Multiset.filter_coe]

lemma settle_callsOf (h : (s.query.receive call answer).2.onward = none) :
    (s.settle call answer rest).callsOf i = rest.filter fun call => call.chunk? = some i := by
  simp only [callsOf, settle, h, Option.toList_none, Multiset.coe_nil, zero_add]

end Views

section Steps

variable {admits : Call κ τ → Answer τ ν → Prop} {r : Rules τ} {chunks : List (Chunk κ)}
  {turns : List (Turn κ τ ν)} {s t : Flight κ τ} {c : Chunk κ}

lemma OnCourse.frame {turn : Turn κ τ ν} (h : OnCourse r turns s c)
    (hturn : turn.chunk? ≠ some c.index) (htasks : t.tasksOf c.index = s.tasksOf c.index)
    (hcalls : t.callsOf c.index = s.callsOf c.index) : OnCourse r (turns ++ [turn]) t c := by
  obtain ⟨answers, stage, hcourse, ht, hc⟩ := h
  refine ⟨answers, stage, ?_, htasks.trans ht, hcalls.trans hc⟩
  rwa [turnsOf_snoc_of_ne hturn]

lemma OnCourse.begin {task : Task κ τ} {rest : Multiset (Task κ τ)} (h : OnCourse r turns s c)
    (hs : s.tasks = task ::ₘ rest) (hc : task.chunk? = some c.index) :
    OnCourse r (turns ++ [.begun task.call]) (s.start task rest) c := by
  obtain ⟨answers, stage, hcourse, ht, hcalls⟩ := h
  rw [tasksOf, hs, filter_cons_chunk rest hc] at ht
  cases stage with
  | asked => exact absurd ht (Multiset.cons_ne_zero)
  | ended => exact absurd ht (Multiset.cons_ne_zero)
  | queued =>
    obtain ⟨rfl, hrest⟩ := (Multiset.singleton_eq_cons_iff _).mp ht.symm
    refine ⟨answers, .asked, ?_, hrest, ?_⟩
    · rw [turnsOf_snoc rfl]
      exact hcourse.begin
    · change Multiset.filter _ (Call.page c (gathered answers) ::ₘ s.calls) = _
      rw [filter_cons_chunk s.calls rfl]
      exact congrArg _ hcalls

lemma OnCourse.asked {call : Call κ τ} {rest : Multiset (Call κ τ)} (h : OnCourse r turns s c)
    (hs : s.calls = call ::ₘ rest) (hc : call.chunk? = some c.index) :
    ∃ answers, call = .page c (gathered answers) ∧
      Course r c (turnsOf turns c.index) answers .asked ∧ s.tasksOf c.index = 0 ∧
      rest.filter (fun call => call.chunk? = some c.index) = 0 := by
  obtain ⟨answers, stage, hcourse, ht, hcalls⟩ := h
  rw [callsOf, hs, filter_cons_chunk rest hc] at hcalls
  cases stage with
  | queued => exact absurd hcalls Multiset.cons_ne_zero
  | ended => exact absurd hcalls Multiset.cons_ne_zero
  | asked =>
    obtain ⟨rfl, hrest⟩ := (Multiset.singleton_eq_cons_iff _).mp hcalls.symm
    exact ⟨answers, rfl, hcourse, ht, hrest⟩

lemma OnCourse.answer {call : Call κ τ} {rest : Multiset (Call κ τ)} (h : OnCourse r turns s c)
    (hq : s.query.rules? = some r) (hs : s.calls = call ::ₘ rest)
    (hc : call.chunk? = some c.index) (a : Outcome (Page τ)) :
    let after : Query τ × Effects κ τ ν := s.query.receive call (.page a)
    after.1.rules? = some r ∧ after.2.onward = none ∧
      (∀ task ∈ after.2.tasks, task.chunk? = some c.index) ∧
      OnCourse r (turns ++ [.answered call (.page a) after.2])
        (s.settle call (.page a : Answer τ ν) rest) c := by
  obtain ⟨answers, rfl, hcourse, ht, hrest⟩ := h.asked hs hc
  dsimp only
  by_cases hstop : Stops r answers a
  · obtain ⟨hrules, hsub, hsched, honward⟩ :=
      receive_finish (ν := ν) hq (receive_of_stops hstop c.index)
    have htasks : (s.query.receive (.page c (gathered answers)) (.page a) :
        Query τ × Effects κ τ ν).2.tasks = [] := by
      simp [Effects.tasks, hsub, hsched]
    refine ⟨hrules, honward, by simp [htasks], answers ++ [a], .ended, ?_, ?_, ?_⟩
    · rw [turnsOf_snoc rfl]
      exact hcourse.finish hstop hsub honward
    · rw [settle_tasksOf, htasks, ht]
      rfl
    · rw [settle_callsOf honward, hrest]
      rfl
  · have hreceive := receive_follow (ν := ν) hq (receive_of_not_stops hstop c.index)
    have htasks : (s.query.receive (.page c (gathered answers)) (.page a) :
        Query τ × Effects κ τ ν).2.tasks = [.page c (gathered (answers ++ [a]))] := by
      simp [Effects.tasks, hreceive]
    have honward : (s.query.receive (.page c (gathered answers)) (.page a) :
        Query τ × Effects κ τ ν).2.onward = none := by
      rw [hreceive]
    refine ⟨by rw [hreceive]; exact hq, honward, by simp [htasks, Task.chunk?],
      answers ++ [a], .queued, ?_, ?_, ?_⟩
    · rw [turnsOf_snoc rfl]
      exact hcourse.follow hstop (by rw [hreceive]) honward (by rw [hreceive])
    · rw [settle_tasksOf, htasks, ht]
      simp [Task.chunk?, Stage.tasks]
    · rw [settle_callsOf honward, hrest]
      rfl

lemma eq_of_index (hn : (chunks.map (·.index)).Nodup) {c c' : Chunk κ} (hc : c ∈ chunks)
    (hc' : c' ∈ chunks) (h : c.index = c'.index) : c = c' :=
  List.inj_on_of_nodup_map hn hc hc' h

lemma Draining.begin {task : Task κ τ} {rest : Multiset (Task κ τ)}
    (h : Draining r chunks turns s) (hs : s.tasks = task ::ₘ rest) :
    Draining r chunks (turns ++ [.begun task.call]) (s.start task rest) := by
  obtain ⟨c₀, hc₀, htask⟩ := h.task_chunk task (by simp [hs])
  have hcall : task.call.chunk? = some c₀.index := by rw [Task.call_chunk?, htask]
  refine ⟨h.rules, ?_, ?_, ?_, ?_⟩
  · intro other ho
    refine h.task_chunk other ?_
    rw [hs]
    exact Multiset.mem_cons_of_mem ho
  · intro call hc
    rcases Multiset.mem_cons.mp hc with rfl | hc
    · exact ⟨c₀, hc₀, hcall⟩
    · exact h.call_chunk call hc
  · intro turn ht
    rcases List.mem_append.mp ht with ht | ht
    · exact h.turn_chunk turn ht
    · rw [List.mem_singleton.mp ht]
      exact ⟨c₀, hc₀, hcall⟩
  · intro c hc
    by_cases hi : task.chunk? = some c.index
    · exact (h.course c hc).begin hs hi
    · have hi' : task.call.chunk? ≠ some c.index := by rwa [Task.call_chunk?]
      exact (h.course c hc).frame hi' (start_tasksOf_of_ne hs hi)
        (filter_cons_chunk_of_ne s.calls hi')

lemma Draining.answer {call : Call κ τ} {rest : Multiset (Call κ τ)}
    (h : Draining r chunks turns s) (hn : (chunks.map (·.index)).Nodup)
    (hs : s.calls = call ::ₘ rest) (a : Outcome (Page τ)) :
    let after : Query τ × Effects κ τ ν := s.query.receive call (.page a)
    Draining r chunks (turns ++ [.answered call (.page a) after.2])
      (s.settle call (.page a : Answer τ ν) rest) := by
  obtain ⟨c₀, hc₀, hcall⟩ := h.call_chunk call (by simp [hs])
  obtain ⟨hrules, honward, htasks, hcourse⟩ :=
    (h.course c₀ hc₀).answer h.rules hs hcall a
  refine ⟨hrules, ?_, ?_, ?_, ?_⟩
  · intro task ht
    rcases Multiset.mem_add.mp ht with ht | ht
    · exact ⟨c₀, hc₀, htasks task (by simpa using ht)⟩
    · exact h.task_chunk task ht
  · intro other ho
    refine h.call_chunk other ?_
    rw [hs]
    exact Multiset.mem_cons_of_mem (by simpa [settle, honward] using ho)
  · intro turn ht
    rcases List.mem_append.mp ht with ht | ht
    · exact h.turn_chunk turn ht
    · rw [List.mem_singleton.mp ht]
      exact ⟨c₀, hc₀, hcall⟩
  · intro c hc
    by_cases hi : call.chunk? = some c.index
    · obtain rfl := eq_of_index hn hc hc₀ (Option.some.inj (hi.symm.trans hcall))
      exact hcourse
    · refine (h.course c hc).frame hi ?_ ?_
      · have hnone : ((s.query.receive call (.page a) : Query τ × Effects κ τ ν).2.tasks.filter
            fun task => task.chunk? = some c.index) = [] := by
          refine List.filter_eq_nil_iff.mpr fun task ht hc' => hi ?_
          rw [hcall, ← htasks task ht, of_decide_eq_true hc']
        rw [settle_tasksOf, hnone, Multiset.coe_nil, zero_add]
      · rw [settle_callsOf honward, callsOf, hs, filter_cons_chunk_of_ne rest hi]

end Steps

def AnswersPages (admits : Call κ τ → Answer τ ν → Prop) : Prop :=
  ∀ c p answer, admits (.page c p) answer → ∃ a, answer = .page a

lemma fits_answersPages : AnswersPages (Call.Fits (κ := κ) (τ := τ) (ν := ν)) := by
  intro c p answer h
  cases answer with
  | page a => exact ⟨a, rfl⟩
  | probe a => exact h.elim

section Runs

variable {admits : Call κ τ → Answer τ ν → Prop} {r : Rules τ} {chunks : List (Chunk κ)}
  {turns : List (Turn κ τ ν)} {s t : Flight κ τ}

lemma filter_index (hn : (chunks.map (·.index)).Nodup) {c : Chunk κ} (hc : c ∈ chunks) :
    (chunks.filter fun d => d.index = c.index) = [c] := by
  induction chunks with
  | nil => simp at hc
  | cons d chunks ih =>
    rw [List.map_cons, List.nodup_cons] at hn
    rcases List.mem_cons.mp hc with rfl | hc
    · have hnone : (chunks.filter fun d => d.index = c.index) = [] := by
        refine List.filter_eq_nil_iff.mpr fun d hd hi => hn.1 ?_
        rw [← of_decide_eq_true hi]
        exact List.mem_map_of_mem hd
      rw [List.filter_cons_of_pos (by simp), hnone]
    · have hne : d.index ≠ c.index := fun hi => hn.1 (hi ▸ List.mem_map_of_mem hc)
      rw [List.filter_cons_of_neg (by simpa using hne), ih hn.2 hc]

lemma draining_flight {l : Launch κ τ} (hq : l.query.rules? = some r)
    (hn : (chunks.map (·.index)).Nodup) (hsub : l.submitted = chunks.map fun c => .page c {})
    (hsched : l.scheduled = []) : Draining r chunks ([] : List (Turn κ τ ν)) l.flight := by
  have htasks : l.flight.tasks = ↑(chunks.map fun c => Task.page c ({} : Progress τ)) := by
    simp [Launch.flight, hsub, hsched]
  refine ⟨hq, ?_, by simp [Launch.flight], by simp, ?_⟩
  · intro task ht
    rw [htasks] at ht
    obtain ⟨c, hc, rfl⟩ := List.mem_map.mp (Multiset.mem_coe.mp ht)
    exact ⟨c, hc, rfl⟩
  · intro c hc
    have h : ((chunks.map fun c => Task.page c ({} : Progress τ)).filter fun t =>
        t.chunk? = some c.index) = [Task.page c {}] := by
      rw [List.filter_map]
      simpa [Function.comp_def, Task.chunk?] using filter_index hn hc
    refine ⟨[], .queued, .start, ?_, rfl⟩
    rw [tasksOf, htasks, Multiset.filter_coe, h]
    rfl

lemma Draining.page_answer (h : Draining r chunks turns s) (ha : AnswersPages admits)
    {call : Call κ τ} {rest : Multiset (Call κ τ)} {answer : Answer τ ν}
    (hc : s.calls = call ::ₘ rest) (hadmits : admits call answer) :
    ∃ c p a, call = .page c p ∧ answer = .page a := by
  obtain ⟨c, -, hcall⟩ := h.call_chunk call (by simp [hc])
  cases call with
  | page chunk progress =>
    obtain ⟨a, rfl⟩ := ha _ _ _ hadmits
    exact ⟨chunk, progress, a, rfl, rfl⟩
  | probe budget => simp [Call.chunk?] at hcall
  | create => simp [Call.chunk?] at hcall
  | lookup => simp [Call.chunk?] at hcall

lemma Draining.step (h : Draining r chunks turns s) (ha : AnswersPages admits)
    (hn : (chunks.map (·.index)).Nodup) {turn : Turn κ τ ν} (hs : Step admits s turn t) :
    Draining r chunks (turns ++ [turn]) t := by
  cases hs with
  | begin ht => exact h.begin ht
  | answer hc hadmits =>
    obtain ⟨c, p, a, rfl, rfl⟩ := h.page_answer ha hc hadmits
    exact h.answer hn hc a

lemma Draining.run (h : Draining r chunks ([] : List (Turn κ τ ν)) s) (ha : AnswersPages admits)
    (hn : (chunks.map (·.index)).Nodup) (hr : Run admits s turns t) :
    Draining r chunks turns t := by
  induction hr with
  | nil => exact h
  | snoc _ hs ih => exact ih.step ha hn hs

lemma length_le_sum (h : ∀ turn ∈ turns, ∃ c ∈ chunks, turn.chunk? = some c.index) :
    turns.length ≤ (chunks.map fun c => (turnsOf turns c.index).length).sum := by
  induction turns with
  | nil => simp
  | cons turn turns ih =>
    obtain ⟨c, hc, hturn⟩ := h turn (by simp)
    have hle := ih fun turn ht => h turn (List.mem_cons_of_mem _ ht)
    have hmono (d : Chunk κ) :
        (turnsOf turns d.index).length ≤ (turnsOf (turn :: turns) d.index).length :=
      (List.Sublist.filter _ (List.sublist_cons_self turn turns)).length_le
    have hlt : (turnsOf turns c.index).length < (turnsOf (turn :: turns) c.index).length := by
      simp [turnsOf, hturn]
    have hsum := List.sum_lt_sum (l := chunks) (fun c => (turnsOf turns c.index).length)
      (fun c => (turnsOf (turn :: turns) c.index).length) (fun d _ => hmono d) ⟨c, hc, hlt⟩
    rw [List.length_cons]
    omega

lemma Draining.length_le (h : Draining r chunks turns s) :
    turns.length ≤ chunks.length * (2 * r.ceiling) := by
  refine (length_le_sum h.turn_chunk).trans ?_
  have hle := List.sum_le_card_nsmul (chunks.map fun c => (turnsOf turns c.index).length)
    (2 * r.ceiling) ?_
  · simpa using hle
  · intro n hn
    obtain ⟨c, hc, rfl⟩ := List.mem_map.mp hn
    obtain ⟨answers, stage, hcourse, -⟩ := h.course c hc
    exact hcourse.length_le

end Runs

end Flight

end LedgerQuery
