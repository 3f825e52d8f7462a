import LedgerQuery.Proofs.Traffic.Basic

/-! One query among many. What belongs to it of the traffic is a flight of its own, in which it can
happen at any moment that a call is answered with its cancellation. -/

namespace LedgerQuery

variable {κ τ ν : Type}

namespace Roster

variable {r : Roster τ} {n m : ℕ} {q : Query τ} {call : Call κ τ} {answer : Answer τ ν}

@[simp] lemma queries_count (r : Roster τ) (q : Query τ) (counts : List Count) :
    (r.count q counts).queries = r.queries := by
  unfold count
  split_ifs <;> rfl

@[simp] lemma queries_launch (r : Roster τ) (l : Launch κ τ) :
    (r.launch l).queries = r.queries ++ [l.query] := by
  simp [launch]

@[simp] lemma queries_begin (r : Roster τ) (n : ℕ) (call : Call κ τ) :
    (r.begin n call).queries = r.queries := by
  unfold begin
  cases r.queries[n]? with
  | none => rfl
  | some q => simp

lemma receive_of_some (h : r.queries[n]? = some q) (call : Call κ τ) (answer : Answer τ ν) :
    (r.receive n call answer).1.queries = r.queries.set n (q.receive call answer).1 ∧
      (r.receive n call answer).2 = (q.receive call answer).2 := by
  simp [receive, h]

lemma receive_of_ne (h : n ≠ m) :
    (r.receive n call answer).1.queries[m]? = r.queries[m]? := by
  cases hq : r.queries[n]? with
  | none => simp [receive, hq]
  | some q => rw [(receive_of_some hq call answer).1, List.getElem?_set_ne h]

end Roster

namespace Traffic

def taskOf (n : ℕ) (task : ℕ × Task κ τ) : Option (Task κ τ) :=
  if task.1 = n then some task.2 else none

def callOf (n : ℕ) (sent : Sent κ τ) : Option (Call κ τ) :=
  if sent.query = n then some sent.call else none

structure Carries (s : Traffic κ τ) (n : ℕ) (f : Flight κ τ) : Prop where
  query : s.roster.queries[n]? = some f.query
  tasks : s.tasks.filterMap (taskOf n) = f.tasks
  calls : s.sends.filterMap (callOf n) = f.calls

/-- The answers of a query, some of which may be cancellations. -/
def admitted (admits : ℕ → Call κ τ → Answer τ ν → Prop) (n : ℕ) (call : Call κ τ)
    (answer : Answer τ ν) : Prop :=
  admits n call answer ∨ answer = .failure (.transport .cancelled) call

section Tags

variable {n m : ℕ}

@[simp] lemma taskOf_self (n : ℕ) (task : Task κ τ) : taskOf n (n, task) = some task := if_pos rfl

lemma taskOf_of_ne (h : m ≠ n) (task : Task κ τ) : taskOf n (m, task) = none := if_neg h

@[simp] lemma callOf_self (n g : ℕ) (call : Call κ τ) : callOf n ⟨n, g, call⟩ = some call :=
  if_pos rfl

lemma callOf_of_ne {sent : Sent κ τ} (h : sent.query ≠ n) : callOf n sent = none := if_neg h

lemma filterMap_eq_zero {α β : Type} {f : α → Option β} {s : Multiset α}
    (h : ∀ a ∈ s, f a = none) : s.filterMap f = 0 := by
  induction s using Multiset.induction_on with
  | empty => rfl
  | cons a s ih =>
    rw [Multiset.filterMap_cons_none a s (h a (Multiset.mem_cons_self a s))]
    exact ih fun b hb => h b (Multiset.mem_cons_of_mem hb)

lemma tasks_tagged (n : ℕ) (tasks : Multiset (Task κ τ)) :
    (tasks.map (n, ·)).filterMap (taskOf n) = tasks := by
  have h : taskOf n ∘ (n, ·) = (some : Task κ τ → _) := funext fun task => taskOf_self n task
  rw [Multiset.filterMap_map, h, Multiset.filterMap_some]

lemma tasks_tagged_of_ne (h : m ≠ n) (tasks : Multiset (Task κ τ)) :
    (tasks.map (m, ·)).filterMap (taskOf n) = 0 := by
  refine filterMap_eq_zero fun task ht => ?_
  obtain ⟨task, -, rfl⟩ := Multiset.mem_map.mp ht
  exact taskOf_of_ne h task

lemma calls_tagged (n g : ℕ) (calls : Multiset (Call κ τ)) :
    (calls.map (Sent.mk n g)).filterMap (callOf n) = calls := by
  have h : callOf n ∘ Sent.mk n g = (some : Call κ τ → _) := funext fun call => callOf_self n g call
  rw [Multiset.filterMap_map, h, Multiset.filterMap_some]

lemma calls_tagged_of_ne (h : m ≠ n) (g : ℕ) (calls : Multiset (Call κ τ)) :
    (calls.map (Sent.mk m g)).filterMap (callOf n) = 0 := by
  refine filterMap_eq_zero fun sent hs => ?_
  obtain ⟨call, -, rfl⟩ := Multiset.mem_map.mp hs
  exact callOf_of_ne h

end Tags

section Steps

variable {admits : ℕ → Call κ τ → Answer τ ν → Prop} {s t : Traffic κ τ} {n : ℕ} {f : Flight κ τ}

lemma Carries.launch (h : s.Carries n f) (l : Launch κ τ) : (s.launch l).Carries n f := by
  have hlt : n < s.roster.queries.length := (List.getElem?_eq_some_iff.mp h.query).1
  refine ⟨?_, ?_, h.calls⟩
  · simp only [Traffic.launch, Roster.queries_launch]
    rw [List.getElem?_append_left hlt, h.query]
  · simp only [Traffic.launch]
    rw [Multiset.filterMap_add, tasks_tagged_of_ne hlt.ne', zero_add, h.tasks]

lemma Carries.start_self {task : Task κ τ} {rest : Multiset (ℕ × Task κ τ)} (h : s.Carries n f)
    (hs : s.tasks = (n, task) ::ₘ rest) :
    ∃ others, f.tasks = task ::ₘ others ∧
      (s.start n task rest).Carries n (f.start task others) := by
  refine ⟨rest.filterMap (taskOf n), ?_, ?_, rfl, ?_⟩
  · rw [← h.tasks, hs, Multiset.filterMap_cons_some _ _ _ (taskOf_self n task)]
  · simpa [Traffic.start, Flight.start] using h.query
  · simp only [Traffic.start]
    rw [Multiset.filterMap_cons_some _ _ _ (callOf_self n _ task.call), h.calls]
    rfl

lemma Carries.start_of_ne {m : ℕ} {task : Task κ τ} {rest : Multiset (ℕ × Task κ τ)}
    (h : s.Carries n f) (hs : s.tasks = (m, task) ::ₘ rest) (hm : m ≠ n) :
    (s.start m task rest).Carries n f := by
  refine ⟨?_, ?_, ?_⟩
  · simpa [Traffic.start] using h.query
  · rw [← h.tasks, hs, Multiset.filterMap_cons_none _ _ (taskOf_of_ne hm task)]
    rfl
  · simp only [Traffic.start]
    rw [Multiset.filterMap_cons_none _ _ (callOf_of_ne hm), h.calls]

lemma queries_settle (s : Traffic κ τ) (sent : Sent κ τ) (answer : Answer τ ν)
    (rest : Multiset (Sent κ τ)) :
    (s.settle sent answer rest).roster.queries =
      (s.roster.receive sent.query sent.call answer).1.queries := by
  simp only [settle]
  cases (s.roster.receive sent.query sent.call answer).2.onward with
  | none => rfl
  | some call => exact Roster.queries_begin _ _ call

lemma Carries.settle_self {g : ℕ} {call : Call κ τ} {rest : Multiset (Sent κ τ)}
    (h : s.Carries n f) (hs : s.sends = ⟨n, g, call⟩ ::ₘ rest) (answer : Answer τ ν) :
    ∃ others, f.calls = call ::ₘ others ∧
      (s.roster.receive n call answer).2 = (f.query.receive call answer).2 ∧
      (s.settle ⟨n, g, call⟩ answer rest).Carries n (f.settle call answer others) := by
  obtain ⟨hqueries, heffects⟩ := Roster.receive_of_some h.query call answer
  have hlt : n < s.roster.queries.length := (List.getElem?_eq_some_iff.mp h.query).1
  refine ⟨rest.filterMap (callOf n), ?_, heffects, ?_, ?_, ?_⟩
  · rw [← h.calls, hs, Multiset.filterMap_cons_some _ _ _ (callOf_self n g call)]
  · rw [queries_settle, hqueries, List.getElem?_set_self hlt]
    rfl
  · simp only [Traffic.settle, Flight.settle]
    rw [Multiset.filterMap_add, ← Multiset.map_coe, tasks_tagged, heffects, h.tasks]
  · simp only [Traffic.settle, Flight.settle]
    rw [Multiset.filterMap_add, ← Multiset.map_coe, calls_tagged, heffects]

lemma Carries.settle_of_ne {sent : Sent κ τ} {rest : Multiset (Sent κ τ)} (h : s.Carries n f)
    (hs : s.sends = sent ::ₘ rest) (hm : sent.query ≠ n) (answer : Answer τ ν) :
    (s.settle sent answer rest).Carries n f := by
  refine ⟨?_, ?_, ?_⟩
  · rw [queries_settle, Roster.receive_of_ne hm, h.query]
  · simp only [Traffic.settle]
    rw [Multiset.filterMap_add, ← Multiset.map_coe, tasks_tagged_of_ne hm, zero_add, h.tasks]
  · simp only [Traffic.settle]
    rw [Multiset.filterMap_add, ← Multiset.map_coe, calls_tagged_of_ne hm, zero_add, ← h.calls, hs,
      Multiset.filterMap_cons_none _ _ (callOf_of_ne hm)]

lemma admitted_of_resolves {sent : Sent κ τ} {answer : Answer τ ν}
    (h : s.Resolves admits sent answer) : admitted admits sent.query sent.call answer := by
  unfold Resolves at h
  split_ifs at h with he
  · exact Or.inr h
  · exact Or.inl h

lemma Carries.step {move : Move κ τ ν} (h : s.Carries n f) (hs : Step admits s move t) :
    (move.turn? n = none ∧ t.Carries n f) ∨
      ∃ turn f', move.turn? n = some turn ∧ t.Carries n f' ∧
        Flight.Step (admitted admits n) f turn f' := by
  cases hs with
  | launch => exact Or.inl ⟨rfl, h.launch _⟩
  | cancel => exact Or.inl ⟨rfl, h.query, h.tasks, h.calls⟩
  | @begin m task rest ht =>
    by_cases hm : m = n
    · subst hm
      obtain ⟨others, hf, hcarries⟩ := h.start_self ht
      exact Or.inr ⟨_, _, if_pos rfl, hcarries, .begin hf⟩
    · exact Or.inl ⟨if_neg hm, h.start_of_ne ht hm⟩
  | @answer sent rest answer hc ha =>
    by_cases hm : sent.query = n
    · subst hm
      obtain ⟨others, hf, heffects, hcarries⟩ := h.settle_self hc answer
      have hstep := Flight.Step.answer hf (admitted_of_resolves ha)
      rw [← heffects] at hstep
      exact Or.inr ⟨_, _, if_pos rfl, hcarries, hstep⟩
    · exact Or.inl ⟨if_neg hm, h.settle_of_ne hc hm answer⟩

end Steps

section Runs

variable {admits : ℕ → Call κ τ → Answer τ ν → Prop} {moves : List (Move κ τ ν)}
  {move : Move κ τ ν} {s t : Traffic κ τ} {n : ℕ}

lemma launches_snoc (moves : List (Move κ τ ν)) (move : Move κ τ ν) :
    launches (moves ++ [move]) = launches moves ++ move.launch?.toList := by
  cases h : move.launch? <;> simp [launches, h]

lemma queryTurns_snoc (moves : List (Move κ τ ν)) (move : Move κ τ ν) (n : ℕ) :
    queryTurns (moves ++ [move]) n = queryTurns moves n ++ (move.turn? n).toList := by
  cases h : move.turn? n <;> simp [queryTurns, h]

structure Coherent (moves : List (Move κ τ ν)) (s : Traffic κ τ) : Prop where
  launched : s.roster.queries.length = (launches moves).length
  unborn : ∀ n, s.roster.queries.length ≤ n → s.Finished n ∧ queryTurns moves n = []

lemma Coherent.task_lt (h : Coherent moves s) {task : ℕ × Task κ τ} (ht : task ∈ s.tasks) :
    task.1 < s.roster.queries.length := by
  by_contra hle
  exact (h.unborn task.1 (not_lt.mp hle)).1.1 task ht rfl

lemma Coherent.send_lt (h : Coherent moves s) {sent : Sent κ τ} (hs : sent ∈ s.sends) :
    sent.query < s.roster.queries.length := by
  by_contra hle
  exact (h.unborn sent.query (not_lt.mp hle)).1.2 sent hs rfl

lemma Coherent.start (h : Coherent moves s) {m : ℕ} {task : Task κ τ}
    {rest : Multiset (ℕ × Task κ τ)} (hs : s.tasks = (m, task) ::ₘ rest) :
    Coherent (moves ++ [.turned m (.begun task.call)]) (s.start m task rest) := by
  have hlt : m < s.roster.queries.length := h.task_lt (show (m, task) ∈ s.tasks by simp [hs])
  have hlen : (s.start m task rest).roster.queries.length = s.roster.queries.length := by
    simp [Traffic.start]
  refine ⟨?_, fun n hn => ?_⟩
  · rw [hlen, h.launched, launches_snoc]
    simp [Move.launch?]
  · rw [hlen] at hn
    obtain ⟨⟨htasks, hsends⟩, hturns⟩ := h.unborn n hn
    refine ⟨⟨fun other ho => htasks other ?_, fun sent hc => ?_⟩, ?_⟩
    · rw [hs]
      exact Multiset.mem_cons_of_mem ho
    · rcases Multiset.mem_cons.mp hc with rfl | hc
      · exact (hlt.trans_le hn).ne
      · exact hsends sent hc
    · simp [queryTurns_snoc, hturns, Move.turn?, (hlt.trans_le hn).ne]

lemma Coherent.settle (h : Coherent moves s) {sent : Sent κ τ} {rest : Multiset (Sent κ τ)}
    (hs : s.sends = sent ::ₘ rest) (answer : Answer τ ν) (effects : Effects κ τ ν) :
    Coherent (moves ++ [.turned sent.query (.answered sent.call answer effects)])
      (s.settle sent answer rest) := by
  have hlt : sent.query < s.roster.queries.length := h.send_lt (by simp [hs])
  have hlen : (s.settle sent answer rest).roster.queries.length = s.roster.queries.length := by
    have hqueries := (Roster.receive_of_some (List.getElem?_eq_getElem hlt) sent.call answer).1
    rw [queries_settle, hqueries, List.length_set]
  refine ⟨?_, fun n hn => ?_⟩
  · rw [hlen, h.launched, launches_snoc]
    simp [Move.launch?]
  · rw [hlen] at hn
    have hne : sent.query ≠ n := (hlt.trans_le hn).ne
    obtain ⟨⟨htasks, hsends⟩, hturns⟩ := h.unborn n hn
    refine ⟨⟨fun task ht => ?_, fun other hc => ?_⟩, ?_⟩
    · rcases Multiset.mem_add.mp ht with ht | ht
      · obtain ⟨task, -, rfl⟩ := List.mem_map.mp (Multiset.mem_coe.mp ht)
        exact hne
      · exact htasks task ht
    · rcases Multiset.mem_add.mp hc with hc | hc
      · obtain ⟨call, -, rfl⟩ := List.mem_map.mp (Multiset.mem_coe.mp hc)
        exact hne
      · exact hsends other (by simp [hs, hc])
    · simp [queryTurns_snoc, hturns, Move.turn?, hne]

lemma Coherent.launch (h : Coherent moves s) (l : Launch κ τ) :
    Coherent (moves ++ [.launched l]) (s.launch l) := by
  have hlen : (s.launch l).roster.queries.length = s.roster.queries.length + 1 := by
    simp [Traffic.launch]
  refine ⟨?_, fun n hn => ?_⟩
  · rw [hlen, h.launched, launches_snoc]
    simp [Move.launch?]
  · rw [hlen] at hn
    obtain ⟨⟨htasks, hsends⟩, hturns⟩ := h.unborn n (by omega)
    refine ⟨⟨fun task ht => ?_, hsends⟩, ?_⟩
    · rcases Multiset.mem_add.mp ht with ht | ht
      · obtain ⟨task, -, rfl⟩ := Multiset.mem_map.mp ht
        exact (Nat.lt_of_succ_le hn).ne
      · exact htasks task ht
    · simp [queryTurns_snoc, hturns, Move.turn?]

lemma Coherent.step (h : Coherent moves s) (hs : Step admits s move t) :
    Coherent (moves ++ [move]) t := by
  cases hs with
  | launch => exact h.launch _
  | cancel =>
    refine ⟨?_, fun n hn => ?_⟩
    · rw [launches_snoc]
      simpa [Move.launch?, cancelAll] using h.launched
    · obtain ⟨hfinished, hturns⟩ := h.unborn n hn
      exact ⟨hfinished, by simp [queryTurns_snoc, hturns, Move.turn?]⟩
  | begin ht => exact h.start ht
  | answer hc _ => exact h.settle hc _ _

lemma Run.coherent (h : Run admits {} moves s) : Coherent moves s := by
  induction h with
  | nil => exact ⟨rfl, fun n _ => ⟨⟨by simp, by simp⟩, rfl⟩⟩
  | snoc _ hs ih => exact ih.step hs

lemma Coherent.carries_launch (h : Coherent moves s) (l : Launch κ τ) :
    (s.launch l).Carries s.roster.queries.length l.flight := by
  obtain ⟨⟨htasks, hsends⟩, -⟩ := h.unborn _ le_rfl
  refine ⟨?_, ?_, ?_⟩
  · simp [Traffic.launch, Launch.flight]
  · simp only [Traffic.launch]
    rw [Multiset.filterMap_add, tasks_tagged,
      filterMap_eq_zero fun task ht => taskOf_of_ne (htasks task ht) task.2, add_zero]
  · exact filterMap_eq_zero fun sent hc => callOf_of_ne (hsends sent hc)

lemma Run.carries (h : Run admits {} moves s) {l : Launch κ τ}
    (hl : (launches moves)[n]? = some l) :
    ∃ f, s.Carries n f ∧ Flight.Run (admitted admits n) l.flight (queryTurns moves n) f := by
  induction h with
  | nil => simp [launches] at hl
  | @snoc moves move s t hr hs ih =>
    rw [launches_snoc] at hl
    rw [queryTurns_snoc]
    rcases lt_or_ge n (launches moves).length with hlt | hge
    · rw [List.getElem?_append_left hlt] at hl
      obtain ⟨f, hcarries, hrun⟩ := ih hl
      rcases hcarries.step hs with ⟨hturn, hcarries⟩ | ⟨turn, f', hturn, hcarries, hstep⟩
      · rw [hturn]
        exact ⟨f, hcarries, by simpa using hrun⟩
      · rw [hturn]
        exact ⟨f', hcarries, hrun.snoc hstep⟩
    · rw [List.getElem?_append_right hge] at hl
      cases hs with
      | @launch l' =>
        have hn : n = (launches moves).length := by
          have := (List.getElem?_eq_some_iff.mp hl).1
          simp [Move.launch?] at this
          omega
        have hcoherent := hr.coherent
        rw [← hcoherent.launched] at hn
        subst hn
        obtain rfl : l' = l := by simpa [Move.launch?, hcoherent.launched] using hl
        rw [(hcoherent.unborn _ le_rfl).2]
        exact ⟨_, hcoherent.carries_launch l', .nil⟩
      | cancel => simp [Move.launch?] at hl
      | begin _ => simp [Move.launch?] at hl
      | answer _ _ => simp [Move.launch?] at hl

lemma Carries.idle {f : Flight κ τ} (h : s.Carries n f) (hs : s.Finished n) : f.Idle := by
  refine ⟨?_, ?_⟩
  · rw [← h.tasks]
    exact filterMap_eq_zero fun task ht => taskOf_of_ne (hs.1 task ht) task.2
  · rw [← h.calls]
    exact filterMap_eq_zero fun sent hc => callOf_of_ne (hs.2 sent hc)

end Runs

end Traffic

end LedgerQuery
