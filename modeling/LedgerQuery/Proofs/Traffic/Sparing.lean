import LedgerQuery.Proofs.Traffic.Projection

/-! Traffic with a cancellation beside traffic without it. To the queries that were not waiting for
an answer at that moment there is no difference: what the one can do to them, the other can, and
the generations of their sends are the same but for their numbers. -/

namespace LedgerQuery

variable {κ τ ν : Type}

def Sent.shift (j : ℕ) (sent : Sent κ τ) : Sent κ τ :=
  { sent with generation := sent.generation + j }

def Move.concerns (p : ℕ → Bool) : Move κ τ ν → Bool
  | turned n _ => p n
  | launched _ => true
  | cancelled => true

namespace Roster

variable {r r' : Roster τ} {n : ℕ}

lemma receive_congr (h : r.queries[n]? = r'.queries[n]?) (call : Call κ τ) (answer : Answer τ ν) :
    (r.receive n call answer).2 = (r'.receive n call answer).2 ∧
      (r.receive n call answer).1.queries[n]? = (r'.receive n call answer).1.queries[n]? := by
  cases hq : r.queries[n]? with
  | none =>
    have hq' := h.symm.trans hq
    simp [receive, hq, hq']
  | some q =>
    have hq' := h.symm.trans hq
    obtain ⟨hqueries, heffects⟩ := receive_of_some hq call answer
    obtain ⟨hqueries', heffects'⟩ := receive_of_some hq' call answer
    have hlt := (List.getElem?_eq_some_iff.mp hq).1
    have hlt' := (List.getElem?_eq_some_iff.mp hq').1
    refine ⟨heffects.trans heffects'.symm, ?_⟩
    rw [hqueries, hqueries', List.getElem?_set_self hlt, List.getElem?_set_self hlt']

lemma length_receive (r : Roster τ) (n : ℕ) (call : Call κ τ) (answer : Answer τ ν) :
    (r.receive n call answer).1.queries.length = r.queries.length := by
  cases hq : r.queries[n]? with
  | none => simp [receive, hq]
  | some q => rw [(receive_of_some hq call answer).1, List.length_set]

end Roster

namespace Traffic

def spares (s : Traffic κ τ) (n : ℕ) : Bool := decide (∀ sent ∈ s.sends, sent.query ≠ n)

/-- The two agree on these queries; the generations of the one are ahead by `k`, those of the other
by `j`. -/
structure Alike (p : ℕ → Bool) (j k : ℕ) (u v : Traffic κ τ) : Prop where
  generation : u.gate.generation + j = v.gate.generation + k
  launched : u.roster.queries.length = v.roster.queries.length
  queries : ∀ n, p n → u.roster.queries[n]? = v.roster.queries[n]?
  tasks : (u.tasks.filter fun task => p task.1) = v.tasks.filter fun task => p task.1
  sends : (u.sends.filter fun sent => p sent.query).map (Sent.shift j) =
    (v.sends.filter fun sent => p sent.query).map (Sent.shift k)

section Filters

variable {α : Type} {p : α → Prop} [DecidablePred p] {a : α} {s rest : Multiset α}

lemma filter_of_cons (hs : s = a ::ₘ rest) (h : p a) : s.filter p = a ::ₘ rest.filter p := by
  rw [hs]
  exact Multiset.filter_cons_of_pos rest h

lemma filter_of_cons_of_not (hs : s = a ::ₘ rest) (h : ¬ p a) : s.filter p = rest.filter p := by
  rw [hs]
  exact Multiset.filter_cons_of_neg rest h

lemma filter_coe_add_of_not {new : List α} (h : ∀ b ∈ new, ¬ p b) (s : Multiset α) :
    (↑new + s).filter p = s.filter p := by
  have hnone : new.filter p = [] :=
    List.filter_eq_nil_iff.mpr fun b hb hp => h b hb (of_decide_eq_true hp)
  rw [Multiset.filter_add, Multiset.filter_coe, hnone, Multiset.coe_nil, zero_add]

lemma filter_coe_add_of {new : List α} (h : ∀ b ∈ new, p b) (s : Multiset α) :
    (↑new + s).filter p = ↑new + s.filter p := by
  have hall : new.filter p = new := List.filter_eq_self.mpr fun b hb => decide_eq_true (h b hb)
  rw [Multiset.filter_add, Multiset.filter_coe, hall]

end Filters

section Sides

variable {admits : ℕ → Call κ τ → Answer τ ν → Prop} {p : ℕ → Bool} {j k m : ℕ}
  {u v w : Traffic κ τ}

lemma Alike.symm (h : Alike p j k u v) : Alike p k j v u :=
  ⟨h.generation.symm, h.launched.symm, fun n hn => (h.queries n hn).symm, h.tasks.symm,
    h.sends.symm⟩

lemma alike_cancelAll (s : Traffic κ τ) : Alike s.spares 0 1 s.cancelAll s := by
  have hnone : (s.sends.filter fun sent => s.spares sent.query) = 0 := by
    refine Multiset.filter_eq_nil.mpr fun sent hsent hspared => ?_
    exact of_decide_eq_true hspared sent hsent rfl
  refine ⟨rfl, rfl, fun _ _ => rfl, rfl, ?_⟩
  change (s.sends.filter fun sent => s.spares sent.query).map _ = _
  rw [hnone]
  rfl

lemma Alike.launch (h : Alike p j k u v) (l : Launch κ τ) :
    Alike p j k (u.launch l) (v.launch l) := by
  refine ⟨h.generation, ?_, fun n hn => ?_, ?_, h.sends⟩
  · simp [Traffic.launch, h.launched]
  · simp only [Traffic.launch, Roster.queries_launch, List.getElem?_append, h.launched,
      h.queries n hn]
  · simp only [Traffic.launch, Multiset.filter_add, h.tasks, h.launched]

lemma Alike.cancelAll (h : Alike p j k u v) : Alike p j k u.cancelAll v.cancelAll := by
  refine ⟨?_, h.launched, h.queries, h.tasks, h.sends⟩
  have hgeneration := h.generation
  simp only [Traffic.cancelAll, Gate.cancelAll]
  omega

section Begun

variable {task : Task κ τ} {rest : Multiset (ℕ × Task κ τ)}

lemma Alike.start (h : Alike p j k u v) (hm : p m) (hu : u.tasks = (m, task) ::ₘ rest) :
    ∃ rest', v.tasks = (m, task) ::ₘ rest' ∧
      Alike p j k (u.start m task rest) (v.start m task rest') := by
  have htasks := h.tasks
  rw [filter_of_cons hu hm] at htasks
  have hmem : (m, task) ∈ v.tasks := by
    refine Multiset.mem_of_mem_filter (p := fun task => p task.1) ?_
    rw [← htasks]
    exact Multiset.mem_cons_self _ _
  obtain ⟨rest', hv⟩ := Multiset.exists_cons_of_mem hmem
  rw [filter_of_cons hv hm] at htasks
  refine ⟨rest', hv, h.generation, ?_, fun n hn => ?_, Multiset.cons_inj_right _ |>.mp htasks, ?_⟩
  · simpa [Traffic.start] using h.launched
  · simpa [Traffic.start] using h.queries n hn
  · have hnew (s : Traffic κ τ) (g : ℕ) :
        (⟨m, g, task.call⟩ ::ₘ s.sends).filter (fun sent => p sent.query) =
          ⟨m, g, task.call⟩ ::ₘ s.sends.filter fun sent => p sent.query := filter_of_cons rfl hm
    simp only [Traffic.start]
    rw [hnew, hnew, Multiset.map_cons, Multiset.map_cons, h.sends]
    simp only [Sent.shift, h.generation]

lemma Alike.start_apart (h : Alike p j k u v) (hm : ¬ p m) (hu : u.tasks = (m, task) ::ₘ rest) :
    Alike p j k (u.start m task rest) v := by
  refine ⟨h.generation, ?_, fun n hn => ?_, ?_, ?_⟩
  · simpa [Traffic.start] using h.launched
  · simpa [Traffic.start] using h.queries n hn
  · rw [← h.tasks, filter_of_cons_of_not hu hm]
    rfl
  · rw [← h.sends]
    exact congrArg (Multiset.map (Sent.shift j)) (filter_of_cons_of_not rfl hm)

end Begun

section Answered

variable {sent : Sent κ τ} {rest : Multiset (Sent κ τ)}

lemma Alike.waits (h : Alike p j k u v) (hm : p sent.query) (hu : u.sends = sent ::ₘ rest) :
    ∃ g rest', v.sends = { sent with generation := g } ::ₘ rest' ∧
      sent.generation + j = g + k ∧
      (rest.filter fun sent => p sent.query).map (Sent.shift j) =
        (rest'.filter fun sent => p sent.query).map (Sent.shift k) := by
  have hsends := h.sends
  rw [filter_of_cons hu hm, Multiset.map_cons] at hsends
  have hmem : sent.shift j ∈ (v.sends.filter fun sent => p sent.query).map (Sent.shift k) := by
    rw [← hsends]
    exact Multiset.mem_cons_self _ _
  -- The counterpart: the same call of the same query, of the generation that corresponds.
  obtain ⟨other, hother, hshift⟩ := Multiset.mem_map.mp hmem
  obtain ⟨rest', hv⟩ := Multiset.exists_cons_of_mem (Multiset.mem_of_mem_filter hother)
  obtain ⟨n, g, call⟩ := sent
  obtain ⟨n', g', call'⟩ := other
  obtain ⟨rfl, hg, rfl⟩ := Sent.mk.inj hshift
  rw [filter_of_cons hv hm, Multiset.map_cons, hshift] at hsends
  exact ⟨g', rest', hv, hg.symm, Multiset.cons_inj_right _ |>.mp hsends⟩

lemma Alike.hasEnded (h : Alike p j k u v) {g g' : ℕ} (hg : g + j = g' + k) :
    v.gate.hasEnded g' = u.gate.hasEnded g := by
  have hgeneration := h.generation
  refine decide_eq_decide.mpr ?_
  omega

lemma Alike.settle (h : Alike p j k u v) (hm : p sent.query) {g : ℕ}
    {rest' : Multiset (Sent κ τ)} (hrest : (rest.filter fun sent => p sent.query).map
      (Sent.shift j) = (rest'.filter fun sent => p sent.query).map (Sent.shift k))
    (answer : Answer τ ν) :
    Alike p j k (u.settle sent answer rest)
      (v.settle { sent with generation := g } answer rest') := by
  obtain ⟨heffects, hquery⟩ := Roster.receive_congr (h.queries _ hm) sent.call answer
  refine ⟨h.generation, ?_, fun n hn => ?_, ?_, ?_⟩
  · rw [queries_settle, queries_settle, Roster.length_receive, Roster.length_receive, h.launched]
  · rw [queries_settle, queries_settle]
    by_cases hsent : sent.query = n
    · rw [← hsent]
      exact hquery
    · rw [Roster.receive_of_ne hsent, Roster.receive_of_ne hsent, h.queries n hn]
  · simp only [Traffic.settle, heffects]
    rw [filter_coe_add_of (by simp [hm]), filter_coe_add_of (by simp [hm]), h.tasks]
  · simp only [Traffic.settle, heffects]
    rw [filter_coe_add_of (by simp [hm]), filter_coe_add_of (by simp [hm]), Multiset.map_add,
      Multiset.map_add, hrest, Multiset.map_coe, Multiset.map_coe, List.map_map, List.map_map]
    simp only [Function.comp_def, Sent.shift, h.generation]

lemma Alike.settle_apart (h : Alike p j k u v) (hm : ¬ p sent.query)
    (hu : u.sends = sent ::ₘ rest) (answer : Answer τ ν) :
    Alike p j k (u.settle sent answer rest) v := by
  refine ⟨h.generation, ?_, fun n hn => ?_, ?_, ?_⟩
  · rw [queries_settle, Roster.length_receive, h.launched]
  · have hne : sent.query ≠ n := fun hsent => hm (hsent ▸ hn)
    rw [queries_settle, Roster.receive_of_ne hne, h.queries n hn]
  · simp only [Traffic.settle]
    rw [filter_coe_add_of_not (by simp [hm]), h.tasks]
  · simp only [Traffic.settle]
    rw [filter_coe_add_of_not (by simp [hm]), ← h.sends, filter_of_cons_of_not hu hm]

end Answered

lemma Alike.mirrored (h : Alike p j k u v) {move : Move κ τ ν} (hs : Step admits u move w)
    (hm : move.concerns p) : ∃ w', Step admits v move w' ∧ Alike p j k w w' := by
  cases hs with
  | launch => exact ⟨_, .launch, h.launch _⟩
  | cancel => exact ⟨_, .cancel, h.cancelAll⟩
  | begin hu =>
    obtain ⟨rest', hv, halike⟩ := h.start hm hu
    exact ⟨_, .begin hv, halike⟩
  | @answer sent rest answer hu hr =>
    obtain ⟨g, rest', hv, hg, hrest⟩ := h.waits hm hu
    have hr' : v.Resolves admits { sent with generation := g } answer := by
      rw [Resolves, h.hasEnded hg]
      exact hr
    have hstep := Step.answer hv hr'
    rw [← (Roster.receive_congr (h.queries _ hm) sent.call answer).1] at hstep
    exact ⟨_, hstep, h.settle hm hrest answer⟩

lemma Alike.apart (h : Alike p j k u v) {move : Move κ τ ν} (hs : Step admits u move w)
    (hm : ¬ move.concerns p) : Alike p j k w v := by
  cases hs with
  | launch => exact absurd rfl hm
  | cancel => exact absurd rfl hm
  | begin hu => exact h.start_apart hm hu
  | answer hu _ => exact h.settle_apart hm hu _

lemma Alike.run (h : Alike p j k u v) {moves : List (Move κ τ ν)} (hr : Run admits u moves w) :
    ∃ w', Run admits v (moves.filter (Move.concerns p)) w' ∧ Alike p j k w w' := by
  induction hr with
  | nil => exact ⟨v, .nil, h⟩
  | @snoc moves move _ w _ hs ih =>
    obtain ⟨w', hrun, halike⟩ := ih
    rw [List.filter_append]
    -- A turn of a query that is not compared is made on the one side only.
    by_cases hm : move.concerns p = true
    · obtain ⟨w'', hstep, halike⟩ := halike.mirrored hs hm
      have hkept : [move].filter (Move.concerns p) = [move] := by simp [hm]
      rw [hkept]
      exact ⟨w'', hrun.snoc hstep, halike⟩
    · have hdropped : [move].filter (Move.concerns p) = [] := by simp [hm]
      rw [hdropped, List.append_nil]
      exact ⟨w', hrun, halike.apart hs hm⟩

lemma Alike.carries (h : Alike p j k u v) {n : ℕ} (hn : p n) {f : Flight κ τ}
    (hu : u.Carries n f) : v.Carries n f := by
  have htask (s : Traffic κ τ) : s.tasks.filterMap (taskOf n) =
      (s.tasks.filter fun task => p task.1).filterMap (taskOf n) := by
    rw [Multiset.filterMap_filter]
    congr 1
    funext task
    by_cases ht : task.1 = n
    · rw [if_pos (ht ▸ hn)]
    · rw [taskOf_of_ne ht task.2, ite_self]
  have hcall (s : Traffic κ τ) (i : ℕ) : s.sends.filterMap (callOf n) =
      ((s.sends.filter fun sent => p sent.query).map (Sent.shift i)).filterMap (callOf n) := by
    rw [Multiset.filterMap_map, Multiset.filterMap_filter]
    congr 1
    funext sent
    by_cases hs : sent.query = n
    · rw [if_pos (hs ▸ hn)]
      rfl
    · have hs' : (sent.shift i).query ≠ n := hs
      rw [callOf_of_ne hs, Function.comp_apply, callOf_of_ne hs', ite_self]
  refine ⟨?_, ?_, ?_⟩
  · rw [← h.queries n hn, hu.query]
  · rw [htask, ← h.tasks, ← htask, hu.tasks]
  · rw [hcall v k, ← h.sends, ← hcall, hu.calls]

lemma queryTurns_concerning (moves : List (Move κ τ ν)) {n : ℕ} (hn : p n) :
    queryTurns (moves.filter (Move.concerns p)) n = queryTurns moves n := by
  rw [queryTurns, List.filterMap_filter]
  refine List.filterMap_congr fun move _ => ?_
  cases move with
  | launched l => rfl
  | cancelled => rfl
  | turned m turn =>
    by_cases hm : m = n
    · rw [if_pos (show Move.concerns p (.turned m turn) from hm ▸ hn)]
    · have hnone : Move.turn? n (.turned m turn) = none := if_neg hm
      rw [hnone, ite_self]

end Sides

/-- Whatever can happen to these queries from `u` can happen to them from `v`, move by move. -/
def Imitates (admits : ℕ → Call κ τ → Answer τ ν → Prop) (p : ℕ → Bool) (u v : Traffic κ τ) :
    Prop :=
  ∀ moves w, Run admits u moves w → ∃ w', Run admits v (moves.filter (Move.concerns p)) w' ∧
    ∀ n, p n → queryTurns (moves.filter (Move.concerns p)) n = queryTurns moves n ∧
      ∀ f, w.Carries n f ↔ w'.Carries n f

lemma Alike.imitates {p : ℕ → Bool} {j k : ℕ} {u v : Traffic κ τ} (h : Alike p j k u v)
    (admits : ℕ → Call κ τ → Answer τ ν → Prop) : Imitates admits p u v := by
  intro moves w hr
  obtain ⟨w', hrun, halike⟩ := h.run hr
  refine ⟨w', hrun, fun n hn => ⟨queryTurns_concerning moves hn, fun f => ⟨?_, ?_⟩⟩⟩
  · exact halike.carries hn
  · exact halike.symm.carries hn

end Traffic

end LedgerQuery
