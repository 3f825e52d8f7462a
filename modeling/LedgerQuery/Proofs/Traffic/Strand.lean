import LedgerQuery.Proofs.Traffic.Projection

/-! Sends that were outstanding when all of them were cancelled. Whatever else goes on, such a send
waits until it is answered with its cancellation. -/

namespace LedgerQuery

variable {κ τ ν : Type}

lemma Move.turn?_eq_some {move : Move κ τ ν} {n : ℕ} {turn : Turn κ τ ν}
    (h : move.turn? n = some turn) : move = .turned n turn := by
  cases move with
  | turned m turn' =>
    simp only [turn?] at h
    split_ifs at h with hm
    rw [hm, Option.some.inj h]
  | launched l => simp [turn?] at h
  | cancelled => simp [turn?] at h

namespace Traffic

def sendsOf (s : Traffic κ τ) (n : ℕ) : Multiset (Sent κ τ) :=
  s.sends.filter fun sent => sent.query = n

def Awaits (s : Traffic κ τ) (n : ℕ) (call : Call κ τ) : Prop := ∃ g, ⟨n, g, call⟩ ∈ s.sends

section Steps

variable {admits : ℕ → Call κ τ → Answer τ ν → Prop} {s t : Traffic κ τ} {move : Move κ τ ν}
  {n : ℕ} {sent : Sent κ τ}

lemma Step.generation_le (h : Step admits s move t) : s.gate.generation ≤ t.gate.generation := by
  cases h with
  | cancel => exact Nat.le_succ _
  | launch => exact le_rfl
  | begin _ => exact le_rfl
  | answer _ _ => exact le_rfl

def Sound (s : Traffic κ τ) : Prop := ∀ sent ∈ s.sends, sent.generation ≤ s.gate.generation

lemma Sound.step (hs : Sound s) (h : Step admits s move t) : Sound t := by
  intro sent hsent
  cases h with
  | launch => exact hs sent hsent
  | cancel => exact (hs sent hsent).trans (Nat.le_succ _)
  | begin _ =>
    rcases Multiset.mem_cons.mp hsent with rfl | hsent
    · exact le_rfl
    · exact hs sent hsent
  | @answer other rest answer hc _ =>
    rcases Multiset.mem_add.mp hsent with hsent | hsent
    · obtain ⟨call, -, rfl⟩ := List.mem_map.mp (Multiset.mem_coe.mp hsent)
      exact le_rfl
    · refine hs sent ?_
      rw [hc]
      exact Multiset.mem_cons_of_mem hsent

lemma Sound.ended (hs : Sound s) (h : sent ∈ s.sends) :
    s.cancelAll.gate.hasEnded sent.generation = true :=
  decide_eq_true (Nat.lt_succ_of_le (hs sent h))

lemma hasEnded_mono (hle : s.gate.generation ≤ t.gate.generation) {g : ℕ}
    (he : s.gate.hasEnded g = true) : t.gate.hasEnded g = true := by
  have hlt : g < s.gate.generation := of_decide_eq_true he
  exact decide_eq_true (hlt.trans_le hle)

lemma Step.doomed (h : Step admits s move t) (hsent : sent ∈ s.sends)
    (he : s.gate.hasEnded sent.generation = true) :
    sent ∈ t.sends ∨ ∃ effects, move.turn? sent.query =
      some (.answered sent.call (.failure (.transport .cancelled) sent.call) effects) := by
  cases h with
  | launch => exact Or.inl hsent
  | cancel => exact Or.inl hsent
  | begin _ => exact Or.inl (Multiset.mem_cons_of_mem hsent)
  | @answer other rest answer hc ha =>
    rw [hc] at hsent
    rcases Multiset.mem_cons.mp hsent with rfl | hsent
    -- Its own answer, which can only be the cancellation once its generation has ended.
    · rw [Resolves, if_pos he] at ha
      subst ha
      exact Or.inr ⟨_, if_pos rfl⟩
    · exact Or.inl (Multiset.mem_add.mpr (Or.inr hsent))

lemma Step.sendsOf_of_none (h : Step admits s move t) (hm : move.turn? n = none) :
    t.sendsOf n = s.sendsOf n := by
  cases h with
  | launch => rfl
  | cancel => rfl
  | @begin m task rest _ =>
    have hne : m ≠ n := by simpa [Move.turn?] using hm
    exact Multiset.filter_cons_of_neg _ hne
  | @answer other rest answer hc _ =>
    have hne : other.query ≠ n := by simpa [Move.turn?] using hm
    have hnew : ((s.roster.receive other.query other.call answer).2.onward.toList.map
        (Sent.mk other.query s.gate.generation)).filter (fun sent => sent.query = n) = [] := by
      refine List.filter_eq_nil_iff.mpr fun sent hs => ?_
      obtain ⟨call, -, rfl⟩ := List.mem_map.mp hs
      simpa using hne
    have hold : (other ::ₘ rest).filter (fun sent => sent.query = n) =
        rest.filter fun sent => sent.query = n := Multiset.filter_cons_of_neg _ hne
    simp only [sendsOf, settle, hc]
    rw [Multiset.filter_add, Multiset.filter_coe, hnew, hold]
    exact zero_add _

lemma goes_on (ha : ∀ sent ∈ s.sends, ∃ answer : Answer τ ν, admits sent.query sent.call answer)
    (h : ¬ s.Finished n) : ∃ (turn : Turn κ τ ν) (t : Traffic κ τ),
      Step admits s (.turned n turn) t := by
  rw [Finished, not_and_or, not_forall, not_forall] at h
  rcases h with ⟨⟨m, task⟩, h⟩ | ⟨sent, h⟩
  · obtain ⟨hmem, hm⟩ := Classical.not_imp.mp h
    obtain rfl : m = n := not_not.mp hm
    obtain ⟨rest, hrest⟩ := Multiset.exists_cons_of_mem hmem
    exact ⟨_, _, .begin hrest⟩
  · obtain ⟨hmem, hm⟩ := Classical.not_imp.mp h
    obtain rfl : sent.query = n := not_not.mp hm
    obtain ⟨rest, hrest⟩ := Multiset.exists_cons_of_mem hmem
    cases he : s.gate.hasEnded sent.generation with
    | true =>
      have hresolves : s.Resolves admits sent (.failure (.transport .cancelled) sent.call) := by
        rw [Resolves, if_pos he]
      exact ⟨_, _, .answer hrest hresolves⟩
    | false =>
      obtain ⟨answer, hadmits⟩ := ha sent hmem
      have hresolves : s.Resolves admits sent answer := by
        rw [Resolves, if_neg (by simp [he])]
        exact hadmits
      exact ⟨_, _, .answer hrest hresolves⟩

end Steps

section Views

variable {s : Traffic κ τ} {n : ℕ} {f : Flight κ τ} {call : Call κ τ}

lemma Carries.mem_calls (h : s.Carries n f) (hw : s.Awaits n call) : call ∈ f.calls := by
  obtain ⟨g, hsent⟩ := hw
  rw [← h.calls]
  exact (Multiset.mem_filterMap _ _).mpr ⟨_, hsent, callOf_self n g call⟩

lemma Carries.cancelAll (h : s.Carries n f) : s.cancelAll.Carries n f :=
  ⟨h.query, h.tasks, h.calls⟩

lemma Carries.finished (h : s.Carries n f) (hf : f.Idle) : s.Finished n := by
  refine ⟨fun task ht hn => ?_, fun sent hsent hn => ?_⟩
  · have hmem : task.2 ∈ f.tasks := by
      rw [← h.tasks]
      exact (Multiset.mem_filterMap _ _).mpr ⟨task, ht, if_pos hn⟩
    rw [hf.1] at hmem
    exact Multiset.notMem_zero _ hmem
  · have hmem : sent.call ∈ f.calls := by
      rw [← h.calls]
      exact (Multiset.mem_filterMap _ _).mpr ⟨sent, hsent, if_pos hn⟩
    rw [hf.2] at hmem
    exact Multiset.notMem_zero _ hmem

lemma sends_settle {sent : Sent κ τ} {answer : Answer τ ν} {rest : Multiset (Sent κ τ)}
    (h : (s.roster.receive sent.query sent.call answer).2.onward = none) :
    (s.settle sent answer rest).sends = rest := by
  simp [settle, h]

end Views

section Runs

variable {admits : ℕ → Call κ τ → Answer τ ν → Prop} {s t : Traffic κ τ}
  {moves more : List (Move κ τ ν)} {n : ℕ} {sent : Sent κ τ} {f : Flight κ τ}

lemma Run.generation_le (h : Run admits s more t) : s.gate.generation ≤ t.gate.generation := by
  induction h with
  | nil => exact le_rfl
  | snoc _ hs ih => exact ih.trans hs.generation_le

lemma Run.sound (h : Run admits {} moves s) : Sound s := by
  induction h with
  | nil => intro sent hs; simp at hs
  | snoc _ hs ih => exact ih.step hs

lemma queryTurns_append (moves more : List (Move κ τ ν)) (n : ℕ) :
    queryTurns (moves ++ more) n = queryTurns moves n ++ queryTurns more n :=
  List.filterMap_append

lemma queryTurns_around (moves more : List (Move κ τ ν)) (n : ℕ) :
    queryTurns (moves ++ .cancelled :: more) n = queryTurns moves n ++ queryTurns more n :=
  queryTurns_append moves (.cancelled :: more) n

lemma Run.doomed (h : Run admits s more t) (hsent : sent ∈ s.sends)
    (he : s.gate.hasEnded sent.generation = true) :
    sent ∈ t.sends ∨ ∃ effects,
      .answered sent.call (.failure (.transport .cancelled) sent.call) effects ∈
        queryTurns more sent.query := by
  induction h with
  | nil => exact Or.inl hsent
  | snoc hr hs ih =>
    rw [queryTurns_snoc]
    rcases ih with hwaits | ⟨effects, hmem⟩
    · rcases hs.doomed hwaits (hasEnded_mono hr.generation_le he) with hwaits | ⟨effects, hturn⟩
      · exact Or.inl hwaits
      · exact Or.inr ⟨effects, by simp [hturn]⟩
    · exact Or.inr ⟨effects, List.mem_append_left _ hmem⟩

lemma Run.doomed_of_awaits (hs : Run admits {} moves s) (ht : Run admits s.cancelAll more t)
    {call : Call κ τ} (hw : s.Awaits n call) :
    t.Awaits n call ∨ ∃ effects,
      .answered call (.failure (.transport .cancelled) call) effects ∈ queryTurns more n := by
  obtain ⟨g, hsent⟩ := hw
  rcases ht.doomed hsent (hs.sound.ended hsent) with hwaits | hturn
  · exact Or.inl ⟨g, hwaits⟩
  · exact Or.inr hturn

lemma Run.launched_of_awaits (h : Run admits {} moves s) {call : Call κ τ} (hw : s.Awaits n call) :
    n < (launches moves).length := by
  obtain ⟨g, hsent⟩ := hw
  rw [← h.coherent.launched]
  exact h.coherent.send_lt hsent

lemma Run.carries_on (h : Run admits s more t) (hc : s.Carries n f) :
    ∃ f', t.Carries n f' ∧ Flight.Run (admitted admits n) f (queryTurns more n) f' := by
  induction h with
  | nil => exact ⟨f, hc, .nil⟩
  | snoc _ hs ih =>
    obtain ⟨g, hcarries, hrun⟩ := ih
    rw [queryTurns_snoc]
    rcases hcarries.step hs with ⟨hturn, hcarries⟩ | ⟨turn, f', hturn, hcarries, hstep⟩
    · rw [hturn]
      exact ⟨g, hcarries, by simpa using hrun⟩
    · rw [hturn]
      exact ⟨f', hcarries, hrun.snoc hstep⟩

lemma Run.first_turn (h : Run admits s more t) (hc : s.Carries n f) :
    (queryTurns more n = [] ∧ t.Carries n f ∧ t.sendsOf n = s.sendsOf n) ∨
      ∃ before turn after u v, queryTurns more n = turn :: queryTurns after n ∧
        Run admits s before u ∧ u.Carries n f ∧ u.sendsOf n = s.sendsOf n ∧
        Step admits u (.turned n turn) v ∧ Run admits v after t := by
  induction h with
  | nil => exact Or.inl ⟨rfl, hc, rfl⟩
  | @snoc moves move u v hr hs ih =>
    rw [queryTurns_snoc]
    -- A first turn stays the first; as long as there is none, the last move may be it.
    rcases ih with ⟨hquiet, hcarries, hsends⟩ | ⟨before, turn, after, u', v', ht, hrest⟩
    · cases hm : move.turn? n with
      | none =>
        refine Or.inl ⟨by simp [hquiet], ?_, (hs.sendsOf_of_none hm).trans hsends⟩
        rcases hcarries.step hs with ⟨-, hcarries⟩ | ⟨turn, f', hturn, -⟩
        · exact hcarries
        · simp [hm] at hturn
      | some turn =>
        obtain rfl := Move.turn?_eq_some hm
        have hturns : queryTurns moves n ++ (some turn).toList = turn :: queryTurns [] n := by
          rw [hquiet]
          rfl
        exact Or.inr ⟨moves, turn, [], u, v, hturns, hr, hcarries, hsends, hs, .nil⟩
    · obtain ⟨hr', hcarries, hsends, hstep, hafter⟩ := hrest
      refine Or.inr ⟨before, turn, after ++ [move], u', v', ?_, hr', hcarries, hsends, hstep,
        hafter.snoc hs⟩
      rw [ht, queryTurns_snoc, List.cons_append]

lemma Run.sole_send (h : Run admits s more t) {q : Query τ} {call : Call κ τ}
    (hc : s.Carries n ⟨q, 0, {call}⟩)
    (he : ∀ sent ∈ s.sends, sent.query = n → s.gate.hasEnded sent.generation = true) :
    let cancelled : Answer τ ν := .failure (.transport .cancelled) call
    queryTurns more n = [] ∧ t.Carries n ⟨q, 0, {call}⟩ ∨
      ∃ rest f', queryTurns more n = .answered call cancelled (q.receive call cancelled).2 :: rest ∧
        Flight.Run (admitted admits n) (Flight.settle ⟨q, 0, {call}⟩ call cancelled 0) rest f' ∧
        t.Carries n f' := by
  intro cancelled
  rcases h.first_turn hc with
    ⟨hquiet, hcarries, -⟩ | ⟨before, turn, after, u, v, ht, hr, hu, hsends, hstep, hafter⟩
  · exact Or.inl ⟨hquiet, hcarries⟩
  refine Or.inr ?_
  -- No task belongs to the query, so its first turn answers the call.
  have hnotask (task : ℕ × Task κ τ) (rest : Multiset (ℕ × Task κ τ)) (hm : task.1 = n)
      (htasks : u.tasks = task ::ₘ rest) : False := by
    have hself : taskOf n task = some task.2 := if_pos hm
    have hzero := hu.tasks
    rw [htasks, Multiset.filterMap_cons_some _ _ _ hself] at hzero
    exact Multiset.cons_ne_zero hzero
  generalize hmove : Move.turned n turn = move at hstep
  cases hstep with
  | launch => simp at hmove
  | cancel => simp at hmove
  | @begin m task rest htasks =>
    obtain ⟨rfl, -⟩ := Move.turned.inj hmove
    exact (hnotask (n, task) rest rfl htasks).elim
  | @answer sent rest answer hcalls hresolves =>
    obtain ⟨hn, rfl⟩ := Move.turned.inj hmove
    have hmem : sent ∈ u.sendsOf n :=
      Multiset.mem_filter.mpr ⟨by rw [hcalls]; exact Multiset.mem_cons_self _ _, hn.symm⟩
    rw [hsends] at hmem
    obtain ⟨hsent, -⟩ := Multiset.mem_filter.mp hmem
    have hended := hasEnded_mono hr.generation_le (he sent hsent hn.symm)
    rw [Resolves, if_pos hended] at hresolves
    subst hresolves
    obtain ⟨m, g, call'⟩ := sent
    obtain rfl : n = m := hn
    obtain ⟨others, hothers, heffects, hcarries⟩ :=
      hu.settle_self hcalls (.failure (.transport .cancelled) call' : Answer τ ν)
    obtain ⟨rfl, rfl⟩ := (Multiset.singleton_eq_cons_iff _).mp hothers
    obtain ⟨f', hf', hrun⟩ := hafter.carries_on hcarries
    refine ⟨_, f', ?_, hrun, hf'⟩
    rw [ht, heffects]

end Runs

end Traffic

end LedgerQuery
