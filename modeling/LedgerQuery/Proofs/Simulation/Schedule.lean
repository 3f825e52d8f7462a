import LedgerQuery.Proofs.Simulation.Pending

/-! A simulation follows one of the schedules. Whatever it does on virtual time, what waits in it to
be run or answered moves as the traffic of its queries can move. -/

namespace LedgerQuery

variable {σ κ τ ν : Type}

namespace Simulation

section Steps

variable {svc : Service σ κ τ ν} {kept : σ → Prop} {admits : ℕ → Call κ τ → Answer τ ν → Prop}
  {s : Simulation σ κ τ ν} {n g : ℕ} {call next : Call κ τ}
  {answer : Answer τ ν}

lemma settle_run (h : Orderly kept admits s)
    (hr : s.traffic.Resolves admits ⟨n, g, call⟩ answer) :
    Orderly kept admits (s.settle n call answer).1 ∧
      ∃ move : Move κ τ ν, move.launch? = none ∧
        Traffic.Run admits (s.traffic.sending ⟨n, g, call⟩) [move]
          ((s.settle n call answer).2.elim (s.settle n call answer).1.traffic
            ((s.settle n call answer).1.traffic.calling n)) := by
  obtain ⟨honward, hk, ht⟩ := keeps_settle h.room n call answer
  refine ⟨h.keeps hk, .turned n (.answered call answer (s.roster.receive n call answer).2), rfl, ?_⟩
  have hrun := (Traffic.Run.nil (s := s.traffic.sending ⟨n, g, call⟩)).answer ⟨n, g, call⟩
    s.traffic.sends answer rfl hr
  rw [Traffic.settle_sending] at hrun
  rw [honward, ht]
  exact hrun

def Follows (kept : σ → Prop) (admits : ℕ → Call κ τ → Answer τ ν → Prop) (t : Traffic κ τ)
    (s : Simulation σ κ τ ν) : Prop :=
  Orderly kept admits s ∧ ∃ moves : List (Move κ τ ν), Traffic.launches moves = [] ∧
    Traffic.Run admits t moves s.traffic

def goOn (svc : Service σ κ τ ν) (n fuel : ℕ) :
    Simulation σ κ τ ν × Option (Call κ τ) → Simulation σ κ τ ν
  | (s, none) => s
  | (s, some onward) => perform svc n fuel s onward

lemma roster_onward {r : Roster τ} (h : (r.receive n call answer).2.onward = some next) :
    call = .create ∧ next = .lookup := by
  cases hq : r.queries[n]? with
  | none => simp [Roster.receive, hq] at h
  | some q =>
    simp only [Roster.receive, hq] at h
    obtain ⟨hcall, hnext, -⟩ := Query.receive_onward h
    exact ⟨hcall, hnext⟩

def following : Call κ τ → ℕ
  | .create => 1
  | _ => 0

lemma following_lt (call : Call κ τ) : following call < callsInARow := by
  cases call <;> simp [following, callsInARow]

lemma suspend_orderly (h : Orderly kept admits s) (n : ℕ) (call : Call κ τ) (reply : Reply τ ν)
    (hr : ∀ answer, reply.answer = some answer → admits n call answer) :
    Orderly kept admits (s.suspend n call reply) ∧
      (s.suspend n call reply).traffic = s.traffic.sending ⟨n, s.gate.generation, call⟩ := by
  let w : Waiting κ τ ν := ⟨s.numbered, s.gate.generation, n, call, reply.answer⟩
  let waits : Simulation σ κ τ ν :=
    { s with numbered := s.numbered + 1, waiting := s.waiting ++ [w] }
  have hmem {v : Waiting κ τ ν} (hv : v ∈ s.waiting ++ [w]) : v ∈ s.waiting ∨ v = w := by
    simpa using hv
  have hw : Orderly kept admits waits := by
    refine ⟨h.service, h.room, ?_, ?_, ?_⟩
    · change ((s.waiting ++ [w]).map (·.ticket)).Nodup
      rw [List.map_append, List.nodup_append]
      refine ⟨h.tickets, by simp, fun i hi j hj hij => ?_⟩
      obtain ⟨v, hv, rfl⟩ := List.mem_map.mp hi
      obtain rfl : j = s.numbered := by simpa [w] using hj
      exact absurd hij (h.fresh v hv).ne
    · intro v hv
      rcases hmem hv with hv | rfl
      · exact (h.fresh v hv).trans (Nat.lt_succ_self _)
      · exact Nat.lt_succ_self _
    · intro v hv answer ha
      rcases hmem hv with hv | rfl
      · exact h.answers v hv answer ha
      · exact hr answer ha
  have ht : waits.traffic = s.traffic.sending ⟨n, s.gate.generation, call⟩ := by
    have hperm : ((s.waiting ++ [w]).map Waiting.sent).Perm
        (w.sent :: s.waiting.map Waiting.sent) := by
      rw [List.map_append]
      exact List.perm_append_singleton _ _
    simp only [traffic, Traffic.sending, waits]
    rw [Multiset.coe_eq_coe.mpr hperm]
    rfl
  cases ha : reply.answer with
  | none =>
    have hs : s.suspend n call reply = waits := by
      simp only [suspend, waits, w]
      rw [ha]
    rw [hs]
    exact ⟨hw, ht⟩
  | some answer =>
    have hs : s.suspend n call reply =
        waits.enter (s.now + reply.delay) (.arrive s.numbered) := by
      simp only [suspend, waits, w]
      rw [ha]
    rw [hs, traffic_enter_of_none _ _ rfl]
    exact ⟨hw.keeps (keeps_enter waits _ _), ht⟩

lemma goOn_run {fuel : ℕ} (h : Orderly kept admits s)
    (hr : s.traffic.Resolves admits ⟨n, g, call⟩ answer)
    (hp : ∀ next t, call = .create → next = .lookup → Orderly kept admits t →
      Follows kept admits (t.traffic.calling n next) (perform svc n fuel t next)) :
    Follows kept admits (s.traffic.sending ⟨n, g, call⟩)
      (goOn svc n fuel (s.settle n call answer)) := by
  obtain ⟨ho, move, hmove, hrun⟩ := settle_run h hr
  have honward := (keeps_settle h.room n call answer).1
  generalize s.settle n call answer = settled at ho hrun honward
  obtain ⟨t, onward⟩ := settled
  cases onward with
  | none => exact ⟨ho, [move], by simp [Traffic.launches, hmove], hrun⟩
  | some next =>
    obtain ⟨hcall, hnext⟩ := roster_onward honward.symm
    obtain ⟨ho, moves, hmoves, hrest⟩ := hp next t hcall hnext ho
    refine ⟨ho, move :: moves, ?_, hrun.trans hrest⟩
    simpa [Traffic.launches, hmove] using hmoves

lemma perform_follows (hsvc : Serves svc kept admits) (n fuel : ℕ) (s : Simulation σ κ τ ν)
    (call : Call κ τ) (h : Orderly kept admits s) (hf : following call < fuel) :
    Follows kept admits (s.traffic.calling n call) (perform svc n fuel s call) := by
  induction fuel generalizing s call with
  | zero => omega
  | succ fuel ih =>
    cases hask : svc.ask s.service s.now n call with
    | mk service reply =>
      let begun : Simulation σ κ τ ν :=
        { ({ s with roster := s.roster.begin n call } : Simulation σ κ τ ν).record
            (.called n call) with service }
      have hservice := hsvc.stays h.service s.now n call
      have hanswers := hsvc.answers h.service s.now n call
      rw [hask] at hservice hanswers
      have hbegun : Orderly kept admits begun :=
        ⟨hservice, h.room, h.tickets, h.fresh, h.answers⟩
      have hsuspended :
          Follows kept admits (s.traffic.calling n call) (begun.suspend n call reply) := by
        obtain ⟨hsuspend, htraffic⟩ := suspend_orderly hbegun n call reply hanswers
        refine ⟨hsuspend, [], rfl, ?_⟩
        rw [htraffic]
        exact .nil
      have hsettled (answer : Answer τ ν) (ha : reply.answer = some answer) :
          Follows kept admits (s.traffic.calling n call)
            (goOn svc n fuel (begun.settle n call answer)) := by
        refine goOn_run hbegun (begun.traffic.resolves_current (hanswers answer ha)) ?_
        rintro next t rfl rfl ht
        exact ih t .lookup ht (Nat.lt_of_succ_lt_succ hf)
      simp only [perform, record, hask]
      cases ha : reply.answer with
      | none => exact hsuspended
      | some answer =>
        simp only
        split_ifs
        · exact hsettled answer ha
        · exact hsuspended

lemma Follows.trans {t : Traffic κ τ} {u : Simulation σ κ τ ν} (h : Follows kept admits t s)
    (h' : Follows kept admits s.traffic u) : Follows kept admits t u := by
  obtain ⟨-, moves, hmoves, hrun⟩ := h
  obtain ⟨hu, more, hmore, hrun'⟩ := h'
  refine ⟨hu, moves ++ more, ?_, hrun.trans hrun'⟩
  rw [Traffic.launches_append, hmoves, hmore, List.append_nil]

lemma Orderly.follows (h : Orderly kept admits s) {t : Traffic κ τ} (ht : s.traffic = t) :
    Follows kept admits t s := by
  subst ht
  exact ⟨h, [], rfl, .nil⟩

lemma perm_of_find? {waiting : List (Waiting κ τ ν)} {w : Waiting κ τ ν} {ticket : ℕ}
    (hn : (waiting.map (·.ticket)).Nodup) (hw : waiting.find? (·.ticket == ticket) = some w) :
    waiting.Perm (w :: waiting.filter (·.ticket != ticket)) := by
  induction waiting with
  | nil => simp at hw
  | cons v rest ih =>
    rw [List.map_cons, List.nodup_cons] at hn
    by_cases hv : v.ticket = ticket
    · obtain rfl : v = w := by simpa [hv] using hw
      have hrest : rest.filter (·.ticket != ticket) = rest := by
        refine List.filter_eq_self.mpr fun u hu => ?_
        have hne : u.ticket ≠ ticket := fun hut => hn.1 (by
          rw [hv, ← hut]
          exact List.mem_map_of_mem hu)
        simpa using hne
      rw [List.filter_cons_of_neg (by simp [hv]), hrest]
    · rw [List.find?_cons_of_neg (by simpa using hv)] at hw
      rw [List.filter_cons_of_pos (by simpa using hv)]
      exact ((ih hn.2 hw).cons v).trans (List.Perm.swap w v _)

lemma queued_of_isArrival {ticket : ℕ} {e : Entry (Action κ τ)} (h : isArrival ticket e) :
    queued e = none := by
  obtain ⟨due, number, action⟩ := e
  cases action with
  | run n task => simp [isArrival] at h
  | arrive t => rfl
  | nudge t => rfl

lemma queued_filter (ticket : ℕ) (agenda : List (Entry (Action κ τ))) :
    (agenda.filter fun e => !isArrival ticket e).filterMap queued = agenda.filterMap queued := by
  induction agenda with
  | nil => rfl
  | cons e agenda ih =>
    by_cases h : isArrival ticket e
    · rw [List.filter_cons_of_neg (by simp [h]), ih,
        List.filterMap_cons_none (queued_of_isArrival h)]
    · rw [List.filter_cons_of_pos (by simp [h]), List.filterMap_cons, List.filterMap_cons, ih]

lemma resume_follows (hsvc : Serves svc kept admits) (h : Orderly kept admits s) (ticket : ℕ) :
    Follows kept admits s.traffic (resume svc s ticket) := by
  unfold resume
  cases hw : s.waiting.find? (·.ticket == ticket) with
  | none => exact h.follows rfl
  | some w =>
    have hperm := perm_of_find? h.tickets hw
    have hmem : w ∈ s.waiting := List.mem_of_find?_eq_some hw
    let left : Simulation σ κ τ ν := { s with waiting := s.waiting.filter (·.ticket != ticket) }
    have hleft : Orderly kept admits left := by
      have hsub : left.waiting.Sublist s.waiting := List.filter_sublist
      refine ⟨h.service, h.room, h.tickets.sublist (hsub.map _), fun v hv => ?_, fun v hv => ?_⟩
      · exact h.fresh v (hsub.subset hv)
      · exact h.answers v (hsub.subset hv)
    have htraffic : s.traffic = left.traffic.sending ⟨w.query, w.generation, w.call⟩ := by
      simp only [traffic, Traffic.sending, left]
      rw [Multiset.coe_eq_coe.mpr (hperm.map Waiting.sent)]
      rfl
    have hgoes (t : Simulation σ κ τ ν) (ht : Orderly kept admits t) (hs : t.traffic = left.traffic)
        (answer : Answer τ ν)
        (hr : t.traffic.Resolves admits ⟨w.query, w.generation, w.call⟩ answer) :
        Follows kept admits s.traffic
          (goOn svc w.query callsInARow (t.settle w.query w.call answer)) := by
      rw [htraffic, ← hs]
      refine goOn_run ht hr ?_
      rintro next u - rfl hu
      exact perform_follows hsvc w.query callsInARow u .lookup hu (following_lt .lookup)
    simp only
    split_ifs with hended
    · let told : Simulation σ κ τ ν :=
        ({ left with agenda := s.agenda.filter fun e => !isArrival ticket e } :
          Simulation σ κ τ ν).note (svc.cancelNotes w.query s.service w.call)
      have htold : told.traffic = left.traffic := by
        simp only [traffic, note, queued_filter, told, left]
      refine hgoes told (hleft.keeps ⟨rfl, rfl, rfl, le_rfl⟩) htold
        (.failure (.transport .cancelled) w.call) ?_
      rw [htold]
      simp [Traffic.Resolves, traffic, left, hended]
    · cases ha : w.answer with
      | none => exact h.follows rfl
      | some answer =>
        refine hgoes left hleft rfl answer ?_
        have hadmits := h.answers w hmem answer ha
        simpa [Traffic.Resolves, traffic, left, hended] using hadmits

lemma step_follows (hsvc : Serves svc kept admits) {e : Entry (Action κ τ)}
    {rest : List (Entry (Action κ τ))} (h : Orderly kept admits s) (hs : s.agenda = e :: rest) :
    Follows kept admits s.traffic (step svc { s with agenda := rest } e) := by
  obtain ⟨due, number, action⟩ := e
  let due : Simulation σ κ τ ν := { s with agenda := rest, now := due }
  have hdue : Orderly kept admits due := h.keeps ⟨rfl, rfl, rfl, le_rfl⟩
  have habandon {t : Simulation σ κ τ ν} (ht : Follows kept admits s.traffic t) :
      Follows kept admits s.traffic t.abandon := by
    obtain ⟨hk, htraffic⟩ := keeps_abandon t
    exact ht.trans ((ht.1.keeps hk).follows htraffic)
  refine habandon ?_
  cases action with
  | run n task =>
    have htraffic : s.traffic = due.traffic.adding {(n, task)} := by
      simp only [traffic, hs]
      rfl
    have hrun : Traffic.Run admits (due.traffic.adding {(n, task)}) _ _ :=
      Traffic.Run.nil.begin n task due.traffic.tasks (Multiset.singleton_add _ _)
    obtain ⟨ho, moves, hmoves, hrest⟩ :=
      perform_follows hsvc n callsInARow due task.call hdue (following_lt task.call)
    rw [htraffic]
    refine ⟨ho, _, ?_, hrun.trans hrest⟩
    simpa [Traffic.launches, Move.launch?] using hmoves
  | arrive ticket =>
    have htraffic : s.traffic = due.traffic := by
      simp only [traffic, hs]
      rfl
    rw [htraffic]
    exact resume_follows hsvc hdue ticket
  | nudge ticket =>
    have htraffic : s.traffic = due.traffic := by
      simp only [traffic, hs]
      rfl
    rw [htraffic]
    exact resume_follows hsvc hdue ticket

lemma popDue_eq_some {limit : Option Span} {agenda rest : List (Entry (Action κ τ))}
    {e : Entry (Action κ τ)} (h : Agenda.popDue limit agenda = some (e, rest)) :
    agenda = e :: rest := by
  cases agenda with
  | nil => simp [Agenda.popDue] at h
  | cons f agenda =>
    unfold Agenda.popDue at h
    cases limit with
    | none => simpa using h
    | some t =>
      simp only at h
      split_ifs at h
      simpa using h

lemma runEntries_follows (hsvc : Serves svc kept admits) (limit : Option Span) (count fuel : ℕ)
    (s : Simulation σ κ τ ν) (h : Orderly kept admits s) :
    Follows kept admits s.traffic (runEntries svc limit count fuel s).2 := by
  induction fuel generalizing count s with
  | zero => exact h.follows rfl
  | succ fuel ih =>
    unfold runEntries
    cases hpop : Agenda.popDue limit s.agenda with
    | none => exact h.follows rfl
    | some popped =>
      obtain ⟨e, rest⟩ := popped
      have hstep := step_follows hsvc h (popDue_eq_some hpop)
      exact hstep.trans (ih _ _ hstep.1)

end Steps

section Sessions

variable {svc : Service σ κ τ ν} {kept : σ → Prop} {admits : ℕ → Call κ τ → Answer τ ν → Prop}
  {s : Simulation σ κ τ ν}

lemma run_follows (hsvc : Serves svc kept admits) (h : Orderly kept admits s) (most : Option ℕ) :
    Follows kept admits s.traffic (run svc s most).2 :=
  runEntries_follows hsvc none 0 _ s h

lemma advance_follows (hsvc : Serves svc kept admits) (h : Orderly kept admits s) (span : Span) :
    Follows kept admits s.traffic (advance svc s span).2 := by
  have hrun := runEntries_follows hsvc (some (s.now + span)) 0 s.credit s h
  have hadvance : (advance svc s span).2 =
      { (runEntries svc (some (s.now + span)) 0 s.credit s).2 with now := s.now + span } := rfl
  rw [hadvance]
  refine hrun.trans (Orderly.follows ?_ rfl)
  exact hrun.1.keeps ⟨rfl, rfl, rfl, le_rfl⟩

lemma launch_follows (h : Orderly kept admits s) (l : Launch κ τ) :
    Orderly kept admits (s.launch l) ∧ (s.launch l).traffic = s.traffic.launch l := by
  let noted : Simulation σ κ τ ν :=
    ({ s with
      roster := s.roster.launch l
      awaited := s.awaited ++ [s.roster.queries.length] } : Simulation σ κ τ ν).note l.notes.events
  have hnoted : Orderly kept admits noted := h.keeps ⟨rfl, rfl, rfl, le_rfl⟩
  obtain ⟨hk, ht⟩ := keeps_hand hnoted.room s.roster.queries.length l.submitted l.scheduled
  exact ⟨hnoted.keeps hk, ht⟩

lemma cancelAll_follows (h : Orderly kept admits s) :
    Orderly kept admits s.cancelAll ∧ s.cancelAll.traffic = s.traffic.cancelAll := by
  have hnudges (t : Simulation σ κ τ ν) (waiting : List (Waiting κ τ ν)) :
      let nudged := waiting.foldl (fun s w => s.enter s.now (.nudge w.ticket)) t
      Keeps t nudged ∧ nudged.traffic = t.traffic := by
    induction waiting generalizing t with
    | nil => exact ⟨.refl t, rfl⟩
    | cons w waiting ih =>
      obtain ⟨hk, ht⟩ := ih (t.enter t.now (.nudge w.ticket))
      exact ⟨(keeps_enter t _ _).trans hk, ht.trans (traffic_enter_of_none t t.now rfl)⟩
  let ended : Simulation σ κ τ ν :=
    ({ s with gate := s.gate.cancelAll } : Simulation σ κ τ ν).note [Gate.cancelNote]
  have hended : Orderly kept admits ended := h.keeps ⟨rfl, rfl, rfl, le_rfl⟩
  obtain ⟨hk, ht⟩ := hnudges ended (s.waiting.filter fun w => !s.gate.hasEnded w.generation)
  exact ⟨hended.keeps hk, ht⟩

lemma Orderly.serve {kept' : σ → Prop} {admits' : ℕ → Call κ τ → Answer τ ν → Prop}
    (h : Orderly kept admits s) {service : σ} (hs : kept' service)
    (ha : ∀ n call answer, admits n call answer → admits' n call answer) :
    Orderly kept' admits' { s with service } :=
  ⟨hs, h.room, h.tickets, h.fresh, fun w hw answer hw' => ha _ _ _ (h.answers w hw answer hw')⟩

end Sessions

end Simulation

end LedgerQuery
