import LedgerQuery.Proofs.Traffic.Counting

/-! Queries that have run out of patience. It happens in two places: with the last probe of a retry
loop, which is counted, and with the lookup of what should exist already, which is not. -/

namespace LedgerQuery

variable {κ τ ν : Type}

def exhausted {α : Type} : Outcome α → Bool
  | .error e => e.kind = .retryExhausted
  | .ok _ => false

@[simp] lemma exhausted_map {α β : Type} (f : α → β) (o : Outcome α) :
    exhausted (o.map f) = exhausted o := by
  cases o <;> rfl

def Drain.Rules.Plain (r : Drain.Rules τ) : Prop := ∀ items, exhausted (r.validate items) = false

def Answer.exhausted : Answer τ ν → Bool
  | page a => LedgerQuery.exhausted a
  | probe a => LedgerQuery.exhausted a

def Call.FitsPlainly (call : Call κ τ) (answer : Answer τ ν) : Prop :=
  call.Fits answer ∧ answer.exhausted = false

def Turn.unseen : Turn κ τ ν → Bool
  | answered .lookup (.probe (.ok none)) _ => true
  | _ => false

namespace Drain

variable {r : Rules τ}

lemma exhausted_objection {seen : List Cursor} {pages : ℕ} {empty : Bool} {next : Cursor}
    {e : QueryError} (h : objection r seen pages empty next = some e) : e.kind = .protocol := by
  unfold objection at h
  split_ifs at h <;> obtain rfl := Option.some.inj h <;> rfl

lemma exhausted_finished (hr : r.Plain) {a : Outcome (Page τ)} (ha : exhausted a = false)
    {index : ℕ} {p : Progress τ} {o : Outcome (List τ)}
    (h : (receive r index p a).1 = .finished o) : exhausted o = false := by
  cases a with
  | error e =>
    obtain rfl : .error e = o := Step.finished.inj h
    exact ha
  | ok page =>
    cases hn : page.next with
    | none =>
      simp only [receive, hn] at h
      obtain rfl := Step.finished.inj h
      have hitems := hr (p.items ++ page.items)
      unfold close
      cases hv : r.validate (p.items ++ page.items) with
      | ok u => rfl
      | error e =>
        rw [hv] at hitems
        exact hitems
    | some next =>
      cases ho : objection r p.seen (p.pages + 1) page.items.isEmpty next with
      | none => simp [receive, hn, ho] at h
      | some e =>
        simp only [receive, hn, ho] at h
        obtain rfl := Step.finished.inj h
        simp [exhausted, exhausted_objection ho]

end Drain

lemma Coordinator.exhausted_delivered {c : Coordinator τ} {s : Signal τ}
    (hs : exhausted s.outcome = false) {o : Outcome (List τ)}
    (h : (c.receive s).delivered = some o) : exhausted o = false := by
  rcases receive_cases c s with ⟨hd, -⟩ | ⟨i, e, rfl, hd, -⟩ | ⟨items?, hd, -⟩
  · rw [hd] at h
    cases h
  · obtain rfl : .error e = o := Option.some.inj (hd.symm.trans h)
    exact hs
  · obtain ⟨items, -, rfl⟩ := Option.map_eq_some_iff.mp (hd.symm.trans h)
    rfl

lemma Retry.exhausted_finished {label : String} {b : RetryBudget} {a : Outcome (Option ν)}
    {state : RetryState} {o : Outcome ν} (h : (receive label b a).1 = .finished state o) :
    exhausted o = !o.isOk := by
  have hmiss (h : (afterMiss label b : Step ν × Notes).1 = .finished state o) :
      exhausted o = !o.isOk := by
    unfold afterMiss RetryBudget.spend at h
    split_ifs at h
    obtain ⟨-, rfl⟩ := Step.finished.inj h
    rfl
  rcases a with e | _ | value
  · exact hmiss h
  · exact hmiss h
  · obtain ⟨-, rfl⟩ := Step.finished.inj h
    rfl

namespace Query

open Flight

variable {q : Query τ} {call : Call κ τ} {answer : Answer τ ν}

lemma exhausted_page (hr : ∀ r ∈ q.rules?, r.Plain) (c : Chunk κ) (p : Drain.Progress τ)
    {a : Outcome (Page τ)} (ha : exhausted a = false) :
    (q.receive (.page c p) (.page a) : Query τ × Effects κ τ ν).2.delivered.any exhausted =
      false := by
  cases hp : q.plan with
  | probing policy delay state => simp [receive, receivePage, hp]
  | single rules =>
    have hq : q.rules? = some rules := by simp [rules?, hp]
    cases hd : (Drain.receive rules c.index p a).1 with
    | follow p' => rw [receive_follow hq hd]; rfl
    | finished o =>
      rw [(receive_finish_single hp hd).2.2.2.2]
      simp [Drain.exhausted_finished (hr rules hq) ha hd]
  | chunked rules coordinator =>
    have hq : q.rules? = some rules := by simp [rules?, hp]
    cases hd : (Drain.receive rules c.index p a).1 with
    | follow p' => rw [receive_follow hq hd]; rfl
    | finished o =>
      rw [(receive_finish_chunked hp hd).2.2.2.2]
      cases hreaction : (coordinator.receive (.report c.index o)).delivered with
      | none => rfl
      | some outcome =>
        have hsignal : exhausted (Signal.report c.index o).outcome = false := by
          rw [Signal.outcome_report]
          exact Drain.exhausted_finished (hr rules hq) ha hd
        simp [Coordinator.exhausted_delivered hsignal hreaction]

lemma exhausted_probe (q : Query τ) (budget : RetryBudget) (a : Outcome (Option ν)) :
    let effects := (q.receive (.probe budget) (.probe a) : Query τ × Effects κ τ ν).2
    effects.delivered.any exhausted = effects.delivered.any fun o => !o.isOk := by
  cases hp : q.plan with
  | chunked rules coordinator => simp [receive, receiveProbe, hp]
  | single rules => simp [receive, receiveProbe, hp]
  | probing policy delay state =>
    simp only [receive, receiveProbe, hp]
    cases hd : Retry.receive q.label budget a with
    | mk step notes =>
      cases step with
      | again delay b => rfl
      | finished state' o =>
        have hend := Retry.exhausted_finished (congrArg Prod.fst hd)
        simp [deliver, hend]

lemma exhausted_create (q : Query τ) {a : Outcome (Option ν)} (ha : exhausted a = false) :
    (q.receive .create (.probe a) : Query τ × Effects κ τ ν).2.delivered.any exhausted = false := by
  cases hp : q.plan with
  | chunked rules coordinator => simp [receive, receiveCreate, hp]
  | single rules => simp [receive, receiveCreate, hp]
  | probing policy delay state =>
    simp only [receive, receiveCreate, hp]
    cases a with
    | ok found => rfl
    | error e =>
      cases e with
      | submission reason => rfl
      | _ => exact ha

lemma exhausted_receive (hr : ∀ r ∈ q.rules?, r.Plain) (hfits : call.Fits answer)
    (ha : answer.exhausted = false) :
    let effects := (q.receive call answer).2
    let turn := Turn.answered call answer effects
    effects.delivered.any exhausted = (turn.gaveUp || turn.unseen) := by
  cases answer with
  | page a =>
    cases call with
    | page c p => exact exhausted_page hr c p ha
    | probe budget => exact hfits.elim
    | create => exact hfits.elim
    | lookup => exact hfits.elim
  | probe a =>
    cases call with
    | page c p => exact hfits.elim
    | probe budget =>
      exact (exhausted_probe q budget a).trans (Bool.or_false _).symm
    | create => exact exhausted_create q ha
    | lookup =>
      rcases a with e | _ | value
      · exact ha
      · rfl
      · rfl

end Query

def Turn.Ends (turn : Turn κ τ ν) : Prop :=
  turn.delivered.toList.countP exhausted = turn.gaveUp.toNat + turn.unseen.toNat

namespace Flight

variable {turns : List (Turn κ τ ν)} {turn : Turn κ τ ν} {s t : Flight κ τ}

lemma ends_of_any (h : turn.delivered.any exhausted = (turn.gaveUp || turn.unseen)) :
    turn.Ends := by
  -- The last probe and the lookup are different calls.
  have hone : (turn.gaveUp && turn.unseen) = false := by
    cases turn with
    | begun call => rfl
    | answered call answer effects => cases call <;> simp [Turn.gaveUp, Turn.unseen]
  have hcount : turn.delivered.toList.countP exhausted = (turn.delivered.any exhausted).toNat := by
    cases turn.delivered with
    | none => rfl
    | some o => cases ho : exhausted o <;> simp [ho]
  rw [Turn.Ends, hcount, h]
  cases hg : turn.gaveUp <;> cases hu : turn.unseen <;> simp [hg, hu] at hone ⊢

lemma Step.ends (hr : ∀ r ∈ s.query.rules?, r.Plain) (hs : Step Call.FitsPlainly s turn t) :
    turn.Ends := by
  cases hs with
  | begin _ => rfl
  | @answer call rest answer _ hadmits =>
    exact ends_of_any (Query.exhausted_receive hr hadmits.1 hadmits.2)

lemma Run.ends (hr : ∀ r ∈ s.query.rules?, r.Plain) (h : Run Call.FitsPlainly s turns t) :
    (∀ turn ∈ turns, turn.Ends) ∧ t.query.rules? = s.query.rules? := by
  induction h with
  | nil => exact ⟨by simp, rfl⟩
  | snoc _ hs ih =>
    obtain ⟨hall, hrules⟩ := ih
    refine ⟨fun turn hturn => ?_, hs.continues.1.trans hrules⟩
    rcases List.mem_append.mp hturn with hturn | hturn
    · exact hall turn hturn
    · rw [List.mem_singleton.mp hturn]
      exact hs.ends (hrules ▸ hr)

lemma countP_exhausted (h : ∀ turn ∈ turns, turn.Ends) :
    (deliveries turns).countP exhausted =
      turns.countP Turn.gaveUp + turns.countP Turn.unseen := by
  induction turns using List.reverseRecOn with
  | nil => rfl
  | append_singleton turns turn ih =>
    have hrest := ih fun other hmem => h other (List.mem_append_left _ hmem)
    have hlast : turn.Ends := h turn (by simp)
    rw [deliveries_snoc, List.countP_append, List.countP_append, List.countP_append, hrest, hlast]
    rw [List.countP_singleton, List.countP_singleton]
    cases turn.gaveUp <;> cases turn.unseen <;> simp <;> omega

end Flight

def Submission.rules? : Submission κ τ → Option (Drain.Rules τ)
  | bulk _ _ _ rules => some rules
  | paged _ rules => some rules
  | _ => none

lemma Submission.rules_launch {submission : Submission κ τ} {l : Launch κ τ}
    (h : submission.launch = .ok l) : l.query.rules? = submission.rules? := by
  cases submission with
  | bulk label keys size r =>
    obtain ⟨chunks, -, rfl⟩ := Flight.chunked_eq_ok.mp h
    rfl
  | paged label r =>
    obtain rfl := Except.ok.inj h
    rfl
  | retrying label policy delay =>
    obtain rfl := Except.ok.inj h
    rfl
  | creating label policy delay =>
    obtain rfl := Except.ok.inj h
    rfl

namespace Traffic

open Flight Finset

variable {asked accepted : List (Submission κ τ)} {moves : List (Move κ τ ν)} {s : Traffic κ τ}

lemma admitted_plainly {n : ℕ} {call : Call κ τ} {answer : Answer τ ν}
    (h : admitted (fun _ => Call.FitsPlainly) n call answer) : call.FitsPlainly answer := by
  rcases h with h | rfl
  · exact h
  · cases call <;> exact ⟨trivial, rfl⟩

lemma ends_of_accepted (hr : Run (fun _ => Call.FitsPlainly) {} moves s)
    (ha : Accepted accepted moves)
    (hp : ∀ submission ∈ accepted, ∀ r ∈ submission.rules?, r.Plain) :
    ∀ turn ∈ turns moves, turn.Ends := by
  intro turn hturn
  obtain ⟨n, hn, hmem⟩ := mem_queryTurns hr.coherent hturn
  have hn' : n < accepted.length := ha.length_eq ▸ hn
  obtain ⟨f, -, hflight⟩ := hr.carries (List.getElem?_eq_getElem hn)
  have hlaunch : accepted[n].launch = .ok (launches moves)[n] := ha.get hn' hn
  have hrules : ∀ r ∈ (launches moves)[n].query.rules?, r.Plain := by
    rw [Submission.rules_launch hlaunch]
    exact hp _ (List.getElem_mem hn')
  exact ((hflight.mono fun _ _ => admitted_plainly).ends hrules).1 turn hmem

/-- The counter of exhausted retries tells how many queries have run out of patience, save those
that ended with a lookup in vain. -/
theorem exhaustion_counted (hr : Run (fun _ => Call.FitsPlainly) {} moves s)
    (hl : launches moves = asked.filterMap fun submission => submission.launch.toOption)
    (hp : ∀ submission ∈ asked, ∀ r ∈ submission.rules?, r.Plain) (hm : moves.length < 2 ^ 64) :
    let accepted := asked.filter fun submission => submission.launch.isOk
    s.roster.counters.exhausted.toNat + (turns moves).countP Turn.unseen =
      #{n : Fin accepted.length | (deliveries (queryTurns moves n)).any exhausted} := by
  intro accepted
  have ha : Accepted accepted moves := accepted_of_asked hl
  have hfits : Run (fun _ => Call.Fits) {} moves s := hr.mono fun _ _ _ h => h.1
  have hvalue := value_of_happened hfits ha hm .retryExhausted rfl
  have hends : ∀ turn ∈ turns moves, turn.Ends :=
    ends_of_accepted hr ha fun submission hmem => hp submission (List.mem_filter.mp hmem).1
  have hcounter : s.roster.counters.exhausted.toNat = (turns moves).countP Turn.gaveUp := by
    simpa [Count.happened, Counters.value] using hvalue
  rw [← countP_of_accepted hfits ha, countP_exhausted hends, hcounter]

theorem exhaustion_counted_once_of_twice :
    ∃ (asked : List (Submission ℕ ℕ)) (moves : List (Move ℕ ℕ Unit)) (s : Traffic ℕ ℕ),
      Run (fun _ => Call.FitsPlainly) {} moves s ∧
      launches moves = asked.filterMap (fun submission => submission.launch.toOption) ∧
      (∀ submission ∈ asked, ∀ r ∈ submission.rules?, r.Plain) ∧ moves.length < 2 ^ 64 ∧
      s.roster.counters.exhausted = 1 ∧ (turns moves).countP Turn.unseen = 1 ∧
      let accepted := asked.filter fun submission => submission.launch.isOk
      s.roster.counters.exhausted.toNat + (turns moves).countP Turn.unseen =
        #{n : Fin accepted.length | (deliveries (queryTurns moves n)).any exhausted} := by
  let asked : List (Submission ℕ ℕ) :=
    [.retrying "retry" .single none, .creating "create" .standard .zero]
  let retrying : Launch ℕ ℕ := .retrying "retry" .single none
  let creating : Launch ℕ ℕ := .createAndAwait "create" .standard .zero
  have hasked : [retrying, creating] =
      asked.filterMap fun submission => submission.launch.toOption := rfl
  have hplain : ∀ submission ∈ asked, ∀ r ∈ submission.rules?, r.Plain := by
    simp [asked, Submission.rules?]
  let probe : RetryBudget := RetryPolicy.single.budget
  have h₀ : Run (fun _ => Call.FitsPlainly) {} ([] : List (Move ℕ ℕ Unit)) {} := .nil
  have h₁ := h₀.launch retrying
  have h₂ := h₁.begin 0 (.probe probe) 0 rfl
  have h₃ := h₂.launch creating
  have h₄ := h₃.begin 1 .create 0 rfl
  have h₅ := h₄.answer ⟨1, 0, .create⟩ {⟨0, 0, .probe probe.recordAttempt⟩}
    (.probe (.error (.submission "exists"))) rfl ⟨trivial, rfl⟩
  have h₆ := h₅.answer ⟨1, 0, .lookup⟩ {⟨0, 0, .probe probe.recordAttempt⟩} (.probe (.ok none))
    rfl ⟨trivial, rfl⟩
  have h₇ := h₆.answer ⟨0, 0, .probe probe.recordAttempt⟩ 0 (.probe (.ok none)) rfl ⟨trivial, rfl⟩
  obtain ⟨moves, s, hr, hl, hm, hcounter, hunseen⟩ :
      ∃ (moves : List (Move ℕ ℕ Unit)) (s : Traffic ℕ ℕ),
        Run (fun _ => Call.FitsPlainly) {} moves s ∧ launches moves = [retrying, creating] ∧
        moves.length < 2 ^ 64 ∧ s.roster.counters.exhausted = 1 ∧
        (turns moves).countP Turn.unseen = 1 := ⟨_, _, h₇, rfl, by simp, rfl, rfl⟩
  exact ⟨asked, moves, s, hr, hl.trans hasked, hplain, hm, hcounter, hunseen,
    exhaustion_counted hr (hl.trans hasked) hplain hm⟩

theorem exhaustion_uncounted_on_lookup :
    ∃ (moves : List (Move ℕ ℕ Unit)) (s : Traffic ℕ ℕ),
      Run (fun _ => Call.FitsPlainly) {} moves s ∧
      launches moves = [.createAndAwait "acc" ⟨.ofMillis 20, .ofMillis 60⟩ .zero] ∧
      deliveries (queryTurns moves 0) = [.error (.retryExhausted 1)] ∧
      s.roster.counters.exhausted = 0 := by
  have h₀ : Run (fun _ => Call.FitsPlainly) {} ([] : List (Move ℕ ℕ Unit)) {} := .nil
  have h₁ := h₀.launch (.createAndAwait "acc" ⟨.ofMillis 20, .ofMillis 60⟩ .zero)
  have h₂ := h₁.begin 0 .create 0 rfl
  have h₃ := h₂.answer ⟨0, 0, .create⟩ 0 (.probe (.error (.submission "exists"))) rfl ⟨trivial, rfl⟩
  have h₄ := h₃.answer ⟨0, 0, .lookup⟩ 0 (.probe (.ok none)) rfl ⟨trivial, rfl⟩
  exact ⟨_, _, h₄, rfl, rfl, rfl⟩

end Traffic

end LedgerQuery
