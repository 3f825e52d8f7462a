import LedgerQuery.Proofs.Flight.Draining
import LedgerQuery.Proofs.Flight.Underway

/-! Queries that do one thing at a time. As long as they have not delivered, there is one task to be
run or one call to be answered, so the answers alone tell how they go on. -/

namespace LedgerQuery

variable {κ τ ν : Type}

def Effects.size (e : Effects κ τ ν) : ℕ :=
  e.tasks.length + e.onward.toList.length + e.delivered.toList.length

namespace Query

variable {q : Query τ} {call : Call κ τ} {answer : Answer τ ν}

def Makes (q : Query τ) (call : Call κ τ) : Prop := call.chunk?.isSome = q.rules?.isSome

def Solitary (q : Query τ) : Prop := ∀ rules coordinator, q.plan ≠ .chunked rules coordinator

lemma size_receive (hq : q.Solitary) (hm : q.Makes call) (ha : call.Fits answer) :
    (q.receive call answer).2.size = 1 := by
  cases hp : q.plan with
  | chunked rules coordinator => exact absurd hp (hq rules coordinator)
  | single rules =>
    cases call with
    | page c p =>
      cases answer with
      | probe a => exact ha.elim
      | page a =>
        simp only [receive, receivePage, hp]
        rcases Drain.receive rules c.index p a with ⟨⟨o⟩ | ⟨p'⟩, notes⟩ <;> rfl
    | probe budget => simp [Makes, rules?, hp, Call.chunk?] at hm
    | create => simp [Makes, rules?, hp, Call.chunk?] at hm
    | lookup => simp [Makes, rules?, hp, Call.chunk?] at hm
  | probing policy delay state =>
    cases answer with
    | page a =>
      cases call with
      | page c p => simp [Makes, rules?, hp, Call.chunk?] at hm
      | probe budget => exact ha.elim
      | create => exact ha.elim
      | lookup => exact ha.elim
    | probe a =>
      cases call with
      | page c p => exact ha.elim
      | probe budget =>
        simp only [receive, receiveProbe, hp]
        rcases Retry.receive q.label budget a with ⟨⟨state', o⟩ | ⟨d, b⟩, notes⟩ <;> rfl
      | create =>
        simp only [receive, receiveCreate, hp]
        rcases a with (_ | _ | _ | _ | _ | _ | _) | found <;> rfl
      | lookup => rfl

structure Continues (q : Query τ) (after : Query τ × Effects κ τ ν) : Prop where
  rules : after.1.rules? = q.rules?
  solitary : q.Solitary → after.1.Solitary
  tracked : after.1.tracked = q.tracked
  counted : after.1.counted = q.counted
  tasks : ∀ task ∈ after.2.tasks, q.Makes task.call
  onward : ∀ call ∈ after.2.onward, q.Makes call

lemma continues_self {effects : Effects κ τ ν} (ht : ∀ task ∈ effects.tasks, q.Makes task.call)
    (ho : ∀ call ∈ effects.onward, q.Makes call) : q.Continues (q, effects) :=
  ⟨rfl, id, rfl, rfl, ht, ho⟩

lemma continues_quiet (q : Query τ) : q.Continues (q, ({} : Effects κ τ ν)) :=
  continues_self (by simp [Effects.tasks]) (by simp)

lemma continues_deliver (q : Query τ) (o : Outcome (Yield τ ν)) (notes : Notes) :
    q.Continues (q, (q.deliver o notes : Effects κ τ ν)) :=
  continues_self (by simp [Effects.tasks, deliver]) (by simp [deliver])

lemma continues_page (q : Query τ) (c : Chunk κ) (p : Drain.Progress τ) (a : Outcome (Page τ)) :
    q.Continues (q.receive (.page c p) (.page a) : Query τ × Effects κ τ ν) := by
  cases hq : q.rules? with
  | none =>
    cases hp : q.plan with
    | chunked rules coordinator => simp [rules?, hp] at hq
    | single rules => simp [rules?, hp] at hq
    | probing policy delay state =>
      simp only [receive, receivePage, hp]
      exact continues_quiet q
  | some r =>
    cases hd : (Drain.receive r c.index p a).1 with
    | follow p' =>
      rw [Flight.receive_follow hq hd]
      apply continues_self
      · simp [Effects.tasks, Makes, hq, Task.chunk?]
      · simp
    | finished o =>
      obtain ⟨hrules, hsub, hsched, honward⟩ := Flight.receive_finish (ν := ν) hq hd
      have htasks : ∀ task ∈ (q.receive (.page c p) (.page a) : Query τ × Effects κ τ ν).2.tasks,
          q.Makes task.call := by simp [Effects.tasks, hsub, hsched]
      have hcalls : ∀ call ∈ (q.receive (.page c p) (.page a) : Query τ × Effects κ τ ν).2.onward,
          q.Makes call := by simp [honward]
      cases hp : q.plan with
      | probing policy delay state => simp [rules?, hp] at hq
      | single rules =>
        obtain rfl : rules = r := by simpa [rules?, hp] using hq
        obtain ⟨hafter, -⟩ := Flight.receive_finish_single (ν := ν) hp hd
        exact ⟨by rw [hafter], fun h => by rwa [hafter], by rw [hafter], by rw [hafter], htasks,
          hcalls⟩
      | chunked rules coordinator =>
        obtain rfl : rules = r := by simpa [rules?, hp] using hq
        obtain ⟨hafter, -⟩ := Flight.receive_finish_chunked (ν := ν) hp hd
        exact ⟨hrules.trans hq.symm, fun h => absurd hp (h _ _), by rw [hafter], by rw [hafter],
          htasks, hcalls⟩

lemma continues_probe (q : Query τ) (budget : RetryBudget) (a : Outcome (Option ν)) :
    q.Continues (q.receive (.probe budget) (.probe a) : Query τ × Effects κ τ ν) := by
  simp only [receive, receiveProbe]
  cases hp : q.plan with
  | chunked rules coordinator => exact continues_quiet q
  | single rules => exact continues_quiet q
  | probing policy delay state =>
    have hq : q.rules? = none := by simp [rules?, hp]
    rcases Retry.receive q.label budget a with ⟨⟨state', o⟩ | ⟨d, b⟩, notes⟩
    · have hnone : ({ q with plan := .probing policy delay state' } : Query τ).rules? = none := rfl
      have hsolitary : ({ q with plan := .probing policy delay state' } : Query τ).Solitary := by
        intro rules coordinator h
        cases h
      exact ⟨hnone.trans hq.symm, fun _ => hsolitary, rfl, rfl, by simp [Effects.tasks, deliver],
        by simp [deliver]⟩
    · apply continues_self
      · simp [Effects.tasks, Makes, hq, Task.chunk?]
      · simp

lemma continues_create (q : Query τ) (a : Outcome (Option ν)) :
    q.Continues (q.receive .create (.probe a) : Query τ × Effects κ τ ν) := by
  simp only [receive, receiveCreate]
  cases hp : q.plan with
  | chunked rules coordinator => exact continues_quiet q
  | single rules => exact continues_quiet q
  | probing policy delay state =>
    have hq : q.rules? = none := by simp [rules?, hp]
    cases a with
    | ok found =>
      apply continues_self
      · simp [Effects.tasks, Makes, hq, Task.chunk?]
      · simp
    | error e =>
      cases e with
      | submission reason =>
        apply continues_self
        · simp [Effects.tasks]
        · simp [Makes, hq, Call.chunk?]
      | _ => exact continues_deliver q _ _

lemma receive_continues (q : Query τ) (call : Call κ τ) (answer : Answer τ ν) :
    q.Continues (q.receive call answer) := by
  cases answer with
  | page a =>
    cases call with
    | page c p => exact continues_page q c p a
    | probe budget => exact continues_quiet q
    | create => exact continues_quiet q
    | lookup => exact continues_quiet q
  | probe a =>
    cases call with
    | page c p => exact continues_quiet q
    | probe budget => exact continues_probe q budget a
    | create => exact continues_create q a
    | lookup => exact continues_deliver q _ _

end Query

namespace Flight

open Clocked (AnswersProbes)

structure Made (s : Flight κ τ) : Prop where
  tasks : ∀ task ∈ s.tasks, s.query.Makes task.call
  calls : ∀ call ∈ s.calls, s.query.Makes call

structure Alone (turns : List (Turn κ τ ν)) (s : Flight κ τ) : Prop where
  made : Made s
  solitary : s.query.Solitary
  one : s.tasks.card + s.calls.card + (deliveries turns).length = 1

def AnswersFit (admits : Call κ τ → Answer τ ν → Prop) (q : Query τ) : Prop :=
  ∀ call answer, q.Makes call → admits call answer → call.Fits answer

lemma made_flight {l : Launch κ τ}
    (h : ∀ task ∈ l.submitted ++ l.scheduled.map (·.2), l.query.Makes task.call) :
    Made l.flight :=
  ⟨fun task ht => h task (Multiset.mem_coe.mp ht),
    fun _ hc => absurd hc (Multiset.notMem_zero _)⟩

lemma alone_flight {l : Launch κ τ} (task : Task κ τ) (hq : l.query.Solitary)
    (hl : l.submitted ++ l.scheduled.map (·.2) = [task]) (hm : l.query.Makes task.call) :
    Alone ([] : List (Turn κ τ ν)) l.flight := by
  refine ⟨made_flight fun other ho => ?_, hq, ?_⟩
  · rw [hl] at ho
    rwa [List.mem_singleton.mp ho]
  · simp [Launch.flight, hl, deliveries]

lemma alone_paged (label : String) (r : Drain.Rules τ) :
    Alone ([] : List (Turn κ τ ν)) (Launch.paged label r : Launch κ τ).flight :=
  alone_flight (.page (.whole []) {}) (fun _ _ h => by cases h) rfl rfl

lemma alone_creating (label : String) (p : RetryPolicy) (delay : Span) :
    Alone ([] : List (Turn κ τ ν)) (Launch.createAndAwait label p delay : Launch κ τ).flight :=
  alone_flight .create (fun _ _ h => by cases h) rfl rfl

lemma AnswersPages.fit {admits : Call κ τ → Answer τ ν → Prop} (ha : AnswersPages admits)
    {q : Query τ} (hq : q.rules?.isSome) : AnswersFit admits q := by
  intro call answer hm hadmits
  rw [Query.Makes, hq] at hm
  cases call with
  | page c p =>
    obtain ⟨a, rfl⟩ := ha _ _ _ hadmits
    trivial
  | probe budget => cases hm
  | create => cases hm
  | lookup => cases hm

lemma AnswersProbes.fit {admits : Call κ τ → Answer τ ν → Prop} (ha : AnswersProbes admits)
    {q : Query τ} (hq : q.rules? = none) : AnswersFit admits q := by
  intro call answer hm hadmits
  rw [Query.Makes, hq] at hm
  cases call with
  | page c p => cases hm
  | probe budget =>
    obtain ⟨a, rfl⟩ := ha _ _ (by simp) hadmits
    trivial
  | create =>
    obtain ⟨a, rfl⟩ := ha _ _ (by simp) hadmits
    trivial
  | lookup =>
    obtain ⟨a, rfl⟩ := ha _ _ (by simp) hadmits
    trivial

section Steps

variable {admits : Call κ τ → Answer τ ν → Prop} {turns : List (Turn κ τ ν)}
  {turn : Turn κ τ ν} {s t : Flight κ τ}

lemma Step.continues (h : Step admits s turn t) :
    t.query.rules? = s.query.rules? ∧ (s.query.Solitary → t.query.Solitary) ∧
      t.query.tracked = s.query.tracked := by
  cases h with
  | begin _ => exact ⟨rfl, id, rfl⟩
  | @answer call rest answer _ _ =>
    have hcontinues := s.query.receive_continues call answer
    exact ⟨hcontinues.rules, hcontinues.solitary, hcontinues.tracked⟩

lemma Step.makes (h : Step admits s turn t) (call : Call κ τ) :
    t.query.Makes call ↔ s.query.Makes call := by
  rw [Query.Makes, Query.Makes, h.continues.1]

lemma Made.step (h : Made s) (hs : Step admits s turn t) : Made t := by
  have hmakes := hs.makes
  cases hs with
  | @begin task rest ht =>
    refine ⟨fun other ho => ?_, fun call hc => ?_⟩
    · apply h.tasks
      rw [ht]
      exact Multiset.mem_cons_of_mem ho
    · rcases Multiset.mem_cons.mp hc with rfl | hc
      · exact h.tasks task (by simp [ht])
      · exact h.calls call hc
  | @answer call rest answer hc _ =>
    have hcontinues := s.query.receive_continues call answer
    refine ⟨fun task ht => (hmakes _).mpr ?_, fun other ho => (hmakes _).mpr ?_⟩
    · rcases Multiset.mem_add.mp ht with ht | ht
      · exact hcontinues.tasks task (Multiset.mem_coe.mp ht)
      · exact h.tasks task ht
    · rcases Multiset.mem_add.mp ho with ho | ho
      · exact hcontinues.onward other (Option.mem_toList.mp (Multiset.mem_coe.mp ho))
      · exact h.calls other (by simp [hc, ho])

lemma Made.run (h : Made s) (hr : Run admits s turns t) : Made t := by
  induction hr with
  | nil => exact h
  | snoc _ hs ih => exact ih.step hs

lemma Alone.step (h : Alone turns s) (ha : AnswersFit admits s.query) (hs : Step admits s turn t) :
    Alone (turns ++ [turn]) t := by
  refine ⟨h.made.step hs, hs.continues.2.1 h.solitary, ?_⟩
  have hone := h.one
  cases hs with
  | begin ht =>
    -- The task is replaced by its call.
    rw [ht, Multiset.card_cons] at hone
    simp only [deliveries_begun, start, Multiset.card_cons]
    omega
  | @answer call rest answer hc hadmits =>
    -- The call is replaced by the one thing that comes of its answer.
    have hmakes : s.query.Makes call := h.made.calls call (by simp [hc])
    have hsize := Query.size_receive h.solitary hmakes (ha _ _ hmakes hadmits)
    rw [hc, Multiset.card_cons] at hone
    rw [Effects.size] at hsize
    simp only [settle, Multiset.card_add, Multiset.coe_card, deliveries_snoc, List.length_append,
      Turn.delivered]
    omega

lemma AnswersFit.step (ha : AnswersFit admits s.query) (hs : Step admits s turn t) :
    AnswersFit admits t.query :=
  fun call answer hmakes hadmits => ha call answer ((hs.makes call).mp hmakes) hadmits

lemma Alone.run (h : Alone ([] : List (Turn κ τ ν)) s) (ha : AnswersFit admits s.query)
    (hr : Run admits s turns t) : Alone turns t ∧ AnswersFit admits t.query := by
  induction hr with
  | nil => exact ⟨h, ha⟩
  | snoc _ hs ih => exact ⟨ih.1.step ih.2 hs, ih.2.step hs⟩

lemma Alone.delivers_once (h : Alone turns s) :
    (s.Idle → ∃ o, deliveries turns = [o]) ∧ (¬ s.Idle → deliveries turns = []) := by
  have hone := h.one
  constructor
  · rintro ⟨ht, hc⟩
    rw [ht, hc] at hone
    apply List.length_eq_one_iff.mp
    simpa using hone
  · intro hs
    by_contra hd
    have hpos := List.length_pos_iff.mpr hd
    exact hs ⟨Multiset.card_eq_zero.mp (by omega), Multiset.card_eq_zero.mp (by omega)⟩

lemma Alone.sole (h : Alone turns s) (hs : Step admits s turn t) :
    (∃ task, s.tasks = {task} ∧ s.calls = 0) ∨ ∃ call, s.tasks = 0 ∧ s.calls = {call} := by
  have hone := h.one
  cases hs with
  | @begin task rest ht =>
    rw [ht, Multiset.card_cons] at hone
    have hrest : rest = 0 := Multiset.card_eq_zero.mp (by omega)
    exact Or.inl ⟨task, by rw [ht, hrest]; rfl, Multiset.card_eq_zero.mp (by omega)⟩
  | @answer call rest answer hc _ =>
    rw [hc, Multiset.card_cons] at hone
    have hrest : rest = 0 := Multiset.card_eq_zero.mp (by omega)
    exact Or.inr ⟨call, Multiset.card_eq_zero.mp (by omega), by rw [hc, hrest]; rfl⟩

end Steps

end Flight

/-- What an answer is an answer to: the page requests of a chunk, the creation, or the search for
what has been created. -/
inductive Lane where
  | chunk (index : ℕ)
  | creation
  | search
deriving DecidableEq

def Call.lane : Call κ τ → Lane
  | .page c _ => .chunk c.index
  | .probe _ => .search
  | .create => .creation
  | .lookup => .search

def Turn.answerIn? (lane : Lane) : Turn κ τ ν → Option (Answer τ ν)
  | .answered call answer _ => if call.lane = lane then some answer else none
  | .begun _ => none

namespace Flight

def answersIn (lane : Lane) (turns : List (Turn κ τ ν)) : List (Answer τ ν) :=
  turns.filterMap (Turn.answerIn? lane)

/-- In every lane the first calls get the same answers, as far as both histories go. -/
def SameAnswers (turns turns' : List (Turn κ τ ν)) : Prop :=
  ∀ (lane : Lane) (k : ℕ) (a a' : Answer τ ν), (answersIn lane turns)[k]? = some a →
    (answersIn lane turns')[k]? = some a' → a = a'

section Determinism

variable {admits admits' : Call κ τ → Answer τ ν → Prop} {turns turns' more : List (Turn κ τ ν)}
  {turn turn' : Turn κ τ ν} {s t t' u : Flight κ τ}

lemma answersIn_append (lane : Lane) (turns more : List (Turn κ τ ν)) :
    answersIn lane (turns ++ more) = answersIn lane turns ++ answersIn lane more :=
  List.filterMap_append

lemma sameAnswers_of_eq (h : ∀ lane, answersIn lane turns = answersIn lane turns') :
    SameAnswers turns turns' := by
  intro lane k a a' ha ha'
  rw [h lane] at ha
  exact Option.some.inj (ha.symm.trans ha')

lemma SameAnswers.prior (h : SameAnswers (turns ++ more) turns') : SameAnswers turns turns' := by
  intro lane k a a' ha ha'
  refine h lane k a a' ?_ ha'
  rw [answersIn_append, List.getElem?_append_left (List.getElem?_eq_some_iff.mp ha).1, ha]

lemma SameAnswers.next {call : Call κ τ} {a a' : Answer τ ν} {e e' : Effects κ τ ν}
    (h : SameAnswers (turns ++ [.answered call a e]) (turns ++ .answered call a' e' :: more)) :
    a = a' := by
  apply h call.lane (answersIn call.lane turns).length
  · simp [answersIn, Turn.answerIn?]
  · simp [answersIn, Turn.answerIn?]

lemma Run.of_nil (h : Run admits s ([] : List (Turn κ τ ν)) t) : t = s := by
  generalize hw : ([] : List (Turn κ τ ν)) = whole at h
  cases h with
  | nil => rfl
  | snoc _ _ => simp at hw

lemma Run.head (h : Run admits s (turn :: more) u) :
    ∃ t, Step admits s turn t ∧ Run admits t more u := by
  -- Runs grow at their end, so the first step is only met when nothing is left before it.
  generalize hw : turn :: more = whole at h
  induction h generalizing more with
  | nil => simp at hw
  | @snoc turns last t u hr hs ih =>
    cases turns with
    | nil =>
      obtain ⟨rfl, rfl⟩ := List.cons_eq_cons.mp hw
      obtain rfl := hr.of_nil
      exact ⟨u, hs, .nil⟩
    | cons first turns =>
      obtain ⟨rfl, rfl⟩ := List.cons_eq_cons.mp hw
      obtain ⟨v, hfirst, hrest⟩ := ih rfl
      exact ⟨v, hfirst, hrest.snoc hs⟩

lemma Alone.same_step (h : Alone turns s) (hs : Step admits s turn t)
    (hs' : Step admits' s turn' t')
    (ha : SameAnswers (turns ++ [turn]) (turns ++ turn' :: more)) : turn = turn' ∧ t = t' := by
  rcases h.sole hs with ⟨task, htasks, hcalls⟩ | ⟨call, htasks, hcalls⟩
  · obtain ⟨rfl, rfl⟩ := hs.of_task htasks hcalls
    obtain ⟨rfl, rfl⟩ := hs'.of_task htasks hcalls
    exact ⟨rfl, rfl⟩
  · obtain ⟨answer, -, rfl, rfl⟩ := hs.of_call htasks hcalls
    obtain ⟨answer', -, rfl, rfl⟩ := hs'.of_call htasks hcalls
    obtain rfl := ha.next
    exact ⟨rfl, rfl⟩

lemma Alone.same_turns (h : Alone ([] : List (Turn κ τ ν)) s) (ha : AnswersFit admits s.query)
    (hr : Run admits s turns t) (hr' : Run admits' s turns' t') (hsame : SameAnswers turns turns') :
    (∃ more, turns' = turns ++ more ∧ Run admits' t more t') ∨
      ∃ more, turns = turns' ++ more ∧ Run admits t' more t := by
  induction hr with
  | nil => exact Or.inl ⟨turns', rfl, hr'⟩
  | @snoc turns turn t u hr hs ih =>
    rcases ih hsame.prior with ⟨more, rfl, hmore⟩ | ⟨more, rfl, hmore⟩
    · cases more with
      | nil =>
        obtain rfl := hmore.of_nil
        exact Or.inr ⟨[turn], by simp, Run.nil.snoc hs⟩
      | cons turn' more =>
        -- So far the histories are the same, and so is what is asked next and its answer.
        obtain ⟨v, hs', hrest⟩ := hmore.head
        obtain ⟨rfl, rfl⟩ := (h.run ha hr).1.same_step hs hs' hsame
        exact Or.inl ⟨more, by simp, hrest⟩
    · exact Or.inr ⟨more ++ [turn], by simp, hmore.snoc hs⟩

lemma Alone.same_end (h : Alone ([] : List (Turn κ τ ν)) s) (ha : AnswersFit admits s.query)
    (hr : Run admits s turns t) (ht : t.Idle) (hr' : Run admits' s turns' t') (ht' : t'.Idle)
    (hsame : SameAnswers turns turns') : turns = turns' := by
  rcases h.same_turns ha hr hr' hsame with ⟨more, rfl, hmore⟩ | ⟨more, rfl, hmore⟩
  · obtain ⟨rfl, -⟩ := hmore.of_idle ht
    simp
  · obtain ⟨rfl, -⟩ := hmore.of_idle ht'
    simp

end Determinism

end Flight

end LedgerQuery
