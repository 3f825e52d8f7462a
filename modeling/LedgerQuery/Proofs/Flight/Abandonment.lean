import LedgerQuery.Proofs.Flight.Counting
import LedgerQuery.Proofs.Flight.Custody
import LedgerQuery.Proofs.Flight.Retrying

/-! What the caller of a query finds when some of its work has been dropped: the outcome that was
delivered, or that the query was abandoned. A query over chunks fails as it does otherwise, but
it never succeeds without the chunk whose work was dropped. -/

namespace LedgerQuery

variable {κ τ ν : Type}

def Answer.Abandons : Answer τ ν → Prop
  | .page a => a = .error .abandoned
  | .probe a => a = .error .abandoned

def Drain.Rules.Abandons (r : Drain.Rules τ) : Prop := ∃ items, r.validate items = .error .abandoned

namespace Drain

variable {r : Rules τ} {index : ℕ} {p : Progress τ} {a : Outcome (Page τ)}

lemma abandoned_finished (h : (receive r index p a).1 = .finished (.error .abandoned)) :
    a = .error .abandoned ∨ r.Abandons := by
  cases a with
  | error e =>
    obtain rfl : e = .abandoned := Except.error.inj (Step.finished.inj h)
    exact Or.inl rfl
  | ok page =>
    right
    cases hn : page.next with
    | none =>
      simp only [receive, hn, Step.finished.injEq, close_eq] at h
      refine ⟨p.items ++ page.items, ?_⟩
      cases hv : r.validate (p.items ++ page.items) with
      | ok u => simp [hv, Except.map] at h
      | error e =>
        rw [hv] at h
        exact congrArg _ (Except.error.inj h)
    | some next =>
      cases ho : objection r p.seen (p.pages + 1) page.items.isEmpty next with
      | none => simp [receive, hn, ho] at h
      | some e =>
        simp only [receive, hn, ho, Step.finished.injEq, Except.error.injEq] at h
        subst h
        unfold objection at ho
        split_ifs at ho <;> cases Option.some.inj ho

end Drain

namespace Query

variable {q : Query τ} {call : Call κ τ} {answer : Answer τ ν}

lemma abandoned_page {c : Chunk κ} {p : Drain.Progress τ} {a : Outcome (Page τ)}
    (h : (q.receive (.page c p) (.page a) : Query τ × Effects κ τ ν).2.delivered =
      some (.error .abandoned)) :
    a = .error .abandoned ∨ ∃ r ∈ q.rules?, r.Abandons := by
  have hmap {o : Outcome (List τ)}
      (ho : o.map (.items : List τ → Yield τ ν) = .error .abandoned) : o = .error .abandoned := by
    cases o with
    | ok items => cases ho
    | error e => exact congrArg _ (Except.error.inj ho)
  cases hp : q.plan with
  | probing policy delay state => simp [receive, receivePage, hp] at h
  | single rules =>
    have hq : q.rules? = some rules := by simp [rules?, hp]
    cases hd : (Drain.receive rules c.index p a).1 with
    | follow p' =>
      rw [Flight.receive_follow hq hd] at h
      cases h
    | finished o =>
      rw [(Flight.receive_finish_single hp hd).2.2.2.2] at h
      rw [hmap (Option.some.inj h)] at hd
      exact (Drain.abandoned_finished hd).imp_right fun hr => ⟨rules, hq, hr⟩
  | chunked rules coordinator =>
    have hq : q.rules? = some rules := by simp [rules?, hp]
    cases hd : (Drain.receive rules c.index p a).1 with
    | follow p' =>
      rw [Flight.receive_follow hq hd] at h
      cases h
    | finished o =>
      rw [(Flight.receive_finish_chunked hp hd).2.2.2.2] at h
      obtain ⟨o', hdelivered, ho'⟩ := Option.map_eq_some_iff.mp h
      -- A coordinator fails with the error of the signal that it has just received.
      rcases coordinator.receive_cases (.report c.index o) with ⟨hnone, -⟩ | ⟨i, e, hs, he, -⟩ |
        ⟨items?, hitems, -⟩
      · rw [hnone] at hdelivered
        cases hdelivered
      · obtain rfl : .error e = o' := Option.some.inj (he.symm.trans hdelivered)
        have ho : o = .error e := by rw [← Signal.outcome_report c.index o, hs]; rfl
        rw [ho, show e = .abandoned from Except.error.inj ho'] at hd
        exact (Drain.abandoned_finished hd).imp_right fun hr => ⟨rules, hq, hr⟩
      · obtain ⟨items, -, rfl⟩ := Option.map_eq_some_iff.mp (hitems.symm.trans hdelivered)
        cases ho'

lemma abandoned_probe {budget : RetryBudget} {a : Outcome (Option ν)} :
    (q.receive (.probe budget) (.probe a) : Query τ × Effects κ τ ν).2.delivered ≠
      some (.error .abandoned) := by
  cases hp : q.plan with
  | chunked rules coordinator => simp [receive, receiveProbe, hp]
  | single rules => simp [receive, receiveProbe, hp]
  | probing policy delay state =>
    rcases a with e | _ | value
    · by_cases hb : budget.remaining = 0 <;>
        simp [receive, receiveProbe, hp, Retry.receive, Retry.afterMiss, RetryBudget.spend, hb,
          deliver, Except.map]
    · by_cases hb : budget.remaining = 0 <;>
        simp [receive, receiveProbe, hp, Retry.receive, Retry.afterMiss, RetryBudget.spend, hb,
          deliver, Except.map]
    · simp [receive, receiveProbe, hp, Retry.receive, deliver, Except.map]

lemma abandoned_create {a : Outcome (Option ν)}
    (h : (q.receive .create (.probe a) : Query τ × Effects κ τ ν).2.delivered =
      some (.error .abandoned)) : a = .error .abandoned := by
  cases hp : q.plan with
  | chunked rules coordinator => simp [receive, receiveCreate, hp] at h
  | single rules => simp [receive, receiveCreate, hp] at h
  | probing policy delay state =>
    cases a with
    | ok found => simp [receive, receiveCreate, hp] at h
    | error e => cases e <;> simp [receive, receiveCreate, hp, deliver] at h ⊢

lemma abandoned_receive
    (h : (q.receive call answer).2.delivered = some (.error .abandoned)) :
    answer.Abandons ∨ ∃ r ∈ q.rules?, r.Abandons := by
  cases answer with
  | page a =>
    cases call with
    | page c p => exact abandoned_page h
    | probe budget => cases h
    | create => cases h
    | lookup => cases h
  | probe a =>
    cases call with
    | page c p => cases h
    | probe budget => exact absurd h abandoned_probe
    | create => exact Or.inl (abandoned_create h)
    | lookup =>
      rcases a with e | _ | value
      · exact Or.inl (congrArg _ (Except.error.inj (Option.some.inj h)))
      · cases h
      · cases h

end Query

namespace Custody

open Flight Drain Coordinator

def Unabandoned (q : Query τ) (turns : List (Turn κ τ ν)) : Prop :=
  (∀ r ∈ q.rules?, ¬ r.Abandons) ∧
    ∀ call answer effects, .answered call answer effects ∈ turns → ¬ answer.Abandons

section Flights

variable {admits : Call κ τ → Answer τ ν → Prop} {turns : List (Turn κ τ ν)} {s t : Flight κ τ}

lemma rules?_run (h : Flight.Run admits s turns t) : t.query.rules? = s.query.rules? := by
  induction h with
  | nil => rfl
  | snoc _ hs ih => exact hs.continues.1.trans ih

lemma not_abandoned_of_delivered (h : Flight.Run admits s turns t)
    (hu : Unabandoned s.query turns) : .error .abandoned ∉ deliveries turns := by
  induction h with
  | nil => exact List.not_mem_nil
  | @snoc turns turn t u hr hs ih =>
    have hearlier := ih ⟨hu.1, fun call answer effects hmem =>
      hu.2 call answer effects (List.mem_append_left _ hmem)⟩
    rw [deliveries_snoc, List.mem_append, not_or, Option.mem_toList]
    refine ⟨hearlier, fun hlast => ?_⟩
    cases hs with
    | begin ht => cases hlast
    | @answer call rest answer hc hadmits =>
      rcases Query.abandoned_receive hlast with ha | ⟨r, hq, ha⟩
      · exact hu.2 call answer _ (List.mem_append_right _ (List.mem_singleton_self _)) ha
      · rw [rules?_run hr] at hq
        exact hu.1 r hq ha

end Flights

structure Resolves (q : Query τ) (moves : List (Move κ τ ν)) (s : Custody κ τ ν) : Prop where
  once : (deliveries (turns moves)).length ≤ 1
  called : ∀ o ∈ deliveries (turns moves), s.completion.poll = some o
  waiting : deliveries (turns moves) = [] → ¬ s.flight.Idle → s.completion.poll = none
  never : deliveries (turns moves) = [] → s.flight.Idle →
    s.completion.poll = some (.error .abandoned)
  resolved : s.flight.Idle → ∃ o, s.completion.poll = some o
  stays : ∀ o more t, s.completion.poll = some o → Run Call.Fits s more t →
    t.completion.poll = some o
  abandoned_iff : Unabandoned q (turns moves) → s.flight.Idle →
    (s.completion.poll = some (.error .abandoned) ↔ deliveries (turns moves) = [])

/-- How a query over chunks ends when some of its work may have been dropped. -/
structure Merges (r : Rules τ) (chunks : List (Chunk κ)) (moves : List (Move κ τ ν))
    (s : Custody κ τ ν) : Prop where
  reported : ∀ signal ∈ reports r (turns moves), ∃ c ∈ chunks, ∃ o,
    ComesTo r (answersOf (turns moves) c.index) o ∧ signal = .report c.index o
  failed : ∀ before i e after, reports r (turns moves) = before ++ .failed i e :: after →
    (∀ signal ∈ before, signal.error? = none) → deliveries (turns moves) = [.error e]
  unfinished : (∀ signal ∈ reports r (turns moves), signal.error? = none) →
    ¬ s.flight.Idle ∨ ¬ Undropped moves → deliveries (turns moves) = []
  finished : (∀ signal ∈ reports r (turns moves), signal.error? = none) →
    s.flight.Idle → Undropped moves →
    ((reports r (turns moves)).map Signal.index).Perm (chunks.map (·.index)) ∧
      deliveries (turns moves) = [.ok (.items ((reports r (turns moves)).flatMap Signal.items))]

structure Single (moves : List (Move κ τ ν)) (s : Custody κ τ ν) : Prop where
  sole : s.holders ≤ 1
  dropped : s.flight.Idle → (deliveries (turns moves) = [] ↔ ¬ Undropped moves)

section Ends

variable {admits : Call κ τ → Answer τ ν → Prop} {r : Rules τ} {label : String}
  {chunks : List (Chunk κ)} {moves : List (Move κ τ ν)} {s : Custody κ τ ν} {l : Launch κ τ}

lemma idle_whole : (s.whole moves).Idle ↔ s.flight.Idle ∧ Undropped moves := by
  simp only [Flight.Idle, whole, Undropped, add_eq_zero]
  tauto

lemma Held.resolves (h : Held moves s) (hr : Run Call.Fits l.custody moves s)
    (hone : (deliveries (turns moves)).length ≤ 1) : Resolves l.query moves s := by
  have hcalled : ∀ o ∈ deliveries (turns moves), s.completion.poll = some o := by
    intro o ho
    obtain ⟨o', hall⟩ := List.length_eq_one_iff.mp
      (Nat.le_antisymm hone (List.length_pos_of_mem ho))
    rw [hall] at ho
    rw [h.completion, hall, List.mem_singleton.mp ho]
    rfl
  have hnever (hd : deliveries (turns moves) = []) (hs : s.flight.Idle) :
      s.completion.poll = some (.error .abandoned) := by
    rw [h.completion, hd, h.idle_iff.mp hs]
    rfl
  refine ⟨hone, hcalled, fun hd hs => ?_, hnever, fun hs => ?_, fun o more t ho hmore =>
    hmore.poll ho, fun hu hs => ⟨fun ho => ?_, fun hd => hnever hd hs⟩⟩
  · obtain ⟨n, hn⟩ := Nat.exists_eq_succ_of_ne_zero fun hzero => hs (h.idle_iff.mpr hzero)
    rw [h.completion, hd, hn]
    rfl
  · cases hd : deliveries (turns moves) with
    | nil => exact ⟨_, hnever hd hs⟩
    | cons o rest => exact ⟨o, hcalled o (by simp [hd])⟩
  · -- What was delivered is what is found, and it is something else.
    apply List.eq_nil_iff_forall_not_mem.mpr
    intro o hmem
    obtain rfl : .error .abandoned = o := Option.some.inj (ho.symm.trans (hcalled o hmem))
    exact not_abandoned_of_delivered hr.whole hu hmem

lemma unreported {turns : List (Turn κ τ ν)} {t : Flight κ τ} (h : Draining r chunks turns t)
    (hs : ¬ t.Idle) :
    ∃ c ∈ chunks, ∀ signal ∈ reports r turns, signal.index ≠ c.index := by
  have hopen {c : Chunk κ} (hc : c ∈ chunks)
      (hwork : t.tasksOf c.index ≠ 0 ∨ t.callsOf c.index ≠ 0) :
      ∀ signal ∈ reports r turns, signal.index ≠ c.index := by
    intro signal hsig hi
    obtain ⟨answers, stage, hcourse, htasks, hcalls⟩ := h.course c hc
    have hmem : signal ∈ reports r (turnsOf turns c.index) := by
      rw [reports_turnsOf, List.mem_filter]
      exact ⟨hsig, decide_eq_true hi⟩
    have hended : stage = .ended := by
      by_contra hstage
      rw [hcourse.reports_open hstage] at hmem
      exact List.not_mem_nil hmem
    subst hended
    rcases hwork with hwork | hwork
    · exact hwork htasks
    · exact hwork hcalls
  by_cases ht : t.tasks = 0
  · obtain ⟨call, hcall⟩ := Multiset.exists_mem_of_ne_zero fun hc => hs ⟨ht, hc⟩
    obtain ⟨c, hc, hi⟩ := h.call_chunk call hcall
    refine ⟨c, hc, hopen hc (Or.inr fun hzero => ?_)⟩
    exact absurd (Multiset.mem_filter.mpr ⟨hcall, hi⟩) (Multiset.eq_zero_iff_forall_notMem.mp hzero _)
  · obtain ⟨task, htask⟩ := Multiset.exists_mem_of_ne_zero ht
    obtain ⟨c, hc, hi⟩ := h.task_chunk task htask
    refine ⟨c, hc, hopen hc (Or.inl fun hzero => ?_)⟩
    exact absurd (Multiset.mem_filter.mpr ⟨htask, hi⟩) (Multiset.eq_zero_iff_forall_notMem.mp hzero _)

lemma undecided {turns : List (Turn κ τ ν)} {t : Flight κ τ} (h : Draining r chunks turns t)
    (hs : ¬ t.Idle) (hfine : ∀ signal ∈ reports r turns, signal.error? = none) :
    ¬ Decided (chunks.map (·.index)).toFinset (reports r turns) := by
  obtain ⟨c, hc, hnone⟩ := unreported h hs
  rintro (⟨-, hcovers⟩ | hfailed)
  · have hcompleted := hcovers (List.mem_toFinset.mpr (List.mem_map_of_mem hc))
    obtain ⟨signal, hsig, hi⟩ := List.mem_map.mp (index_mem_of_mem_completedIn hcompleted)
    exact hnone signal hsig hi
  · exact not_hasFailed_iff.mpr hfine hfailed

lemma undecided_before {turns : List (Turn κ τ ν)} {t : Flight κ τ}
    (h : Draining r chunks turns t) {before after : List (Signal τ)} {i : ℕ} {e : QueryError}
    (hw : reports r turns = before ++ .failed i e :: after)
    (hfine : ∀ signal ∈ before, signal.error? = none) :
    ¬ Decided (chunks.map (·.index)).toFinset before := by
  have hnodup := h.nodup_reports
  have hlater : .failed i e ∈ reports r turns := by simp [hw]
  obtain ⟨c, hc, hi⟩ := h.report_chunk hlater
  rw [hw, List.map_append, List.nodup_append] at hnodup
  rintro (⟨-, hcovers⟩ | hfailed)
  · have hasked : i ∈ (chunks.map (·.index)).toFinset :=
      List.mem_toFinset.mpr (List.mem_map.mpr ⟨c, hc, hi.symm⟩)
    exact hnodup.2.2 i (index_mem_of_mem_completedIn (hcovers hasked)) i (by simp [Signal.index])
      rfl
  · exact not_hasFailed_iff.mpr hfine hfailed

lemma merges (hne : chunks ≠ []) (hn : (chunks.map (·.index)).Nodup)
    (hd : Draining r chunks (turns moves) (s.whole moves))
    (hc : Coordinating r label chunks (turns moves) (s.whole moves)) :
    Merges r chunks moves s := by
  refine ⟨fun signal hsig => hd.comesTo_of_report hsig, fun before i e after hw hfine => ?_,
    fun hfine hopen => ?_, fun hfine hs hu => ?_⟩
  · exact hc.delivered_once hw (undecided_before hd hw hfine) (Or.inr ⟨i, e, by simp⟩)
  · refine hc.nothing_delivered (undecided hd (fun hs => ?_) hfine)
    obtain ⟨hidle, hu⟩ := idle_whole.mp hs
    exact hopen.elim (fun h => h hidle) fun h => h hu
  · have hperm := hd.reports_perm (idle_whole.mpr ⟨hs, hu⟩) hn
    exact ⟨hperm, hc.completes hne hn hperm hfine⟩

lemma single (h : Alone (turns moves) (s.whole moves)) (hheld : Held moves s) :
    Single moves s := by
  have hone := h.one
  have hholders := hheld.holders
  simp only [whole, Multiset.card_add] at hone
  refine ⟨by omega, fun hs => ?_⟩
  simp only [hs.1, hs.2, Multiset.card_zero] at hone
  rw [Undropped, ← Multiset.card_eq_zero, ← Multiset.card_eq_zero, ← List.length_eq_zero_iff]
  omega

end Ends

end Custody

inductive Launch.Solo : Launch κ τ → Prop
  | paged (label : String) (r : Drain.Rules τ) : Solo (.paged label r)
  | drain (c : Chunk κ) (r : Drain.Rules τ) (counted : Bool) : Solo (.drain c r counted)
  | probe (label : String) (tracked : Bool) (p : RetryPolicy) (delay : Option Span) :
      Solo (.probe label tracked p delay)
  | createAndAwait (label : String) (p : RetryPolicy) (delay : Span) :
      Solo (.createAndAwait label p delay)

namespace Launch.Solo

open Flight

variable {l : Launch κ τ}

lemma starts (h : l.Solo) : ∃ task, l.submitted ++ l.scheduled.map (·.2) = [task] ∧
    l.query.Solitary ∧ l.query.Makes task.call := by
  cases h with
  | paged label r => exact ⟨_, rfl, (fun _ _ h => by cases h), rfl⟩
  | drain c r counted => exact ⟨_, rfl, (fun _ _ h => by cases h), rfl⟩
  | probe label tracked p delay =>
    cases delay with
    | none => exact ⟨_, rfl, (fun _ _ h => by cases h), rfl⟩
    | some d => exact ⟨_, rfl, (fun _ _ h => by cases h), rfl⟩
  | createAndAwait label p delay => exact ⟨_, rfl, (fun _ _ h => by cases h), rfl⟩

lemma answersFit (h : l.Solo) : AnswersFit (Call.Fits : Call κ τ → Answer τ ν → Prop) l.query := by
  cases h with
  | paged label r => exact AnswersPages.fit fits_answersPages rfl
  | drain c r counted => exact AnswersPages.fit fits_answersPages rfl
  | probe label tracked p delay => exact AnswersProbes.fit Clocked.fits_answersProbes rfl
  | createAndAwait label p delay => exact AnswersProbes.fit Clocked.fits_answersProbes rfl

end Launch.Solo

namespace Custody

open Flight Drain Coordinator

theorem handle_resolves_once {l : Launch κ τ} {moves : List (Move κ τ ν)} {s : Custody κ τ ν}
    (hr : Run Call.Fits l.custody moves s) :
    (∀ label keys size r, Launch.chunked label keys size r = .ok l →
      ∃ chunks, Chunk.partition keys size = .ok chunks ∧ Resolves l.query moves s ∧
        Merges r chunks moves s) ∧
    (l.Solo → Resolves l.query moves s ∧ Single moves s) := by
  constructor
  · intro label keys size r hl
    obtain ⟨chunks, hp, hn, hd₀, hc₀⟩ := chunked_flight (ν := ν) hl
    obtain ⟨hd, hc⟩ := chunked_run hd₀ hc₀ hn fits_answersPages hr.whole
    have hne := Chunk.partition_ne_nil hp
    have hwork : l.submitted ++ l.scheduled.map (·.2) ≠ [] := by
      obtain ⟨chunks', hp', rfl⟩ := chunked_eq_ok.mp hl
      simpa [launching] using Chunk.partition_ne_nil hp'
    exact ⟨chunks, hp, (Held.run hwork hr).resolves hr hc.length_deliveries.1,
      merges hne hn hd hc⟩
  · intro hl
    obtain ⟨task, hwork, hsolitary, hmakes⟩ := hl.starts
    have hheld : Held moves s := Held.run (by simp [hwork]) hr
    have halone := ((alone_flight task hsolitary hwork hmakes).run hl.answersFit hr.whole).1
    have hone := halone.one
    exact ⟨hheld.resolves hr (by omega), single halone hheld⟩

theorem handle_resolves_once_half_dropped :
    ∃ (l : Launch ℕ ℕ) (moves : List (Move ℕ ℕ Unit)) (s : Custody ℕ ℕ Unit),
      Launch.chunked "bulk" [10, 20, 30] 2 {} = .ok l ∧ Run Call.Fits l.custody moves s ∧
      s.flight.Idle ∧ s.completion.poll = some (.error .abandoned) ∧
      ∃ chunks, Chunk.partition [10, 20, 30] 2 = .ok chunks ∧ Resolves l.query moves s ∧
        Merges {} chunks moves s := by
  let c₀ : Chunk ℕ := ⟨0, [10, 20]⟩
  let c₁ : Chunk ℕ := ⟨1, [30]⟩
  have hp : Chunk.partition [10, 20, 30] 2 = .ok [c₀, c₁] := by
    simp [Chunk.partition, Chunk.cut, c₀, c₁]
  let l : Launch ℕ ℕ := launching "bulk" 2 {} [c₀, c₁]
  have hl : Launch.chunked "bulk" [10, 20, 30] 2 {} = .ok l := chunked_eq_ok.mpr ⟨_, hp, rfl⟩
  have h₀ : Run Call.Fits (l.custody : Custody ℕ ℕ Unit) [] l.custody := .nil
  have h₁ := h₀.begin (.page c₀ {}) {.page c₁ {}} rfl
  have h₂ := h₁.begin (.page c₁ {}) 0 rfl
  have h₃ := h₂.dropCall (.page c₁ {}) {.page c₀ {}} rfl
  have h₄ := h₃.answer (.page c₀ {}) 0 (.page (.ok (.last [3]))) rfl trivial
  exact ⟨_, _, _, hl, h₄, ⟨rfl, rfl⟩, rfl, (handle_resolves_once h₄).1 _ _ _ _ hl⟩

/-- A page request that answers that it was abandoned itself makes the completion be called with
just that. -/
theorem abandonment_passed_on :
    ¬ ∀ (moves : List (Move ℕ ℕ Unit)) (s : Custody ℕ ℕ Unit),
      Run Call.Fits (Launch.paged "q" {} : Launch ℕ ℕ).custody moves s → s.flight.Idle →
      (s.completion.poll = some (.error .abandoned) ↔ deliveries (turns moves) = []) := by
  intro h
  have h₀ : Run Call.Fits ((Launch.paged "q" {} : Launch ℕ ℕ).custody : Custody ℕ ℕ Unit) []
    (Launch.paged "q" {} : Launch ℕ ℕ).custody := .nil
  have h₁ := h₀.begin (.page (.whole []) {}) 0 rfl
  have h₂ := h₁.answer (.page (.whole []) {}) 0 (.page (.error .abandoned)) rfl trivial
  have hnone := (h _ _ h₂ ⟨rfl, rfl⟩).mp rfl
  cases hnone

end Custody

end LedgerQuery
