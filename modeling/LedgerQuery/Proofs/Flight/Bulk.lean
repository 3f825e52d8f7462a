import LedgerQuery.Proofs.Chunk.Partition
import LedgerQuery.Proofs.Coordinator.Reference
import LedgerQuery.Proofs.Flight.Draining

/-! A query over many chunks in flight. Its coordinator has received the reports of the chunks
in the order in which they finished, so it delivers once: all items with the last chunk, or an
error with the first chunk that fails. -/

namespace LedgerQuery

namespace Flight

open Drain Coordinator

variable {κ τ ν : Type}

def answersOf (turns : List (Turn κ τ ν)) (i : ℕ) : List (Outcome (Page τ)) :=
  (turnsOf turns i).filterMap Turn.page?

def itemsBrought (turns : List (Turn κ τ ν)) (c : Chunk κ) : List τ :=
  (answersOf turns c.index).flatMap itemsOf

lemma answersOf_append (turns more : List (Turn κ τ ν)) (i : ℕ) :
    answersOf (turns ++ more) i = answersOf turns i ++ answersOf more i := by
  rw [answersOf, turnsOf, List.filter_append, List.filterMap_append]
  rfl

lemma answersOf_snoc {turns : List (Turn κ τ ν)} {turn : Turn κ τ ν} {i : ℕ}
    (h : turn.chunk? = some i) :
    answersOf (turns ++ [turn]) i = answersOf turns i ++ turn.page?.toList := by
  rw [answersOf_append]
  cases hp : turn.page? <;> simp [answersOf, turnsOf, h, hp]

lemma answersOf_snoc_of_ne {turns : List (Turn κ τ ν)} {turn : Turn κ τ ν} {i : ℕ}
    (h : turn.chunk? ≠ some i) :
    answersOf (turns ++ [turn]) i = answersOf turns i := by
  rw [answersOf, turnsOf_snoc_of_ne h, answersOf]

@[simp] lemma index_report (index : ℕ) (o : Outcome (List τ)) :
    (Signal.report index o).index = index := by
  cases o <;> rfl

lemma chunk?_of_report? {r : Rules τ} {turn : Turn κ τ ν} {signal : Signal τ}
    (h : turn.report? r = some signal) : turn.chunk? = some signal.index := by
  unfold Turn.report? at h
  split at h
  · split at h
    · obtain rfl := Option.some.inj h
      simp [Turn.chunk?, Call.chunk?]
    · simp at h
  · simp at h

lemma reports_turnsOf (r : Rules τ) (turns : List (Turn κ τ ν)) (i : ℕ) :
    reports r (turnsOf turns i) = (reports r turns).filter fun signal => signal.index = i := by
  induction turns with
  | nil => rfl
  | cons turn turns ih =>
    simp only [reports, turnsOf] at ih
    by_cases hi : turn.chunk? = some i
    · cases hr : turn.report? r with
      | none => simp [reports, turnsOf, hi, hr, ih]
      | some signal =>
        have hs : signal.index = i := Option.some.inj ((chunk?_of_report? hr).symm.trans hi)
        simp [reports, turnsOf, hi, hr, hs, ih]
    · cases hr : turn.report? r with
      | none => simp [reports, turnsOf, hi, hr, ih]
      | some signal =>
        have hs : signal.index ≠ i := fun hs => hi ((chunk?_of_report? hr).trans (by rw [hs]))
        simp [reports, turnsOf, hi, hr, hs, ih]

section Reported

variable {r : Rules τ} {chunks : List (Chunk κ)} {turns : List (Turn κ τ ν)} {s : Flight κ τ}

lemma Draining.report_chunk (h : Draining r chunks turns s) {signal : Signal τ}
    (hsig : signal ∈ reports r turns) : ∃ c ∈ chunks, signal.index = c.index := by
  obtain ⟨turn, ht, hr⟩ := List.mem_filterMap.mp hsig
  obtain ⟨c, hc, hi⟩ := h.turn_chunk turn ht
  exact ⟨c, hc, Option.some.inj ((chunk?_of_report? hr).symm.trans hi)⟩

lemma Draining.standing (h : Draining r chunks turns s) {c : Chunk κ} (hc : c ∈ chunks) :
    (Followed r (answersOf turns c.index) ∧ reports r (turnsOf turns c.index) = []) ∨
      ∃ o, ComesTo r (answersOf turns c.index) o ∧
        reports r (turnsOf turns c.index) = [.report c.index o] := by
  obtain ⟨answers, stage, hcourse, -, -⟩ := h.course c hc
  rw [answersOf, hcourse.pages]
  by_cases hs : stage = .ended
  · subst hs
    exact Or.inr hcourse.reports_ended
  · exact Or.inl ⟨hcourse.followed hs, hcourse.reports_open hs⟩

lemma Draining.report_of_comesTo (h : Draining r chunks turns s) {c : Chunk κ} (hc : c ∈ chunks)
    {o : Outcome (List τ)} (ho : ComesTo r (answersOf turns c.index) o) :
    (reports r turns).filter (fun signal => signal.index = c.index) = [.report c.index o] := by
  rw [← reports_turnsOf]
  rcases h.standing hc with ⟨hf, -⟩ | ⟨o', ho', hreports⟩
  · exact absurd ho hf.not_comesTo
  · rw [hreports, ho.unique ho']

lemma Draining.comesTo_of_report (h : Draining r chunks turns s) {signal : Signal τ}
    (hsig : signal ∈ reports r turns) :
    ∃ c ∈ chunks, ∃ o, ComesTo r (answersOf turns c.index) o ∧ signal = .report c.index o := by
  obtain ⟨c, hc, hi⟩ := h.report_chunk hsig
  have hmem : signal ∈ reports r (turnsOf turns c.index) := by
    rw [reports_turnsOf, List.mem_filter]
    exact ⟨hsig, decide_eq_true hi⟩
  rcases h.standing hc with ⟨-, hnone⟩ | ⟨o, ho, hone⟩
  · rw [hnone] at hmem
    exact absurd hmem List.not_mem_nil
  · rw [hone] at hmem
    exact ⟨c, hc, o, ho, List.mem_singleton.mp hmem⟩

lemma Draining.nodup_reports (h : Draining r chunks turns s) :
    ((reports r turns).map Signal.index).Nodup := by
  apply List.nodup_iff_count_le_one.mpr
  intro i
  by_cases hi : i ∈ (reports r turns).map Signal.index
  · obtain ⟨signal, hsig, rfl⟩ := List.mem_map.mp hi
    obtain ⟨c, hc, o, ho, rfl⟩ := h.comesTo_of_report hsig
    have hlen := congrArg List.length (h.report_of_comesTo hc ho)
    rw [List.count_eq_countP, List.countP_map, List.countP_eq_length_filter]
    simpa [Function.comp_def, beq_eq_decide] using hlen.le
  · simp [List.count_eq_zero_of_not_mem hi]

lemma Draining.reports_perm_of_comesTo (h : Draining r chunks turns s)
    (hn : (chunks.map (·.index)).Nodup)
    (hall : ∀ c ∈ chunks, ∃ o, ComesTo r (answersOf turns c.index) o) :
    ((reports r turns).map Signal.index).Perm (chunks.map (·.index)) := by
  apply (List.perm_ext_iff_of_nodup h.nodup_reports hn).mpr
  intro i
  constructor
  · intro hi
    obtain ⟨signal, hsig, rfl⟩ := List.mem_map.mp hi
    obtain ⟨c, hc, hi⟩ := h.report_chunk hsig
    exact List.mem_map.mpr ⟨c, hc, hi.symm⟩
  · intro hi
    obtain ⟨c, hc, rfl⟩ := List.mem_map.mp hi
    obtain ⟨o, ho⟩ := hall c hc
    have hmem : .report c.index o ∈
        (reports r turns).filter fun signal => signal.index = c.index := by
      rw [h.report_of_comesTo hc ho]
      exact List.mem_singleton_self _
    rw [← index_report c.index o]
    exact List.mem_map_of_mem (List.mem_filter.mp hmem).1

end Reported

section Idle

variable {r : Rules τ} {chunks : List (Chunk κ)} {turns : List (Turn κ τ ν)} {s : Flight κ τ}

lemma Draining.ended (h : Draining r chunks turns s) (hs : s.Idle) {c : Chunk κ}
    (hc : c ∈ chunks) :
    Course r c (turnsOf turns c.index) (answersOf turns c.index) .ended := by
  obtain ⟨answers, stage, hcourse, htasks, hcalls⟩ := h.course c hc
  have hpages := hcourse.pages
  cases stage with
  | queued => simp [tasksOf, hs.1, Stage.tasks] at htasks
  | asked => simp [callsOf, hs.2, Stage.calls] at hcalls
  | ended =>
    rw [answersOf, hpages]
    exact hcourse

lemma Draining.report (h : Draining r chunks turns s) (hs : s.Idle) {c : Chunk κ}
    (hc : c ∈ chunks) :
    ∃ o, ComesTo r (answersOf turns c.index) o ∧
      (reports r turns).filter (fun signal => signal.index = c.index) = [.report c.index o] := by
  rw [← reports_turnsOf]
  exact (h.ended hs hc).reports_ended

lemma Draining.report_eq (h : Draining r chunks turns s) (hs : s.Idle) {signal : Signal τ}
    (hsig : signal ∈ reports r turns) :
    ∃ o, ComesTo r (answersOf turns signal.index) o ∧ signal = .report signal.index o := by
  obtain ⟨c, hc, hi⟩ := h.report_chunk hsig
  obtain ⟨o, ho, hf⟩ := h.report hs hc
  have hmem : signal ∈ [Signal.report c.index o] := by
    rw [← hf, List.mem_filter]
    exact ⟨hsig, by simpa using hi⟩
  rw [hi]
  exact ⟨o, ho, List.mem_singleton.mp hmem⟩

lemma Draining.reports_perm (h : Draining r chunks turns s) (hs : s.Idle)
    (hn : (chunks.map (·.index)).Nodup) :
    ((reports r turns).map Signal.index).Perm (chunks.map (·.index)) := by
  apply h.reports_perm_of_comesTo hn
  intro c hc
  obtain ⟨o, ho, -⟩ := h.report hs hc
  exact ⟨o, ho⟩

lemma Draining.decided (h : Draining r chunks turns s) (hs : s.Idle)
    (hn : (chunks.map (·.index)).Nodup) (hne : chunks ≠ []) :
    Decided (chunks.map (·.index)).toFinset (reports r turns) := by
  apply decided_of_perm
  · simpa using hne
  · intro i hi
    exact (h.reports_perm hs hn).mem_iff.mpr (List.mem_toFinset.mp hi)

end Idle

def merging (label : String) (chunks : List (Chunk κ)) (signals : List (Signal τ)) :
    Coordinator.Run τ :=
  (Coordinator.start label chunks).receiveAll signals

def launching (label : String) (size : ℕ) (r : Rules τ) (chunks : List (Chunk κ)) :
    Launch κ τ where
  query := ⟨label, true, .chunked r (Coordinator.start label chunks), true⟩
  notes := .event .info Event.orchestratorTarget
      (label ++ ": " ++ toString chunks.length ++ " chunks of up to " ++ toString size
        ++ " keys") ++ .count .queryStarted
  submitted := chunks.map fun c => .page c {}

structure Coordinating (r : Rules τ) (label : String) (chunks : List (Chunk κ))
    (turns : List (Turn κ τ ν)) (s : Flight κ τ) : Prop where
  plan : s.query.plan = .chunked r (merging label chunks (reports r turns)).coordinator
  delivered : deliveries turns =
    (merging label chunks (reports r turns)).delivered.map (Except.map .items)

section Steps

variable {admits : Call κ τ → Answer τ ν → Prop} {r : Rules τ} {label : String}
  {chunks : List (Chunk κ)} {turns : List (Turn κ τ ν)} {s t : Flight κ τ}

lemma Coordinating.answer (h : Coordinating r label chunks turns s) (c : Chunk κ) (p : Progress τ)
    (a : Outcome (Page τ)) (rest : Multiset (Call κ τ)) :
    Coordinating r label chunks
      (turns ++ [.answered (.page c p) (.page a) (s.query.receive (.page c p) (.page a)).2])
      (s.settle (.page c p) (.page a : Answer τ ν) rest) := by
  cases hd : (Drain.receive r c.index p a).1 with
  | follow p' =>
    have hrules : s.query.rules? = some r := by simp [Query.rules?, h.plan]
    have hreceive := receive_follow (ν := ν) hrules hd
    have hreports : reports r (turns ++ [.answered (.page c p) (.page a)
        (s.query.receive (.page c p) (.page a) : Query τ × Effects κ τ ν).2]) =
        reports r turns := by
      simp [reports_snoc, Turn.report?, hd]
    refine ⟨?_, ?_⟩
    · rw [hreports, settle, hreceive]
      exact h.plan
    · rw [hreports, ← h.delivered, hreceive, deliveries_snoc]
      simp [Turn.delivered]
  | finished o =>
    obtain ⟨hquery, -, -, -, hdelivered⟩ := receive_finish_chunked (ν := ν) h.plan hd
    have hreports : reports r (turns ++ [.answered (.page c p) (.page a)
        (s.query.receive (.page c p) (.page a) : Query τ × Effects κ τ ν).2]) =
        reports r turns ++ [.report c.index o] := by
      simp [reports_snoc, Turn.report?, hd]
    refine ⟨?_, ?_⟩
    · rw [hreports, merging, receiveAll_snoc, settle, hquery]
      rfl
    · rw [hreports, merging, receiveAll_snoc, deliveries_snoc, List.map_append, h.delivered]
      change _ ++ Option.toList (Effects.delivered _) = _
      rw [hdelivered, Option.toList_map]
      rfl

lemma Coordinating.step (h : Coordinating r label chunks turns s)
    (hd : Draining r chunks turns s) (ha : AnswersPages admits) {turn : Turn κ τ ν}
    (hs : Step admits s turn t) : Coordinating r label chunks (turns ++ [turn]) t := by
  cases hs with
  | begin ht =>
    refine ⟨?_, ?_⟩
    · simpa [reports_snoc, start] using h.plan
    · simpa [reports_snoc, deliveries_snoc, Turn.delivered] using h.delivered
  | answer hc hadmits =>
    obtain ⟨c, p, a, rfl, rfl⟩ := hd.page_answer ha hc hadmits
    exact h.answer c p a _

lemma chunked_eq_ok {keys : List κ} {size : ℕ} {l : Launch κ τ} :
    Launch.chunked label keys size r = .ok l ↔
      ∃ chunks, Chunk.partition keys size = .ok chunks ∧ l = launching label size r chunks := by
  unfold Launch.chunked launching
  cases Chunk.partition keys size with
  | error e => simp
  | ok chunks => simp [eq_comm]

lemma chunked_flight {keys : List κ} {size : ℕ} {l : Launch κ τ}
    (hl : Launch.chunked label keys size r = .ok l) :
    ∃ chunks, Chunk.partition keys size = .ok chunks ∧ (chunks.map (·.index)).Nodup ∧
      Draining r chunks ([] : List (Turn κ τ ν)) l.flight ∧
      Coordinating r label chunks ([] : List (Turn κ τ ν)) l.flight := by
  obtain ⟨chunks, hp, rfl⟩ := chunked_eq_ok.mp hl
  have hn := Chunk.partition_nodup hp
  exact ⟨chunks, hp, hn, draining_flight rfl hn rfl rfl, rfl, rfl⟩

lemma chunked_run (hd : Draining r chunks ([] : List (Turn κ τ ν)) s)
    (hc : Coordinating r label chunks ([] : List (Turn κ τ ν)) s)
    (hn : (chunks.map (·.index)).Nodup) (ha : AnswersPages admits) (hr : Run admits s turns t) :
    Draining r chunks turns t ∧ Coordinating r label chunks turns t := by
  induction hr with
  | nil => exact ⟨hd, hc⟩
  | snoc _ hs ih => exact ⟨ih.1.step ha hn hs, ih.2.step ih.1 ha hs⟩

end Steps

section Outcome

variable {r : Rules τ} {label : String} {chunks : List (Chunk κ)} {turns : List (Turn κ τ ν)}
  {s : Flight κ τ}

lemma Coordinating.nothing_delivered (h : Coordinating r label chunks turns s)
    (hn : ¬ Decided (chunks.map (·.index)).toFinset (reports r turns)) : deliveries turns = [] := by
  have href := (receiveAll_mirrors label chunks (reports r turns)).reference
  rw [h.delivered, merging, href.delivered_of_undecided hn, List.map_nil]

lemma Coordinating.delivered_once (h : Coordinating r label chunks turns s)
    {before after : List (Signal τ)} {signal : Signal τ}
    (hw : reports r turns = before ++ signal :: after)
    (hn : ¬ Decided (chunks.map (·.index)).toFinset before)
    (hd : Decided (chunks.map (·.index)).toFinset (before ++ [signal])) :
    deliveries turns =
      [(decision (chunks.map (·.index)).toFinset before signal).map .items] := by
  have href := (receiveAll_mirrors label chunks (reports r turns)).reference
  rw [hw] at href
  rw [h.delivered, merging, hw, href.delivered_of_decided hn hd]
  rfl

lemma Coordinating.completes (h : Coordinating r label chunks turns s) (hne : chunks ≠ [])
    (hn : (chunks.map (·.index)).Nodup)
    (hp : ((reports r turns).map Signal.index).Perm (chunks.map (·.index)))
    (hfine : ∀ signal ∈ reports r turns, signal.error? = none) :
    deliveries turns = [.ok (.items ((reports r turns).flatMap Signal.items))] := by
  have hnodup : ((reports r turns).map Signal.index).Nodup := hp.nodup_iff.mpr hn
  have hasked : ∀ signal ∈ reports r turns, signal.index ∈ (chunks.map (·.index)).toFinset := by
    intro signal hsig
    exact List.mem_toFinset.mpr (hp.mem_iff.mp (List.mem_map_of_mem hsig))
  have hdecided : Decided (chunks.map (·.index)).toFinset (reports r turns) := by
    apply decided_of_perm
    · simpa using hne
    · intro i hi
      exact hp.mem_iff.mpr (List.mem_toFinset.mp hi)
  have href := (receiveAll_mirrors label chunks (reports r turns)).reference
  rcases href.cases_decided with ⟨hno, -⟩ | ⟨before, signal, after, hw, hb, hdec, -⟩
  · exact absurd hdecided hno
  have hone := h.delivered_once hw hb hdec
  rw [hw] at hnodup hasked hfine ⊢
  cases signal with
  | failed i e => exact absurd (hfine (.failed i e) (by simp)) (by simp [Signal.error?])
  | completed i items =>
    obtain rfl := nothing_after_cover hnodup hasked (covers_of_decided hb hdec)
    rw [hone, ← gathered_of_nodup hnodup hasked]
    rfl

lemma Coordinating.fails (h : Coordinating r label chunks turns s)
    (hd : Draining r chunks turns s) (hf : HasFailed (reports r turns)) :
    ∃ i e, .failed i e ∈ reports r turns ∧ deliveries turns = [.error e] := by
  have href := (receiveAll_mirrors label chunks (reports r turns)).reference
  rcases href.cases_decided with ⟨hno, -⟩ | ⟨before, signal, after, hw, hb, hdec, -⟩
  · exact absurd (Or.inr hf) hno
  have hone := h.delivered_once hw hb hdec
  cases signal with
  | failed i e => exact ⟨i, e, by simp [hw], hone⟩
  | completed i items =>
    -- All chunks would have completed by now, and none of them reports again.
    have hnodup := hd.nodup_reports
    have hasked : ∀ signal ∈ reports r turns,
        signal.index ∈ (chunks.map (·.index)).toFinset := by
      intro signal hsig
      obtain ⟨c, hc, hi⟩ := hd.report_chunk hsig
      rw [hi]
      exact List.mem_toFinset.mpr (List.mem_map_of_mem hc)
    rw [hw] at hnodup hasked hf
    obtain rfl := nothing_after_cover hnodup hasked (covers_of_decided hb hdec)
    exact absurd (Or.inr ((hasFailed_snoc_completed i items).mp hf)) hb

lemma items_in_order {keys : List κ} {size : ℕ} (hp : Chunk.partition keys size = .ok chunks)
    {signals : List (Signal τ)}
    (hperm : (signals.map Signal.index).Perm (chunks.map (·.index))) {own : Chunk κ → List τ}
    (hown : ∀ signal ∈ signals,
      ∃ c ∈ chunks, signal.index = c.index ∧ signal.items = own c) :
    ∃ order : List (Chunk κ), order.Perm chunks ∧
      signals.flatMap Signal.items = order.flatMap own := by
  have hchunks : List.Forall₂ (fun i c => i = c.index) (chunks.map (·.index)) chunks :=
    List.forall₂_map_left_iff.mpr (List.forall₂_same.mpr fun _ _ => rfl)
  obtain ⟨order, hindex, horder⟩ := List.perm_comp_forall₂ hperm hchunks
  have hsame : signals.map Signal.index = order.map (·.index) :=
    List.forall₂_eq_eq_eq ▸ List.forall₂_map_right_iff.mpr hindex
  -- What a chunk brings is told by its number alone.
  let numbered : ℕ → List τ := fun i => (chunks[i]?.map own).getD []
  have hnumbered {c : Chunk κ} (hc : c ∈ chunks) : numbered c.index = own c := by
    obtain ⟨i, hi⟩ := List.getElem?_of_mem hc
    simp [numbered, Chunk.index_of_getElem? hp hi, hi]
  refine ⟨order, horder, ?_⟩
  calc signals.flatMap Signal.items
      = signals.flatMap (fun signal => numbered signal.index) := by
        apply List.flatMap_congr
        intro signal hsig
        obtain ⟨c, hc, hi, hitems⟩ := hown signal hsig
        rw [hi, hitems, hnumbered hc]
    _ = (order.map (·.index)).flatMap numbered := by rw [← hsame, List.flatMap_map]
    _ = order.flatMap own := by
        rw [List.flatMap_map]
        apply List.flatMap_congr
        intro c hc
        exact hnumbered (horder.mem_iff.mp hc)

lemma Coordinating.delivers_items (h : Coordinating r label chunks turns s)
    (hd : Draining r chunks turns s) {keys : List κ} {size : ℕ}
    (hp : Chunk.partition keys size = .ok chunks) {items : Chunk κ → List τ}
    (hall : ∀ c ∈ chunks, ComesTo r (answersOf turns c.index) (.ok (items c))) :
    ∃ order : List (Chunk κ), order.Perm chunks ∧
      deliveries turns = [.ok (.items (order.flatMap items))] := by
  have hn := Chunk.partition_nodup hp
  have hreport : ∀ signal ∈ reports r turns,
      ∃ c ∈ chunks, signal = .completed c.index (items c) := by
    intro signal hsig
    obtain ⟨c, hmem, o, ho, rfl⟩ := hd.comesTo_of_report hsig
    rw [ho.unique (hall c hmem)]
    exact ⟨c, hmem, rfl⟩
  have hperm := hd.reports_perm_of_comesTo hn fun c hmem => ⟨_, hall c hmem⟩
  have hfine : ∀ signal ∈ reports r turns, signal.error? = none := by
    intro signal hsig
    obtain ⟨c, -, rfl⟩ := hreport signal hsig
    rfl
  have hown : ∀ signal ∈ reports r turns,
      ∃ c ∈ chunks, signal.index = c.index ∧ signal.items = items c := by
    intro signal hsig
    obtain ⟨c, hmem, rfl⟩ := hreport signal hsig
    exact ⟨c, hmem, rfl, rfl⟩
  obtain ⟨order, horder, hitems⟩ := items_in_order hp hperm hown
  refine ⟨order, horder, ?_⟩
  rw [h.completes (Chunk.partition_ne_nil hp) hn hperm hfine, hitems]

lemma Coordinating.delivers_error (h : Coordinating r label chunks turns s)
    (hd : Draining r chunks turns s)
    (herror : ∃ c ∈ chunks, ∃ e, ComesTo r (answersOf turns c.index) (.error e)) :
    ∃ c ∈ chunks, ∃ e, ComesTo r (answersOf turns c.index) (.error e) ∧
      deliveries turns = [.error e] := by
  obtain ⟨c, hmem, e, he⟩ := herror
  have hfailed : .failed c.index e ∈
      (reports r turns).filter fun signal => signal.index = c.index := by
    rw [hd.report_of_comesTo hmem he]
    exact List.mem_singleton_self _
  obtain ⟨i, e', hsig, hdelivered⟩ := h.fails hd ⟨_, e, (List.mem_filter.mp hfailed).1⟩
  obtain ⟨c', hmem', o, ho, hreport⟩ := hd.comesTo_of_report hsig
  cases o with
  | ok items => cases hreport
  | error e'' =>
    cases hreport
    exact ⟨c', hmem', _, ho, hdelivered⟩

lemma deciding_turn {admits : Call κ τ → Answer τ ν → Prop} {s₀ : Flight κ τ}
    (hd : Draining r chunks ([] : List (Turn κ τ ν)) s₀)
    (hc : Coordinating r label chunks ([] : List (Turn κ τ ν)) s₀)
    (hn : (chunks.map (·.index)).Nodup) (ha : AnswersPages admits) (hr : Run admits s₀ turns s)
    {b a : List (Signal τ)} {signal : Signal τ} (hw : reports r turns = b ++ signal :: a)
    (hb : ¬ Decided (chunks.map (·.index)).toFinset b)
    (hs : Decided (chunks.map (·.index)).toFinset (b ++ [signal])) :
    ∃ before turn after, turns = before ++ turn :: after ∧
      reports r before = b ∧ turn.report? r = some signal ∧ reports r after = a ∧
      deliveries before = [] ∧ deliveries after = [] ∧
      turn.delivered =
        some ((decision (chunks.map (·.index)).toFinset b signal).map .items) := by
  obtain ⟨early, rest, rfl, hearly, hrest⟩ := List.filterMap_eq_append_iff.mp hw
  obtain ⟨idle, turn, after, rfl, hidle, hturn, hafter⟩ := List.filterMap_eq_cons_iff.mp hrest
  have hbefore : reports r (early ++ idle) = b := by
    rw [reports, List.filterMap_append, hearly, List.filterMap_eq_nil_iff.mpr hidle,
      List.append_nil]
  have hupto : reports r (early ++ idle ++ [turn]) = b ++ [signal] := by
    rw [reports_snoc, hbefore, hturn]
    rfl
  have hwhole := (chunked_run hd hc hn ha hr).2.delivered_once hw hb hs
  rw [show early ++ (idle ++ turn :: after) = early ++ idle ++ [turn] ++ after by simp] at hr hwhole
  obtain ⟨t, ht⟩ := hr.prior
  obtain ⟨u, hu⟩ := ht.prior
  have hnone : deliveries (early ++ idle) = [] :=
    (chunked_run hd hc hn ha hu).2.nothing_delivered (by rwa [hbefore])
  have hone := (chunked_run hd hc hn ha ht).2.delivered_once hupto hb hs
  refine ⟨early ++ idle, turn, after, by simp, hbefore, hturn, hafter, hnone, ?_, ?_⟩
  · rw [deliveries_append, hone] at hwhole
    exact (List.cons_eq_cons.mp hwhole).2
  · rw [deliveries_snoc, hnone, List.nil_append] at hone
    exact Option.toList_eq_singleton_iff.mp hone

end Outcome

/-- What is to be said of a query over chunks when nothing is left of it. -/
structure DeliversOnce (r : Rules τ) (chunks : List (Chunk κ)) (turns : List (Turn κ τ ν)) :
    Prop where
  finished : ((reports r turns).map Signal.index).Perm (chunks.map (·.index))
  drained : ∀ signal ∈ reports r turns, ∃ o, ComesTo r (answersOf turns signal.index) o ∧
    signal = .report signal.index o
  -- the items come in the order in which the chunks finish, an error from the first that fails
  outcome : ∃ before turn after o, turns = before ++ turn :: after ∧
    deliveries before = [] ∧ turn.delivered = some o ∧ deliveries after = [] ∧
    ((∃ y, o = .ok y) ↔ ∀ signal ∈ reports r turns, signal.error? = none) ∧
    (∀ y, o = .ok y → y = .items ((reports r turns).flatMap Signal.items) ∧
      (turn.report? r).isSome ∧ reports r after = []) ∧
    (∀ e, o = .error e → ∃ i, turn.report? r = some (.failed i e) ∧
      ∀ signal ∈ reports r before, signal.error? = none)

theorem bulk_delivers_once {label : String} {keys : List κ} {size : ℕ} {r : Rules τ}
    {l : Launch κ τ} (hl : Launch.chunked label keys size r = .ok l) {turns : List (Turn κ τ ν)}
    {s : Flight κ τ} (hr : Run Call.Fits l.flight turns s) (hs : s.Idle) :
    ∃ chunks, Chunk.partition keys size = .ok chunks ∧ DeliversOnce r chunks turns := by
  obtain ⟨chunks, hp, hn, hd₀, hc₀⟩ := chunked_flight (ν := ν) hl
  obtain ⟨hd, hc⟩ := chunked_run hd₀ hc₀ hn fits_answersPages hr
  have hperm := hd.reports_perm hs hn
  have hnodup : ((reports r turns).map Signal.index).Nodup := hperm.nodup_iff.mpr hn
  have hasked : ∀ signal ∈ reports r turns, signal.index ∈ (chunks.map (·.index)).toFinset := by
    intro signal hsig
    exact List.mem_toFinset.mpr (hperm.mem_iff.mp (List.mem_map_of_mem hsig))
  have hdecided : Decided (chunks.map (·.index)).toFinset (reports r turns) := by
    refine decided_of_perm ?_ fun i hi => hperm.mem_iff.mpr (List.mem_toFinset.mp hi)
    simpa using Chunk.partition_ne_nil hp
  refine ⟨chunks, hp, hperm, fun signal hsig => hd.report_eq hs hsig, ?_⟩
  have href := (receiveAll_mirrors label chunks (reports r turns)).reference
  rcases href.cases_decided with ⟨hno, -⟩ | ⟨b, signal, a, hw, hb, hdec, -⟩
  · exact absurd hdecided hno
  obtain ⟨before, turn, after, rfl, hbefore, hturn, hafter, hnone, hnomore, hone⟩ :=
    deciding_turn hd₀ hc₀ hn fits_answersPages hr hw hb hdec
  have hfine : ∀ early ∈ b, early.error? = none := not_hasFailed_iff.mp fun hf => hb (Or.inr hf)
  refine ⟨before, turn, after, _, rfl, hnone, hone, hnomore, ?_⟩
  rw [hw] at hnodup hasked ⊢
  cases signal with
  | completed i items =>
    obtain rfl := nothing_after_cover hnodup hasked (covers_of_decided hb hdec)
    have hall : ∀ signal ∈ b ++ [.completed i items], signal.error? = none := by
      intro signal hsig
      rcases List.mem_append.mp hsig with hsig | hsig
      · exact hfine signal hsig
      · rw [List.mem_singleton.mp hsig]
        rfl
    refine ⟨⟨fun _ => hall, fun _ => ⟨_, rfl⟩⟩, ?_, ?_⟩
    · rintro y hy
      obtain rfl := Except.ok.inj hy
      rw [gathered_of_nodup hnodup hasked, hturn]
      exact ⟨rfl, rfl, hafter⟩
    · rintro e he
      cases he
  | failed i e =>
    refine ⟨⟨?_, fun hall => ?_⟩, ?_, ?_⟩
    · rintro ⟨y, hy⟩
      cases hy
    · exact absurd (hall (.failed i e) (by simp)) (by simp [Signal.error?])
    · rintro y hy
      cases hy
    · rintro e' he
      obtain rfl := Except.error.inj he
      exact ⟨i, hturn, hbefore ▸ hfine⟩

theorem bulk_delivers_once_interleaved :
    ∃ (l : Launch ℕ ℕ) (turns : List (Turn ℕ ℕ Unit)) (s : Flight ℕ ℕ),
      Launch.chunked "bulk" [10, 20, 30] 2 {} = .ok l ∧ Run Call.Fits l.flight turns s ∧ s.Idle ∧
      deliveries turns = [.ok (.items [3, 1, 2])] ∧
      ∃ chunks, Chunk.partition [10, 20, 30] 2 = .ok chunks ∧ DeliversOnce {} chunks turns := by
  let c₀ : Chunk ℕ := ⟨0, [10, 20]⟩
  let c₁ : Chunk ℕ := ⟨1, [30]⟩
  have hp : Chunk.partition [10, 20, 30] 2 = .ok [c₀, c₁] := by
    simp [Chunk.partition, Chunk.cut, c₀, c₁]
  let l : Launch ℕ ℕ := launching "bulk" 2 {} [c₀, c₁]
  have hl : Launch.chunked "bulk" [10, 20, 30] 2 {} = .ok l := chunked_eq_ok.mpr ⟨_, hp, rfl⟩
  have h₀ : Run Call.Fits l.flight ([] : List (Turn ℕ ℕ Unit)) l.flight := .nil
  have h₁ := h₀.begin (.page c₀ {}) {.page c₁ {}} rfl
  have h₂ := h₁.begin (.page c₁ {}) 0 rfl
  have h₃ := h₂.answer (.page c₁ {}) {.page c₀ {}} (.page (.ok (.last [3]))) rfl trivial
  have h₄ := h₃.answer (.page c₀ {}) 0 (.page (.ok (.withNext [1] "b"))) rfl trivial
  have h₅ := h₄.begin (.page c₀ (gathered [.ok (.withNext [1] "b")])) 0 rfl
  have h₆ := h₅.answer (.page c₀ (gathered [.ok (.withNext [1] "b")])) 0 (.page (.ok (.last [2])))
    rfl trivial
  exact ⟨_, _, _, hl, h₆, ⟨rfl, rfl⟩, by decide, bulk_delivers_once hl h₆ ⟨rfl, rfl⟩⟩

end Flight

end LedgerQuery
