import LedgerQuery.Proofs.Coordinator.Accounting
import LedgerQuery.Proofs.Flight.Failing
import LedgerQuery.Proofs.Flight.Thread

/-! What is counted in a flight. With the answer to a call its query counts a page that has been
fetched, what the coordinator makes of the report of a chunk, the end of its patience, and its
outcome, each of them once. -/

namespace LedgerQuery

variable {κ τ ν : Type}

namespace Drain

lemma receive_counts (r : Rules τ) (index : ℕ) (p : Progress τ) (a : Outcome (Page τ)) :
    (receive r index p a).2.counts = .replicate a.isOk.toNat .page := by
  cases a with
  | error e => rfl
  | ok page =>
    cases hn : page.next with
    | none =>
      simp only [receive, hn]
      rfl
    | some next =>
      cases ho : objection r p.seen (p.pages + 1) page.items.isEmpty next with
      | none =>
        simp only [receive, hn, ho]
        rfl
      | some e =>
        simp only [receive, hn, ho]
        rfl

end Drain

namespace Retry

lemma receive_counts (label : String) (b : RetryBudget) (a : Outcome (Option ν)) :
    (receive label b a).2.counts =
      match (receive label b a).1 with
      | .finished _ (.error _) => [.retryExhausted]
      | _ => [] := by
  have hmiss : (afterMiss label b : Step ν × Notes).2.counts =
      match (afterMiss label b : Step ν × Notes).1 with
      | .finished _ (.error _) => [.retryExhausted]
      | _ => [] := by
    unfold afterMiss RetryBudget.spend
    split_ifs <;> rfl
  rcases a with e | _ | value
  · exact hmiss
  · exact hmiss
  · rfl

end Retry

def Call.probes : Call κ τ → Bool
  | .probe _ => true
  | .lookup => true
  | _ => false

namespace Turn

def fetched : Turn κ τ ν → Bool
  | answered _ (.page answer) _ => answer.isOk
  | _ => false

def gaveUp : Turn κ τ ν → Bool
  | answered (.probe _) _ effects => effects.delivered.any (!·.isOk)
  | _ => false

def counts : Turn κ τ ν → List Count
  | begun call => call.counts
  | answered _ _ effects => effects.notes.counts ++ effects.onward.toList.flatMap Call.counts

end Turn

namespace Query

open Flight Coordinator

variable {q : Query τ} {call : Call κ τ} {answer : Answer τ ν}

def merged (q : Query τ) (turn : Turn κ τ ν) : List Count :=
  match q.plan with
  | .chunked rules coordinator =>
    (turn.report? rules).toList.flatMap fun signal => (coordinator.receive signal).notes.counts
  | _ => []

@[simp] lemma isOk_map {α β : Type} (f : α → β) (o : Outcome α) : (o.map f).isOk = o.isOk := by
  cases o <;> rfl

section Pages

variable {r : Drain.Rules τ} {c : Chunk κ} {p : Drain.Progress τ} {a : Outcome (Page τ)}
  {o : Outcome (List τ)} {notes : Notes}

lemma effects_single (hp : q.plan = .single r)
    (hd : Drain.receive r c.index p a = (.finished o, notes)) :
    (q.receive (.page c p) (.page a) : Query τ × Effects κ τ ν).2 =
      q.deliver (o.map .items) notes := by
  simp only [receive, receivePage, hp, hd]

lemma effects_chunked {coordinator : Coordinator τ} (hp : q.plan = .chunked r coordinator)
    (hd : Drain.receive r c.index p a = (.finished o, notes)) :
    let reaction := coordinator.receive (.report c.index o)
    (q.receive (.page c p) (.page a) : Query τ × Effects κ τ ν).2 =
      match reaction.delivered with
      | none => { notes := notes ++ reaction.notes }
      | some outcome => q.deliver (outcome.map .items) (notes ++ reaction.notes) := by
  cases o with
  | ok items =>
    simp only [receive, receivePage, hp, hd, Signal.report]
    cases (coordinator.receive (.completed c.index items)).delivered <;> rfl
  | error e =>
    simp only [receive, receivePage, hp, hd, Signal.report]
    cases (coordinator.receive (.failed c.index e)).delivered <;> rfl

lemma counts_page (ht : q.tracked = true) (hq : q.rules? = some r) (c : Chunk κ)
    (p : Drain.Progress τ) (a : Outcome (Page τ)) :
    let effects := (q.receive (.page c p) (.page a) : Query τ × Effects κ τ ν).2
    effects.notes.counts = .replicate a.isOk.toNat .page ++
      q.merged (.answered (.page c p) (.page a) effects) ++
      effects.delivered.toList.map fun o => .queryFinished o.isOk := by
  intro effects
  have hpage := Drain.receive_counts r c.index p a
  -- Only the end of a drain is reported, and only then the coordinator or the query counts.
  cases hd : (Drain.receive r c.index p a).1 with
  | follow p' =>
    have hreport (e : Effects κ τ ν) :
        Turn.report? r (.answered (.page c p) (.page a) e) = none := by
      simp [Turn.report?, hd]
    have hreceive := receive_follow (κ := κ) (ν := ν) hq hd
    cases hp : q.plan with
    | probing policy delay state => simp [rules?, hp] at hq
    | single rules => simp [effects, hreceive, hpage, merged, hp]
    | chunked rules coordinator =>
      obtain rfl : rules = r := by simpa [rules?, hp] using hq
      simp [effects, hreceive, hpage, merged, hp, hreport]
  | finished o =>
    have hreport (e : Effects κ τ ν) :
        Turn.report? r (.answered (.page c p) (.page a) e) = some (.report c.index o) := by
      simp [Turn.report?, hd]
    have hdrain : Drain.receive r c.index p a = (.finished o, (Drain.receive r c.index p a).2) :=
      Prod.ext hd rfl
    cases hp : q.plan with
    | probing policy delay state => simp [rules?, hp] at hq
    | single rules =>
      obtain rfl : rules = r := by simpa [rules?, hp] using hq
      have heffects := effects_single (ν := ν) hp hdrain
      simp [effects, heffects, hpage, merged, hp, deliver, ht]
    | chunked rules coordinator =>
      obtain rfl : rules = r := by simpa [rules?, hp] using hq
      simp only [effects, effects_chunked (ν := ν) hp hdrain, merged, hp, hreport]
      cases (coordinator.receive (.report c.index o)).delivered with
      | none => simp [hpage]
      | some outcome => simp [hpage, deliver, ht]

end Pages

section Probes

lemma counts_probe (ht : q.tracked = true) (budget : RetryBudget) (a : Outcome (Option ν)) :
    let effects := (q.receive (.probe budget) (.probe a) : Query τ × Effects κ τ ν).2
    effects.notes.counts =
      .replicate (effects.delivered.any (!·.isOk)).toNat .retryExhausted ++
        effects.delivered.toList.map fun o => .queryFinished o.isOk := by
  have hretry := Retry.receive_counts q.label budget a
  cases hp : q.plan with
  | chunked rules coordinator => simp [receive, receiveProbe, hp]
  | single rules => simp [receive, receiveProbe, hp]
  | probing policy delay state =>
    simp only [receive, receiveProbe, hp]
    generalize Retry.receive q.label budget a = answered at hretry ⊢
    obtain ⟨step, notes⟩ := answered
    change notes.counts = _ at hretry
    cases step with
    | again delay b => exact hretry
    | finished state' o =>
      cases o with
      | error e => simp [deliver, ht, hretry, Except.map, Except.isOk, Except.toBool]
      | ok value => simp [deliver, ht, hretry, Except.map, Except.isOk, Except.toBool]

lemma counts_create (ht : q.tracked = true) (a : Outcome (Option ν)) :
    let effects := (q.receive .create (.probe a) : Query τ × Effects κ τ ν).2
    effects.notes.counts = effects.delivered.toList.map fun o => .queryFinished o.isOk := by
  cases hp : q.plan with
  | chunked rules coordinator => simp [receive, receiveCreate, hp]
  | single rules => simp [receive, receiveCreate, hp]
  | probing policy delay state =>
    simp only [receive, receiveCreate, hp]
    cases a with
    | ok found => rfl
    | error e => cases e <;> simp [deliver, ht]

lemma counts_lookup (ht : q.tracked = true) (a : Outcome (Option ν)) :
    let effects := (q.receive .lookup (.probe a) : Query τ × Effects κ τ ν).2
    effects.notes.counts = effects.delivered.toList.map fun o => .queryFinished o.isOk := by
  rcases a with e | _ | value
  · simp [receive, receiveLookup, deliver, ht]
  · simp [receive, receiveLookup, deliver, ht]
  · simp [receive, receiveLookup, deliver, ht]

end Probes

lemma merged_eq_nil (hq : q.Solitary) (turn : Turn κ τ ν) : q.merged turn = [] := by
  cases hp : q.plan with
  | chunked rules coordinator => exact absurd hp (hq rules coordinator)
  | single rules => simp [merged, hp]
  | probing policy delay state => simp [merged, hp]

lemma solitary_of_probing (hq : q.rules?.isNone) : q.Solitary := by
  intro rules coordinator hp
  simp [rules?, hp] at hq

lemma counts_receive (ht : q.tracked = true) (hm : q.Makes call) (ha : call.Fits answer) :
    let effects := (q.receive call answer).2
    let turn := Turn.answered call answer effects
    effects.notes.counts = .replicate turn.fetched.toNat .page ++ q.merged turn ++
      .replicate turn.gaveUp.toNat .retryExhausted ++
      effects.delivered.toList.map fun o => .queryFinished o.isOk := by
  intro effects turn
  cases answer with
  | page a =>
    cases call with
    | page c p =>
      obtain ⟨r, hr⟩ := Option.isSome_iff_exists.mp hm.symm
      simpa [turn, effects, Turn.fetched, Turn.gaveUp] using counts_page (ν := ν) ht hr c p a
    | probe budget => exact ha.elim
    | create => exact ha.elim
    | lookup => exact ha.elim
  | probe a =>
    -- A query that probes has no coordinator.
    have hmerged (hq : q.rules?.isSome = false) : q.merged turn = [] :=
      merged_eq_nil (solitary_of_probing (Option.isSome_eq_false_iff.mp hq)) turn
    cases call with
    | page c p => exact ha.elim
    | probe budget =>
      rw [hmerged hm.symm]
      simpa [turn, effects, Turn.fetched, Turn.gaveUp] using counts_probe (κ := κ) ht budget a
    | create =>
      rw [hmerged hm.symm]
      simpa [turn, effects, Turn.fetched, Turn.gaveUp] using counts_create (κ := κ) ht a
    | lookup =>
      rw [hmerged hm.symm]
      simpa [turn, effects, Turn.fetched, Turn.gaveUp] using counts_lookup (κ := κ) ht a

lemma onward_of_delivered {o : Outcome (Yield τ ν)}
    (h : (q.receive call answer).2.delivered = some o) :
    (q.receive call answer).2.onward = none := by
  cases honward : (q.receive call answer).2.onward with
  | none => rfl
  | some next =>
    rw [(receive_onward honward).2.2] at h
    cases h

end Query

def Count.happened (turns : List (Turn κ τ ν)) : Count → ℕ
  | .page => turns.countP Turn.fetched
  | .retryAttempt => (Flight.callsMade turns).countP Call.probes
  | .retryExhausted => turns.countP Turn.gaveUp
  | .queryFinished ok => (Flight.deliveries turns).countP fun o => o.isOk == ok
  | _ => 0

section Happened

variable {count : Count}

lemma happened_append (turns more : List (Turn κ τ ν)) (count : Count) :
    count.happened (turns ++ more) = count.happened turns + count.happened more := by
  cases count <;> simp [Count.happened, Flight.callsMade, Flight.deliveries_append]

lemma happened_singleton (turn : Turn κ τ ν) (count : Count) :
    count.happened [turn] =
      match count with
      | .page => turn.fetched.toNat
      | .retryAttempt => turn.calls.countP Call.probes
      | .retryExhausted => turn.gaveUp.toNat
      | .queryFinished ok => turn.delivered.toList.countP fun o => o.isOk == ok
      | _ => 0 := by
  cases count with
  | page => cases h : turn.fetched <;> simp [Count.happened, h]
  | retryAttempt => simp [Count.happened, Flight.callsMade]
  | retryExhausted => cases h : turn.gaveUp <;> simp [Count.happened, h]
  | queryFinished ok => cases h : turn.delivered <;> simp [Count.happened, Flight.deliveries, h]
  | _ => rfl

lemma happened_le_one (turn : Turn κ τ ν) (count : Count) : count.happened [turn] ≤ 1 := by
  rw [happened_singleton]
  cases count with
  | page => exact Bool.toNat_le _
  | retryAttempt =>
    apply List.countP_le_length.trans
    cases turn with
    | begun call => rfl
    | answered call answer effects => cases h : effects.onward <;> simp [Turn.calls, h]
  | retryExhausted => exact Bool.toNat_le _
  | queryFinished ok =>
    apply List.countP_le_length.trans
    cases turn.delivered <;> simp
  | _ => exact Nat.zero_le 1

lemma happened_of_chunk (h : count.ofChunk = true) (turns : List (Turn κ τ ν)) :
    count.happened turns = 0 := by
  cases count with
  | chunkFinished ok => rfl
  | lateSignal => rfl
  | _ => cases h

lemma count_calls (calls : List (Call κ τ)) (count : Count) :
    (calls.flatMap Call.counts).count count =
      match count with
      | .retryAttempt => calls.countP Call.probes
      | _ => 0 := by
  induction calls with
  | nil => cases count <;> rfl
  | cons call calls ih =>
    rw [List.flatMap_cons, List.count_append, ih, List.countP_cons]
    cases call <;> cases count <;> simp [Call.counts, Call.probes, Nat.add_comm]

lemma count_finished {α : Type} (outcomes : List (Outcome α)) (count : Count) :
    (outcomes.map fun o => Count.queryFinished o.isOk).count count =
      match count with
      | .queryFinished ok => outcomes.countP fun o => o.isOk == ok
      | _ => 0 := by
  induction outcomes with
  | nil => cases count <;> rfl
  | cons o outcomes ih =>
    rw [List.map_cons, List.count_cons, ih]
    cases count <;> simp [List.countP_cons]

end Happened

structure Turn.Counted (turn : Turn κ τ ν) : Prop where
  happened : ∀ count : Count, count.ofChunk = false →
    turn.counts.count count = count.happened [turn]
  once : ∀ count, turn.counts.count count ≤ 1

namespace Flight

open Drain Coordinator

variable {turns : List (Turn κ τ ν)} {turn : Turn κ τ ν} {s t : Flight κ τ}

lemma ofChunk_merged {q : Query τ} {count : Count} (h : count ∈ q.merged turn) :
    count.ofChunk = true := by
  unfold Query.merged at h
  split at h
  · obtain ⟨signal, -, h⟩ := List.mem_flatMap.mp h
    obtain ⟨other, hother, hchunk, -⟩ := receive_counts _ signal
    rw [hother, List.mem_singleton] at h
    rwa [h]
  · exact absurd h List.not_mem_nil

lemma length_merged_le (q : Query τ) (turn : Turn κ τ ν) : (q.merged turn).length ≤ 1 := by
  unfold Query.merged
  split
  · next rules coordinator _ =>
    cases turn.report? rules with
    | none => simp
    | some signal =>
      obtain ⟨other, hother, -⟩ := receive_counts coordinator signal
      simp [hother]
  · exact Nat.zero_le 1

lemma merged_begun (q : Query τ) (call : Call κ τ) :
    q.merged (.begun call : Turn κ τ ν) = [] := by
  unfold Query.merged
  split <;> rfl

lemma countP_deliveries (p : Outcome (Yield τ ν) → Bool) (turns : List (Turn κ τ ν)) :
    (deliveries turns).countP p = (turns.map fun turn => turn.delivered.toList.countP p).sum := by
  induction turns using List.reverseRecOn with
  | nil => rfl
  | append_singleton turns turn ih => simp [deliveries_snoc, ih]

lemma Step.mono {admits admits' : Call κ τ → Answer τ ν → Prop} (h : Step admits s turn t)
    (ha : ∀ call answer, admits call answer → admits' call answer) : Step admits' s turn t := by
  cases h with
  | begin ht => exact .begin ht
  | answer hc hadmits => exact .answer hc (ha _ _ hadmits)

lemma Run.mono {admits admits' : Call κ τ → Answer τ ν → Prop} (h : Run admits s turns t)
    (ha : ∀ call answer, admits call answer → admits' call answer) : Run admits' s turns t := by
  induction h with
  | nil => exact .nil
  | snoc _ hs ih => exact ih.snoc (hs.mono ha)

structure Counting (s : Flight κ τ) : Prop where
  made : Made s
  tracked : s.query.tracked = true

lemma Counting.step (h : Counting s) (hs : Step Call.Fits s turn t) : Counting t :=
  ⟨h.made.step hs, hs.continues.2.2.trans h.tracked⟩

lemma Counting.run (h : Counting s) (hr : Run Call.Fits s turns t) : Counting t := by
  induction hr with
  | nil => exact h
  | snoc _ hs ih => exact ih.step hs

lemma Counting.count (h : Counting s) (hs : Step Call.Fits s turn t) (count : Count) :
    turn.counts.count count = count.happened [turn] + (s.query.merged turn).count count := by
  cases hs with
  | @begin task rest _ =>
    have hcounts : (.begun task.call : Turn κ τ ν).counts = [task.call].flatMap Call.counts :=
      (List.flatMap_singleton _ _).symm
    rw [hcounts, count_calls, happened_singleton, merged_begun]
    cases count <;> rfl
  | @answer call rest answer hc hadmits =>
    have hmakes := h.made.calls call (by simp [hc])
    have hcounts := Query.counts_receive h.tracked hmakes hadmits
    rw [Turn.counts, hcounts, happened_singleton]
    simp only [List.count_append, count_finished, count_calls, List.count_replicate]
    cases count <;> simp [Turn.calls, Turn.delivered] <;> omega

lemma Counting.counted (h : Counting s) (hs : Step Call.Fits s turn t) : turn.Counted := by
  have hown (count : Count) (hc : count.ofChunk = false) :
      turn.counts.count count = count.happened [turn] := by
    have hnone : count ∉ s.query.merged turn := fun hmem => by simp [ofChunk_merged hmem] at hc
    rw [h.count hs, List.count_eq_zero_of_not_mem hnone, Nat.add_zero]
  refine ⟨hown, fun count => ?_⟩
  -- What is of a chunk comes from the coordinator alone, everything else from the turn alone.
  cases hc : count.ofChunk with
  | true =>
    rw [h.count hs, happened_of_chunk hc, Nat.zero_add]
    exact List.count_le_length.trans (length_merged_le _ _)
  | false =>
    rw [hown count hc]
    exact happened_le_one turn count

lemma Counting.all_counted (h : Counting s) (hr : Run Call.Fits s turns t) :
    ∀ turn ∈ turns, turn.Counted := by
  induction hr with
  | nil => simp
  | snoc hr hs ih =>
    intro turn hturn
    rcases List.mem_append.mp hturn with hturn | hturn
    · exact ih turn hturn
    · rw [List.mem_singleton.mp hturn]
      exact (h.run hr).counted hs

lemma count_turns (h : ∀ turn ∈ turns, turn.Counted) {count : Count}
    (hc : count.ofChunk = false) :
    (turns.flatMap Turn.counts).count count = count.happened turns := by
  induction turns using List.reverseRecOn with
  | nil => cases count <;> rfl
  | append_singleton turns turn ih =>
    have hrest := ih fun other hmem => h other (List.mem_append_left _ hmem)
    have hlast := (h turn (by simp)).happened count hc
    rw [List.flatMap_append, List.count_append, List.flatMap_singleton, hrest, hlast,
      happened_append]

lemma Counting.count_alone (h : Counting s) (hs : s.query.Solitary)
    (hr : Run Call.Fits s turns t) {count : Count} (hc : count.ofChunk = true) :
    (turns.flatMap Turn.counts).count count = 0 ∧ t.query.Solitary := by
  induction hr with
  | nil => exact ⟨rfl, hs⟩
  | snoc hr hstep ih =>
    refine ⟨?_, hstep.continues.2.1 ih.2⟩
    rw [List.flatMap_append, List.count_append, ih.1, List.flatMap_singleton,
      (h.run hr).count hstep, Query.merged_eq_nil ih.2, happened_of_chunk hc]
    rfl

lemma Counting.count_chunked {r : Rules τ} {label : String} {chunks : List (Chunk κ)}
    (h : Counting s) (hd : Draining r chunks ([] : List (Turn κ τ ν)) s)
    (hc : Coordinating r label chunks ([] : List (Turn κ τ ν)) s)
    (hn : (chunks.map (·.index)).Nodup) (hr : Run Call.Fits s turns t) {count : Count}
    (hcount : count.ofChunk = true) :
    (turns.flatMap Turn.counts).count count =
      (merging label chunks (reports r turns)).notes.counts.count count := by
  induction hr with
  | nil => simp [merging, reports, receiveAll]
  | @snoc turns turn t u hr hstep ih =>
    -- The coordinator stands where the reports so far have brought it, and takes in one more.
    have hplan := (chunked_run hd hc hn fits_answersPages hr).2.plan
    have hmerged : t.query.merged turn = (turn.report? r).toList.flatMap fun signal =>
        ((merging label chunks (reports r turns)).coordinator.receive signal).notes.counts := by
      rw [Query.merged, hplan]
    rw [List.flatMap_append, List.count_append, ih, List.flatMap_singleton,
      (h.run hr).count hstep, happened_of_chunk hcount, reports_snoc, hmerged, Nat.zero_add]
    cases turn.report? r with
    | none => simp
    | some signal =>
      rw [Option.toList_some, merging, merging, receiveAll_snoc]
      simp [List.count_append]

section Chunked

variable {r : Rules τ} {label : String} {size : ℕ} {chunks : List (Chunk κ)}

lemma counting_launching (label : String) (size : ℕ) (r : Rules τ) (chunks : List (Chunk κ)) :
    Counting (launching label size r chunks).flight := by
  refine ⟨made_flight ?_, rfl⟩
  intro task ht
  simp only [launching, List.map_nil, List.append_nil, List.mem_map] at ht
  obtain ⟨c, -, rfl⟩ := ht
  rfl

lemma launching_counts (hn : (chunks.map (·.index)).Nodup)
    (hr : Run Call.Fits (launching label size r chunks).flight turns s) :
    let counts := turns.flatMap Turn.counts
    counts.count (.chunkFinished true) + counts.count (.chunkFinished false) +
        counts.count .lateSignal = (reports r turns).length ∧
      counts.count (.chunkFinished false) = (deliveries turns).countP fun o => !o.isOk := by
  intro counts
  obtain ⟨-, hc⟩ := launching_run hn fits_answersPages hr
  obtain ⟨hchunk, hlen, hfailed⟩ :=
    receiveAll_counts (Coordinator.start label chunks) (reports r turns)
  have hcount {count : Count} (h : count.ofChunk = true) :=
    (counting_launching label size r chunks).count_chunked (launching_flight hn) ⟨rfl, rfl⟩ hn hr h
  refine ⟨?_, ?_⟩
  · simp only [counts]
    rw [hcount rfl, hcount rfl, hcount rfl, merging, Count.length_ofChunk hchunk, hlen]
  · simp only [counts]
    rw [hcount rfl, hc.delivered, List.countP_map, merging, hfailed]
    apply List.countP_congr
    intro o _
    simp

lemma Coordinating.length_deliveries (h : Coordinating r label chunks turns s) :
    (deliveries turns).length ≤ 1 ∧
      (Decided (chunks.map (·.index)).toFinset (reports r turns) →
        (deliveries turns).length = 1) := by
  have href := (receiveAll_mirrors label chunks (reports r turns)).reference
  -- Either the reports decide nothing yet, or the first that decides is the one delivered.
  rcases href.cases_decided with ⟨hno, -⟩ | ⟨before, signal, after, hw, hb, hdec, -⟩
  · exact ⟨by simp [h.nothing_delivered hno], fun hdecided => absurd hdecided hno⟩
  · have hone := h.delivered_once hw hb hdec
    exact ⟨by simp [hone], fun _ => by simp [hone]⟩

lemma Draining.length_reports (h : Draining r chunks turns s)
    (hn : (chunks.map (·.index)).Nodup) :
    (chunks.countP fun c => c.index ∈ (reports r turns).map Signal.index) =
      (reports r turns).length := by
  -- Each chunk reports once, so the reports are the chunks that have reported, in another order.
  have hperm : ((chunks.map (·.index)).filter (· ∈ (reports r turns).map Signal.index)).Perm
      ((reports r turns).map Signal.index) := by
    apply (List.perm_ext_iff_of_nodup (hn.filter _) h.nodup_reports).mpr
    intro i
    rw [List.mem_filter, decide_eq_true_iff]
    refine ⟨fun hi => hi.2, fun hi => ⟨?_, hi⟩⟩
    obtain ⟨signal, hsig, rfl⟩ := List.mem_map.mp hi
    obtain ⟨c, hc, hindex⟩ := h.report_chunk hsig
    exact List.mem_map.mpr ⟨c, hc, hindex.symm⟩
  have hlen := hperm.length_eq
  rw [← List.countP_eq_length_filter, List.countP_map, List.length_map] at hlen
  exact hlen

end Chunked

end Flight

end LedgerQuery
