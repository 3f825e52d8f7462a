import LedgerQuery.Proofs.Counters.Recording
import LedgerQuery.Proofs.Flight.Counting
import LedgerQuery.Proofs.Simulation.Pending
import LedgerQuery.Proofs.Traffic.Projection

/-! The counters of an orchestrator in any traffic: at every moment they tell how many queries have
been started and finished, how many pages fetched, probes made and chunks drained. -/

namespace LedgerQuery

variable {κ τ ν : Type}

namespace Roster

variable {r : Roster τ} {n : ℕ} {q : Query τ}

lemma counters_count (h : q.counted = true) (counts : List Count) :
    (r.count q counts).counters = r.counters.recordAll counts := by
  simp [count, h]

lemma counters_launch {l : Launch κ τ} (h : l.query.counted = true) :
    (r.launch l).counters = r.counters.recordAll l.notes.counts :=
  counters_count h _

lemma counters_begin (hn : r.queries[n]? = some q) (h : q.counted = true) (call : Call κ τ) :
    (r.begin n call).counters = r.counters.recordAll call.counts := by
  rw [begin, hn]
  exact counters_count h _

lemma counters_receive (hn : r.queries[n]? = some q) (h : q.counted = true) (call : Call κ τ)
    (answer : Answer τ ν) :
    (r.receive n call answer).1.counters =
      r.counters.recordAll (r.receive n call answer).2.notes.counts := by
  rw [receive, hn]
  exact counters_count ((q.receive_continues call answer).counted.trans h) _

end Roster

namespace Move

def counts : Move κ τ ν → List Count
  | launched l => l.notes.counts
  | turned _ turn => turn.counts
  | cancelled => []

def anyTurn? : Move κ τ ν → Option (Turn κ τ ν)
  | turned _ turn => some turn
  | _ => none

end Move

namespace Traffic

variable {admits : ℕ → Call κ τ → Answer τ ν → Prop} {moves : List (Move κ τ ν)}
  {move : Move κ τ ν} {s t : Traffic κ τ}

structure Shown (moves : List (Move κ τ ν)) (s : Traffic κ τ) : Prop where
  counted : ∀ q ∈ s.roster.queries, q.counted = true
  counters : s.roster.counters = Counters.recordAll {} (moves.flatMap Move.counts)

lemma Shown.snoc (h : Shown moves s) (hq : ∀ q ∈ t.roster.queries, q.counted = true)
    (hc : t.roster.counters = s.roster.counters.recordAll move.counts) :
    Shown (moves ++ [move]) t := by
  refine ⟨hq, ?_⟩
  rw [List.flatMap_append, Counters.recordAll_append, ← h.counters, List.flatMap_singleton, hc]

lemma Shown.launch (h : Shown moves s) {l : Launch κ τ} (hl : l.query.counted = true) :
    Shown (moves ++ [.launched l] : List (Move κ τ ν)) (s.launch l) := by
  apply h.snoc
  · simp only [Traffic.launch, Roster.queries_launch, List.mem_append, List.mem_singleton]
    rintro q (hq | rfl)
    · exact h.counted q hq
    · exact hl
  · exact Roster.counters_launch hl

lemma Shown.start (h : Shown moves s) {n : ℕ} (hn : n < s.roster.queries.length)
    (task : Task κ τ) (rest : Multiset (ℕ × Task κ τ)) :
    Shown (moves ++ [.turned n (.begun task.call)]) (s.start n task rest) := by
  apply h.snoc
  · simp only [Traffic.start, Roster.queries_begin]
    exact h.counted
  · exact Roster.counters_begin (List.getElem?_eq_getElem hn) (h.counted _ (List.getElem_mem hn)) _

lemma Shown.settle (h : Shown moves s) {sent : Sent κ τ}
    (hn : sent.query < s.roster.queries.length) (answer : Answer τ ν) (rest : Multiset (Sent κ τ)) :
    Shown (moves ++ [.turned sent.query
      (.answered sent.call answer (s.roster.receive sent.query sent.call answer).2)])
      (s.settle sent answer rest) := by
  have hq := List.getElem?_eq_getElem hn
  have hcounted := h.counted _ (List.getElem_mem hn)
  have hafter := (s.roster.queries[sent.query].receive_continues sent.call answer).counted
  have hqueries := (Roster.receive_of_some hq sent.call answer).1
  have hcounters := Roster.counters_receive hq hcounted sent.call answer
  apply h.snoc
  · rw [queries_settle, hqueries]
    intro q hmem
    rcases List.mem_or_eq_of_mem_set hmem with hmem | rfl
    · exact h.counted q hmem
    · exact hafter.trans hcounted
  · simp only [Traffic.settle, Move.counts, Turn.counts, Counters.recordAll_append, ← hcounters]
    cases (s.roster.receive sent.query sent.call answer).2.onward with
    | none => rfl
    | some call =>
      have hn' : (s.roster.receive sent.query sent.call answer).1.queries[sent.query]? =
          some (s.roster.queries[sent.query].receive sent.call answer).1 := by
        rw [hqueries, List.getElem?_set_self hn]
      simpa using Roster.counters_begin hn' (hafter.trans hcounted) call

lemma Shown.step (h : Shown moves s) (hc : Coherent moves s) (hs : Step admits s move t)
    (hl : ∀ l, move = .launched l → l.query.counted = true) : Shown (moves ++ [move]) t := by
  cases hs with
  | launch => exact h.launch (hl _ rfl)
  | cancel => exact h.snoc h.counted rfl
  | @begin n task rest ht =>
    exact h.start (hc.task_lt (show (n, task) ∈ s.tasks by simp [ht])) task rest
  | answer hsends _ => exact h.settle (hc.send_lt (by simp [hsends])) _ _

lemma Run.shown (h : Run admits {} moves s) (hl : ∀ l ∈ launches moves, l.query.counted = true) :
    Shown moves s := by
  induction h with
  | nil => exact ⟨by simp, rfl⟩
  | @snoc moves move s t hr hs ih =>
    rw [launches_snoc] at hl
    refine (ih fun l hmem => hl l (List.mem_append_left _ hmem)).step hr.coherent hs ?_
    rintro l rfl
    exact hl l (List.mem_append_right _ (by simp [Move.launch?]))

def turns (moves : List (Move κ τ ν)) : List (Turn κ τ ν) := moves.filterMap Move.anyTurn?

section Totals

lemma turns_snoc (moves : List (Move κ τ ν)) (move : Move κ τ ν) :
    turns (moves ++ [move]) = turns moves ++ move.anyTurn?.toList := by
  cases h : move.anyTurn? <;> simp [turns, h]

lemma count_moves (moves : List (Move κ τ ν)) (count : Count) :
    (moves.flatMap Move.counts).count count =
      ((launches moves).flatMap fun l => l.notes.counts).count count +
        ((turns moves).flatMap Turn.counts).count count := by
  induction moves using List.reverseRecOn with
  | nil => rfl
  | append_singleton moves move ih =>
    rw [launches_snoc, turns_snoc]
    simp only [List.flatMap_append, List.count_append, ih, List.flatMap_singleton]
    cases move <;> simp [Move.launch?, Move.anyTurn?, Move.counts] <;> omega

lemma turned_lt (h : Coherent moves s) {n : ℕ} {turn : Turn κ τ ν}
    (hmem : .turned n turn ∈ moves) : n < (launches moves).length := by
  by_contra hle
  -- A query has no turns before it is launched.
  rw [← h.launched, not_lt] at hle
  have hturn : turn ∈ queryTurns moves n := List.mem_filterMap.mpr ⟨_, hmem, if_pos rfl⟩
  rw [(h.unborn n hle).2] at hturn
  exact List.not_mem_nil hturn

lemma mem_queryTurns (h : Coherent moves s) {turn : Turn κ τ ν} (hturn : turn ∈ turns moves) :
    ∃ n < (launches moves).length, turn ∈ queryTurns moves n := by
  obtain ⟨move, hmove, hany⟩ := List.mem_filterMap.mp hturn
  cases move with
  | launched l => cases hany
  | cancelled => cases hany
  | turned n turn' =>
    obtain rfl := Option.some.inj hany
    exact ⟨n, turned_lt h hmove, List.mem_filterMap.mpr ⟨_, hmove, if_pos rfl⟩⟩

lemma sum_turns (f : Turn κ τ ν → ℕ) {size : ℕ}
    (h : ∀ n turn, .turned n turn ∈ moves → n < size) :
    ((turns moves).map f).sum = ∑ n : Fin size, ((queryTurns moves n).map f).sum := by
  induction moves using List.reverseRecOn with
  | nil => simp [turns, queryTurns]
  | append_singleton moves move ih =>
    have hrest := ih fun n turn hmem => h n turn (List.mem_append_left _ hmem)
    have hlast : (move.anyTurn?.toList.map f).sum =
        ∑ n : Fin size, ((move.turn? n).toList.map f).sum := by
      cases move with
      | launched l => simp [Move.anyTurn?, Move.turn?]
      | cancelled => simp [Move.anyTurn?, Move.turn?]
      | turned m turn =>
        have hm : m < size := h m turn (by simp)
        -- Of all the queries only one has this turn.
        rw [Finset.sum_eq_single ⟨m, hm⟩]
        · simp [Move.anyTurn?, Move.turn?]
        · intro n _ hn
          have hne : m ≠ n := fun hmn => hn (Fin.ext hmn.symm)
          simp [Move.turn?, hne]
        · simp
    simp only [turns_snoc, queryTurns_snoc, List.map_append, List.sum_append]
    rw [Finset.sum_add_distrib, hrest, hlast]

end Totals

end Traffic

inductive Submission (κ τ : Type) where
  | bulk (label : String) (keys : List κ) (size : ℕ) (rules : Drain.Rules τ)
  | paged (label : String) (rules : Drain.Rules τ)
  | retrying (label : String) (policy : RetryPolicy) (delay : Option Span)
  | creating (label : String) (policy : RetryPolicy) (delay : Span)

namespace Submission

open Flight

def launch : Submission κ τ → Outcome (Launch κ τ)
  | bulk label keys size rules => Launch.chunked label keys size rules
  | paged label rules => .ok (.paged label rules)
  | retrying label policy delay => .ok (.retrying label policy delay)
  | creating label policy delay => .ok (.createAndAwait label policy delay)

def chunksEnded (turns : List (Turn κ τ ν)) : Submission κ τ → ℕ
  | bulk _ keys size rules =>
    match Chunk.partition keys size with
    | .ok chunks => chunks.countP fun c => c.index ∈ (reports rules turns).map Signal.index
    | .error _ => 0
  | _ => 0

def bulkFailed (turns : List (Turn κ τ ν)) : Submission κ τ → Bool
  | bulk _ _ _ _ => (deliveries turns).any fun o => !o.isOk
  | _ => false

structure Tallied (submission : Submission κ τ) (turns : List (Turn κ τ ν)) (f : Flight κ τ) :
    Prop where
  once : (deliveries turns).length ≤ 1
  settles : f.Idle → (deliveries turns).length = 1
  chunks : (turns.flatMap Turn.counts).count (.chunkFinished true) +
    (turns.flatMap Turn.counts).count (.chunkFinished false) +
      (turns.flatMap Turn.counts).count .lateSignal = submission.chunksEnded turns
  failed : (turns.flatMap Turn.counts).count (.chunkFinished false) =
    (submission.bulkFailed turns).toNat

variable {submission : Submission κ τ} {l : Launch κ τ} {turns : List (Turn κ τ ν)}
  {f : Flight κ τ}

lemma alone_retrying (label : String) (policy : RetryPolicy) (delay : Option Span) :
    Alone ([] : List (Turn κ τ ν)) (Launch.retrying label policy delay : Launch κ τ).flight := by
  apply alone_flight (.probe policy.budget) (fun _ _ h => by cases h)
  · cases delay <;> rfl
  · rfl

lemma tallied_alone (hends : submission.chunksEnded turns = 0)
    (hfails : submission.bulkFailed turns = false)
    (h : Alone ([] : List (Turn κ τ ν)) l.flight) (ht : l.query.tracked = true)
    (hr : Run Call.Fits l.flight turns f) : submission.Tallied turns f := by
  have hcounting : Counting l.flight := ⟨h.made, ht⟩
  have hcount {count : Count} (hchunk : count.ofChunk = true) :=
    (hcounting.count_alone h.solitary hr hchunk).1
  obtain ⟨halone, -⟩ := h.run (fun _ _ _ hfits => hfits) hr
  have hone := halone.one
  refine ⟨by omega, fun hs => ?_, ?_, ?_⟩
  · rw [hs.1, hs.2] at hone
    simpa using hone
  · rw [hcount rfl, hcount rfl, hcount rfl, hends]
  · rw [hcount rfl, hfails]
    rfl

lemma tallied_bulk {label : String} {keys : List κ} {size : ℕ} {r : Drain.Rules τ}
    {chunks : List (Chunk κ)} (hp : Chunk.partition keys size = .ok chunks)
    (hr : Run Call.Fits (launching label size r chunks).flight turns f) :
    (bulk label keys size r : Submission κ τ).Tallied turns f := by
  have hn := Chunk.partition_nodup hp
  obtain ⟨hd, hc⟩ := launching_run hn fits_answersPages hr
  obtain ⟨hchunks, hfailed⟩ := launching_counts hn hr
  obtain ⟨hle, hone⟩ := hc.length_deliveries
  refine ⟨hle, fun hs => hone (hd.decided hs hn (Chunk.partition_ne_nil hp)), ?_, ?_⟩
  · rw [hchunks, chunksEnded, hp]
    exact (hd.length_reports hn).symm
  · rw [hfailed, bulkFailed]
    rcases hdeliveries : deliveries turns with _ | ⟨o, _ | ⟨o', rest⟩⟩
    · rfl
    · cases o <;> rfl
    · simp [hdeliveries] at hle

lemma counting_launch (h : submission.launch = .ok l) :
    l.query.counted = true ∧ l.notes.counts = [.queryStarted] ∧ Counting l.flight := by
  cases submission with
  | bulk label keys size r =>
    obtain ⟨chunks, -, rfl⟩ := chunked_eq_ok.mp h
    exact ⟨rfl, rfl, counting_launching label size r chunks⟩
  | paged label r =>
    obtain rfl := Except.ok.inj h
    exact ⟨rfl, rfl, (alone_paged (ν := Unit) label r).made, rfl⟩
  | retrying label policy delay =>
    obtain rfl := Except.ok.inj h
    exact ⟨rfl, rfl, (alone_retrying (ν := Unit) label policy delay).made, rfl⟩
  | creating label policy delay =>
    obtain rfl := Except.ok.inj h
    exact ⟨rfl, rfl, (alone_creating (ν := Unit) label policy delay).made, rfl⟩

lemma tallied (h : submission.launch = .ok l) (hr : Run Call.Fits l.flight turns f) :
    submission.Tallied turns f := by
  cases submission with
  | bulk label keys size r =>
    obtain ⟨chunks, hp, rfl⟩ := chunked_eq_ok.mp h
    exact tallied_bulk hp hr
  | paged label r =>
    obtain rfl := Except.ok.inj h
    exact tallied_alone rfl rfl (alone_paged label r) rfl hr
  | retrying label policy delay =>
    obtain rfl := Except.ok.inj h
    exact tallied_alone rfl rfl (alone_retrying label policy delay) rfl hr
  | creating label policy delay =>
    obtain rfl := Except.ok.inj h
    exact tallied_alone rfl rfl (alone_creating label policy delay) rfl hr

end Submission

namespace Traffic

open Flight Finset

/-- What the counters tell: what has been started and delivered, fetched and tried, and how the
drained chunks have been counted. -/
structure Accounts (accepted : List (Submission κ τ)) (moves : List (Move κ τ ν))
    (m : Counters) : Prop where
  started : m.started.toNat = accepted.length
  finished : m.succeeded.toNat + m.failed.toNat +
    #{n : Fin accepted.length | (deliveries (queryTurns moves n)).isEmpty} = accepted.length
  succeeded : m.succeeded.toNat = (deliveries (turns moves)).countP fun o => o.isOk
  failed : m.failed.toNat = (deliveries (turns moves)).countP fun o => !o.isOk
  pages : m.pages.toNat = (turns moves).countP Turn.fetched
  attempts : m.attempts.toNat = (callsMade (turns moves)).countP Call.probes
  chunks : m.chunksCompleted.toNat + m.chunksFailed.toNat + m.lateSignals.toNat =
    ∑ n : Fin accepted.length, accepted[n].chunksEnded (queryTurns moves n)
  chunksFailed : m.chunksFailed.toNat =
    #{n : Fin accepted.length | accepted[n].bulkFailed (queryTurns moves n)}

def Accepted (accepted : List (Submission κ τ)) (moves : List (Move κ τ ν)) : Prop :=
  List.Forall₂ (fun submission l => submission.launch = .ok l) accepted (launches moves)

variable {accepted : List (Submission κ τ)} {moves : List (Move κ τ ν)} {s : Traffic κ τ}

lemma admitted_fits {n : ℕ} {call : Call κ τ} {answer : Answer τ ν}
    (h : admitted (fun _ => Call.Fits) n call answer) : call.Fits answer := by
  rcases h with h | rfl
  · exact h
  · cases call <;> trivial

section Session

variable (hr : Run (fun _ => Call.Fits) {} moves s) (ha : Accepted accepted moves)

include hr ha

lemma flight_of_accepted (n : Fin accepted.length) :
    ∃ l f, accepted[n].launch = .ok l ∧ s.Carries n f ∧
      Flight.Run Call.Fits l.flight (queryTurns moves n) f := by
  have hn : (n : ℕ) < (launches moves).length := ha.length_eq ▸ n.isLt
  obtain ⟨f, hcarries, hflight⟩ := hr.carries (List.getElem?_eq_getElem hn)
  exact ⟨_, f, ha.get n.isLt hn, hcarries, hflight.mono fun _ _ => admitted_fits⟩

lemma tallied_of_accepted (n : Fin accepted.length) :
    ∃ f, s.Carries n f ∧ accepted[n].Tallied (queryTurns moves n) f := by
  obtain ⟨l, f, hl, hcarries, hflight⟩ := flight_of_accepted hr ha n
  exact ⟨f, hcarries, Submission.tallied hl hflight⟩

lemma counted_of_accepted : ∀ turn ∈ turns moves, turn.Counted := by
  intro turn hturn
  obtain ⟨n, hn, hmem⟩ := mem_queryTurns hr.coherent hturn
  obtain ⟨l, f, hl, -, hflight⟩ := flight_of_accepted hr ha ⟨n, ha.length_eq ▸ hn⟩
  exact (Submission.counting_launch hl).2.2.all_counted hflight turn hmem

omit hr in
lemma launched_of_accepted {l : Launch κ τ} (hl : l ∈ launches moves) :
    l.query.counted = true ∧ l.notes.counts = [.queryStarted] := by
  obtain ⟨n, hn, rfl⟩ := List.getElem_of_mem hl
  have hn' : n < accepted.length := ha.length_eq ▸ hn
  obtain ⟨hcounted, hnotes, -⟩ := Submission.counting_launch (ha.get hn' hn)
  exact ⟨hcounted, hnotes⟩

omit hr in
lemma count_launches (count : Count) :
    ((launches moves).flatMap fun l => l.notes.counts).count count =
      if count = .queryStarted then accepted.length else 0 := by
  have hcounts : (launches moves).flatMap (fun l => l.notes.counts) =
      .replicate accepted.length .queryStarted := by
    have hone := List.flatMap_congr fun l hl => (launched_of_accepted ha hl).2
    have hmap := List.map_eq_flatMap (f := fun _ : Launch κ τ => Count.queryStarted)
      (l := launches moves)
    rw [hone, ← hmap, List.map_const', ha.length_eq]
  rw [hcounts, List.count_replicate]
  by_cases h : count = .queryStarted
  · simp [h]
  · simp [h, Ne.symm h]

lemma count_moves_le (count : Count) : (moves.flatMap Move.counts).count count ≤ moves.length := by
  have hone : ∀ move ∈ moves, move.counts.count count ≤ 1 := by
    intro move hmove
    cases move with
    | launched l =>
      have hl : l ∈ launches moves := List.mem_filterMap.mpr ⟨_, hmove, rfl⟩
      rw [Move.counts, (launched_of_accepted ha hl).2]
      exact List.count_le_length
    | cancelled => exact Nat.zero_le 1
    | turned n turn =>
      have hturn : turn ∈ turns moves := List.mem_filterMap.mpr ⟨_, hmove, rfl⟩
      exact (counted_of_accepted hr ha turn hturn).once count
  rw [List.count_flatMap]
  have hsum := List.sum_le_card_nsmul (moves.map (List.count count ∘ Move.counts)) 1
  simp only [List.length_map, smul_eq_mul, mul_one] at hsum
  apply hsum
  simpa using hone

lemma value_of_accepted (hm : moves.length < 2 ^ 64) (count : Count) :
    (s.roster.counters.value count).toNat =
      (if count = .queryStarted then accepted.length else 0) +
        ((turns moves).flatMap Turn.counts).count count := by
  have hshown := hr.shown fun l hl => (launched_of_accepted ha hl).1
  -- There are too few moves for the counter to wrap around.
  have hlt := (count_moves_le hr ha count).trans_lt hm
  rw [hshown.counters, Counters.value_fresh, UInt64.toNat_ofNat', Nat.mod_eq_of_lt hlt,
    count_moves, count_launches ha]

lemma value_of_happened (hm : moves.length < 2 ^ 64) (count : Count) (hc : count.ofChunk = false) :
    (s.roster.counters.value count).toNat =
      (if count = .queryStarted then accepted.length else 0) + count.happened (turns moves) := by
  rw [value_of_accepted hr ha hm, count_turns (counted_of_accepted hr ha) hc]

lemma countP_of_accepted (p : Outcome (Yield τ ν) → Bool) :
    (deliveries (turns moves)).countP p =
      #{n : Fin accepted.length | (deliveries (queryTurns moves n)).any p} := by
  have hlt (n : ℕ) (turn : Turn κ τ ν) (hmem : .turned n turn ∈ moves) : n < accepted.length :=
    ha.length_eq ▸ turned_lt hr.coherent hmem
  rw [countP_deliveries, sum_turns _ hlt, Finset.card_filter]
  apply Finset.sum_congr rfl
  intro n _
  obtain ⟨f, -, htallied⟩ := tallied_of_accepted hr ha n
  have hone := htallied.once
  rw [← countP_deliveries]
  -- A query delivers at most once, so its outcomes can be counted by queries.
  rcases hdeliveries : deliveries (queryTurns moves n) with _ | ⟨o, _ | ⟨o', rest⟩⟩
  · rfl
  · simp [List.countP_cons]
  · simp [hdeliveries] at hone

lemma deliveries_of_accepted :
    (deliveries (turns moves)).length +
      #{n : Fin accepted.length | (deliveries (queryTurns moves n)).isEmpty} = accepted.length := by
  have hsome := countP_of_accepted hr ha fun _ => true
  rw [List.countP_true] at hsome
  -- The queries are split into those that have delivered and those that have not.
  calc _ = #{n : Fin accepted.length | (deliveries (queryTurns moves n)).any fun _ => true} +
        #{n : Fin accepted.length | ¬ (deliveries (queryTurns moves n)).any fun _ => true} := by
        rw [hsome]
        congr 3
        funext n
        cases deliveries (queryTurns moves n) <;> simp
    _ = #(Finset.univ : Finset (Fin accepted.length)) := Finset.card_filter_add_card_filter_not _
    _ = accepted.length := by simp

lemma value_of_chunks (hm : moves.length < 2 ^ 64) (count : Count) (hc : count.ofChunk = true) :
    (s.roster.counters.value count).toNat =
      ∑ n : Fin accepted.length, ((queryTurns moves n).flatMap Turn.counts).count count := by
  have hlt (n : ℕ) (turn : Turn κ τ ν) (hmem : .turned n turn ∈ moves) : n < accepted.length :=
    ha.length_eq ▸ turned_lt hr.coherent hmem
  have hne : count ≠ .queryStarted := by
    rintro rfl
    cases hc
  rw [value_of_accepted hr ha hm, if_neg hne, Nat.zero_add, List.count_flatMap, sum_turns _ hlt]
  simp only [List.count_flatMap]

lemma accounts_of_accepted (hm : moves.length < 2 ^ 64) :
    Accounts accepted moves s.roster.counters := by
  have hvalue := value_of_happened hr ha hm
  have hchunks := value_of_chunks hr ha hm
  have hsucceeded : s.roster.counters.succeeded.toNat =
      (deliveries (turns moves)).countP fun o => o.isOk := by
    simpa [Count.happened, Counters.value] using hvalue (.queryFinished true) rfl
  have hfailed : s.roster.counters.failed.toNat =
      (deliveries (turns moves)).countP fun o => !o.isOk := by
    simpa [Count.happened, Counters.value] using hvalue (.queryFinished false) rfl
  refine ⟨?_, ?_, hsucceeded, hfailed, ?_, ?_, ?_, ?_⟩
  · simpa [Count.happened, Counters.value] using hvalue .queryStarted rfl
  · have hall := deliveries_of_accepted hr ha
    have hsplit := (deliveries (turns moves)).length_eq_countP_add_countP fun o => o.isOk
    simp only [Bool.not_eq_true, Bool.decide_eq_false] at hsplit
    omega
  · simpa [Count.happened, Counters.value] using hvalue .page rfl
  · simpa [Count.happened, Counters.value] using hvalue .retryAttempt rfl
  · have hcompleted := hchunks (.chunkFinished true) rfl
    have hnot := hchunks (.chunkFinished false) rfl
    have hlate := hchunks .lateSignal rfl
    simp only [Counters.value] at hcompleted hnot hlate
    rw [hcompleted, hnot, hlate, ← Finset.sum_add_distrib, ← Finset.sum_add_distrib]
    apply Finset.sum_congr rfl
    intro n _
    obtain ⟨f, -, htallied⟩ := tallied_of_accepted hr ha n
    exact htallied.chunks
  · have hnot := hchunks (.chunkFinished false) rfl
    simp only [Counters.value] at hnot
    rw [hnot, Finset.card_filter]
    apply Finset.sum_congr rfl
    intro n _
    obtain ⟨f, -, htallied⟩ := tallied_of_accepted hr ha n
    rw [htallied.failed]
    cases accepted[n].bulkFailed (queryTurns moves n) <;> rfl

lemma accounts_of_delivered {sent : Sent κ τ} {rest : Multiset (Sent κ τ)} {answer : Answer τ ν}
    {o : Outcome (Yield τ ν)} (hsends : s.sends = sent ::ₘ rest)
    (hresolves : s.Resolves (fun _ => Call.Fits) sent answer)
    (ho : (s.roster.receive sent.query sent.call answer).2.delivered = some o)
    (hm : moves.length + 1 < 2 ^ 64) :
    Accounts accepted (moves ++ [.turned sent.query
      (.answered sent.call answer (s.roster.receive sent.query sent.call answer).2)])
      (s.roster.receive sent.query sent.call answer).1.counters := by
  have hn : sent.query < s.roster.queries.length := hr.coherent.send_lt (by simp [hsends])
  have heffects :=
    (Roster.receive_of_some (List.getElem?_eq_getElem hn) sent.call answer).2
  have honward : (s.roster.receive sent.query sent.call answer).2.onward = none := by
    rw [heffects] at ho ⊢
    exact Query.onward_of_delivered ho
  -- No call goes with an outcome, so its receiver is shown the counters that stay.
  have hroster : (s.settle sent answer rest).roster =
      (s.roster.receive sent.query sent.call answer).1 := by
    simp [settle, honward]
  rw [← hroster]
  apply accounts_of_accepted (hr.answer sent rest answer hsends hresolves)
  · simpa [Accepted, launches_snoc, Move.launch?] using ha
  · simpa using hm

lemma settled_of_accepted (hm : moves.length < 2 ^ 64) (ht : s.tasks = 0) (hs : s.sends = 0) :
    s.roster.counters.succeeded.toNat + s.roster.counters.failed.toNat = accepted.length := by
  have haccounts := (accounts_of_accepted hr ha hm).finished
  have hnone : #{n : Fin accepted.length | (deliveries (queryTurns moves n)).isEmpty} = 0 := by
    rw [Finset.card_eq_zero, Finset.filter_eq_empty_iff]
    intro n _ hempty
    obtain ⟨f, hcarries, htallied⟩ := tallied_of_accepted hr ha n
    have hone := htallied.settles (hcarries.idle (finished_of_eq_zero ht hs n))
    rw [List.isEmpty_iff.mp hempty] at hone
    cases hone
  omega

end Session

/-- The counters keep the books: in this state, to whoever is now handed an outcome, and in the
end. -/
structure KeepsBooks (accepted : List (Submission κ τ)) (moves : List (Move κ τ ν))
    (s : Traffic κ τ) : Prop where
  now : Accounts accepted moves s.roster.counters
  delivering : ∀ (sent : Sent κ τ) (rest : Multiset (Sent κ τ)) (answer : Answer τ ν)
    (o : Outcome (Yield τ ν)), s.sends = sent ::ₘ rest →
    s.Resolves (fun _ => Call.Fits) sent answer →
    (s.roster.receive sent.query sent.call answer).2.delivered = some o →
    moves.length + 1 < 2 ^ 64 →
    Accounts accepted (moves ++ [.turned sent.query
      (.answered sent.call answer (s.roster.receive sent.query sent.call answer).2)])
      (s.roster.receive sent.query sent.call answer).1.counters
  handed : ∀ {σ : Type} (sim : Simulation σ κ τ ν) (n : ℕ) (call : Call κ τ) (answer : Answer τ ν)
    (o : Outcome (Yield τ ν)), sim.roster = s.roster →
    (s.roster.receive n call answer).2.delivered = some o →
    ∃ found : Simulation σ κ τ ν, found.roster = (s.roster.receive n call answer).1 ∧
      (sim.settle n call answer).1 = found.deliver n o
  settled : s.tasks = 0 → s.sends = 0 →
    s.roster.counters.succeeded.toNat + s.roster.counters.failed.toNat = accepted.length

lemma handed_of_delivered {σ : Type} {r : Roster τ} {sim : Simulation σ κ τ ν} {n : ℕ}
    {call : Call κ τ} {answer : Answer τ ν} {o : Outcome (Yield τ ν)} (hr : sim.roster = r)
    (ho : (r.receive n call answer).2.delivered = some o) :
    ∃ found : Simulation σ κ τ ν, found.roster = (r.receive n call answer).1 ∧
      (sim.settle n call answer).1 = found.deliver n o := by
  obtain ⟨found, hfound, hsettle⟩ := sim.settle_then_deliver n call answer
  rw [hr] at hfound hsettle
  rw [ho] at hsettle
  exact ⟨found, hfound, hsettle⟩

lemma accepted_of_asked {asked : List (Submission κ τ)} {launched : List (Launch κ τ)}
    (h : launched = asked.filterMap fun submission => submission.launch.toOption) :
    List.Forall₂ (fun submission l => submission.launch = .ok l)
      (asked.filter fun submission => submission.launch.isOk) launched := by
  subst h
  induction asked with
  | nil => exact .nil
  | cons submission asked ih =>
    cases hl : submission.launch with
    | error e => simpa [hl, Except.isOk, Except.toBool, Except.toOption] using ih
    | ok l => simpa [hl, Except.isOk, Except.toBool, Except.toOption] using ih

/-- Whatever is asked of an orchestrator and in whatever order it is done, nothing that happens goes
uncounted, and nothing is counted twice. -/
theorem counters_keep_books {asked : List (Submission κ τ)} {moves : List (Move κ τ ν)}
    {s : Traffic κ τ} (hr : Run (fun _ => Call.Fits) {} moves s)
    (hl : launches moves = asked.filterMap fun submission => submission.launch.toOption)
    (hm : moves.length < 2 ^ 64) :
    KeepsBooks (asked.filter fun submission => submission.launch.isOk) moves s := by
  have ha : Accepted (asked.filter fun submission => submission.launch.isOk) moves :=
    accepted_of_asked hl
  exact {
    now := accounts_of_accepted hr ha hm
    delivering := fun _ _ _ _ hsends hresolves ho hnext =>
      accounts_of_delivered hr ha hsends hresolves ho hnext
    handed := fun _ _ _ _ _ hroster ho => handed_of_delivered hroster ho
    settled := settled_of_accepted hr ha hm }

theorem counters_keep_books_interleaved :
    ∃ (asked : List (Submission ℕ ℕ)) (moves : List (Move ℕ ℕ Unit)) (s : Traffic ℕ ℕ),
      Run (fun _ => Call.Fits) {} moves s ∧
      launches moves = asked.filterMap (fun submission => submission.launch.toOption) ∧
      moves.length < 2 ^ 64 ∧
      s.roster.counters =
        { started := 3, succeeded := 1, failed := 1, chunksFailed := 1, pages := 2,
          lateSignals := 1, attempts := 1 } ∧
      KeepsBooks (asked.filter fun submission => submission.launch.isOk) moves s := by
  let c₀ : Chunk ℕ := ⟨0, [10, 20]⟩
  let c₁ : Chunk ℕ := ⟨1, [30]⟩
  have hp : Chunk.partition [10, 20, 30] 2 = .ok [c₀, c₁] := by
    simp [Chunk.partition, Chunk.cut, c₀, c₁]
  let bulk : Launch ℕ ℕ := launching "bulk" 2 {} [c₀, c₁]
  let paged : Launch ℕ ℕ := .paged "paged" {}
  let creating : Launch ℕ ℕ := .createAndAwait "create" .standard .zero
  have hbulk : Launch.chunked "bulk" [10, 20, 30] 2 {} = .ok bulk := chunked_eq_ok.mpr ⟨_, hp, rfl⟩
  have hrefused : Launch.chunked "refused" [10] 0 {} =
      (.error (.invalidArgument "chunk_size" "must be greater than zero") :
        Outcome (Launch ℕ ℕ)) := rfl
  let asked : List (Submission ℕ ℕ) :=
    [.creating "create" .standard .zero, .bulk "bulk" [10, 20, 30] 2 {},
      .bulk "refused" [10] 0 {}, .paged "paged" {}]
  have hasked : [creating, bulk, paged] =
      asked.filterMap fun submission => submission.launch.toOption := by
    simp [asked, Submission.launch, hbulk, hrefused, Except.toOption, paged, creating]
  have h₀ : Run (fun _ => Call.Fits) {} ([] : List (Move ℕ ℕ Unit)) {} := .nil
  have h₁ := h₀.launch creating
  have h₂ := h₁.begin 0 .create 0 rfl
  have h₃ := h₂.launch bulk
  have h₄ := h₃.begin 1 (.page c₀ {}) {(1, .page c₁ {})} rfl
  have h₅ := h₄.launch paged
  have h₆ := h₅.begin 2 (.page (.whole []) {}) {(1, .page c₁ {})} rfl
  let waiting : Traffic ℕ ℕ := {
    roster := ⟨{ started := 3 }, [creating.query, bulk.query, paged.query]⟩
    sends := {⟨1, 0, .page c₁ {}⟩, ⟨2, 0, .page (.whole []) {}⟩, ⟨1, 0, .page c₀ {}⟩,
      ⟨0, 0, .create⟩} }
  have h₇ : Run (fun _ => Call.Fits) {} _ waiting := h₆.begin 1 (.page c₁ {}) 0 rfl
  have h₈ := h₇.answer ⟨1, 0, .page c₁ {}⟩
    {⟨2, 0, .page (.whole []) {}⟩, ⟨1, 0, .page c₀ {}⟩, ⟨0, 0, .create⟩}
    (.page (.error (.decode "broken"))) rfl trivial
  have h₉ := h₈.answer ⟨2, 0, .page (.whole []) {}⟩ {⟨1, 0, .page c₀ {}⟩, ⟨0, 0, .create⟩}
    (.page (.ok (.last [2, 3]))) rfl trivial
  have h₁₀ := h₉.answer ⟨1, 0, .page c₀ {}⟩ {⟨0, 0, .create⟩} (.page (.ok (.last [1]))) rfl trivial
  have h₁₁ := h₁₀.answer ⟨0, 0, .create⟩ 0 (.probe (.error (.submission "exists"))) rfl trivial
  obtain ⟨moves, s, hr, hl, hm, hcounters⟩ : ∃ (moves : List (Move ℕ ℕ Unit)) (s : Traffic ℕ ℕ),
      Run (fun _ => Call.Fits) {} moves s ∧ launches moves = [creating, bulk, paged] ∧
      moves.length < 2 ^ 64 ∧ s.roster.counters =
        { started := 3, succeeded := 1, failed := 1, chunksFailed := 1, pages := 2,
          lateSignals := 1, attempts := 1 } :=
    ⟨_, _, h₁₁, rfl, by simp, rfl⟩
  exact ⟨asked, moves, s, hr, hl.trans hasked, hm, hcounters,
    counters_keep_books hr (hl.trans hasked) hm⟩

end Traffic

end LedgerQuery
