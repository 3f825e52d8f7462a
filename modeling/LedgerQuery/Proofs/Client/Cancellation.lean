import LedgerQuery.Proofs.Client.Addresses
import LedgerQuery.Proofs.Flight.Failing
import LedgerQuery.Proofs.Flight.Underway
import LedgerQuery.Proofs.Traffic.Sparing
import LedgerQuery.Proofs.Traffic.Strand

/-! What becomes of the queries of a client when everything outstanding is cancelled. Whether a
query ends depends on what it was waiting for; a query that was waiting for nothing goes on as it
would have gone on anyway. -/

namespace LedgerQuery

open Flight Traffic

namespace Client

variable {τ : Type}

section Answers

variable {questions : List (Question τ)} {n : ℕ} {question : Question τ}

lemma admitted_answersProbes {blockchain publicKey : String} {take : Json → Except String τ}
    (hq : questions[n]? = some question)
    (hi : question.inquiry = .account blockchain publicKey take) :
    Clocked.AnswersProbes (admitted (admits questions) n) := by
  intro call answer hpage h
  cases call with
  | page chunk progress => exact absurd rfl (hpage chunk progress)
  | _ =>
    obtain ⟨result, rfl⟩ := admitted_result hq (by rw [hi]; rfl) h
    rw [hi]
    exact ⟨_, rfl⟩

lemma launching_of_ask {c : Client} {a : AddressQuestion τ} {addresses : List String}
    (h : a.ask c addresses = .ok question) :
    ∃ params take r chunks, Chunk.partition addresses c.settings.chunkSize = .ok chunks ∧
      question = ⟨.resource a.name params take,
        launching a.name c.settings.chunkSize r chunks⟩ := by
  obtain ⟨request, -, hask⟩ := ask_eq_chunked c a addresses
  have hchunked := hask.symm.trans h
  cases hp : Chunk.partition addresses c.settings.chunkSize with
  | error e => simp [chunked, Launch.chunked, hp, bind, Except.bind] at hchunked
  | ok chunks =>
    rw [chunked_eq_ok hp] at hchunked
    exact ⟨_, a.take, _, chunks, rfl, (Except.ok.inj hchunked).symm⟩

end Answers

/-- How the turns of a query go on that was waiting for a probe when it was cancelled: the probe
counts as one in vain. -/
inductive Persists (p : RetryPolicy) (made : ℕ) (finished : Prop) :
    List (Turn String τ (List τ)) → Prop
  | awaited : ¬ finished → Persists p made finished []
  | again {effects : Effects String τ (List τ)}
      {rest : List (Turn String τ (List τ))} : made + 1 < p.attempts →
      effects.submitted = [] → effects.scheduled = [(p.period, .probe (p.after (made + 1)))] →
      effects.onward = none → effects.delivered = none →
      (rest = [] ∧ ¬ finished ∨ ∃ later, rest = .begun (.attempt p (made + 1)) :: later) →
      Persists p made finished
        (.answered (.attempt p made) (.probe (.error (.transport .cancelled))) effects :: rest)
  | exhausted {effects : Effects String τ (List τ)} : made + 1 = p.attempts →
      effects.submitted = [] → effects.scheduled = [] → effects.onward = none →
      effects.delivered = some (.error (.retryExhausted p.attempts)) →
      Persists p made finished
        [.answered (.attempt p made) (.probe (.error (.transport .cancelled))) effects]

/-- What cancelling everything outstanding in the state `s` comes to. The moves before lead to `s`,
those afterwards to `t`. -/
structure CancelsOutstanding (questions : List (Question τ))
    (moves more : List (Move String τ (List τ))) (s t : Traffic String τ) : Prop where
  addresses : ∀ n question c a list call, questions[n]? = some question →
    AddressQuestion.ask c list a = .ok question → s.Awaits n call →
    (∀ y, .ok y ∉ deliveries (queryTurns (moves ++ .cancelled :: more) n)) ∧
      (t.Finished n → ∃ r, question.launch.query.rules? = some r ∧
        FailsOnce r (fun i => ∃ call, s.Awaits n call ∧ call.chunk? = some i)
          (queryTurns (moves ++ .cancelled :: more) n))
  currencies : ∀ n c blockchain mainnet take call,
    questions[n]? = some (Client.currencies c blockchain mainnet take) → s.Awaits n call →
    (∀ y, .ok y ∉ deliveries (queryTurns (moves ++ .cancelled :: more) n)) ∧
      (t.Finished n → deliveries (queryTurns (moves ++ .cancelled :: more) n) =
        [.error (.transport .cancelled)])
  creation : ∀ n c blockchain publicKey take call,
    questions[n]? = some (Client.account c blockchain publicKey take) → s.Awaits n call →
    call = .create ∨ call = .lookup →
    callsMade (queryTurns more n) = [] ∧
      (¬ t.Finished n → deliveries (queryTurns (moves ++ .cancelled :: more) n) = []) ∧
      (t.Finished n → deliveries (queryTurns (moves ++ .cancelled :: more) n) =
        [.error (.transport .cancelled)])
  probing : ∀ n c blockchain publicKey take budget,
    questions[n]? = some (Client.account c blockchain publicKey take) →
    s.Awaits n (.probe budget) →
    ∃ made < c.settings.retry.policy.attempts,
      callsMade (queryTurns moves n) = pursued c.settings.retry.policy (made + 1) ∧
      deliveries (queryTurns moves n) = [] ∧
      Persists c.settings.retry.policy made (t.Finished n) (queryTurns more n)
  spared : Imitates (admits questions) s.spares s.cancelAll s ∧
    Imitates (admits questions) s.spares s s.cancelAll
  goes_on : ∀ n, ¬ t.Finished n → ∃ turn u, Traffic.Step (admits questions) t (.turned n turn) u

section Sessions

variable {questions : List (Question τ)} {n : ℕ} {question : Question τ}
  {moves more : List (Move String τ (List τ))} {s t : Traffic String τ}
  {call : Call String τ} {f : Flight String τ}

lemma whole_run (hs : Traffic.Run (admits questions) {} moves s)
    (ht : Traffic.Run (admits questions) s.cancelAll more t) :
    Traffic.Run (admits questions) {} (moves ++ .cancelled :: more) t := by
  have hrun := hs.cancel.trans ht
  rwa [List.append_assoc] at hrun

lemma launch_of_question (hl : launches (moves ++ .cancelled :: more) = questions.map (·.launch))
    (hq : questions[n]? = some question) :
    (launches (moves ++ .cancelled :: more))[n]? = some question.launch := by
  rw [hl, List.getElem?_map, hq]
  rfl

lemma answer_of_sent (hl : launches moves = questions.map (·.launch))
    (hr : Traffic.Run (admits questions) {} moves s) :
    ∀ sent ∈ s.sends, ∃ answer, admits questions sent.query sent.call answer := by
  intro sent hsent
  have hlt : sent.query < questions.length := by
    have hbound := hr.coherent.send_lt hsent
    rwa [hr.coherent.launched, hl, List.length_map] at hbound
  exact ⟨_, questions[sent.query], .error .cancelled, List.getElem?_eq_getElem hlt, rfl⟩

lemma carries_of_awaits (hl : launches (moves ++ .cancelled :: more) = questions.map (·.launch))
    (hs : Traffic.Run (admits questions) {} moves s) (hq : questions[n]? = some question)
    (hw : s.Awaits n call) :
    ∃ f, s.Carries n f ∧ call ∈ f.calls ∧
      Flight.Run (admitted (admits questions) n) question.launch.flight (queryTurns moves n) f := by
  have hlaunch := launch_of_question hl hq
  rw [launches_append, List.getElem?_append_left (hs.launched_of_awaits hw)] at hlaunch
  obtain ⟨f, hcarries, hflight⟩ := hs.carries hlaunch
  exact ⟨f, hcarries, hcarries.mem_calls hw, hflight⟩

lemma carries_after (hl : launches (moves ++ .cancelled :: more) = questions.map (·.launch))
    (hs : Traffic.Run (admits questions) {} moves s)
    (ht : Traffic.Run (admits questions) s.cancelAll more t)
    (hq : questions[n]? = some question) :
    ∃ f, t.Carries n f ∧ Flight.Run (admitted (admits questions) n) question.launch.flight
      (queryTurns (moves ++ .cancelled :: more) n) f :=
  (whole_run hs ht).carries (launch_of_question hl hq)

lemma condemned_of_awaits (hs : Traffic.Run (admits questions) {} moves s)
    (ht : Traffic.Run (admits questions) s.cancelAll more t) (hw : s.Awaits n call) {i : ℕ}
    (hi : call.chunk? = some i) (hc : t.Carries n f) :
    Condemned (queryTurns (moves ++ .cancelled :: more) n) f i := by
  rcases hs.doomed_of_awaits ht hw with hwaits | ⟨effects, hturn⟩
  · exact Or.inl ⟨call, hc.mem_calls hwaits, hi⟩
  · have hfailure : Answer.failure (.transport .cancelled) call =
        (.page (.error (.transport .cancelled)) : Answer τ (List τ)) := by
      cases call with
      | page chunk progress => rfl
      | probe budget => simp [Call.chunk?] at hi
      | create => simp [Call.chunk?] at hi
      | lookup => simp [Call.chunk?] at hi
    rw [hfailure] at hturn
    refine Or.inr ⟨call, effects, hi, ?_⟩
    rw [queryTurns_around]
    exact List.mem_append_right _ hturn

lemma addresses_fail (hl : launches (moves ++ .cancelled :: more) = questions.map (·.launch))
    (hs : Traffic.Run (admits questions) {} moves s)
    (ht : Traffic.Run (admits questions) s.cancelAll more t) {c : Client} {a : AddressQuestion τ}
    {list : List String} (hq : questions[n]? = some question)
    (hask : a.ask c list = .ok question) (hw : s.Awaits n call) :
    (∀ y, .ok y ∉ deliveries (queryTurns (moves ++ .cancelled :: more) n)) ∧
      (t.Finished n → ∃ r, question.launch.query.rules? = some r ∧
        FailsOnce r (fun i => ∃ call, s.Awaits n call ∧ call.chunk? = some i)
          (queryTurns (moves ++ .cancelled :: more) n)) := by
  obtain ⟨params, take, r, chunks, hp, rfl⟩ := launching_of_ask hask
  have hn := Chunk.partition_nodup hp
  have ha := admitted_answersPages hq rfl
  obtain ⟨g, -, hmem, hbefore⟩ := carries_of_awaits hl hs hq hw
  obtain ⟨chunk, hchunk, hi⟩ := (launching_run hn ha hbefore).1.call_chunk call hmem
  obtain ⟨f, hcarries, hflight⟩ := carries_after hl hs ht hq
  refine ⟨fun y => ?_, fun hfinished => ⟨r, rfl, ?_⟩⟩
  · exact condemned_never_ok hn ha hflight hchunk (condemned_of_awaits hs ht hw hi hcarries) y
  · refine condemned_failsOnce hn ha hflight (hcarries.idle hfinished) ?_ hchunk ⟨call, hw, hi⟩
    rintro i ⟨other, hother, hindex⟩
    exact condemned_of_awaits hs ht hother hindex hcarries

lemma currencies_fail (hl : launches (moves ++ .cancelled :: more) = questions.map (·.launch))
    (hs : Traffic.Run (admits questions) {} moves s)
    (ht : Traffic.Run (admits questions) s.cancelAll more t) {c : Client}
    {blockchain : Option String} {mainnet : Option Bool} {take : Json → Except String τ}
    (hq : questions[n]? = some (c.currencies blockchain mainnet take)) (hw : s.Awaits n call) :
    (∀ y, .ok y ∉ deliveries (queryTurns (moves ++ .cancelled :: more) n)) ∧
      (t.Finished n → deliveries (queryTurns (moves ++ .cancelled :: more) n) =
        [.error (.transport .cancelled)]) := by
  have ha := admitted_answersPages hq rfl
  have hn : ([(.whole [] : Chunk String)].map (·.index)).Nodup := List.nodup_singleton _
  have hd : Draining { maxPages := c.settings.maxPagesPerChunk } [(.whole [] : Chunk String)]
      ([] : List (Turn String τ (List τ)))
      (c.currencies blockchain mainnet take).launch.flight := draining_flight rfl hn rfl rfl
  obtain ⟨g, -, hmem, hbefore⟩ := carries_of_awaits hl hs hq hw
  obtain ⟨chunk, hchunk, hi⟩ := (hd.run ha hn hbefore).call_chunk call hmem
  obtain rfl := List.mem_singleton.mp hchunk
  obtain ⟨f, hcarries, hflight⟩ := carries_after hl hs ht hq
  obtain ⟨hall, hend⟩ := condemned_single rfl hd ha hflight
    (condemned_of_awaits hs ht hw hi hcarries)
  refine ⟨fun y hy => ?_, fun hfinished => hend (hcarries.idle hfinished)⟩
  cases hall _ hy

lemma waits_or_cancelled (hs : Traffic.Run (admits questions) {} moves s)
    (ht : Traffic.Run (admits questions) s.cancelAll more t) {q : Query τ}
    (hc : s.Carries n ⟨q, 0, {call}⟩) :
    let cancelled : Answer τ (List τ) := .failure (.transport .cancelled) call
    queryTurns more n = [] ∧ ¬ t.Finished n ∨
      ∃ rest g, queryTurns more n = .answered call cancelled (q.receive call cancelled).2 :: rest ∧
        Flight.Run (admitted (admits questions) n)
          (Flight.settle ⟨q, 0, {call}⟩ call cancelled 0) rest g ∧ t.Carries n g := by
  rcases ht.sole_send hc.cancelAll (fun _ hsent _ => hs.sound.ended hsent) with
    ⟨hquiet, hcarries⟩ | hcancelled
  · refine Or.inl ⟨hquiet, fun hfinished => ?_⟩
    exact absurd (hcarries.idle hfinished).2 (Multiset.singleton_ne_zero call)
  · exact Or.inr hcancelled

lemma creation_fails (hl : launches (moves ++ .cancelled :: more) = questions.map (·.launch))
    (hs : Traffic.Run (admits questions) {} moves s)
    (ht : Traffic.Run (admits questions) s.cancelAll more t) {c : Client}
    {blockchain publicKey : String} {take : Json → Except String τ}
    (hq : questions[n]? = some (c.account blockchain publicKey take)) (hw : s.Awaits n call)
    (hcall : call = .create ∨ call = .lookup) :
    callsMade (queryTurns more n) = [] ∧
      (¬ t.Finished n → deliveries (queryTurns (moves ++ .cancelled :: more) n) = []) ∧
      (t.Finished n → deliveries (queryTurns (moves ++ .cancelled :: more) n) =
        [.error (.transport .cancelled)]) := by
  have ha := admitted_answersProbes hq rfl
  obtain ⟨f, hcarries, hmem, hbefore⟩ := carries_of_awaits hl hs hq hw
  obtain ⟨hf, hnone, hidle, honward, hdelivered⟩ :=
    ((underway_flight _ _ _).run ha hbefore).refused hmem hcall
  rw [hf] at hcarries
  rw [queryTurns_around, deliveries_append, hnone]
  rcases waits_or_cancelled hs ht hcarries with ⟨hquiet, hopen⟩ | ⟨rest, g, hturns, hrun, hafter⟩
  · rw [hquiet]
    exact ⟨rfl, fun _ => rfl, fun hfinished => absurd hfinished hopen⟩
  · rw [← hf] at hrun
    obtain ⟨rfl, rfl⟩ := hrun.of_idle hidle
    rw [hturns]
    refine ⟨?_, fun hopen => absurd (hafter.finished hidle) hopen, fun _ => ?_⟩
    · simp [callsMade, Turn.calls, honward]
    · simp [deliveries, Turn.delivered, hdelivered]

lemma probing_persists (hl : launches (moves ++ .cancelled :: more) = questions.map (·.launch))
    (hs : Traffic.Run (admits questions) {} moves s)
    (ht : Traffic.Run (admits questions) s.cancelAll more t) {c : Client}
    {blockchain publicKey : String} {take : Json → Except String τ} {budget : RetryBudget}
    (hq : questions[n]? = some (c.account blockchain publicKey take))
    (hw : s.Awaits n (.probe budget)) :
    ∃ made < c.settings.retry.policy.attempts,
      callsMade (queryTurns moves n) = pursued c.settings.retry.policy (made + 1) ∧
      deliveries (queryTurns moves n) = [] ∧
      Persists c.settings.retry.policy made (t.Finished n) (queryTurns more n) := by
  have ha := admitted_answersProbes hq rfl
  obtain ⟨f, hcarries, hmem, hbefore⟩ := carries_of_awaits hl hs hq hw
  obtain ⟨made, hlt, -, hf, hplan, hmade, hnone⟩ :=
    ((underway_flight _ _ _).run ha hbefore).attempting hmem
  refine ⟨made, hlt, hmade, hnone, ?_⟩
  rw [hf] at hcarries
  rcases waits_or_cancelled hs ht hcarries with ⟨hquiet, hopen⟩ | ⟨rest, g, hturns, hrun, hafter⟩
  · rw [hquiet]
    exact .awaited hopen
  · have hmiss : Misses (.error (.transport .cancelled) : Outcome (Option (List τ))) := trivial
    rw [hturns]
    -- A cancelled probe is a miss, and what a miss leads to depends on the attempts left.
    by_cases hlast : made + 1 = c.settings.retry.policy.attempts
    · obtain ⟨-, hsub, hsched, honward, hdelivered⟩ :=
        receive_last (κ := String) hplan fun _ : Misses (.error (.transport .cancelled) :
          Outcome (Option (List τ))) => hlast
      obtain ⟨rfl, -⟩ := hrun.of_idle (settle_idle rfl hsub hsched honward)
      exact .exhausted hlast hsub hsched honward hdelivered
    · have hleft : made + 1 < c.settings.retry.policy.attempts := by omega
      obtain ⟨-, hsub, hsched, honward, hdelivered⟩ := receive_again (κ := String) hplan hmiss hleft
      refine .again hleft hsub hsched honward hdelivered ?_
      obtain ⟨htasks, hcalls⟩ := settle_next (s := ⟨f.query, 0, {.attempt _ made}⟩) rfl hsub hsched
        honward
      rcases hrun.of_task htasks hcalls with ⟨hnothing, rfl⟩ | hnext
      · refine Or.inl ⟨hnothing, fun hfinished => ?_⟩
        exact absurd (htasks.symm.trans (hafter.idle hfinished).1) (Multiset.singleton_ne_zero _)
      · exact Or.inr hnext

/-- Whatever a client asks, and in whatever order its queries have their turns. -/
theorem cancel_fails_outstanding
    (hl : launches (moves ++ .cancelled :: more) = questions.map (·.launch))
    (hs : Traffic.Run (admits questions) {} moves s)
    (ht : Traffic.Run (admits questions) s.cancelAll more t) :
    CancelsOutstanding questions moves more s t where
  addresses _ _ _ _ _ _ hq hask hw := addresses_fail hl hs ht hq hask hw
  currencies _ _ _ _ _ _ hq hw := currencies_fail hl hs ht hq hw
  creation _ _ _ _ _ _ hq hw hcall := creation_fails hl hs ht hq hw hcall
  probing _ _ _ _ _ _ hq hw := probing_persists hl hs ht hq hw
  spared := ⟨(alike_cancelAll s).imitates _, (alike_cancelAll s).symm.imitates _⟩
  goes_on _ hn := Traffic.goes_on (answer_of_sent hl (whole_run hs ht)) hn

end Sessions

def hurried : Client := { settings := { chunkSize := 1, retry := ⟨5, 10, 2⟩ } }

theorem cancel_fails_outstanding_mixed :
    ∃ (transfers : Question Json) (moves more : List (Move String Json (List Json)))
      (s t : Traffic String Json),
      AddressQuestion.ask hurried ["a", "b"] (.transfers "bitcoin" none none none .ok) =
        .ok transfers ∧
      s.spares 0 ∧ s.Awaits 1 (.page ⟨0, ["a"]⟩ {}) ∧ s.Awaits 2 (.probe ⟨1, 1, .ofSeconds 5⟩) ∧
      deliveries (queryTurns more 1) = [.error (.transport .cancelled)] ∧
      deliveries (queryTurns more 2) = [] ∧
      CancelsOutstanding [hurried.currencies none none .ok, transfers,
        hurried.account "bitcoin" "key" .ok] moves more s t := by
  let c₀ : Chunk String := ⟨0, ["a"]⟩
  let c₁ : Chunk String := ⟨1, ["b"]⟩
  let l : Launch String Json := launching "transfers" 1 ⟨1000, fun _ => .ok ()⟩ [c₀, c₁]
  let queued : Question Json := hurried.currencies none none .ok
  let probed : Question Json := hurried.account "bitcoin" "key" .ok
  let probe : Call String Json := .probe ⟨1, 1, .ofSeconds 5⟩
  have hp : Chunk.partition ["a", "b"] 1 = .ok [c₀, c₁] := by
    simp [Chunk.partition, Chunk.cut, c₀, c₁]
  obtain ⟨transfers, hask, hlaunch⟩ : ∃ question : Question Json,
      AddressQuestion.ask hurried ["a", "b"] (.transfers "bitcoin" none none none .ok) =
        .ok question ∧ question.launch = l := ⟨_, chunked_eq_ok hp, rfl⟩
  let questions : List (Question Json) := [queued, transfers, probed]
  have hcreated : admits questions 2 .create (.probe (.ok none)) := ⟨probed, .ok [], rfl, rfl⟩
  -- One chunk of the transfers and the first probe are sent before the cancellation; the other
  -- chunk and the currencies still wait to be run.
  have hafter {moves : List (Move String Json (List Json))} {s : Traffic String Json}
      (_ : Traffic.Run (admits questions) {} moves s) :
      Traffic.Run (admits questions) s.cancelAll [] s.cancelAll := .nil
  have hlaunches {moves : List (Move String Json (List Json))}
      (h : launches moves = [queued.launch, l, probed.launch]) :
      launches moves = questions.map (·.launch) := by
    rw [h, ← hlaunch]
    rfl
  have h₀ : Traffic.Run (admits questions) {} [] {} := .nil
  have h₁ := ((h₀.launch queued.launch).launch l).launch probed.launch
  have h₂ := h₁.begin 2 .create {(1, .page c₀ {}), (1, .page c₁ {}), (0, .page (.whole []) {})} rfl
  have h₃ := h₂.answer ⟨2, 0, .create⟩ 0 (.probe (.ok none)) rfl hcreated
  have h₄ := h₃.begin 2 (.probe ⟨1, 0, .ofSeconds 5⟩)
    {(1, .page c₀ {}), (1, .page c₁ {}), (0, .page (.whole []) {})} rfl
  have h₅ := h₄.begin 1 (.page c₀ {}) {(1, .page c₁ {}), (0, .page (.whole []) {})} rfl
  have k₁ := (hafter h₅).answer ⟨1, 0, .page c₀ {}⟩ {⟨2, 0, probe⟩}
    (.page (.error (.transport .cancelled))) rfl rfl
  have k₂ := k₁.answer ⟨2, 0, probe⟩ 0 (.probe (.error (.transport .cancelled)))
    (sends_settle rfl) rfl
  let outstanding : Multiset (Sent String Json) := {⟨1, 0, .page c₀ {}⟩, ⟨2, 0, probe⟩}
  have hspared : ∀ sent ∈ outstanding, sent.query ≠ 0 := by simp [outstanding]
  have hfirst : ⟨1, 0, .page c₀ {}⟩ ∈ outstanding := Multiset.mem_cons_self _ _
  have hsecond : ⟨2, 0, probe⟩ ∈ outstanding :=
    Multiset.mem_cons_of_mem (Multiset.mem_singleton_self _)
  exact ⟨transfers, _, _, _, _, hask, decide_eq_true hspared, ⟨0, hfirst⟩, ⟨0, hsecond⟩, rfl, rfl,
    cancel_fails_outstanding (hlaunches rfl) h₅ k₂⟩

end Client

end LedgerQuery
