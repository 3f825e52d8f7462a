import LedgerQuery.Proofs.Client.Cancellation
import LedgerQuery.Proofs.Client.Envelope
import LedgerQuery.Proofs.Flight.Thread

/-! One query in two sessions of a client. Whatever else goes on in either of them, and in whatever
order, a query that gets the same answers comes to the same. -/

namespace LedgerQuery

namespace Flight

open Drain Coordinator

variable {κ τ ν : Type}

section Lanes

variable {admits : Call κ τ → Answer τ ν → Prop} {turns turns' : List (Turn κ τ ν)}
  {s t : Flight κ τ}

lemma answersIn_chunk (ha : AnswersPages admits) (hr : Run admits s turns t) (i : ℕ) :
    answersIn (.chunk i) turns = (answersOf turns i).map .page := by
  induction hr with
  | nil => rfl
  | @snoc turns turn t u _ hs ih =>
    have hlast : answersIn (.chunk i) [turn] = (answersOf [turn] i).map .page := by
      cases hs with
      | @begin task rest _ =>
        have hnone : answersOf ([.begun task.call] : List (Turn κ τ ν)) i = [] := by
          apply List.filterMap_eq_nil_iff.mpr
          intro turn ht
          rw [List.mem_singleton.mp (List.mem_filter.mp ht).1]
          rfl
        rw [hnone]
        rfl
      | @answer call rest answer _ hadmits =>
        cases call with
        | page c p =>
          obtain ⟨a, rfl⟩ := ha c p answer hadmits
          by_cases hi : c.index = i
          · simp [answersIn, Turn.answerIn?, Call.lane, answersOf, turnsOf, Turn.chunk?,
              Call.chunk?, Turn.page?, hi]
          · simp [answersIn, Turn.answerIn?, Call.lane, answersOf, turnsOf, Turn.chunk?,
              Call.chunk?, hi]
        | probe budget => rfl
        | create => rfl
        | lookup => rfl
    rw [answersIn_append, answersOf_append, ih, hlast, List.map_append]

lemma SameAnswers.answersOf {admits' : Call κ τ → Answer τ ν → Prop} {s' t' : Flight κ τ}
    (hsame : SameAnswers turns turns') (ha : AnswersPages admits) (hr : Run admits s turns t)
    (ha' : AnswersPages admits') (hr' : Run admits' s' turns' t') (i k : ℕ)
    (a a' : Outcome (Page τ)) (h : (answersOf turns i)[k]? = some a)
    (h' : (answersOf turns' i)[k]? = some a') : a = a' := by
  have hpage : Answer.page a = (.page a' : Answer τ ν) := by
    apply hsame (.chunk i) k
    · rw [answersIn_chunk ha hr, List.getElem?_map, h]
      rfl
    · rw [answersIn_chunk ha' hr', List.getElem?_map, h']
      rfl
  exact Answer.page.inj hpage

end Lanes

/-- Two histories of a query over chunks have come to the same, up to the order in which the chunks
have ended. -/
inductive SameUpToOrder (r : Rules τ) (chunks : List (Chunk κ))
    (turns turns' : List (Turn κ τ ν)) : Prop
  | items {order order' : List (Chunk κ)} : order.Perm chunks → order'.Perm chunks →
      (∀ c ∈ chunks, itemsBrought turns' c = itemsBrought turns c) →
      deliveries turns = [.ok (.items (order.flatMap (itemsBrought turns)))] →
      deliveries turns' = [.ok (.items (order'.flatMap (itemsBrought turns)))] →
      SameUpToOrder r chunks turns turns'
  | errors {c c' : Chunk κ} {e e' : QueryError} : c ∈ chunks → c' ∈ chunks →
      ComesTo r (answersOf turns c.index) (.error e) →
      ComesTo r (answersOf turns' c'.index) (.error e') →
      deliveries turns = [.error e] → deliveries turns' = [.error e'] →
      SameUpToOrder r chunks turns turns'

lemma same_up_to_order {r : Rules τ} {label : String} {keys : List κ} {size : ℕ}
    {chunks : List (Chunk κ)} {turns turns' : List (Turn κ τ ν)} {s s' : Flight κ τ}
    (hp : Chunk.partition keys size = .ok chunks)
    (hd : Draining r chunks turns s) (hc : Coordinating r label chunks turns s) (hs : s.Idle)
    (hd' : Draining r chunks turns' s') (hc' : Coordinating r label chunks turns' s')
    (hsame : ∀ c ∈ chunks, answersOf turns c.index = answersOf turns' c.index) :
    SameUpToOrder r chunks turns turns' := by
  by_cases herror : ∃ c ∈ chunks, ∃ e, ComesTo r (answersOf turns c.index) (.error e)
  · have herror' : ∃ c ∈ chunks, ∃ e, ComesTo r (answersOf turns' c.index) (.error e) := by
      obtain ⟨c, hmem, e, he⟩ := herror
      exact ⟨c, hmem, e, hsame c hmem ▸ he⟩
    obtain ⟨c, hmem, e, he, hdelivered⟩ := hc.delivers_error hd herror
    obtain ⟨c', hmem', e', he', hdelivered'⟩ := hc'.delivers_error hd' herror'
    exact .errors hmem hmem' he he' hdelivered hdelivered'
  · have hitems (c : Chunk κ) (hmem : c ∈ chunks) :
        ComesTo r (answersOf turns c.index) (.ok (itemsBrought turns c)) := by
      obtain ⟨o, ho, -⟩ := hd.report hs hmem
      cases o with
      | error e => exact absurd ⟨c, hmem, e, ho⟩ herror
      | ok items =>
        obtain ⟨-, rfl, -⟩ := ho.drains
        exact ho
    have hitems' (c : Chunk κ) (hmem : c ∈ chunks) :
        ComesTo r (answersOf turns' c.index) (.ok (itemsBrought turns c)) :=
      hsame c hmem ▸ hitems c hmem
    obtain ⟨order, horder, hdelivered⟩ := hc.delivers_items hd hp hitems
    obtain ⟨order', horder', hdelivered'⟩ := hc'.delivers_items hd' hp hitems'
    refine .items horder horder' (fun c hmem => ?_) hdelivered hdelivered'
    rw [itemsBrought, itemsBrought, hsame c hmem]

end Flight

namespace Client

open Flight Traffic

variable {τ : Type}

structure Undisturbed (question : Question τ) (turns turns' : List (Turn String τ (List τ))) :
    Prop where
  addresses : ∀ c a list, AddressQuestion.ask c list a = .ok question →
    ∃ r chunks, question.launch.query.rules? = some r ∧
      Chunk.partition list c.settings.chunkSize = .ok chunks ∧ SameUpToOrder r chunks turns turns'
  others : (∃ c blockchain mainnet take, question = Client.currencies c blockchain mainnet take) ∨
      (∃ c blockchain publicKey take, question = Client.account c blockchain publicKey take) →
    (∃ o, deliveries turns = [o] ∧ deliveries turns' = [o]) ∧
      (callsMade turns).map question.inquiry.request =
        (callsMade turns').map question.inquiry.request

section Histories

variable {questions questions' : List (Question τ)} {n n' : ℕ} {question : Question τ}
  {turns turns' : List (Turn String τ (List τ))} {f f' : Flight String τ}

lemma addresses_undisturbed (hq : questions[n]? = some question)
    (hq' : questions'[n']? = some question)
    (hr : Flight.Run (admitted (admits questions) n) question.launch.flight turns f)
    (hr' : Flight.Run (admitted (admits questions') n') question.launch.flight turns' f')
    (hf : f.Idle) (hf' : f'.Idle) (hsame : SameAnswers turns turns') {c : Client}
    {a : AddressQuestion τ} {list : List String} (hask : a.ask c list = .ok question) :
    ∃ r chunks, question.launch.query.rules? = some r ∧
      Chunk.partition list c.settings.chunkSize = .ok chunks ∧
      SameUpToOrder r chunks turns turns' := by
  obtain ⟨params, take, r, chunks, hp, rfl⟩ := launching_of_ask hask
  have hn := Chunk.partition_nodup hp
  have ha := admitted_answersPages hq rfl
  have ha' := admitted_answersPages hq' rfl
  obtain ⟨hd, hc⟩ := launching_run hn ha hr
  obtain ⟨hd', hc'⟩ := launching_run hn ha' hr'
  refine ⟨r, chunks, rfl, hp, same_up_to_order hp hd hc hf hd' hc' fun chunk hmem => ?_⟩
  obtain ⟨o, ho, -⟩ := hd.report hf hmem
  obtain ⟨o', ho', -⟩ := hd'.report hf' hmem
  exact ho.same ho' (hsame.answersOf ha hr ha' hr' chunk.index)

lemma alone_undisturbed
    (h : Alone ([] : List (Turn String τ (List τ))) question.launch.flight)
    {admits admits' : Call String τ → Answer τ (List τ) → Prop}
    (ha : AnswersFit admits question.launch.query)
    (hr : Flight.Run admits question.launch.flight turns f)
    (hr' : Flight.Run admits' question.launch.flight turns' f')
    (hf : f.Idle) (hf' : f'.Idle) (hsame : SameAnswers turns turns') :
    (∃ o, deliveries turns = [o] ∧ deliveries turns' = [o]) ∧
      (callsMade turns).map question.inquiry.request =
        (callsMade turns').map question.inquiry.request := by
  obtain rfl := h.same_end ha hr hf hr' hf' hsame
  obtain ⟨o, ho⟩ := (h.run ha hr).1.delivers_once.1 hf
  exact ⟨⟨o, ho, ho⟩, rfl⟩

end Histories

/-- Two sessions may differ in everything else: the other questions, their answers, and the order of
all that happens. -/
theorem concurrent_queries_undisturbed {questions questions' : List (Question τ)} {n n' : ℕ}
    {question : Question τ} (hq : questions[n]? = some question)
    (hq' : questions'[n']? = some question)
    {moves moves' : List (Move String τ (List τ))} {s s' : Traffic String τ}
    (hl : launches moves = questions.map (·.launch))
    (hl' : launches moves' = questions'.map (·.launch))
    (hr : Traffic.Run (admits questions) {} moves s)
    (hr' : Traffic.Run (admits questions') {} moves' s')
    (hs : s.Finished n) (hs' : s'.Finished n')
    (hsame : SameAnswers (queryTurns moves n) (queryTurns moves' n')) :
    Undisturbed question (queryTurns moves n) (queryTurns moves' n') := by
  have hlaunch := congrArg (·[n]?) hl
  have hlaunch' := congrArg (·[n']?) hl'
  simp only [List.getElem?_map, hq, hq', Option.map_some] at hlaunch hlaunch'
  obtain ⟨f, hcarries, hflight⟩ := hr.carries hlaunch
  obtain ⟨f', hcarries', hflight'⟩ := hr'.carries hlaunch'
  have hf := hcarries.idle hs
  have hf' := hcarries'.idle hs'
  refine ⟨fun c a list hask => ?_, ?_⟩
  · exact addresses_undisturbed hq hq' hflight hflight' hf hf' hsame hask
  · rintro (⟨c, blockchain, mainnet, take, rfl⟩ | ⟨c, blockchain, publicKey, take, rfl⟩)
    · have ha := AnswersPages.fit (admitted_answersPages hq rfl)
        (q := (c.currencies blockchain mainnet take).launch.query) rfl
      exact alone_undisturbed (alone_paged _ _) ha hflight hflight' hf hf' hsame
    · have ha := AnswersProbes.fit (admitted_answersProbes hq rfl)
        (q := (c.account blockchain publicKey take).launch.query) rfl
      exact alone_undisturbed (alone_creating _ _ _) ha hflight hflight' hf hf' hsame

theorem concurrent_queries_undisturbed_reordered :
    ∃ (question : Question Json) (moves moves' : List (Move String Json (List Json)))
      (s s' : Traffic String Json),
      AddressQuestion.ask hurried ["a", "b"] (.transfers "bitcoin" none none none .ok) =
        .ok question ∧
      Traffic.Run (admits [question]) {} moves s ∧
      Traffic.Run (admits [hurried.currencies none none .ok, question]) {} moves' s' ∧
      deliveries (queryTurns moves 0) = [.ok (.items [.bool true, .null])] ∧
      deliveries (queryTurns moves' 1) = [.ok (.items [.null, .bool true])] ∧
      Undisturbed question (queryTurns moves 0) (queryTurns moves' 1) := by
  let c₀ : Chunk String := ⟨0, ["a"]⟩
  let c₁ : Chunk String := ⟨1, ["b"]⟩
  let l : Launch String Json := launching "transfers" 1 ⟨1000, fun _ => .ok ()⟩ [c₀, c₁]
  let other : Question Json := hurried.currencies none none .ok
  have hp : Chunk.partition ["a", "b"] 1 = .ok [c₀, c₁] := by
    simp [Chunk.partition, Chunk.cut, c₀, c₁]
  obtain ⟨question, params, hask, hinquiry, hlaunch⟩ : ∃ (question : Question Json) (params : _),
      AddressQuestion.ask hurried ["a", "b"] (.transfers "bitcoin" none none none .ok) =
        .ok question ∧
      question.inquiry = .resource "transfers" params .ok ∧ question.launch = l :=
    ⟨_, _, chunked_eq_ok hp, rfl, rfl⟩
  have hpage {questions : List (Question Json)} {n : ℕ} (hq : questions[n]? = some question)
      (chunk : Chunk String) {item : Json}
      (h : item.Proper ∧ Json.nesting item + 3 < Json.Scan.levels) :
      admits questions n (.page chunk {}) (.page (.ok (.last [item]))) := by
    let page := Utf8.ofString (Json.obj (Envelope.written "transfers" [item] none)).write
    have hread : Envelope.readPageBy page "transfers" .ok = .ok ⟨[item], none⟩ :=
      Envelope.readPageBy_values (List.forall_mem_singleton.mpr h)
    refine ⟨question, .ok page, hq, ?_⟩
    rw [hinquiry]
    exact congrArg Answer.page hread.symm
  have htrue : (Json.bool true).Proper ∧ Json.nesting (.bool true) + 3 < Json.Scan.levels :=
    ⟨trivial, by decide⟩
  have hnull : Json.null.Proper ∧ Json.nesting .null + 3 < Json.Scan.levels :=
    ⟨trivial, by decide⟩
  -- The chunks are answered in their order in one session, and the other way round in the other.
  have h₀ : Traffic.Run (admits [question]) {} [] {} := .nil
  have h₁ := h₀.launch l
  have h₂ := h₁.begin 0 (.page c₀ {}) {(0, .page c₁ {})} rfl
  have h₃ := h₂.answer ⟨0, 0, .page c₀ {}⟩ 0 (.page (.ok (.last [.bool true]))) rfl
    (hpage rfl c₀ htrue)
  have h₄ := h₃.begin 0 (.page c₁ {}) 0 rfl
  have h₅ := h₄.answer ⟨0, 0, .page c₁ {}⟩ 0 (.page (.ok (.last [.null]))) rfl (hpage rfl c₁ hnull)
  have k₀ : Traffic.Run (admits [other, question]) {} [] {} := .nil
  have k₁ := (k₀.launch other.launch).launch l
  have k₂ := k₁.begin 1 (.page c₀ {}) {(1, .page c₁ {}), (0, .page (.whole []) {})} rfl
  have k₃ := k₂.begin 1 (.page c₁ {}) {(0, .page (.whole []) {})} rfl
  have k₄ := k₃.answer ⟨1, 0, .page c₁ {}⟩ {⟨1, 0, .page c₀ {}⟩} (.page (.ok (.last [.null]))) rfl
    (hpage rfl c₁ hnull)
  have k₅ := k₄.answer ⟨1, 0, .page c₀ {}⟩ 0 (.page (.ok (.last [.bool true]))) rfl
    (hpage rfl c₀ htrue)
  have hlaunches (questions : List (Question Json)) {moves : List (Move String Json (List Json))}
      (hm : launches moves = (questions.map (·.launch)) ++ [l]) :
      launches moves = (questions ++ [question]).map (·.launch) := by
    rw [hm, List.map_append, List.map_singleton, hlaunch]
  have hwaits : ∀ task ∈ ({(0, .page (.whole []) {})} : Multiset (ℕ × Task String Json)),
      task.1 ≠ 1 := by simp
  refine ⟨question, _, _, _, _, hask, h₅, k₅, rfl, rfl, ?_⟩
  apply concurrent_queries_undisturbed rfl rfl (hlaunches [] rfl)
    (hlaunches [other] rfl) h₅ k₅ (finished_of_eq_zero rfl rfl 0)
    ⟨hwaits, fun sent hsent => absurd hsent (Multiset.notMem_zero sent)⟩
  apply sameAnswers_of_eq
  intro lane
  cases lane with
  | chunk i => rcases i with _ | _ | i <;> rfl
  | creation => rfl
  | search => rfl

end Client

end LedgerQuery
