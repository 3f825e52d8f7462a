import LedgerQuery.Proofs.Client.Session
import LedgerQuery.Proofs.Flight.Creating

/-! The creation of an account, on the wire and for its caller. What the transport has brought for
each request decides how it goes on; nothing else does. -/

namespace LedgerQuery

open Clocked Exchange

variable {τ : Type}

namespace QueryError

lemma ofSubmission_cases (e : TransportError) :
    (∃ endpoint reason, e = .http unprocessable endpoint ∧ ofSubmission e = .submission reason) ∨
      (∀ endpoint, e ≠ .http unprocessable endpoint) ∧ ofSubmission e = .transport e := by
  cases e with
  | http status endpoint =>
    by_cases hs : status = unprocessable
    · exact Or.inl ⟨endpoint, _, by rw [hs], if_pos hs⟩
    · exact Or.inr ⟨by simp [hs], if_neg hs⟩
  | timeout millis endpoint => exact Or.inr ⟨nofun, rfl⟩
  | refused endpoint reason => exact Or.inr ⟨nofun, rfl⟩
  | cancelled => exact Or.inr ⟨nofun, rfl⟩
  | io message => exact Or.inr ⟨nofun, rfl⟩

end QueryError

def Inquiry.Received (q : Inquiry τ) (moments : List (Span × Turn String τ (List τ)))
    (received : List (Span × Except TransportError (List UInt8))) : Prop :=
  List.Forall₂ (fun reply brought => reply.1 = brought.1 ∧
    reply.2.2 = q.answer reply.2.1 brought.2) (replies moments) received

namespace Client

structure AccountRequest (τ : Type) where
  client : Client
  blockchain : String
  publicKey : String
  take : Json → Except String τ

namespace AccountRequest

def question (r : AccountRequest τ) : Question τ :=
  r.client.account r.blockchain r.publicKey r.take

def policy (r : AccountRequest τ) : RetryPolicy := r.client.settings.retry.policy

def initialDelay (r : AccountRequest τ) : Span := r.client.settings.retry.initialDelay

def creation (r : AccountRequest τ) : Request :=
  ⟨.post, "accounts", [],
    some (.obj [("blockchain_id", .str r.blockchain), ("pub_key", .str r.publicKey)])⟩

def search (r : AccountRequest τ) : Request :=
  ⟨.get, "accounts", [("blockchain_id", r.blockchain), ("pub_key", r.publicKey)], none⟩

def Finds (r : AccountRequest τ) (result : Except TransportError (List UInt8))
    (items : List τ) : Prop :=
  items ≠ [] ∧ ∃ body next, result = .ok body ∧
    Envelope.readPageBy body "accounts" r.take = .ok ⟨items, next⟩

def searched (r : AccountRequest τ) :
    Except TransportError (List UInt8) → Outcome (Yield τ (List τ))
  | .error e => .error (.transport e)
  | .ok body =>
    match Envelope.readPageBy body "accounts" r.take with
    | .error e => .error e
    | .ok page => if page.items = [] then .error (.retryExhausted 1) else .ok (.value page.items)

def requests (r : AccountRequest τ) (log : Log String τ (List τ)) : List (Span × Request) :=
  log.sent.map fun sent => (sent.1, r.question.inquiry.request sent.2)

/-- The creation of an account from its request to its only outcome, as the results received have
decided. -/
inductive Settled (r : AccountRequest τ)
    (received : List (Span × Except TransportError (List UInt8))) (log : Log String τ (List τ)) :
    Prop
  | created {t u : Span} {body : List UInt8}
      {probes : List (Exchange (Except TransportError (List UInt8)))}
      {last : Exchange (Except TransportError (List UInt8))} :
      r.requests log = (t, r.creation) :: (probes ++ [last]).map (fun h => (h.asked, r.search)) →
      received = (u, .ok body) :: (probes ++ [last]).map (fun h => (h.heard, h.answer)) →
      log.schedules = (u, r.initialDelay) :: probes.map (fun h => (h.heard, r.policy.period)) →
      Paced r.policy.period (some (u + r.initialDelay)) (probes ++ [last]) →
      (∀ h ∈ probes, ∀ items, ¬ r.Finds h.answer items) → probes.length < r.policy.attempts →
      ((∃ items, r.Finds last.answer items ∧
          log.delivered = [(last.heard, .ok (.value items))]) ∨
        (∀ items, ¬ r.Finds last.answer items) ∧ probes.length + 1 = r.policy.attempts ∧
          log.delivered = [(last.heard, .error (.retryExhausted r.policy.attempts))]) →
      Settled r received log
  | existed {t u v : Span} {endpoint : String} {result : Except TransportError (List UInt8)} :
      r.requests log = [(t, r.creation), (u, r.search)] →
      received = [(u, .error (.http 422 endpoint)), (v, result)] →
      log.schedules = [] → log.delivered = [(v, r.searched result)] → Settled r received log
  | refused {t u : Span} {e : TransportError} : (∀ endpoint, e ≠ .http 422 endpoint) →
      r.requests log = [(t, r.creation)] → received = [(u, .error e)] →
      log.schedules = [] → log.delivered = [(u, .error (.transport e))] → Settled r received log

section Answers

variable {r : AccountRequest τ} {call : Call String τ} {answer : Answer τ (List τ)}
  {result : Except TransportError (List UInt8)}

lemma admits_iff : admits [r.question] 0 call answer ↔
    ∃ result, answer = r.question.inquiry.answer call result := by
  constructor
  · rintro ⟨question, result, hq, rfl⟩
    obtain rfl : r.question = question := Option.some.inj hq
    exact ⟨result, rfl⟩
  · rintro ⟨result, rfl⟩
    exact ⟨r.question, result, rfl, rfl⟩

lemma answersProbes (r : AccountRequest τ) : AnswersProbes (admits [r.question] 0) := by
  intro call answer hpage h
  obtain ⟨result, rfl⟩ := admits_iff.mp h
  cases call with
  | page c p => exact absurd rfl (hpage c p)
  | probe budget => exact ⟨_, rfl⟩
  | create => exact ⟨_, rfl⟩
  | lookup => exact ⟨_, rfl⟩

lemma answered (r : AccountRequest τ) (call : Call String τ) :
    ∃ answer, admits [r.question] 0 call answer :=
  ⟨_, admits_iff.mpr ⟨.error .cancelled, rfl⟩⟩

def found (r : AccountRequest τ) (result : Except TransportError (List UInt8)) :
    Outcome (Option (List τ)) :=
  Inquiry.found (Inquiry.pageOf Inquiry.accounts r.take result)

lemma create_ok {found : Option (List τ)}
    (h : .probe (.ok found) = r.question.inquiry.answer .create result) :
    ∃ body, result = .ok body := by
  cases result with
  | ok body => exact ⟨body, rfl⟩
  | error e => exact absurd (Answer.probe.inj h) (by simp)

lemma create_error {e : QueryError}
    (h : .probe (.error e) = r.question.inquiry.answer .create result) :
    ∃ error, result = .error error ∧ e = .ofSubmission error := by
  cases result with
  | ok body => exact absurd (Answer.probe.inj h) (by simp)
  | error error => exact ⟨error, rfl, Except.error.inj (Answer.probe.inj h)⟩

lemma found_ok (r : AccountRequest τ) (body : List UInt8) :
    r.found (.ok body) = Inquiry.found (Envelope.readPageBy body "accounts" r.take) := rfl

lemma found_eq_some {items : List τ} :
    r.found result = .ok (some items) ↔ r.Finds result items := by
  rcases result with e | body
  · simp [found, Inquiry.pageOf, Inquiry.found, Finds]
  · rw [found_ok]
    cases hread : Envelope.readPageBy body "accounts" r.take with
    | error e => simp [Inquiry.found, Finds, hread]
    | ok page =>
      obtain ⟨listed, next⟩ := page
      by_cases hempty : listed = []
      · simp +contextual [Inquiry.found, Finds, hread, hempty, eq_comm]
      · simp only [Inquiry.found, Finds, List.isEmpty_iff, hempty, if_false]
        constructor
        · intro h
          obtain rfl : listed = items := by simpa using h
          exact ⟨hempty, body, next, rfl, hread⟩
        · rintro ⟨-, other, _, hbody, h⟩
          obtain rfl : body = other := Except.ok.inj hbody
          rw [(Page.mk.inj (Except.ok.inj (hread.symm.trans h))).1]

lemma misses_found : Misses (r.found result) ↔ ∀ items, ¬ r.Finds result items :=
  misses_iff.trans (forall_congr' fun _ => not_congr found_eq_some)

lemma conclusion_found (r : AccountRequest τ) (result : Except TransportError (List UInt8)) :
    let o : Outcome (Yield τ (List τ)) := (r.policy.conclusion (r.found result)).map .value
    (∃ items, r.Finds result items ∧ o = .ok (.value items)) ∨
      (∀ items, ¬ r.Finds result items) ∧ o = .error (.retryExhausted r.policy.attempts) := by
  intro o
  by_cases hm : Misses (r.found result)
  · refine Or.inr ⟨misses_found.mp hm, ?_⟩
    simp only [o, r.policy.conclusion_of_misses hm]
    rfl
  · rw [misses_iff] at hm
    push Not at hm
    obtain ⟨items, hitems⟩ := hm
    refine Or.inl ⟨items, found_eq_some.mp hitems, ?_⟩
    simp only [o, hitems]
    rfl

lemma lookedUp_found (r : AccountRequest τ) (result : Except TransportError (List UInt8)) :
    (Flight.lookedUp (r.found result)).map .value = r.searched result := by
  cases result with
  | error e => rfl
  | ok body =>
    rw [found_ok, searched]
    cases Envelope.readPageBy body "accounts" r.take with
    | error e => rfl
    | ok page =>
      simp only [Inquiry.found]
      split_ifs with hempty hitems hitems
      · rfl
      · exact absurd (List.isEmpty_iff.mp hempty) hitems
      · exact absurd (List.isEmpty_iff.mpr hitems) hempty
      · rfl

end Answers

section Received

variable {r : AccountRequest τ} {s s₀ : Clocked String τ} {log : Log String τ (List τ)}
  {moments : List (Span × Turn String τ (List τ))}
  {received : List (Span × Except TransportError (List UInt8))}

lemma exists_received (h : Clocked.Run (admits [r.question] 0) s₀ moments s) :
    ∃ received, r.question.inquiry.Received moments received := by
  induction h with
  | nil => exact ⟨[], .nil⟩
  | @snoc moments moment t u _ hs ih =>
    obtain ⟨received, hreceived⟩ := ih
    rw [Inquiry.Received] at hreceived
    simp only [Inquiry.Received, replies_snoc]
    cases hs with
    | begin => exact ⟨received, by simpa [replies] using hreceived⟩
    | @answer now call rest answer _ _ hadmits =>
      obtain ⟨result, rfl⟩ := admits_iff.mp hadmits
      exact ⟨received ++ [(now, result)],
        List.rel_append hreceived (.cons ⟨rfl, rfl⟩ .nil)⟩

structure Told (r : AccountRequest τ) (log : Log String τ (List τ))
    (received : List (Span × Except TransportError (List UInt8))) : Prop where
  heard : log.heard = List.zipWith
    (fun sent brought => (brought.1, r.question.inquiry.answer sent.2 brought.2)) log.sent received
  length : log.sent.length = received.length

lemma answers_received {replies : List (Span × Call String τ × Answer τ (List τ))}
    (h : List.Forall₂ (fun reply brought => reply.1 = brought.1 ∧
      reply.2.2 = r.question.inquiry.answer reply.2.1 brought.2) replies received) :
    replies.map (fun reply => (reply.1, reply.2.2)) = List.zipWith
      (fun call brought => (brought.1, r.question.inquiry.answer call brought.2))
      (replies.map (·.2.1)) received := by
  induction h with
  | nil => rfl
  | cons hhead _ ih =>
    rw [List.map_cons, List.map_cons, List.zipWith_cons_cons, ih, hhead.1, hhead.2]

lemma told_of_received (h : Clocked.Run (admits [r.question] 0) s₀ moments s)
    (hcreating : Creating (admits [r.question] 0) r.policy r.initialDelay s₀
      ({} : Log String τ (List τ))) (hc : s₀.calls = 0) (hs : s.Idle)
    (hreceived : r.question.inquiry.Received moments received) :
    r.Told (.of moments) received := by
  have hsent := hcreating.in_order r.answersProbes hc h hs
  constructor
  · rw [heard_of, answers_received hreceived, ← hsent, List.zipWith_map_left]
  · rw [← hreceived.length_eq, ← List.length_map (·.2), hsent, List.length_map]

lemma told_probes {probes : List (Hearing (List τ))} (k : ℕ)
    (h : probes.map (fun h => (h.heard, (.probe h.answer : Answer τ (List τ)))) = List.zipWith
      (fun sent brought => (brought.1, r.question.inquiry.answer sent.2 brought.2))
      ((probes.zipIdx k).map fun x => (x.1.asked, .attempt r.policy x.2)) received)
    (hlength : probes.length = received.length) :
    ∃ brought : List (Exchange (Except TransportError (List UInt8))),
      probes = brought.map (map r.found) ∧
        received = brought.map fun h => (h.heard, h.answer) := by
  induction probes generalizing k received with
  | nil => exact ⟨[], rfl, List.length_eq_zero_iff.mp hlength.symm⟩
  | cons first probes ih =>
    cases received with
    | nil => cases hlength
    | cons brought received =>
      obtain ⟨hfirst, hrest⟩ := List.cons.inj h
      obtain ⟨hheard, hanswer⟩ := Prod.mk.inj hfirst
      obtain ⟨more, rfl, rfl⟩ := ih (k + 1) hrest (Nat.succ.inj hlength)
      refine ⟨⟨first.asked, brought.1, brought.2⟩ :: more, congrArg (· :: _) ?_, rfl⟩
      exact congrArg₂ (Exchange.mk first.asked) hheard (Answer.probe.inj hanswer)

end Received

section Runs

variable {r : AccountRequest τ} {s : Clocked String τ} {log : Log String τ (List τ)}
  {received : List (Span × Except TransportError (List UInt8))}

lemma request_create (r : AccountRequest τ) :
    r.question.inquiry.request .create = r.creation := by
  have hbody :
      Json.ofMembers [("blockchain_id", .str r.blockchain), ("pub_key", .str r.publicKey)] =
        .obj [("blockchain_id", .str r.blockchain), ("pub_key", .str r.publicKey)] := by
    have hlt : ¬ "pub_key" < "blockchain_id" := by decide
    have hne : "pub_key" ≠ "blockchain_id" := by decide
    simp only [Json.ofMembers, Json.insert, List.foldl]
    rw [if_neg hlt, if_neg hne]
  exact congrArg (Request.post "accounts") hbody

lemma requests_posted {t : Span} (h : log.sent = [(t, .create)]) :
    r.requests log = [(t, r.creation)] := by
  rw [requests, h, ← request_create]
  rfl

lemma requests_looked {t u : Span} (h : log.sent = [(t, .create), (u, .lookup)]) :
    r.requests log = [(t, r.creation), (u, r.search)] := by
  rw [requests, h, ← request_create]
  rfl

lemma requests_made {t u : Span} {found : Option (List τ)} {probes : List (Hearing (List τ))}
    (h : log.sent = ((Log.made t u r.initialDelay found).probed r.policy probes).sent) :
    r.requests log = (t, r.creation) :: probes.map fun h => (h.asked, r.search) := by
  have hmap : probes.map (fun h => (h.asked, r.search)) =
      (probes.zipIdx.map Prod.fst).map fun h => (h.asked, r.search) := by
    rw [List.zipIdx_map_fst]
  rw [hmap, ← request_create, requests, h, List.map_map]
  simp only [Log.probed, Log.made, List.map_append, List.map_map]
  rfl

lemma settled_of_probing {t u : Span} {found : Option (List τ)}
    (h : Probing (admits [r.question] 0) r.policy (some (u + r.initialDelay))
      (.made t u r.initialDelay found) s log) (hs : s.Idle) (ht : r.Told log received) :
    Settled r received log := by
  obtain ⟨probes, last, hp, hpaced, -, hend, rfl⟩ := h.ended_of_idle hs
  cases received with
  | nil => cases ht.length
  | cons first received =>
    obtain ⟨hfirst, hrest⟩ := List.cons.inj ht.heard
    obtain ⟨rfl, hcreated⟩ := Prod.mk.inj hfirst
    obtain ⟨body, hbody⟩ := create_ok hcreated
    have hlength : (probes ++ [last]).length = received.length := by
      simpa [Log.probed, Log.made] using ht.length
    obtain ⟨brought, hbrought, rfl⟩ := told_probes 0 hrest hlength
    obtain ⟨probes, rest, rfl, rfl, hlast⟩ := List.append_eq_map_iff.mp hbrought
    obtain ⟨last, rfl, rfl⟩ := List.map_eq_singleton_iff.mp hlast
    rw [hbrought] at hpaced
    have hmisses : ∀ h ∈ probes, ∀ items, ¬ r.Finds h.answer items := fun h hh =>
      misses_found.mp (hp.misses _ (List.mem_map_of_mem hh))
    have hfirst : first = (first.1, .ok body) := Prod.ext rfl hbody
    have hleft := hp.left
    rw [List.length_map] at hleft hend
    refine .created (t := t) ((requests_made rfl).trans ?_) (congrArg (· :: _) hfirst)
      (congrArg (_ :: ·) List.map_map) ((paced_map r.found).mp hpaced) hmisses hleft ?_
    · rw [hbrought, List.map_map]
      rfl
    · rcases r.conclusion_found last.answer with ⟨items, hitems, ho⟩ | ⟨hnone, ho⟩
      · exact Or.inl ⟨items, hitems, congrArg (fun o => [(last.heard, o)]) ho⟩
      · exact Or.inr ⟨hnone, hend (misses_found.mpr hnone),
          congrArg (fun o => [(last.heard, o)]) ho⟩

lemma settled_of_creating (h : Creating (admits [r.question] 0) r.policy r.initialDelay s log)
    (hs : s.Idle) (ht : r.Told log received) : Settled r received log := by
  cases h with
  | queued _ htasks => exact absurd (htasks.symm.trans hs.1) (Multiset.singleton_ne_zero _)
  | posting _ _ hc => exact absurd (hc.symm.trans hs.2) (Multiset.singleton_ne_zero _)
  | looking _ hc => exact absurd (hc.symm.trans hs.2) (Multiset.singleton_ne_zero _)
  | @found t u v reason a =>
    obtain ⟨created, looked, rfl⟩ := List.length_eq_two.mp ht.length.symm
    obtain ⟨hfirst, hsecond⟩ := List.cons.inj ht.heard
    obtain ⟨rfl, hcreated⟩ := Prod.mk.inj hfirst
    obtain ⟨rfl, hlooked⟩ := Prod.mk.inj (List.cons.inj hsecond).1
    obtain rfl : a = r.found looked.2 := Answer.probe.inj hlooked
    obtain ⟨error, herror, hreason⟩ := create_error hcreated
    rcases QueryError.ofSubmission_cases error with ⟨endpoint, -, rfl, -⟩ | ⟨-, hother⟩
    · have hfirst : created = (created.1, .error (.http 422 endpoint)) := Prod.ext rfl herror
      refine .existed (requests_looked rfl) (congrArg (· :: _) hfirst) rfl ?_
      rw [lookedUp_found]
    · exact absurd (hreason.trans hother) (by simp)
  | @refused t u e _ _ _ hother =>
    obtain ⟨created, rfl⟩ := List.length_eq_one_iff.mp ht.length.symm
    obtain ⟨rfl, hcreated⟩ := Prod.mk.inj (List.cons.inj ht.heard).1
    obtain ⟨error, herror, rfl⟩ := create_error hcreated
    rcases QueryError.ofSubmission_cases error with ⟨-, reason, -, hreason⟩ | ⟨hne, htransport⟩
    · exact absurd hreason (hother reason)
    · have hfirst : created = (created.1, .error error) := Prod.ext rfl herror
      refine .refused hne (requests_posted rfl) (congrArg (· :: []) hfirst) rfl ?_
      rw [htransport]
  | created _ hprobing => exact settled_of_probing hprobing hs ht

lemma requests_prefix (h : Creating (admits [r.question] 0) r.policy r.initialDelay s log) :
    ∃ n ≤ r.policy.attempts,
      (r.requests log).map (·.2) <+: r.creation :: List.replicate n r.search := by
  have hlen := h.length_le.1
  have hpos := r.policy.attempts_pos
  cases h with
  | queued => exact ⟨0, Nat.zero_le _, List.nil_prefix⟩
  | posting =>
    rw [requests_posted rfl]
    exact ⟨0, Nat.zero_le _, List.prefix_rfl⟩
  | looking =>
    rw [requests_looked rfl]
    exact ⟨1, hpos, List.prefix_rfl⟩
  | found =>
    rw [requests_looked rfl]
    exact ⟨1, hpos, List.prefix_rfl⟩
  | refused =>
    rw [requests_posted rfl]
    exact ⟨0, Nat.zero_le _, List.prefix_rfl⟩
  | created _ hprobing =>
    obtain ⟨more, hsent, hmore⟩ := hprobing.sent
    rw [hsent, Log.made, List.length_append, List.length_singleton] at hlen
    refine ⟨more.length, by omega, ?_⟩
    have hsearch : more.map (fun sent => r.question.inquiry.request sent.2) =
        List.replicate more.length r.search := by
      refine List.eq_replicate_iff.mpr ⟨List.length_map _, fun request hr => ?_⟩
      obtain ⟨sent, hs, rfl⟩ := List.mem_map.mp hr
      obtain ⟨k, hk⟩ := hmore sent hs
      rw [hk]
      rfl
    rw [← hsearch, ← request_create, requests, hsent, List.map_map, List.map_append]
    exact List.prefix_rfl

end Runs

end AccountRequest

/-- Whatever the transport brings and when, the account is created once and looked for as often as
allowed; there is one outcome, which the results received have decided, and it is not delivered
before the end. -/
theorem account_created_once (r : AccountRequest τ) (start : Span)
    {moments : List (Span × Turn String τ (List τ))} {s : Clocked String τ}
    (h : Clocked.Run (admits [r.question] 0) (r.question.launch.clocked start) moments s) :
    moments.length ≤ 2 * (r.policy.attempts + 1) ∧
      (∃ n ≤ r.policy.attempts, (r.requests (.of moments)).map (·.2) <+:
        r.creation :: List.replicate n r.search) ∧
      (¬ s.Idle → (Log.of moments).delivered = [] ∧
        ∃ moment t, Clocked.Step (admits [r.question] 0) s moment t) ∧
      (∃ received, r.question.inquiry.Received moments received) ∧
      ∀ received, r.question.inquiry.Received moments received → s.Idle →
        r.Settled received (.of moments) := by
  have hstart : Creating (admits [r.question] 0) r.policy r.initialDelay
      (r.question.launch.clocked start) ({} : Log String τ (List τ)) :=
    creating_clocked Inquiry.accounts r.policy r.initialDelay start
  have hcreating := hstart.run r.answersProbes h
  have hlength := hcreating.length_le
  have hmoments := length_le_log moments
  refine ⟨by omega, AccountRequest.requests_prefix hcreating, fun hs => ?_,
    AccountRequest.exists_received h, fun received hreceived hs => ?_⟩
  · exact hcreating.goes_on hs r.answered
  · exact AccountRequest.settled_of_creating hcreating hs
      (AccountRequest.told_of_received h hstart rfl hs hreceived)

def twoProbes : AccountRequest Json where
  client := { settings := { retry := ⟨5, 10, 2⟩ } }
  blockchain := "bitcoin"
  publicKey := "key"
  take := .ok

theorem account_created_once_unseen :
    (∃ (moments : List (Span × Turn String Json (List Json))) (s : Clocked String Json),
      Clocked.Run (admits [twoProbes.question] 0) (twoProbes.question.launch.clocked .zero)
        moments s ∧ s.Idle ∧
      twoProbes.requests (.of moments) = [(.ofSeconds 1, twoProbes.creation),
        (.ofSeconds 3 + twoProbes.initialDelay, twoProbes.search),
        (.ofSeconds 6 + twoProbes.policy.period, twoProbes.search)] ∧
      (Log.of moments).delivered = [(.ofSeconds 12, .error (.retryExhausted 2))] ∧
      twoProbes.Settled [(.ofSeconds 3, .ok []),
        (.ofSeconds 6, .error (.timeout 1000 "accounts")),
        (.ofSeconds 12, .error (.http 422 "accounts"))] (.of moments)) ∧
    ∃ (moments : List (Span × Turn String Json (List Json))) (s : Clocked String Json),
      Clocked.Run (admits [twoProbes.question] 0) (twoProbes.question.launch.clocked .zero)
        moments s ∧ s.Idle ∧
      (Log.of moments).delivered =
        [(.ofSeconds 4, .error (.transport (.http 422 "accounts")))] ∧
      twoProbes.Settled [(.ofSeconds 3, .error (.http 422 "accounts")),
        (.ofSeconds 4, .error (.http 422 "accounts"))] (.of moments) := by
  let first : Call String Json := .attempt twoProbes.policy 0
  let second : Call String Json := .attempt twoProbes.policy 1
  have hadmits (call : Call String Json) (result : Except TransportError (List UInt8)) :
      admits [twoProbes.question] 0 call (twoProbes.question.inquiry.answer call result) :=
    AccountRequest.admits_iff.mpr ⟨result, rfl⟩
  have hle₀ : Span.ofSeconds 1 ≤ .ofSeconds 3 := by decide
  have hle₁ : Span.ofSeconds 3 ≤ .ofSeconds 3 + twoProbes.initialDelay := Span.le_add_right _ _
  have hle₂ : Span.ofSeconds 3 + twoProbes.initialDelay ≤ .ofSeconds 6 := by decide
  have hle₃ : Span.ofSeconds 6 ≤ .ofSeconds 6 + twoProbes.policy.period := Span.le_add_right _ _
  have hle₄ : Span.ofSeconds 6 + twoProbes.policy.period ≤ .ofSeconds 12 := by decide
  have hle₅ : Span.ofSeconds 3 ≤ .ofSeconds 4 := by decide
  have h₀ : Clocked.Run (admits [twoProbes.question] 0) _
    ([] : List (Span × Turn String Json (List Json))) (twoProbes.question.launch.clocked .zero) :=
    .nil
  have h₁ := h₀.begin (.ofSeconds 1) none .create 0 rfl ⟨Nat.zero_le _, by simp⟩ nofun
  have h₂ := h₁.answer (.ofSeconds 3) .create 0 (.probe (.ok none)) rfl
    ⟨hle₀, by simp [Clocked.start]⟩ (hadmits .create (.ok []))
  have h₃ := h₂.begin (.ofSeconds 3 + twoProbes.initialDelay)
    (some (.ofSeconds 3 + twoProbes.initialDelay)) (.probe (twoProbes.policy.after 0)) 0 rfl
    ⟨hle₁, by simp⟩ fun d hd => Option.some.inj hd
  have h₄ := h₃.answer (.ofSeconds 6) first 0
    (.probe (.error (.transport (.timeout 1000 "accounts")))) rfl
    ⟨hle₂, by simp [Clocked.start]⟩ (hadmits first (.error (.timeout 1000 "accounts")))
  have h₅ := h₄.begin (.ofSeconds 6 + twoProbes.policy.period)
    (some (.ofSeconds 6 + twoProbes.policy.period)) (.probe (twoProbes.policy.after 1)) 0 rfl
    ⟨hle₃, by simp⟩ fun d hd => Option.some.inj hd
  have h₆ := h₅.answer (.ofSeconds 12) second 0
    (.probe (.error (.transport (.http 422 "accounts")))) rfl
    ⟨hle₄, by simp [Clocked.start]⟩ (hadmits second (.error (.http 422 "accounts")))
  -- The same run, but for a creation that is refused because the account exists already.
  have k₂ := h₁.answer (.ofSeconds 3) .create 0
    (.probe (.error (.submission "accounts rejected the submission"))) rfl
    ⟨hle₀, by simp [Clocked.start]⟩ (hadmits .create (.error (.http 422 "accounts")))
  have k₃ := k₂.answer (.ofSeconds 4) .lookup 0
    (.probe (.error (.transport (.http 422 "accounts")))) rfl
    ⟨hle₅, fun task ht => absurd ht (Multiset.notMem_zero task)⟩
    (hadmits .lookup (.error (.http 422 "accounts")))
  obtain ⟨-, -, -, -, hunseen⟩ := account_created_once twoProbes .zero h₆
  obtain ⟨-, -, -, -, hexisting⟩ := account_created_once twoProbes .zero k₃
  refine ⟨⟨_, _, h₆, ⟨rfl, rfl⟩, ?_, rfl, hunseen _ ?_ ⟨rfl, rfl⟩⟩,
    ⟨_, _, k₃, ⟨rfl, rfl⟩, rfl, hexisting _ ?_ ⟨rfl, rfl⟩⟩⟩
  · rw [← AccountRequest.request_create]
    rfl
  · exact .cons ⟨rfl, rfl⟩ (.cons ⟨rfl, rfl⟩ (.cons ⟨rfl, rfl⟩ .nil))
  · exact .cons ⟨rfl, rfl⟩ (.cons ⟨rfl, rfl⟩ .nil)

end Client

end LedgerQuery
