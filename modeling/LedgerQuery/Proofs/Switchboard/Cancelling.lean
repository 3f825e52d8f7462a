import LedgerQuery.Proofs.Switchboard.Lives

/-! Cancelling all sends of a switchboard. A send resolves to a cancellation if and only if one came
while it was waiting, and to the answer of the service otherwise; its request goes out once, when it
is first polled. -/

namespace LedgerQuery

namespace Life

variable {n : ℕ} {next : Option (Except TransportError (List UInt8))} {life : Life} {h : Handling}

lemma step_struck (hs : life.1 = .waiting true) (hh : ∀ m, h = .poll m → m ≠ n) :
    (step n next life h).1 = .waiting true := by
  obtain ⟨_, answer⟩ := life
  obtain rfl := hs
  cases h with
  | prepare request => rfl
  | poll m => rw [step, if_neg (hh m rfl)]
  | arrive m result =>
    simp only [step]
    split_ifs
    · cases answer <;> rfl
    · rfl
  | cancel => rfl

lemma step_poll_struck (hs : life.1 = .waiting true) :
    (step n next life (.poll n)).1 = .resolved (.error .cancelled) := by
  obtain ⟨_, answer⟩ := life
  obtain rfl := hs
  rw [step, if_pos rfl]
  rfl

lemma step_resolved {result : Except TransportError (List UInt8)} (hs : life.1 = .resolved result) :
    step n next life h = life := by
  obtain ⟨_, answer⟩ := life
  obtain rfl := hs
  cases h with
  | prepare request => rfl
  | poll m => exact ite_self _
  | arrive m result => exact ite_self _
  | cancel => rfl

lemma cancelled_eq_self (hs : ∀ c, life.1 ≠ .waiting c) : cancelled life = life := by
  obtain ⟨standing, answer⟩ := life
  cases standing with
  | unpolled => rfl
  | waiting c => exact absurd rfl (hs c)
  | resolved result => rfl

end Life

namespace Switchboard

def Waits (b : Switchboard) (n : ℕ) : Prop := ∃ life c, b.life n = some life ∧ life.1 = .waiting c

/-- There was a cancellation while the send was waiting, and `later` has been done since. -/
def Struck (w : Wire) (n : ℕ) (handlings later : List Handling) : Prop :=
  ∃ before, handlings = before ++ .cancel :: later ∧ (handled w before).Waits n

section Runs

variable {w : Wire} {handlings before later : List Handling} {n : ℕ} {life : Life}

lemma life_snoc_of_some (hl : (handled w handlings).life n = some life) (h : Handling) :
    (handled w (handlings ++ [h])).life n =
      some (Life.step n (w.sendAll (Outgoing.of handlings).requests).next life h) := by
  rw [life_snoc, hl]
  rfl

lemma life_cancel (hl : (handled w handlings).life n = some life) :
    (handled w (handlings ++ [.cancel])).life n = some (Life.cancelled life) :=
  life_snoc_of_some hl .cancel

lemma struck_stays (hl : (handled w before).life n = some life) (hs : life.1 = .waiting true)
    (hpoll : .poll n ∉ later) :
    ∃ life, (handled w (before ++ later)).life n = some life ∧ life.1 = .waiting true := by
  induction later using List.reverseRecOn with
  | nil => exact ⟨life, by rwa [List.append_nil], hs⟩
  | append_singleton later h ih =>
    rw [List.mem_append, not_or] at hpoll
    obtain ⟨life, hl, hs⟩ := ih hpoll.1
    rw [← List.append_assoc]
    refine ⟨_, life_snoc_of_some hl h, Life.step_struck hs fun m hm hmn => hpoll.2 ?_⟩
    rw [hm, hmn]
    exact List.mem_singleton_self _

lemma resolved_stays {result : Except TransportError (List UInt8)}
    (hl : (handled w before).life n = some life) (hs : life.1 = .resolved result)
    (later : List Handling) : (handled w (before ++ later)).life n = some life := by
  induction later using List.reverseRecOn with
  | nil => rwa [List.append_nil]
  | append_singleton later h ih =>
    rw [← List.append_assoc, life_snoc_of_some ih h, Life.step_resolved hs]

lemma Struck.waiting (h : Struck w n handlings later) (hpoll : .poll n ∉ later) :
    ∃ life, (handled w handlings).life n = some life ∧ life.1 = .waiting true := by
  obtain ⟨before, rfl, ⟨standing, answer⟩, c, hl, hs⟩ := h
  obtain rfl : standing = .waiting c := hs
  rw [List.append_cons]
  exact struck_stays (life_cancel hl) rfl hpoll

lemma Struck.resolves (h : Struck w n handlings later) (hpoll : .poll n ∈ later) :
    ∃ life, (handled w handlings).life n = some life ∧ life.1 = .resolved (.error .cancelled) := by
  obtain ⟨quiet, rest, rfl, hquiet⟩ := List.eq_append_cons_of_mem hpoll
  obtain ⟨before, rfl, hw⟩ := h
  have hstruck : Struck w n (before ++ .cancel :: quiet) quiet := ⟨before, rfl, hw⟩
  obtain ⟨life, hl, hs⟩ := hstruck.waiting hquiet
  have hpolled (next : Option (Except TransportError (List UInt8))) :
      (Life.step n next life (.poll n)).1 = .resolved (.error .cancelled) :=
    Life.step_poll_struck hs
  have hstays := resolved_stays (life_snoc_of_some hl (.poll n)) (hpolled _) rest
  rw [List.append_assoc, List.singleton_append, List.append_assoc, List.cons_append] at hstays
  exact ⟨_, hstays, hpolled _⟩

structure Tells (w : Wire) (n : ℕ) (handlings : List Handling) (life : Life) : Prop where
  unpolled : life.1 = .unpolled → life.2 = none
  struck : life.1 = .waiting true → ∃ later, Struck w n handlings later
  cancelled : life.1 = .resolved (.error .cancelled) →
    ∃ later, Struck w n handlings later ∧ .poll n ∈ later
  resolved : ∀ result, life.1 = .resolved result → result = .error .cancelled ∨ life.2 = some result
  answer : life.2 ≠ some (.error .cancelled)

lemma Struck.snoc (h : Struck w n handlings later) (handling : Handling) :
    Struck w n (handlings ++ [handling]) (later ++ [handling]) := by
  obtain ⟨before, rfl, hw⟩ := h
  exact ⟨before, by simp, hw⟩

lemma tells_prepared (w : Wire) (n : ℕ) (handlings : List Handling) :
    Tells w n handlings (.unpolled, none) :=
  ⟨fun _ => rfl, by simp, by simp, by simp, by simp⟩

lemma tells_waiting (w : Wire) (n : ℕ) (handlings : List Handling) :
    Tells w n handlings (.waiting false, none) :=
  ⟨by simp, by simp, by simp, by simp, by simp⟩

lemma Tells.keep (h : Tells w n handlings life) (handling : Handling) :
    Tells w n (handlings ++ [handling]) life := by
  refine ⟨h.unpolled, fun hs => ?_, fun hs => ?_, h.resolved, h.answer⟩
  · obtain ⟨later, hstruck⟩ := h.struck hs
    exact ⟨_, hstruck.snoc handling⟩
  · obtain ⟨later, hstruck, hpoll⟩ := h.cancelled hs
    exact ⟨_, hstruck.snoc handling, List.mem_append_left _ hpoll⟩

lemma Tells.poll (h : Tells w n handlings life)
    {next : Option (Except TransportError (List UInt8))} (hn : next ≠ some (.error .cancelled)) :
    Tells w n (handlings ++ [.poll n]) (Life.polled next life) := by
  obtain ⟨standing, answer⟩ := life
  cases standing with
  | unpolled =>
    cases next with
    | none => exact tells_waiting w n _
    | some result =>
      refine ⟨nofun, nofun, fun hs => absurd ?_ hn, ?_, hn⟩
      · exact congrArg some (Standing.resolved.inj hs)
      · intro other hs
        exact Or.inr (congrArg some (Standing.resolved.inj hs))
  | waiting c =>
    cases c with
    | true =>
      refine ⟨nofun, nofun, fun _ => ?_, fun result hs => Or.inl ?_, h.answer⟩
      · obtain ⟨later, hstruck⟩ := h.struck rfl
        exact ⟨_, hstruck.snoc (.poll n), by simp⟩
      · exact (Standing.resolved.inj hs).symm
    | false =>
      cases answer with
      | none => exact tells_waiting w n _
      | some result =>
        refine ⟨nofun, nofun, fun hs => absurd ?_ h.answer, ?_, h.answer⟩
        · exact congrArg some (Standing.resolved.inj hs)
        · intro other hs
          exact Or.inr (congrArg some (Standing.resolved.inj hs))
  | resolved result => exact h.keep (.poll n)

lemma Tells.arrive (h : Tells w n handlings life) {result : Except TransportError (List UInt8)}
    (hr : result ≠ .error .cancelled) :
    Tells w n (handlings ++ [.arrive n result]) (Life.arrived result life) := by
  have hkept := h.keep (.arrive n result)
  obtain ⟨standing, answer⟩ := life
  cases standing with
  | unpolled => exact hkept
  | resolved result => exact hkept
  | waiting c =>
    cases answer with
    | some answer => exact hkept
    | none => exact ⟨nofun, hkept.struck, nofun, nofun, fun ha => hr (Option.some.inj ha)⟩

lemma Tells.cancel (h : Tells w n handlings life) (hl : (handled w handlings).life n = some life) :
    Tells w n (handlings ++ [.cancel]) (Life.cancelled life) := by
  obtain ⟨standing, answer⟩ := life
  cases standing with
  | unpolled => exact h.keep .cancel
  | resolved result => exact h.keep .cancel
  | waiting c =>
    exact ⟨nofun, fun _ => ⟨[], handlings, rfl, _, c, hl, rfl⟩, nofun, nofun, h.answer⟩

end Runs

structure NeverCancels (w : Wire) (handlings : List Handling) : Prop where
  laid : ∀ response ∈ w.responses, response.result ≠ some (.error .cancelled)
  arriving : ∀ n, .arrive n (.error .cancelled) ∉ handlings

section Histories

variable {w : Wire} {handlings before later : List Handling} {n : ℕ} {life : Life}

lemma NeverCancels.earlier (h : NeverCancels w (before ++ later)) : NeverCancels w before :=
  ⟨h.laid, fun n hn => h.arriving n (List.mem_append_left later hn)⟩

lemma next_sendAll_ne {requests : List Request}
    (hw : ∀ response ∈ w.responses, response.result ≠ some (.error .cancelled)) :
    (w.sendAll requests).next ≠ some (.error .cancelled) := by
  have hkept : (w.sendAll requests).responses ⊆ w.responses ∧
      (w.sendAll requests).hangWhenEmpty = w.hangWhenEmpty := by
    induction requests using List.reverseRecOn with
    | nil => exact ⟨List.Subset.refl _, rfl⟩
    | append_singleton requests request ih =>
      rw [Wire.sendAll_snoc]
      exact ⟨fun response hr => ih.1 (List.mem_of_mem_drop hr), ih.2⟩
  rw [Wire.next]
  cases hr : (w.sendAll requests).responses with
  | nil =>
    simp only [List.headD_nil, Wire.fallback]
    split_ifs <;> simp
  | cons response rest =>
    refine hw response (hkept.1 ?_)
    rw [hr]
    exact List.mem_cons_self

lemma tells (hw : NeverCancels w handlings) (hl : (handled w handlings).life n = some life) :
    Tells w n handlings life := by
  induction handlings using List.reverseRecOn generalizing life with
  | nil => simp [handled, handleAll, Switchboard.life] at hl
  | append_singleton handlings h ih =>
    rw [life_snoc] at hl
    -- A send that is not there yet can only come to be prepared; all else keeps to its life so far.
    cases hbefore : (handled w handlings).life n with
    | none =>
      rw [hbefore] at hl
      cases h with
      | prepare request =>
        simp only [Life.after] at hl
        split_ifs at hl
        obtain rfl := Option.some.inj hl
        exact tells_prepared w n _
      | poll m => simp [Life.after] at hl
      | arrive m result => simp [Life.after] at hl
      | cancel => simp [Life.after] at hl
    | some earlier =>
      have htells := ih hw.earlier hbefore
      rw [hbefore] at hl
      obtain rfl := Option.some.inj hl
      cases h with
      | prepare request => exact htells.keep _
      | poll m =>
        simp only [Life.step]
        split_ifs with hm
        · subst hm
          exact htells.poll (next_sendAll_ne hw.laid)
        · exact htells.keep _
      | arrive m result =>
        simp only [Life.step]
        split_ifs with hm
        · subst hm
          refine htells.arrive fun hr => hw.arriving m ?_
          rw [hr]
          exact List.mem_append_right _ (List.mem_singleton_self _)
        · exact htells.keep _
      | cancel => exact htells.cancel hbefore

lemma outgoing_without_cancel (before later : List Handling) :
    Outgoing.of (before ++ .cancel :: later) = Outgoing.of (before ++ later) := by
  rw [Outgoing.of, Outgoing.of, List.foldl_append, List.foldl_append]
  rfl

lemma life_without_cancel (hn : ¬ (handled w before).Waits n) (later : List Handling) :
    (handled w (before ++ .cancel :: later)).life n = (handled w (before ++ later)).life n := by
  induction later using List.reverseRecOn with
  | nil =>
    rw [List.append_nil, life_snoc]
    cases hl : (handled w before).life n with
    | none => rfl
    | some life =>
      have hc (c : Bool) : life.1 ≠ .waiting c := fun hs => hn ⟨life, c, hl, hs⟩
      exact congrArg some (Life.cancelled_eq_self hc)
  | append_singleton later h ih =>
    rw [← List.cons_append, ← List.append_assoc, ← List.append_assoc, life_snoc, life_snoc, ih,
      outgoing_without_cancel]

end Histories

def standing (b : Switchboard) (n : ℕ) : Option Standing := (b.life n).map (·.1)

def answer (b : Switchboard) (n : ℕ) : Option (Except TransportError (List UInt8)) :=
  (b.life n).bind (·.2)

structure Resolves (w : Wire) (handlings : List Handling) (n : ℕ) : Prop where
  cancelled_iff : (handled w handlings).standing n = some (.resolved (.error .cancelled)) ↔
    ∃ later, Struck w n handlings later ∧ .poll n ∈ later
  at_next_poll : ∀ later, Struck w n handlings later → .poll n ∉ later →
    (handled w handlings).standing n = some (.waiting true) ∧
      (handled w (handlings ++ [.poll n])).standing n = some (.resolved (.error .cancelled))
  unaffected : ∀ before later, handlings = before ++ .cancel :: later →
    ¬ (handled w before).Waits n →
    (handled w handlings).life n = (handled w (before ++ later)).life n
  settled : ∀ before later result, handlings = before ++ later →
    (handled w before).standing n = some (.resolved result) →
    (handled w handlings).standing n = some (.resolved result)
  answered : ∀ result, (handled w handlings).standing n = some (.resolved result) →
    result ≠ .error .cancelled → (handled w handlings).answer n = some result
  prompt : (∀ later, ¬ Struck w n handlings later) → ∀ result,
    (handled w handlings).answer n = some result →
    (handled w (handlings ++ [.poll n])).standing n = some (.resolved result)

structure Reaches (w : Wire) (handlings : List Handling) : Prop where
  requests : (handled w handlings).wire.requests =
    w.requests ++ (Outgoing.of handlings).requests.map (Span.zero, ·)
  once : ((Outgoing.of handlings).sent.map (·.1)).Nodup
  polled : ∀ n request, (n, request) ∈ (Outgoing.of handlings).sent ↔
    (handled w handlings).sendings[n]?.map (·.request) = some request ∧
      ∃ before later, handlings = before ++ .poll n :: later ∧
        n < (handled w before).sendings.length
  at_first_poll : ∀ before later n request, handlings = before ++ .poll n :: later →
    (handled w before).sendings[n]?.map (·.request) = some request →
    (handled w before).standing n = some .unpolled →
    (handled w (before ++ [.poll n])).wire.requests =
      (handled w before).wire.requests ++ [(.zero, request)]

section Statements

variable {w : Wire} {handlings : List Handling} {n : ℕ} {life : Life} {standing : Standing}

lemma standing_eq_some : (handled w handlings).standing n = some standing ↔
    ∃ life, (handled w handlings).life n = some life ∧ life.1 = standing :=
  Option.map_eq_some_iff

lemma resolves (h : NeverCancels w handlings) (n : ℕ) : Resolves w handlings n := by
  refine ⟨⟨fun hs => ?_, ?_⟩, fun later hstruck hpoll => ?_, ?_, ?_, fun result hs hr => ?_,
    fun hstruck result ha => ?_⟩
  · obtain ⟨life, hl, hs⟩ := standing_eq_some.mp hs
    exact (tells h hl).cancelled hs
  · rintro ⟨later, hstruck, hpoll⟩
    exact standing_eq_some.mpr (hstruck.resolves hpoll)
  · refine ⟨standing_eq_some.mpr (hstruck.waiting hpoll), standing_eq_some.mpr ?_⟩
    exact (hstruck.snoc (.poll n)).resolves (by simp)
  · rintro before later rfl hw
    exact life_without_cancel hw later
  · rintro before later result rfl hs
    obtain ⟨life, hl, hs⟩ := standing_eq_some.mp hs
    exact standing_eq_some.mpr ⟨life, resolved_stays hl hs later, hs⟩
  · obtain ⟨life, hl, hs⟩ := standing_eq_some.mp hs
    rw [answer, hl]
    exact ((tells h hl).resolved result hs).resolve_left hr
  · obtain ⟨⟨standing, answer⟩, hl, ha⟩ := Option.bind_eq_some_iff.mp ha
    obtain rfl : answer = some result := ha
    have htells := tells h hl
    refine standing_eq_some.mpr ⟨_, life_snoc_of_some hl (.poll n), ?_⟩
    rw [Life.step, if_pos rfl]
    cases standing with
    | unpolled => exact absurd (htells.unpolled rfl) (Option.some_ne_none result)
    | waiting c =>
      cases c with
      | false => rfl
      | true =>
        obtain ⟨later, hs⟩ := htells.struck rfl
        exact absurd hs (hstruck later)
    | resolved other =>
      rcases htells.resolved other rfl with rfl | ho
      · obtain ⟨later, hs, -⟩ := htells.cancelled rfl
        exact absurd hs (hstruck later)
      · obtain rfl := Option.some.inj ho
        rfl

lemma length_handled (w : Wire) (handlings : List Handling) :
    (handled w handlings).sendings.length = (Outgoing.of handlings).prepared.length := by
  rw [← (tracks w handlings).prepared, List.length_map]

lemma reaches (w : Wire) (handlings : List Handling) : Reaches w handlings := by
  refine ⟨?_, Outgoing.nodup_of handlings, fun n request => ?_, ?_⟩
  · rw [(tracks w handlings).wire, Wire.requests_sendAll]
  · simp only [← (tracks w handlings).request, length_handled]
    exact Outgoing.mem_sent
  · intro before later n request _ hrequest hs
    obtain ⟨s, hn, rfl⟩ := Option.map_eq_some_iff.mp hrequest
    have hsend : s.send = .unpolled := by
      simp only [standing, life, hn, Option.map_some, Sending.life, Sending.standing] at hs
      cases hsend : s.send <;> simp [hsend] at hs ⊢
    have hwire : (handled w (before ++ [.poll n])).wire =
        ((handled w before).wire.send .zero s.request).1 :=
      (congrArg wire (handleAll_snoc _ before (.poll n))).trans (wire_poll_first hn hsend)
    rw [hwire]
    simp [Wire.requests, Wire.send]

end Statements

theorem cancels_waiting_sends {w : Wire} {handlings : List Handling}
    (h : NeverCancels w handlings) :
    (∀ n, Resolves w handlings n) ∧ Reaches w handlings :=
  ⟨resolves h, reaches w handlings⟩

theorem cancels_waiting_sends_answered_late :
    ∃ (w : Wire) (handlings : List Handling), NeverCancels w handlings ∧
      (handled w handlings).standing 0 = some (.resolved (.error .cancelled)) ∧
      (handled w handlings).answer 0 = some (.ok [1]) ∧
      (handled w handlings).standing 1 = some (.resolved (.ok [2])) ∧
      (handled w handlings).standing 2 = some .unpolled ∧
      (∀ n, Resolves w handlings n) ∧ Reaches w handlings := by
  let w : Wire := ⟨[], true, []⟩
  let request : Request := .get "accounts"
  let handlings : List Handling := [.prepare request, .prepare request, .prepare request, .poll 0,
    .arrive 0 (.ok [1]), .cancel, .poll 1, .poll 0, .arrive 1 (.ok [2]), .poll 1, .cancel, .poll 1]
  have h : NeverCancels w handlings := ⟨by simp [w], by simp [handlings]⟩
  have hall := cancels_waiting_sends h
  exact ⟨w, handlings, h, rfl, rfl, rfl, rfl, hall.1, hall.2⟩

end Switchboard

end LedgerQuery
