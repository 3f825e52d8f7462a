import LedgerQuery.Client.Switchboard
import Mathlib.Tactic

/-! What is done with a switchboard, and the life of a single send among the others. Sends can be
prepared and polled in any order and any number of times, answers come in when they please, and all
outstanding sends can be cancelled at any moment. -/

namespace LedgerQuery

inductive Handling where
  | prepare (request : Request)
  | poll (n : ℕ)
  | arrive (n : ℕ) (result : Except TransportError (List UInt8))
  | cancel

inductive Standing where
  | unpolled
  | waiting (cancelled : Bool)
  | resolved (result : Except TransportError (List UInt8))

/-- The life of a send so far: where it stands, and what the service has answered. -/
abbrev Life := Standing × Option (Except TransportError (List UInt8))

namespace Wire

def next (w : Wire) : Option (Except TransportError (List UInt8)) :=
  (w.responses.headD w.fallback).result

def sendAll (w : Wire) (requests : List Request) : Wire :=
  requests.foldl (fun w request => (w.send .zero request).1) w

lemma sendAll_snoc (w : Wire) (requests : List Request) (request : Request) :
    w.sendAll (requests ++ [request]) = ((w.sendAll requests).send .zero request).1 := by
  simp [sendAll]

lemma requests_sendAll (w : Wire) (requests : List Request) :
    (w.sendAll requests).requests = w.requests ++ requests.map (Span.zero, ·) := by
  induction requests using List.reverseRecOn with
  | nil => simp [sendAll]
  | append_singleton requests request ih =>
    rw [sendAll_snoc, List.map_append, ← List.append_assoc, ← ih]
    simp [Wire.requests, send]

end Wire

namespace Sending

def arrived (s : Sending) (result : Except TransportError (List UInt8)) : Sending :=
  match s.send, s.inner with
  | .outstanding _, none => { s with inner := some result }
  | _, _ => s

def standing (s : Sending) (g : Gate) : Standing :=
  match s.send with
  | .unpolled => .unpolled
  | .outstanding generation => .waiting (g.hasEnded generation)
  | .resolved result => .resolved result

def life (s : Sending) (g : Gate) : Life := (s.standing g, s.inner)

def polled (s : Sending) (g : Gate) (next : Option (Except TransportError (List UInt8))) :
    Sending :=
  match s.send with
  | .unpolled => { s with send := g.poll .unpolled next, inner := next }
  | _ => { s with send := g.poll s.send s.inner }

end Sending

namespace Life

def polled (next : Option (Except TransportError (List UInt8))) : Life → Life
  | (.unpolled, _) => (next.elim (.waiting false) .resolved, next)
  | (.waiting true, answer) => (.resolved (.error .cancelled), answer)
  | (.waiting false, answer) => (answer.elim (.waiting false) .resolved, answer)
  | (.resolved result, answer) => (.resolved result, answer)

def arrived (result : Except TransportError (List UInt8)) : Life → Life
  | (.waiting cancelled, none) => (.waiting cancelled, some result)
  | life => life

def cancelled : Life → Life
  | (.waiting _, answer) => (.waiting true, answer)
  | life => life

def step (n : ℕ) (next : Option (Except TransportError (List UInt8))) (life : Life) :
    Handling → Life
  | .prepare _ => life
  | .poll m => if m = n then polled next life else life
  | .arrive m result => if m = n then arrived result life else life
  | .cancel => cancelled life

def after (n count : ℕ) (next : Option (Except TransportError (List UInt8))) :
    Option Life → Handling → Option Life
  | some life, h => some (step n next life h)
  | none, .prepare _ => if n = count then some (.unpolled, none) else none
  | none, _ => none

end Life

structure Outgoing where
  prepared : List Request := []
  sent : List (ℕ × Request) := []

namespace Outgoing

def after (o : Outgoing) : Handling → Outgoing
  | .prepare request => { o with prepared := o.prepared ++ [request] }
  | .poll n =>
    match o.prepared[n]? with
    | some request =>
      if n ∈ o.sent.map (·.1) then o else { o with sent := o.sent ++ [(n, request)] }
    | none => o
  | .arrive _ _ => o
  | .cancel => o

def of (handlings : List Handling) : Outgoing := handlings.foldl after {}

def requests (o : Outgoing) : List Request := o.sent.map (·.2)

lemma of_snoc (handlings : List Handling) (h : Handling) :
    of (handlings ++ [h]) = (of handlings).after h := by
  simp [of]

section Steps

variable {o : Outgoing} {n : ℕ} {request : Request}

lemma after_poll_first (h : o.prepared[n]? = some request) (hn : n ∉ o.sent.map (·.1)) :
    o.after (.poll n) = { o with sent := o.sent ++ [(n, request)] } := by
  simp only [after, h, if_neg hn]

lemma after_poll_again (hn : n ∈ o.sent.map (·.1)) : o.after (.poll n) = o := by
  simp only [after]
  cases o.prepared[n]? with
  | none => rfl
  | some request => exact if_pos hn

lemma after_cases (o : Outgoing) (h : Handling) :
    o.after h = o ∨
      (∃ request, o.after h = { o with prepared := o.prepared ++ [request] }) ∨
      ∃ n request, h = .poll n ∧ o.prepared[n]? = some request ∧ n ∉ o.sent.map (·.1) ∧
        o.after h = { o with sent := o.sent ++ [(n, request)] } := by
  cases h with
  | prepare request => exact Or.inr (Or.inl ⟨request, rfl⟩)
  | arrive n result => exact Or.inl rfl
  | cancel => exact Or.inl rfl
  | poll n =>
    by_cases hn : n ∈ o.sent.map (·.1)
    · exact Or.inl (after_poll_again hn)
    cases hp : o.prepared[n]? with
    | none =>
      refine Or.inl ?_
      simp only [after, hp]
    | some request => exact Or.inr (Or.inr ⟨n, request, rfl, hp, hn, after_poll_first hp hn⟩)

end Steps

section Histories

variable {n : ℕ} {request : Request}

lemma nodup_of (handlings : List Handling) : ((of handlings).sent.map (·.1)).Nodup := by
  induction handlings using List.reverseRecOn with
  | nil => exact List.nodup_nil
  | append_singleton handlings h ih =>
    rw [of_snoc]
    rcases after_cases (of handlings) h with ho | ⟨request, ho⟩ | ⟨n, request, -, -, hn, ho⟩
    · rwa [ho]
    · rwa [ho]
    · rw [ho, List.map_append]
      refine List.nodup_append.mpr ⟨ih, List.nodup_singleton n, fun m hm k hk hmk => hn ?_⟩
      obtain rfl : k = n := List.mem_singleton.mp hk
      exact hmk ▸ hm

lemma prepared_of_sent {handlings : List Handling} (h : (n, request) ∈ (of handlings).sent) :
    (of handlings).prepared[n]? = some request := by
  induction handlings using List.reverseRecOn with
  | nil => exact absurd h List.not_mem_nil
  | append_singleton handlings handling ih =>
    rw [of_snoc] at h ⊢
    rcases after_cases (of handlings) handling with ho | ⟨more, ho⟩ | ⟨m, other, -, hm, -, ho⟩
    · rw [ho] at h ⊢
      exact ih h
    · rw [ho] at h ⊢
      have hold := ih h
      rw [List.getElem?_append_left (List.getElem?_eq_some_iff.mp hold).1, hold]
    · rw [ho] at h ⊢
      rcases List.mem_append.mp h with h | h
      · exact ih h
      · obtain ⟨rfl, rfl⟩ := Prod.mk.inj (List.mem_singleton.mp h)
        exact hm

lemma sent_mono (before later : List Handling) :
    (of before).sent ⊆ (of (before ++ later)).sent := by
  induction later using List.reverseRecOn with
  | nil => rw [List.append_nil]; exact List.Subset.refl _
  | append_singleton later h ih =>
    rw [← List.append_assoc, of_snoc]
    rcases after_cases (of (before ++ later)) h with ho | ⟨request, ho⟩ | ⟨n, request, -, -, -, ho⟩
    · rwa [ho]
    · rwa [ho]
    · rw [ho]
      exact fun sent hs => List.mem_append_left _ (ih hs)

lemma mem_sent {handlings : List Handling} :
    (n, request) ∈ (of handlings).sent ↔ (of handlings).prepared[n]? = some request ∧
      ∃ before later, handlings = before ++ .poll n :: later ∧
        n < (of before).prepared.length := by
  constructor
  · intro h
    refine ⟨prepared_of_sent h, ?_⟩
    induction handlings using List.reverseRecOn with
    | nil => exact absurd h List.not_mem_nil
    | append_singleton handlings handling ih =>
      have hold (h : (n, request) ∈ (of handlings).sent) : ∃ before later,
          handlings ++ [handling] = before ++ .poll n :: later ∧
            n < (of before).prepared.length := by
        obtain ⟨before, later, rfl, hn⟩ := ih h
        exact ⟨before, later ++ [handling], by simp, hn⟩
      rw [of_snoc] at h
      rcases after_cases (of handlings) handling with ho | ⟨_, ho⟩ | ⟨m, _, rfl, hm, -, ho⟩
      · exact hold (ho ▸ h)
      · rw [ho] at h
        exact hold h
      · rw [ho] at h
        rcases List.mem_append.mp h with h | h
        · exact hold h
        · obtain ⟨rfl, rfl⟩ := Prod.mk.inj (List.mem_singleton.mp h)
          exact ⟨handlings, [], rfl, (List.getElem?_eq_some_iff.mp hm).1⟩
  · rintro ⟨hp, before, later, rfl, hn⟩
    have hsent : n ∈ (of (before ++ [.poll n])).sent.map (·.1) := by
      rw [of_snoc]
      by_cases hin : n ∈ (of before).sent.map (·.1)
      · rwa [after_poll_again hin]
      · rw [after_poll_first (List.getElem?_eq_getElem hn) hin]
        simp
    obtain ⟨⟨m, other⟩, hmem, rfl⟩ := List.mem_map.mp hsent
    have hlater := sent_mono _ later hmem
    rw [List.append_assoc, List.singleton_append] at hlater
    obtain rfl : other = request := Option.some.inj ((prepared_of_sent hlater).symm.trans hp)
    exact hlater

end Histories

end Outgoing

namespace Switchboard

def arrive (b : Switchboard) (n : ℕ) (result : Except TransportError (List UInt8)) :
    Switchboard :=
  { b with sendings := b.sendings.modify n (·.arrived result) }

def handle (b : Switchboard) : Handling → Switchboard
  | .prepare request => b.prepare request
  | .poll n => b.poll n
  | .arrive n result => b.arrive n result
  | .cancel => b.cancelAll

def handleAll (b : Switchboard) (handlings : List Handling) : Switchboard :=
  handlings.foldl handle b

lemma handleAll_snoc (b : Switchboard) (handlings : List Handling) (h : Handling) :
    b.handleAll (handlings ++ [h]) = (b.handleAll handlings).handle h := by
  simp [handleAll]

def life (b : Switchboard) (n : ℕ) : Option Life := b.sendings[n]?.map (·.life b.gate)

lemma getElem?_arrive (b : Switchboard) (n m : ℕ) (result : Except TransportError (List UInt8)) :
    (b.arrive n result).sendings[m]? =
      b.sendings[m]?.map fun s => if n = m then s.arrived result else s :=
  List.getElem?_modify ..

section Polls

variable {b : Switchboard} {s : Sending} {n : ℕ}

lemma poll_of_none (h : b.sendings[n]? = none) : b.poll n = b := by
  simp [poll, h]

lemma poll_of_some (h : b.sendings[n]? = some s) :
    (b.poll n).sendings = b.sendings.set n (s.polled b.gate b.wire.next) ∧
      (b.poll n).gate = b.gate := by
  have hresult : (b.wire.send .zero s.request).2.result = b.wire.next := rfl
  cases hs : s.send with
  | unpolled => simp [poll, h, transmit, hs, hresult, Sending.polled]
  | outstanding g => simp [poll, h, transmit, hs, Sending.polled]
  | resolved result => simp [poll, h, transmit, hs, Sending.polled]

lemma wire_poll_first (h : b.sendings[n]? = some s) (hs : s.send = .unpolled) :
    (b.poll n).wire = (b.wire.send .zero s.request).1 := by
  simp [poll, h, transmit, hs]

lemma wire_poll_again (h : b.sendings[n]? = some s) (hs : s.send ≠ .unpolled) :
    (b.poll n).wire = b.wire := by
  cases hsend : s.send with
  | unpolled => exact absurd hsend hs
  | outstanding g => simp [poll, h, transmit, hsend]
  | resolved result => simp [poll, h, transmit, hsend]

end Polls

end Switchboard

namespace Sending

variable {s : Sending} {g : Gate} {next : Option (Except TransportError (List UInt8))}

@[simp] lemma request_polled : (s.polled g next).request = s.request := by
  unfold polled
  cases s.send <;> rfl

@[simp] lemma request_arrived (result : Except TransportError (List UInt8)) :
    (s.arrived result).request = s.request := by
  unfold arrived
  split <;> rfl

@[simp] lemma send_arrived (result : Except TransportError (List UInt8)) :
    (s.arrived result).send = s.send := by
  unfold arrived
  split <;> rfl

lemma send_polled : (s.polled g next).send ≠ .unpolled := by
  unfold polled
  cases s.send with
  | unpolled => cases next <;> simp [Gate.poll]
  | outstanding generation =>
    simp only [Gate.poll]
    split_ifs
    · simp
    · cases s.inner <;> simp
  | resolved result => simp [Gate.poll]

lemma le_of_polled {generation : ℕ} (hs : ∀ k, s.send = .outstanding k → k ≤ g.generation)
    (h : (s.polled g next).send = .outstanding generation) : generation ≤ g.generation := by
  unfold polled at h
  cases hsend : s.send with
  | unpolled => cases next <;> simp_all [Gate.poll]
  | resolved result => simp [hsend, Gate.poll] at h
  | outstanding k =>
    simp only [hsend, Gate.poll] at h
    split_ifs at h
    cases hi : s.inner with
    | some result => simp [hi] at h
    | none =>
      obtain rfl : k = generation := by simpa [hi] using h
      exact hs k hsend

lemma life_polled : (s.polled g next).life g = Life.polled next (s.life g) := by
  cases hs : s.send with
  | unpolled =>
    cases next <;> simp [polled, hs, life, standing, Gate.poll, Life.polled, Gate.hasEnded]
  | resolved result => simp [polled, hs, life, standing, Gate.poll, Life.polled]
  | outstanding k =>
    cases he : g.hasEnded k with
    | true => simp [polled, hs, life, standing, Gate.poll, Life.polled, he]
    | false =>
      cases hi : s.inner <;> simp [polled, hs, life, standing, Gate.poll, Life.polled, he, hi]

lemma life_arrived (result : Except TransportError (List UInt8)) :
    (s.arrived result).life g = Life.arrived result (s.life g) := by
  cases hs : s.send <;> cases hi : s.inner <;>
    simp [arrived, hs, hi, life, standing, Life.arrived]

lemma life_cancelled (hs : ∀ k, s.send = .outstanding k → k ≤ g.generation) :
    s.life g.cancelAll = Life.cancelled (s.life g) := by
  cases hsend : s.send with
  | unpolled => simp [life, standing, hsend, Life.cancelled]
  | resolved result => simp [life, standing, hsend, Life.cancelled]
  | outstanding k =>
    have hended : g.cancelAll.hasEnded k = true := by
      have hle := hs k hsend
      exact decide_eq_true (Nat.lt_succ_of_le hle)
    simp [life, standing, hsend, Life.cancelled, hended]

end Sending

namespace Switchboard

structure Tracks (w : Wire) (o : Outgoing) (b : Switchboard) : Prop where
  prepared : b.sendings.map (·.request) = o.prepared
  sent : ∀ (n : ℕ) (s : Sending), b.sendings[n]? = some s →
    (n ∈ o.sent.map (·.1) ↔ s.send ≠ .unpolled)
  wire : b.wire = w.sendAll o.requests
  sound : ∀ (n : ℕ) (s : Sending), b.sendings[n]? = some s → ∀ g, s.send = .outstanding g →
    g ≤ b.gate.generation

section Steps

variable {w : Wire} {o : Outgoing} {b : Switchboard} {n : ℕ}

lemma Tracks.request (h : Tracks w o b) (n : ℕ) :
    o.prepared[n]? = b.sendings[n]?.map (·.request) := by
  rw [← h.prepared, List.getElem?_map]

lemma Tracks.prepare (h : Tracks w o b) (request : Request) (hlt : ∀ n ∈ o.sent.map (·.1),
    n < o.prepared.length) : Tracks w (o.after (.prepare request)) (b.prepare request) := by
  have hnew (n : ℕ) (s : Sending) (hs : (b.prepare request).sendings[n]? = some s) :
      b.sendings[n]? = some s ∨ n = b.sendings.length ∧ s = { request } := by
    simp only [Switchboard.prepare] at hs
    rcases lt_or_ge n b.sendings.length with hn | hn
    · rw [List.getElem?_append_left hn] at hs
      exact Or.inl hs
    · rw [List.getElem?_append_right hn] at hs
      obtain ⟨hn', rfl⟩ := List.getElem?_eq_some_iff.mp hs
      exact Or.inr ⟨by simp at hn'; omega, by simp⟩
  refine ⟨?_, ?_, h.wire, ?_⟩
  · simp [Switchboard.prepare, Outgoing.after, h.prepared]
  · intro n s hs
    rcases hnew n s hs with hs | ⟨rfl, rfl⟩
    · exact h.sent n s hs
    · refine iff_of_false (fun hn => ?_) (by simp)
      have hlen := hlt _ hn
      rw [← h.prepared, List.length_map] at hlen
      exact absurd hlen (lt_irrefl _)
  · intro n s hs
    rcases hnew n s hs with hs | ⟨rfl, rfl⟩
    · exact h.sound n s hs
    · simp

lemma map_request_set {sendings : List Sending} {s s' : Sending} (h : sendings[n]? = some s)
    (hs : s'.request = s.request) :
    (sendings.set n s').map (·.request) = sendings.map (·.request) := by
  obtain ⟨hn, rfl⟩ := List.getElem?_eq_some_iff.mp h
  rw [List.map_set, hs]
  refine List.ext_getElem? fun m => ?_
  by_cases hm : n = m
  · subst hm
    simp [hn]
  · simp [List.getElem?_set_ne hm]

lemma Tracks.poll (h : Tracks w o b) (n : ℕ) : Tracks w (o.after (.poll n)) (b.poll n) := by
  cases hn : b.sendings[n]? with
  | none =>
    have hp : o.prepared[n]? = none := by rw [h.request, hn, Option.map_none]
    rw [poll_of_none hn]
    simpa only [Outgoing.after, hp] using h
  | some s =>
    obtain ⟨hsendings, hgate⟩ := poll_of_some hn
    have hlt := (List.getElem?_eq_some_iff.mp hn).1
    -- Only the send that is polled changes.
    have hset (m : ℕ) (t : Sending) (ht : (b.poll n).sendings[m]? = some t) :
        n ≠ m ∧ b.sendings[m]? = some t ∨ n = m ∧ t = s.polled b.gate b.wire.next := by
      rw [hsendings] at ht
      by_cases hm : n = m
      · subst hm
        rw [List.getElem?_set_self hlt] at ht
        exact Or.inr ⟨rfl, (Option.some.inj ht).symm⟩
      · rw [List.getElem?_set_ne hm] at ht
        exact Or.inl ⟨hm, ht⟩
    have hprepared : (b.poll n).sendings.map (·.request) = o.prepared := by
      rw [hsendings, map_request_set hn Sending.request_polled, h.prepared]
    have hsound (m : ℕ) (t : Sending) (ht : (b.poll n).sendings[m]? = some t) (g : ℕ)
        (hg : t.send = .outstanding g) : g ≤ (b.poll n).gate.generation := by
      rw [hgate]
      rcases hset m t ht with ⟨-, ht⟩ | ⟨rfl, rfl⟩
      · exact h.sound m t ht g hg
      · exact Sending.le_of_polled (h.sound n s hn) hg
    -- At its first poll the request goes out; at a later one nothing does.
    by_cases hs : s.send = .unpolled
    · have hout : n ∉ o.sent.map (·.1) := fun hmem => (h.sent n s hn).mp hmem hs
      have hp : o.prepared[n]? = some s.request := by rw [h.request, hn, Option.map_some]
      rw [Outgoing.after_poll_first hp hout]
      refine ⟨hprepared, ?_, ?_, hsound⟩
      · intro m t ht
        rcases hset m t ht with ⟨hm, ht⟩ | ⟨rfl, rfl⟩
        · rw [← h.sent m t ht]
          simp [Ne.symm hm]
        · exact iff_of_true (by simp) Sending.send_polled
      · rw [wire_poll_first hn hs, h.wire, ← Wire.sendAll_snoc]
        simp [Outgoing.requests]
    · have hin : n ∈ o.sent.map (·.1) := (h.sent n s hn).mpr hs
      rw [Outgoing.after_poll_again hin]
      refine ⟨hprepared, ?_, ?_, hsound⟩
      · intro m t ht
        rcases hset m t ht with ⟨hm, ht⟩ | ⟨rfl, rfl⟩
        · exact h.sent m t ht
        · exact iff_of_true hin Sending.send_polled
      · rw [wire_poll_again hn hs, h.wire]

lemma Tracks.arrive (h : Tracks w o b) (n : ℕ) (result : Except TransportError (List UInt8)) :
    Tracks w o (b.arrive n result) := by
  have hold (m : ℕ) (t : Sending) (ht : (b.arrive n result).sendings[m]? = some t) :
      ∃ s, b.sendings[m]? = some s ∧ t.send = s.send := by
    rw [getElem?_arrive] at ht
    obtain ⟨s, hs, rfl⟩ := Option.map_eq_some_iff.mp ht
    refine ⟨s, hs, ?_⟩
    split_ifs
    · exact Sending.send_arrived result
    · rfl
  refine ⟨?_, ?_, h.wire, ?_⟩
  · rw [← h.prepared]
    refine List.ext_getElem? fun m => ?_
    rw [List.getElem?_map, List.getElem?_map, getElem?_arrive, Option.map_map]
    refine congrArg (Option.map · b.sendings[m]?) (funext fun s => ?_)
    simp only [Function.comp_apply]
    split_ifs
    · exact Sending.request_arrived result
    · rfl
  · intro m t ht
    obtain ⟨s, hs, hsend⟩ := hold m t ht
    rw [hsend]
    exact h.sent m s hs
  · intro m t ht g hg
    obtain ⟨s, hs, hsend⟩ := hold m t ht
    exact h.sound m s hs g (hsend ▸ hg)

lemma Tracks.cancel (h : Tracks w o b) : Tracks w o b.cancelAll :=
  ⟨h.prepared, h.sent, h.wire, fun n s hs g hg => (h.sound n s hs g hg).trans (Nat.le_succ _)⟩

lemma life_prepare_of_ne (request : Request) (hn : n ≠ b.sendings.length) :
    (b.prepare request).life n = b.life n := by
  simp only [life, Switchboard.prepare]
  rcases Nat.lt_or_gt_of_ne hn with hn | hn
  · rw [List.getElem?_append_left hn]
  · rw [List.getElem?_eq_none (by simp; omega), List.getElem?_eq_none hn.le]

lemma life_poll (b : Switchboard) (m n : ℕ) :
    (b.poll m).life n =
      if m = n then (b.life n).map (Life.polled b.wire.next) else b.life n := by
  cases hm : b.sendings[m]? with
  | none =>
    rw [poll_of_none hm]
    split_ifs with hn
    · rw [← hn, life, hm]
      rfl
    · rfl
  | some s =>
    obtain ⟨hsendings, hgate⟩ := poll_of_some hm
    have hlt := (List.getElem?_eq_some_iff.mp hm).1
    rw [life, life, hsendings, hgate]
    split_ifs with hn
    · subst hn
      rw [List.getElem?_set_self hlt, hm]
      exact congrArg some Sending.life_polled
    · rw [List.getElem?_set_ne hn]

lemma life_arrive (b : Switchboard) (m n : ℕ) (result : Except TransportError (List UInt8)) :
    (b.arrive m result).life n =
      if m = n then (b.life n).map (Life.arrived result) else b.life n := by
  simp only [life, getElem?_arrive, Option.map_map]
  split_ifs with hn
  · exact congrArg (Option.map · b.sendings[n]?) (funext fun s => Sending.life_arrived result)
  · rfl

lemma Tracks.life_cancelAll (h : Tracks w o b) (n : ℕ) :
    b.cancelAll.life n = (b.life n).map Life.cancelled := by
  simp only [cancelAll, life]
  cases hn : b.sendings[n]? with
  | none => rfl
  | some s => exact congrArg some (Sending.life_cancelled (h.sound n s hn))

lemma Tracks.life_handle (h : Tracks w o b) (n : ℕ) (handling : Handling) :
    (b.handle handling).life n =
      Life.after n o.prepared.length (w.sendAll o.requests).next (b.life n) handling := by
  have hlen : b.sendings.length = o.prepared.length := by rw [← h.prepared, List.length_map]
  cases handling with
  | prepare request =>
    by_cases hn : n = b.sendings.length
    · have hnone : b.life n = none := by simp [life, hn]
      have hnew : (b.prepare request).life n = some (.unpolled, none) := by
        simp [life, Switchboard.prepare, hn, Sending.life, Sending.standing]
      simp only [handle, hnew, hnone, Life.after, ← hlen, if_pos hn]
    · rw [handle, life_prepare_of_ne request hn]
      cases b.life n with
      | none => exact (if_neg (hlen ▸ hn)).symm
      | some l => rfl
  | poll m =>
    rw [handle, life_poll, h.wire]
    cases b.life n <;> by_cases hn : m = n <;> simp [Life.after, Life.step, hn]
  | arrive m result =>
    rw [handle, life_arrive]
    cases b.life n <;> by_cases hn : m = n <;> simp [Life.after, Life.step, hn]
  | cancel =>
    rw [handle, h.life_cancelAll]
    cases b.life n <;> rfl

end Steps

def handled (w : Wire) (handlings : List Handling) : Switchboard :=
  handleAll { wire := w } handlings

lemma tracks (w : Wire) (handlings : List Handling) :
    Tracks w (Outgoing.of handlings) (handled w handlings) := by
  induction handlings using List.reverseRecOn with
  | nil => exact ⟨rfl, nofun, rfl, nofun⟩
  | append_singleton handlings h ih =>
    rw [Outgoing.of_snoc, handled, handleAll_snoc]
    cases h with
    | prepare request =>
      refine ih.prepare request fun n hn => ?_
      obtain ⟨⟨m, sent⟩, hs, rfl⟩ := List.mem_map.mp hn
      exact (List.getElem?_eq_some_iff.mp (Outgoing.prepared_of_sent hs)).1
    | poll n => exact ih.poll n
    | arrive n result => exact ih.arrive n result
    | cancel => exact ih.cancel

lemma life_snoc (w : Wire) (handlings : List Handling) (h : Handling) (n : ℕ) :
    (handled w (handlings ++ [h])).life n =
      Life.after n (Outgoing.of handlings).prepared.length
        (w.sendAll (Outgoing.of handlings).requests).next ((handled w handlings).life n) h := by
  rw [handled, handleAll_snoc]
  exact (tracks w handlings).life_handle n h

end Switchboard

end LedgerQuery
