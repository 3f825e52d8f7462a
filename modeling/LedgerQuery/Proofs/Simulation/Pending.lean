import LedgerQuery.Proofs.Traffic.Basic
import LedgerQuery.Simulation.Run

/-! What waits in a simulation to be run or answered, as the traffic of its queries, and what
handing out tasks and giving an answer do to it. -/

namespace LedgerQuery

variable {σ κ τ ν : Type}

namespace Agenda

variable {α : Type}

lemma insert_perm (e : Entry α) (entries : List (Entry α)) :
    (insert e entries).Perm (e :: entries) := by
  induction entries with
  | nil => exact List.Perm.refl _
  | cons f rest ih =>
    unfold insert
    split_ifs
    · exact List.Perm.refl _
    · exact (ih.cons f).trans (List.Perm.swap e f rest)

end Agenda

def Waiting.sent (w : Waiting κ τ ν) : Sent κ τ := ⟨w.query, w.generation, w.call⟩

/-- A service in such a state stays in such a state, and gives only answers that are admitted. -/
structure Serves (svc : Service σ κ τ ν) (kept : σ → Prop)
    (admits : ℕ → Call κ τ → Answer τ ν → Prop) : Prop where
  stays : ∀ {state}, kept state → ∀ now n call, kept (svc.ask state now n call).1
  answers : ∀ {state}, kept state → ∀ now n call answer,
    (svc.ask state now n call).2.answer = some answer → admits n call answer

namespace Traffic

def adding (t : Traffic κ τ) (tasks : Multiset (ℕ × Task κ τ)) : Traffic κ τ :=
  { t with tasks := tasks + t.tasks }

def sending (t : Traffic κ τ) (sent : Sent κ τ) : Traffic κ τ :=
  { t with sends := sent ::ₘ t.sends }

def calling (t : Traffic κ τ) (n : ℕ) (call : Call κ τ) : Traffic κ τ :=
  { t with roster := t.roster.begin n call }.sending ⟨n, t.gate.generation, call⟩

@[simp] lemma adding_zero (t : Traffic κ τ) : t.adding 0 = t := by
  simp [adding]

lemma adding_adding (t : Traffic κ τ) (tasks more : Multiset (ℕ × Task κ τ)) :
    (t.adding tasks).adding more = t.adding (tasks + more) := by
  simp [adding, add_comm tasks more, add_assoc]

lemma resolves_current {admits : ℕ → Call κ τ → Answer τ ν → Prop} (t : Traffic κ τ) {n : ℕ}
    {call : Call κ τ} {answer : Answer τ ν} (h : admits n call answer) :
    t.Resolves admits ⟨n, t.gate.generation, call⟩ answer := by
  simpa [Resolves, Gate.hasEnded] using h

lemma settle_sending (t : Traffic κ τ) (n g : ℕ) (call : Call κ τ) (answer : Answer τ ν) :
    let after := t.roster.receive n call answer
    let settled := ({ t with roster := after.1 } : Traffic κ τ).adding ↑(after.2.tasks.map (n, ·))
    (t.sending ⟨n, g, call⟩).settle ⟨n, g, call⟩ answer t.sends =
      after.2.onward.elim settled (settled.calling n) := by
  intro after settled
  cases ho : after.2.onward with
  | none => simp [settle, sending, settled, adding, after, ho]
  | some next => simp [settle, sending, settled, adding, calling, after, ho]

end Traffic

namespace Simulation

def queued (e : Entry (Action κ τ)) : Option (ℕ × Task κ τ) :=
  match e.action with
  | .run n task => some (n, task)
  | _ => none

def traffic (s : Simulation σ κ τ ν) : Traffic κ τ where
  roster := s.roster
  gate := s.gate
  tasks := ↑(s.agenda.filterMap queued)
  sends := ↑(s.waiting.map Waiting.sent)

structure Orderly (kept : σ → Prop) (admits : ℕ → Call κ τ → Answer τ ν → Prop)
    (s : Simulation σ κ τ ν) : Prop where
  service : kept s.service
  room : s.room = none
  tickets : (s.waiting.map (·.ticket)).Nodup
  fresh : ∀ w ∈ s.waiting, w.ticket < s.numbered
  answers : ∀ w ∈ s.waiting, ∀ answer, w.answer = some answer → admits w.query w.call answer

structure Keeps (s t : Simulation σ κ τ ν) : Prop where
  service : t.service = s.service
  room : t.room = s.room
  waiting : t.waiting = s.waiting
  numbered : s.numbered ≤ t.numbered

section Keeping

variable {kept : σ → Prop} {admits : ℕ → Call κ τ → Answer τ ν → Prop}
  {s t u : Simulation σ κ τ ν}

lemma Keeps.refl (s : Simulation σ κ τ ν) : Keeps s s := ⟨rfl, rfl, rfl, le_rfl⟩

lemma Keeps.trans (h : Keeps s t) (h' : Keeps t u) : Keeps s u :=
  ⟨h'.service.trans h.service, h'.room.trans h.room, h'.waiting.trans h.waiting,
    h.numbered.trans h'.numbered⟩

lemma Orderly.keeps (h : Orderly kept admits s) (hk : Keeps s t) : Orderly kept admits t := by
  refine ⟨hk.service ▸ h.service, hk.room.trans h.room, ?_, ?_, ?_⟩
  · rw [hk.waiting]
    exact h.tickets
  · rw [hk.waiting]
    exact fun w hw => (h.fresh w hw).trans_le hk.numbered
  · rw [hk.waiting]
    exact h.answers

lemma keeps_enter (s : Simulation σ κ τ ν) (due : Span) (action : Action κ τ) :
    Keeps s (s.enter due action) :=
  ⟨rfl, rfl, rfl, Nat.le_succ _⟩

lemma traffic_enter_run (s : Simulation σ κ τ ν) (due : Span) (n : ℕ) (task : Task κ τ) :
    (s.enter due (.run n task)).traffic = s.traffic.adding {(n, task)} := by
  have hperm := (Agenda.insert_perm ⟨due, s.numbered, .run n task⟩ s.agenda).filterMap queued
  simp only [traffic, enter, Traffic.adding]
  rw [Multiset.coe_eq_coe.mpr hperm]
  rfl

lemma traffic_enter_of_none (s : Simulation σ κ τ ν) (due : Span) {action : Action κ τ}
    (h : queued ⟨due, s.numbered, action⟩ = none) : (s.enter due action).traffic = s.traffic := by
  have hperm := (Agenda.insert_perm ⟨due, s.numbered, action⟩ s.agenda).filterMap queued
  rw [List.filterMap_cons_none h] at hperm
  simp only [traffic, enter]
  rw [Multiset.coe_eq_coe.mpr hperm]

lemma take_eq (h : s.room = none) (n : ℕ) (task : Task κ τ) (delay : Span) :
    s.take n task delay = s.enter (s.now + delay) (.run n task) := by
  simp [take, h]

lemma keeps_deliver (s : Simulation σ κ τ ν) (n : ℕ) (outcome : Outcome (Yield τ ν)) :
    Keeps s (s.deliver n outcome) ∧ (s.deliver n outcome).traffic = s.traffic := by
  unfold deliver
  split_ifs
  · exact ⟨⟨rfl, rfl, rfl, le_rfl⟩, rfl⟩
  · exact ⟨.refl s, rfl⟩

lemma keeps_abandon (s : Simulation σ κ τ ν) :
    Keeps s s.abandon ∧ s.abandon.traffic = s.traffic := by
  unfold abandon
  generalize s.awaited.filter _ = numbers
  induction numbers generalizing s with
  | nil => exact ⟨.refl s, rfl⟩
  | cons n numbers ih =>
    obtain ⟨hk, ht⟩ := keeps_deliver s n (.error .abandoned)
    obtain ⟨hk', ht'⟩ := ih (s.deliver n (.error .abandoned))
    exact ⟨hk.trans hk', ht'.trans ht⟩

lemma keeps_submit (h : s.room = none) (n : ℕ) (task : Task κ τ) :
    Keeps s (s.submit n task) ∧ (s.submit n task).traffic = s.traffic.adding {(n, task)} := by
  rw [submit, take_eq (s := s.record .submitted) h, traffic_enter_run]
  exact ⟨⟨rfl, rfl, rfl, Nat.le_succ _⟩, rfl⟩

lemma keeps_schedule (h : s.room = none) (n : ℕ) (task : Span × Task κ τ) :
    Keeps s (s.schedule n task) ∧
      (s.schedule n task).traffic = s.traffic.adding {(n, task.2)} := by
  rw [schedule, take_eq (s := s.record (.scheduled task.1)) h, traffic_enter_run]
  exact ⟨⟨rfl, rfl, rfl, Nat.le_succ _⟩, rfl⟩

lemma keeps_foldl {β : Type} {n : ℕ} {enters : Simulation σ κ τ ν → β → Simulation σ κ τ ν}
    {task : β → Task κ τ}
    (he : ∀ s b, s.room = none → Keeps s (enters s b) ∧
      (enters s b).traffic = s.traffic.adding {(n, task b)})
    (h : s.room = none) (bs : List β) :
    Keeps s (bs.foldl enters s) ∧
      (bs.foldl enters s).traffic = s.traffic.adding ↑(bs.map fun b => (n, task b)) := by
  induction bs generalizing s with
  | nil => exact ⟨.refl s, by simp⟩
  | cons b bs ih =>
    obtain ⟨hk, ht⟩ := he s b h
    obtain ⟨hk', ht'⟩ := ih (hk.room.trans h)
    refine ⟨hk.trans hk', ?_⟩
    rw [List.foldl_cons, ht', ht, Traffic.adding_adding]
    rfl

lemma keeps_hand (h : s.room = none) (n : ℕ) (submitted : List (Task κ τ))
    (scheduled : List (Span × Task κ τ)) :
    Keeps s (s.hand n submitted scheduled) ∧
      (s.hand n submitted scheduled).traffic =
        s.traffic.adding ↑((submitted ++ scheduled.map (·.2)).map (n, ·)) := by
  obtain ⟨hk, ht⟩ := keeps_foldl (fun s task h => keeps_submit h n task) h submitted
  obtain ⟨hk', ht'⟩ :=
    keeps_foldl (fun s task h => keeps_schedule h n task) (hk.room.trans h) scheduled
  refine ⟨hk.trans hk', ?_⟩
  rw [hand, ht', ht, Traffic.adding_adding, List.map_append, List.map_map, ← Multiset.coe_add]
  rfl

lemma take_roster (s : Simulation σ κ τ ν) (n : ℕ) (task : Task κ τ) (delay : Span) :
    (s.take n task delay).roster = s.roster := by
  unfold take
  split <;> rfl

lemma hand_roster (s : Simulation σ κ τ ν) (n : ℕ) (submitted : List (Task κ τ))
    (scheduled : List (Span × Task κ τ)) : (s.hand n submitted scheduled).roster = s.roster := by
  have hsubmit : (submitted.foldl (submit · n) s).roster = s.roster := by
    induction submitted generalizing s with
    | nil => rfl
    | cons task submitted ih => exact (ih _).trans (take_roster _ n task _)
  rw [hand, ← hsubmit]
  generalize submitted.foldl (submit · n) s = t
  induction scheduled generalizing t with
  | nil => rfl
  | cons task scheduled ih => exact (ih _).trans (take_roster _ n task.2 task.1)

def received (s : Simulation σ κ τ ν) (n : ℕ) (call : Call κ τ) (answer : Answer τ ν) :
    Simulation σ κ τ ν :=
  let after := s.roster.receive n call answer
  ({ s with roster := after.1 }.note after.2.notes.events).hand n after.2.submitted
    after.2.scheduled

lemma settle_eq (s : Simulation σ κ τ ν) (n : ℕ) (call : Call κ τ) (answer : Answer τ ν) :
    (s.settle n call answer).1 = ((s.roster.receive n call answer).2.delivered.map
      ((s.received n call answer).deliver n)).getD (s.received n call answer) := by
  unfold settle received
  obtain ⟨roster, notes, submitted, scheduled, onward, delivered⟩ :=
    s.roster.receive n call answer
  cases delivered <;> rfl

/-- Whoever is handed an outcome finds the queries and the counters as the answer has left them. -/
lemma settle_then_deliver (s : Simulation σ κ τ ν) (n : ℕ) (call : Call κ τ)
    (answer : Answer τ ν) :
    ∃ found : Simulation σ κ τ ν, found.roster = (s.roster.receive n call answer).1 ∧
      (s.settle n call answer).1 =
        ((s.roster.receive n call answer).2.delivered.map (found.deliver n)).getD found :=
  ⟨s.received n call answer, hand_roster _ _ _ _, s.settle_eq n call answer⟩

lemma keeps_settle (h : s.room = none) (n : ℕ) (call : Call κ τ) (answer : Answer τ ν) :
    let after := s.roster.receive n call answer
    (s.settle n call answer).2 = after.2.onward ∧ Keeps s (s.settle n call answer).1 ∧
      (s.settle n call answer).1.traffic =
        { s.traffic with roster := after.1 }.adding ↑(after.2.tasks.map (n, ·)) := by
  intro after
  let noted := ({ s with roster := after.1 } : Simulation σ κ τ ν).note after.2.notes.events
  obtain ⟨hk, ht⟩ := keeps_hand (s := noted) h n after.2.submitted after.2.scheduled
  have hk : Keeps s (noted.hand n after.2.submitted after.2.scheduled) :=
    ⟨hk.service, hk.room, hk.waiting, hk.numbered⟩
  refine ⟨rfl, ?_⟩
  rw [settle_eq]
  cases hd : (s.roster.receive n call answer).2.delivered with
  | none => exact ⟨hk, ht⟩
  | some outcome =>
    obtain ⟨hk', ht'⟩ := keeps_deliver (noted.hand n after.2.submitted after.2.scheduled) n outcome
    exact ⟨hk.trans hk', ht'.trans ht⟩

end Keeping

end Simulation

end LedgerQuery
