import LedgerQuery.Proofs.Coordinator.Signals
import LedgerQuery.Proofs.Counters.Recording
import Mathlib.Logic.Relation

/-! A receiver that, on being called with the outcome, sends signals to the coordinator that calls
it. An operation takes the lock, changes the coordinator, and lets the lock go before it calls the
receiver, so that what the receiver sends is dropped like any late signal. -/

namespace LedgerQuery

namespace Coordinator

variable {τ : Type}

def replies (reentry : Outcome (List τ) → List (Signal τ)) (c : Coordinator τ) (s : Signal τ) :
    List (Signal τ) :=
  (c.receive s).delivered.toList.flatMap reentry

def receiveAllReentrant (reentry : Outcome (List τ) → List (Signal τ)) (c : Coordinator τ) :
    List (Signal τ) → Run τ
  | [] => ⟨c, [], .none⟩
  | s :: rest =>
    let first := c.receiveReentrant (c.replies reentry s) s
    let more := first.coordinator.receiveAllReentrant reentry rest
    ⟨more.coordinator, first.delivered ++ more.delivered, first.notes ++ more.notes⟩

def woven (reentry : Outcome (List τ) → List (Signal τ)) (c : Coordinator τ) :
    List (Signal τ) → List (Signal τ)
  | [] => []
  | s :: rest =>
    let now := s :: c.replies reentry s
    now ++ woven reentry (c.receiveAll now).coordinator rest

inductive Duty (τ : Type) where
  | call (signal : Signal τ)
  | update (signal : Signal τ)
  | unlock (outcome : Option (Outcome (List τ)))
  | deliver (outcome : Outcome (List τ))

structure Guarded (τ : Type) where
  coordinator : Coordinator τ
  locked : Bool
  armed : Bool
  delivered : List (Outcome (List τ))
  counters : Counters
  duties : List (Duty τ)

namespace Guarded

/-- Does what is to be done next; a call cannot go on while the lock is taken. -/
def step (reentry : Outcome (List τ) → List (Signal τ)) (g : Guarded τ) : Option (Guarded τ) :=
  match g.duties with
  | [] => none
  | .call s :: duties =>
    if g.locked then none else some { g with locked := true, duties := .update s :: duties }
  | .update s :: duties =>
    let reaction := g.coordinator.receive s
    some { g with
      coordinator := reaction.coordinator
      armed := g.armed && reaction.delivered.isNone
      counters := g.counters.recordAll reaction.notes.counts
      duties := .unlock (if g.armed then reaction.delivered else none) :: duties }
  | .unlock outcome :: duties =>
    some { g with locked := false, duties := outcome.toList.map .deliver ++ duties }
  | .deliver outcome :: duties =>
    some { g with
      delivered := g.delivered ++ [outcome]
      duties := (reentry outcome).map .call ++ duties }

def Reaches (reentry : Outcome (List τ) → List (Signal τ)) : Guarded τ → Guarded τ → Prop :=
  Relation.ReflTransGen fun g h => g.step reentry = some h

def resting (c : Coordinator τ) (delivered : List (Outcome (List τ))) (m : Counters)
    (duties : List (Duty τ)) : Guarded τ :=
  ⟨c, false, c.phase = .pending, delivered, m, duties⟩

end Guarded

section Signals

variable {c : Coordinator τ} {s : Signal τ}

lemma receiveReentrant_eq (reentry : Outcome (List τ) → List (Signal τ)) (c : Coordinator τ)
    (s : Signal τ) :
    c.receiveReentrant (c.replies reentry s) s = c.receiveAll (s :: c.replies reentry s) := by
  cases hd : (c.receive s).delivered with
  | none => simp [receiveReentrant, replies, receiveAll, hd]
  | some o => simp [receiveReentrant, receiveAll, hd]

lemma receiveAllReentrant_eq (reentry : Outcome (List τ) → List (Signal τ)) (c : Coordinator τ)
    (signals : List (Signal τ)) :
    c.receiveAllReentrant reentry signals = c.receiveAll (woven reentry c signals) := by
  induction signals generalizing c with
  | nil => rfl
  | cons s rest ih =>
    rw [receiveAllReentrant, receiveReentrant_eq, ih, woven, receiveAll_append]

lemma receiveReentrant_reaction (reentry : Outcome (List τ) → List (Signal τ)) (c : Coordinator τ)
    (s : Signal τ) :
    let run := c.receiveReentrant (c.replies reentry s) s
    run.coordinator = (c.receive s).coordinator ∧
      run.delivered = (c.receive s).delivered.toList ∧
      run.notes.counts = (c.receive s).notes.counts ++
        .replicate (c.replies reentry s).length .lateSignal := by
  cases hd : (c.receive s).delivered with
  | none => simp [receiveReentrant, replies, hd]
  | some o =>
    obtain ⟨hc, hds, hns⟩ := receiveAll_settled (decided_of_delivered hd) (c.replies reentry s)
    simp [receiveReentrant, hd, hc, hds, hns]

lemma receiveAll_once (c : Coordinator τ) (signals : List (Signal τ)) :
    (c.receiveAll signals).delivered.length ≤ 1 := by
  induction signals generalizing c with
  | nil => exact Nat.zero_le 1
  | cons s rest ih =>
    rw [receiveAll]
    cases hd : (c.receive s).delivered with
    | none => simpa [hd] using ih (c.receive s).coordinator
    | some o =>
      simp [(receiveAll_settled (decided_of_delivered hd) rest).2.1]

lemma receiveAllReentrant_undisturbed (reentry : Outcome (List τ) → List (Signal τ))
    (c : Coordinator τ) (signals : List (Signal τ)) :
    let run := c.receiveAllReentrant reentry signals
    let alone := c.receiveAll signals
    run.coordinator = alone.coordinator ∧ run.delivered = alone.delivered ∧
      run.notes.counts.Perm (alone.notes.counts ++
        .replicate (alone.delivered.flatMap reentry).length .lateSignal) := by
  induction signals generalizing c with
  | nil => exact ⟨rfl, rfl, .refl _⟩
  | cons s rest ih =>
    obtain ⟨hc, hd, hn⟩ := receiveReentrant_reaction reentry c s
    obtain ⟨hcs, hds, hns⟩ := ih (c.receive s).coordinator
    refine ⟨by simp [receiveAllReentrant, receiveAll, hc, hcs],
      by simp [receiveAllReentrant, receiveAll, hc, hd, hds], ?_⟩
    simp only [receiveAllReentrant, receiveAll, hc, hn, Notes.counts_append, List.flatMap_append,
      List.length_append, ← List.replicate_append_replicate, List.append_assoc]
    -- The late signals of this delivery are counted before the rest, not behind it.
    refine ((hns.append_left _).trans ?_).append_left _
    rw [← List.append_assoc, ← List.append_assoc]
    exact List.perm_append_comm.append_right _

end Signals

namespace Guarded

variable (reentry : Outcome (List τ) → List (Signal τ)) (c : Coordinator τ)
  (delivered : List (Outcome (List τ))) (m : Counters) (duties : List (Duty τ))

lemma reaches_call (s : Signal τ) :
    Reaches reentry (resting c delivered m (.call s :: duties))
      (resting (c.receive s).coordinator delivered (m.recordAll (c.receive s).notes.counts)
        ((c.receive s).delivered.toList.map .deliver ++ duties)) := by
  have hkept : (decide (c.phase = .pending) && (c.receive s).delivered.isNone) =
      decide ((c.receive s).coordinator.phase = .pending) := by
    rw [Bool.eq_iff_iff]
    simp [receive_undecided]
  have htaken : (if decide (c.phase = .pending) then (c.receive s).delivered else none) =
      (c.receive s).delivered := by
    split_ifs with hp
    · rfl
    · exact (receive_settled (by simpa using hp) s).2.1.symm
  let entered : Guarded τ := ⟨c, true, c.phase = .pending, delivered, m, .update s :: duties⟩
  let changed : Guarded τ := ⟨(c.receive s).coordinator, true,
    (c.receive s).coordinator.phase = .pending, delivered,
    m.recordAll (c.receive s).notes.counts, .unlock (c.receive s).delivered :: duties⟩
  have hlock : (resting c delivered m (.call s :: duties)).step reentry = some entered := rfl
  have hupdate : entered.step reentry = some changed := by
    simp only [step, hkept, htaken, entered, changed]
  exact .head hlock (.head hupdate (.single rfl))

lemma reaches_late (hp : c.phase ≠ .pending) (signals : List (Signal τ)) :
    Reaches reentry (resting c delivered m (signals.map .call ++ duties))
      (resting c delivered (m.recordAll (.replicate signals.length .lateSignal)) duties) := by
  induction signals generalizing m with
  | nil => exact .refl
  | cons s rest ih =>
    obtain ⟨hr, hd, hn⟩ := receive_settled hp s
    have hcall := reaches_call reentry c delivered m (rest.map .call ++ duties) s
    rw [hr, hd, hn] at hcall
    exact hcall.trans (ih _)

lemma reaches_next (s : Signal τ) :
    let run := c.receiveReentrant (c.replies reentry s) s
    Reaches reentry (resting c delivered m (.call s :: duties))
      (resting run.coordinator (delivered ++ run.delivered) (m.recordAll run.notes.counts)
        duties) := by
  intro run
  obtain ⟨hc, hd, hn⟩ := receiveReentrant_reaction reentry c s
  have hcall := reaches_call reentry c delivered m duties s
  rw [hc, hd, hn]
  cases ho : (c.receive s).delivered with
  | none => simpa [ho, replies] using hcall
  | some o =>
    have hreplies : c.replies reentry s = reentry o := by simp [replies, ho]
    have hdeliver : (resting (c.receive s).coordinator delivered
        (m.recordAll (c.receive s).notes.counts) (.deliver o :: duties)).step reentry =
        some (resting (c.receive s).coordinator (delivered ++ [o])
          (m.recordAll (c.receive s).notes.counts) ((reentry o).map .call ++ duties)) := rfl
    have hlate := reaches_late reentry (c.receive s).coordinator (delivered ++ [o])
      (m.recordAll (c.receive s).notes.counts) duties (decided_of_delivered ho) (reentry o)
    rw [ho] at hcall
    rw [hreplies, Counters.recordAll_append]
    exact (hcall.tail hdeliver).trans hlate

lemma reaches_all (before after : List (Signal τ)) :
    let run := c.receiveAllReentrant reentry before
    Reaches reentry (resting c delivered m ((before ++ after).map .call))
      (resting run.coordinator (delivered ++ run.delivered) (m.recordAll run.notes.counts)
        (after.map .call)) := by
  induction before generalizing c delivered m with
  | nil =>
    simp only [receiveAllReentrant, List.append_nil]
    exact .refl
  | cons s before ih =>
    have hfirst := reaches_next reentry c delivered m ((before ++ after).map .call) s
    simp only [receiveAllReentrant, Notes.counts_append, Counters.recordAll_append,
      ← List.append_assoc]
    exact hfirst.trans (ih _ _ _)

end Guarded

/-- With these signals still to be sent, the lock is free and the coordinator stands as if the
receiver had sent nothing, or as if its signals had come from outside. All that is left of them is
that each has been counted as late. -/
structure Unharmed (reentry : Outcome (List τ) → List (Signal τ)) (c : Coordinator τ)
    (m : Counters) (before after : List (Signal τ)) (g : Guarded τ) : Prop where
  duties : g.duties = after.map .call
  unlocked : g.locked = false
  coordinator : g.coordinator = (c.receiveAll (woven reentry c before)).coordinator
  delivered : g.delivered = (c.receiveAll (woven reentry c before)).delivered
  counters : g.counters = m.recordAll (c.receiveAll (woven reentry c before)).notes.counts
  once : g.delivered.length ≤ 1
  alone : g.coordinator = (c.receiveAll before).coordinator ∧
    g.delivered = (c.receiveAll before).delivered
  late : g.counters = (m.recordAll (c.receiveAll before).notes.counts).recordAll
    (.replicate (g.delivered.flatMap reentry).length .lateSignal)
  dropped : (g.counters.value .lateSignal).toNat = ((m.value .lateSignal).toNat +
    (c.receiveAll before).notes.counts.count .lateSignal +
      (g.delivered.flatMap reentry).length) % 2 ^ 64
  kept : ∀ count, count ≠ .lateSignal → (g.counters.value count).toNat =
    ((m.value count).toNat + (c.receiveAll before).notes.counts.count count) % 2 ^ 64
  reentrant : c.receiveAllReentrant reentry before = c.receiveAll (woven reentry c before)

/-- Whatever signals a receiver sends on being called, after every signal from outside the
coordinator is as if they had been sent by somebody else. -/
theorem reentry_harmless (reentry : Outcome (List τ) → List (Signal τ)) (c : Coordinator τ)
    (m : Counters) (before after : List (Signal τ)) :
    ∃ g, Guarded.Reaches reentry (.resting c [] m ((before ++ after).map .call)) g ∧
      Unharmed reentry c m before after g := by
  have hreaches := Guarded.reaches_all reentry c [] m before after
  obtain ⟨hc, hd, hn⟩ := receiveAllReentrant_undisturbed reentry c before
  have hwoven := receiveAllReentrant_eq reentry c before
  let run := c.receiveAllReentrant reentry before
  have hlate : m.recordAll run.notes.counts =
      (m.recordAll (c.receiveAll before).notes.counts).recordAll
        (.replicate (run.delivered.flatMap reentry).length .lateSignal) := by
    rw [← Counters.recordAll_append, hd]
    exact Counters.recordAll_perm m hn
  have hvalue (count : Count) := Counters.value_recordAll_replicate m
    (c.receiveAll before).notes.counts .lateSignal count (run.delivered.flatMap reentry).length
  simp only [← hlate] at hvalue
  refine ⟨_, hreaches, ?_⟩
  exact {
    duties := rfl
    unlocked := rfl
    coordinator := congrArg Run.coordinator hwoven
    delivered := congrArg Run.delivered hwoven
    counters := by rw [← hwoven]; rfl
    once := by simpa [Guarded.resting, hd] using receiveAll_once c before
    alone := ⟨hc, hd⟩
    late := hlate
    dropped := hvalue .lateSignal
    kept := fun count hcount => (hvalue count).trans (by rw [if_neg hcount.symm, Nat.add_zero])
    reentrant := hwoven }

end Coordinator

end LedgerQuery
