import LedgerQuery.Number.Word
import LedgerQuery.Proofs.Flight.Abandonment
import LedgerQuery.Proofs.Retry.Shared
import LedgerQuery.Proofs.Traffic.Projection

/-! The counters of drains and of retry loops, which are kept in words. Nothing is checked where
they are counted on; it is the turn before that has not let the loop go on at the greatest
number. -/

namespace LedgerQuery

variable {κ τ ν : Type}

namespace Drain

structure Progress.Bounded (r : Rules τ) (p : Progress τ) : Prop where
  pages_lt : p.pages < r.ceiling
  nodup_seen : p.seen.Nodup
  length_seen : p.seen.length = p.pages
  cursor_seen : ∀ c ∈ p.cursor, c ∈ p.seen

variable {r : Rules τ} {index : ℕ} {p p' : Progress τ} {a : Outcome (Page τ)}

lemma bounded_start (r : Rules τ) : ({} : Progress τ).Bounded r where
  pages_lt := by simp [Rules.ceiling]
  nodup_seen := .nil
  length_seen := rfl
  cursor_seen := nofun

lemma Progress.Bounded.follow (hp : p.Bounded r) (h : (receive r index p a).1 = .follow p') :
    p'.Bounded r ∧ p'.pages = p.pages + 1 := by
  cases a with
  | error e => cases h
  | ok page =>
    cases hn : page.next with
    | none => simp [receive, hn] at h
    | some next =>
      cases ho : objection r p.seen (p.pages + 1) page.items.isEmpty next with
      | some e => simp [receive, hn, ho] at h
      | none =>
        simp only [receive, hn, ho, Step.follow.injEq] at h
        subst h
        unfold objection at ho
        split_ifs at ho with hseen hempty hceiling
        refine ⟨⟨not_le.mp hceiling, hp.nodup_seen.cons hseen, ?_, ?_⟩, rfl⟩
        · simp [hp.length_seen]
        · intro c hc
          obtain rfl := Option.some.inj hc
          exact List.mem_cons_self

end Drain

structure RetryBudget.Bounded (policy : RetryPolicy) (b : RetryBudget) : Prop where
  total : b.made + b.remaining = policy.attempts
  made_pos : 0 < b.made

namespace Retry

variable {policy : RetryPolicy} {b b' : RetryBudget} {label : String} {delay : Span}
  {a : Outcome (Option ν)}

lemma bounded_budget (policy : RetryPolicy) : policy.budget.recordAttempt.Bounded policy := by
  have hpos := policy.attempts_pos
  refine ⟨?_, Nat.succ_pos _⟩
  simp only [RetryBudget.recordAttempt, RetryPolicy.budget]
  omega

lemma bounded_again (hb : b.Bounded policy) (h : (receive label b a).1 = .again delay b') :
    b'.recordAttempt.Bounded policy := by
  by_cases hm : Misses a
  · rw [Flight.retry_of_miss label b hm] at h
    by_cases hleft : b.remaining = 0
    · simp [afterMiss, RetryBudget.spend, hleft] at h
    · simp only [afterMiss, RetryBudget.spend, hleft, if_false, Step.again.injEq] at h
      obtain ⟨-, rfl⟩ := h
      have htotal := hb.total
      refine ⟨?_, Nat.succ_pos _⟩
      simp only [RetryBudget.recordAttempt]
      omega
  · rcases a with e | _ | value
    · exact absurd trivial hm
    · exact absurd trivial hm
    · cases h

end Retry

def Query.policy? (q : Query τ) : Option RetryPolicy :=
  match q.plan with
  | .probing policy _ _ => some policy
  | _ => none

inductive Call.Bounded (q : Query τ) : Call κ τ → Prop
  | page {r : Drain.Rules τ} {c : Chunk κ} {p : Drain.Progress τ} :
      q.rules? = some r → p.Bounded r → Bounded q (.page c p)
  | probe {policy : RetryPolicy} {b : RetryBudget} :
      q.policy? = some policy → b.Bounded policy → Bounded q (.probe b)
  | create : Bounded q .create
  | lookup : Bounded q .lookup

namespace Query

variable {q q' : Query τ} {call : Call κ τ} {answer : Answer τ ν}

lemma policy?_of_rules? (h : q.rules?.isSome) : q.policy? = none := by
  cases hp : q.plan with
  | chunked rules coordinator => simp [policy?, hp]
  | single rules => simp [policy?, hp]
  | probing policy delay state => simp [rules?, hp] at h

lemma policy?_receive (q : Query τ) (call : Call κ τ) (answer : Answer τ ν) :
    (q.receive call answer).1.policy? = q.policy? := by
  by_cases hr : q.rules?.isSome
  · have hafter := (q.receive_continues call answer).rules
    rw [policy?_of_rules? hr, policy?_of_rules? (by rwa [hafter])]
  · cases hp : q.plan with
    | chunked rules coordinator => simp [rules?, hp] at hr
    | single rules => simp [rules?, hp] at hr
    | probing policy delay state =>
      cases answer with
      | page a => cases call <;> simp [receive, receivePage, policy?, hp]
      | probe a =>
        cases call with
        | page c p => simp [receive, policy?, hp]
        | probe b =>
          simp only [receive, receiveProbe, hp]
          rcases Retry.receive q.label b a with ⟨⟨state', o⟩ | ⟨d, b'⟩, notes⟩ <;>
            simp [policy?, hp]
        | create =>
          simp only [receive, receiveCreate, hp]
          rcases a with (_ | _ | _ | _ | _ | _ | _) | found <;> simp [policy?, hp]
        | lookup => simp [receive, receiveLookup, policy?, hp]

lemma plan_of_policy? {policy : RetryPolicy} (h : q.policy? = some policy) :
    ∃ delay state, q.plan = .probing policy delay state := by
  cases hp : q.plan with
  | chunked rules coordinator => simp [policy?, hp] at h
  | single rules => simp [policy?, hp] at h
  | probing policy' delay state =>
    obtain rfl : policy' = policy := by simpa [policy?, hp] using h
    exact ⟨delay, state, rfl⟩

def Follows (q : Query τ) (e : Effects κ τ ν) : Prop :=
  (∀ task ∈ e.tasks, task.call.Bounded q) ∧ ∀ next ∈ e.onward, next.Bounded q

lemma follows_nothing {e : Effects κ τ ν} (ht : e.tasks = []) (ho : e.onward = none) :
    q.Follows e := by
  simp [Follows, ht, ho]

lemma follows_page {r : Drain.Rules τ} (hq : q.rules? = some r) (c : Chunk κ)
    {p : Drain.Progress τ} (hp : p.Bounded r) (a : Outcome (Page τ)) :
    q.Follows (q.receive (.page c p) (.page a) : Query τ × Effects κ τ ν).2 := by
  cases hd : (Drain.receive r c.index p a).1 with
  | follow p' =>
    rw [Flight.receive_follow hq hd]
    refine ⟨fun task ht => ?_, nofun⟩
    obtain rfl : task = .page c p' := by simpa [Effects.tasks] using ht
    exact .page hq (hp.follow hd).1
  | finished o =>
    obtain ⟨-, hsub, hsched, honward⟩ := Flight.receive_finish (ν := ν) hq hd
    exact follows_nothing (by simp [Effects.tasks, hsub, hsched]) honward

lemma follows_probe {policy : RetryPolicy} (hq : q.policy? = some policy) {b : RetryBudget}
    (hb : b.Bounded policy) (a : Outcome (Option ν)) :
    q.Follows (q.receive (.probe b) (.probe a) : Query τ × Effects κ τ ν).2 := by
  obtain ⟨delay, state, hp⟩ := plan_of_policy? hq
  generalize hr : Retry.receive q.label b a = received
  obtain ⟨step, notes⟩ := received
  cases step with
  | finished state' o =>
    simp only [receive, receiveProbe, hp, hr]
    exact follows_nothing rfl rfl
  | again d b' =>
    simp only [receive, receiveProbe, hp, hr]
    refine ⟨fun task ht => ?_, fun next hn => absurd hn (Option.not_mem_none next)⟩
    obtain rfl : task = .probe b' := by simpa [Effects.tasks] using ht
    exact .probe hq (Retry.bounded_again hb (congrArg Prod.fst hr))

lemma follows_create (q : Query τ) (a : Outcome (Option ν)) :
    q.Follows (q.receive .create (.probe a) : Query τ × Effects κ τ ν).2 := by
  cases hp : q.plan with
  | chunked rules coordinator => simp [receive, receiveCreate, hp, Follows, Effects.tasks]
  | single rules => simp [receive, receiveCreate, hp, Follows, Effects.tasks]
  | probing policy delay state =>
    have hq : q.policy? = some policy := by simp [policy?, hp]
    cases a with
    | ok found =>
      obtain ⟨-, hsub, hsched, honward, -⟩ := Flight.receive_created (κ := κ) hp found
      refine ⟨fun task ht => ?_, by simp [honward]⟩
      obtain rfl : task = .probe policy.budget := by simpa [Effects.tasks, hsub, hsched] using ht
      exact .probe hq (Retry.bounded_budget policy)
    | error e =>
      by_cases he : ∃ reason, e = .submission reason
      · obtain ⟨reason, rfl⟩ := he
        obtain ⟨-, hsub, hsched, honward, -⟩ := Flight.receive_existing (κ := κ) (ν := ν) hp reason
        refine ⟨by simp [Effects.tasks, hsub, hsched], fun next hn => ?_⟩
        obtain rfl : next = .lookup := by simpa [honward, eq_comm] using hn
        exact .lookup
      · obtain ⟨-, hsub, hsched, honward, -⟩ :=
          Flight.receive_refused (κ := κ) (ν := ν) hp fun reason hr => he ⟨reason, hr⟩
        exact follows_nothing (by simp [Effects.tasks, hsub, hsched]) honward

lemma follows_receive (h : call.Bounded q) (answer : Answer τ ν) :
    q.Follows (q.receive call answer).2 := by
  cases answer with
  | page a =>
    cases h with
    | page hq hp => exact follows_page hq _ hp a
    | probe hq hb => exact follows_nothing rfl rfl
    | create => exact follows_nothing rfl rfl
    | lookup => exact follows_nothing rfl rfl
  | probe a =>
    cases h with
    | page hq hp => exact follows_nothing rfl rfl
    | probe hq hb => exact follows_probe hq hb a
    | create => exact follows_create q a
    | lookup => exact follows_nothing rfl rfl

end Query

lemma Call.Bounded.congr {q q' : Query τ} {call : Call κ τ} (h : call.Bounded q)
    (hr : q'.rules? = q.rules?) (hp : q'.policy? = q.policy?) : call.Bounded q' := by
  cases h with
  | page hq hbounded => exact .page (hr.trans hq) hbounded
  | probe hq hbounded => exact .probe (hp.trans hq) hbounded
  | create => exact .create
  | lookup => exact .lookup

namespace Flight

structure Bounded (s : Flight κ τ) : Prop where
  tasks : ∀ task ∈ s.tasks, task.call.Bounded s.query
  calls : ∀ call ∈ s.calls, call.Bounded s.query

variable {admits : Call κ τ → Answer τ ν → Prop} {turns : List (Turn κ τ ν)}
  {turn : Turn κ τ ν} {s t : Flight κ τ}

lemma Bounded.start (h : Bounded s) {task : Task κ τ} {rest : Multiset (Task κ τ)}
    (ht : s.tasks = task ::ₘ rest) : Bounded (s.start task rest) := by
  constructor
  · exact fun other ho => h.tasks other (ht ▸ Multiset.mem_cons_of_mem ho)
  · intro call hc
    rcases Multiset.mem_cons.mp hc with rfl | hc
    · exact h.tasks task (ht ▸ Multiset.mem_cons_self _ _)
    · exact h.calls call hc

lemma Bounded.settle (h : Bounded s) {call : Call κ τ} {rest : Multiset (Call κ τ)}
    (hc : s.calls = call ::ₘ rest) (answer : Answer τ ν) :
    Bounded (s.settle call answer rest) := by
  obtain ⟨htasks, hcalls⟩ :=
    Query.follows_receive (h.calls call (hc ▸ Multiset.mem_cons_self _ _)) answer
  have hr : (s.settle call answer rest).query.rules? = s.query.rules? :=
    (s.query.receive_continues call answer).rules
  have hp : (s.settle call answer rest).query.policy? = s.query.policy? :=
    s.query.policy?_receive call answer
  constructor
  · intro task ht
    rcases Multiset.mem_add.mp ht with ht | ht
    · exact (htasks task (Multiset.mem_coe.mp ht)).congr hr hp
    · exact (h.tasks task ht).congr hr hp
  · intro other ho
    rcases Multiset.mem_add.mp ho with ho | ho
    · exact (hcalls other (Option.mem_toList.mp (Multiset.mem_coe.mp ho))).congr hr hp
    · exact (h.calls other (hc ▸ Multiset.mem_cons_of_mem ho)).congr hr hp

lemma Bounded.step (h : Bounded s) (hs : Step admits s turn t) : Bounded t := by
  cases hs with
  | begin ht => exact h.start ht
  | answer hc _ => exact h.settle hc _

lemma Bounded.run (h : Bounded s) (hr : Run admits s turns t) : Bounded t := by
  induction hr with
  | nil => exact h
  | snoc _ hs ih => exact ih.step hs

lemma policy?_run (h : Run admits s turns t) : t.query.policy? = s.query.policy? := by
  induction h with
  | nil => rfl
  | snoc _ hs ih =>
    cases hs with
    | begin _ => exact ih
    | answer _ _ => exact (Query.policy?_receive _ _ _).trans ih

lemma bounded_flight {l : Launch κ τ}
    (h : ∀ task ∈ l.submitted ++ l.scheduled.map (·.2), task.call.Bounded l.query) :
    Bounded l.flight :=
  ⟨fun task ht => h task (Multiset.mem_coe.mp ht), fun _ hc => absurd hc (Multiset.notMem_zero _)⟩

end Flight

def Launch.Regular (l : Launch κ τ) : Prop :=
  (∃ label keys size r, Launch.chunked label keys size r = .ok l) ∨ l.Solo

lemma Launch.Regular.bounded {l : Launch κ τ} (h : l.Regular) : l.flight.Bounded := by
  apply Flight.bounded_flight
  rcases h with ⟨label, keys, size, r, hl⟩ | hsolo
  · obtain ⟨chunks, -, rfl⟩ := Flight.chunked_eq_ok.mp hl
    intro task ht
    simp only [Flight.launching, List.map_nil, List.append_nil] at ht
    obtain ⟨c, -, rfl⟩ := List.mem_map.mp ht
    exact .page rfl (Drain.bounded_start r)
  · cases hsolo with
    | paged label r => exact List.forall_mem_singleton.mpr (.page rfl (Drain.bounded_start r))
    | drain c r counted => exact List.forall_mem_singleton.mpr (.page rfl (Drain.bounded_start r))
    | probe label tracked policy delay =>
      have hfirst : (Task.probe policy.budget : Task κ τ).call.Bounded
          (Launch.probe label tracked policy delay : Launch κ τ).query :=
        .probe rfl (Retry.bounded_budget policy)
      cases delay <;> exact List.forall_mem_singleton.mpr hfirst
    | createAndAwait label policy delay => exact List.forall_mem_singleton.mpr .create

structure Drain.Progress.Exact (r : Rules τ) (p : Progress τ) : Prop extends p.Bounded r where
  counted_le : p.pages + 1 ≤ r.ceiling
  counted : (UInt64.ofNat p.pages + 1).toNat = p.pages + 1

/-- While a probe is in flight, everything about its allowance is right in words of 32 bits: the
number of retries, that of the attempts with this one, and what one more retry would leave. -/
structure RetryBudget.Exact (policy : RetryPolicy) (b : RetryBudget) : Prop
    extends b.Bounded policy where
  retries : (UInt32.ofNat policy.attempts - 1).toNat + 1 = policy.attempts
  counted : (UInt32.ofNat (b.made - 1) + 1).toNat = b.made
  left : b.remaining ≠ 0 → (UInt32.ofNat b.remaining - 1).toNat + 1 = b.remaining

def Call.Exact (q : Query τ) : Call κ τ → Prop
  | .page _ p => ∃ r, q.rules? = some r ∧ p.Exact r
  | .probe b => ∃ policy, q.policy? = some policy ∧ b.Exact policy
  | _ => True

namespace Word

variable {n : ℕ}

lemma succ_64 (h : n + 1 ≤ Word.max) : (UInt64.ofNat n + 1).toNat = n + 1 := by
  have hmax : Word.max = 2 ^ 64 - 1 := rfl
  have hsize : n < UInt64.size := by
    simp only [UInt64.size]
    omega
  have hword : (UInt64.ofNat n).toNat = n := UInt64.toNat_ofNat_of_lt' hsize
  rw [UInt64.toNat_add, hword]
  exact Nat.mod_eq_of_lt (by simp; omega)

lemma toNat_32 (h : n < 2 ^ 32) : (UInt32.ofNat n).toNat = n := UInt32.toNat_ofNat_of_lt' h

lemma succ_32 (h : n + 1 < 2 ^ 32) : (UInt32.ofNat n + 1).toNat = n + 1 := by
  rw [UInt32.toNat_add, toNat_32 (Nat.lt_of_succ_lt h)]
  exact Nat.mod_eq_of_lt (by simp; omega)

lemma pred_32 (hpos : n ≠ 0) (h : n < 2 ^ 32) : (UInt32.ofNat n - 1).toNat + 1 = n := by
  have hword := toNat_32 h
  have hle : (1 : UInt32) ≤ UInt32.ofNat n := by
    rw [UInt32.le_iff_toNat_le, hword]
    exact Nat.one_le_iff_ne_zero.mpr hpos
  rw [UInt32.toNat_sub_of_le _ _ hle, hword]
  exact Nat.sub_add_cancel (Nat.one_le_iff_ne_zero.mpr hpos)

end Word

lemma Drain.Progress.Bounded.exact {r : Rules τ} {p : Progress τ} (h : p.Bounded r)
    (hr : r.maxPages ≤ Word.max) : p.Exact r := by
  have hone : 1 ≤ Word.max := by decide
  exact ⟨h, h.pages_lt, Word.succ_64 (h.pages_lt.trans_le (max_le hr hone))⟩

lemma RetryPolicy.attempts_lt (p : RetryPolicy) : p.attempts < 2 ^ 32 := by
  have hmax : maxAttempts = 2 ^ 32 - 1 := rfl
  unfold attempts
  split_ifs
  · norm_num
  · omega

lemma RetryBudget.Bounded.exact {policy : RetryPolicy} {b : RetryBudget}
    (h : b.Bounded policy) : b.Exact policy := by
  have hlt := policy.attempts_lt
  have hattempts := policy.attempts_pos
  have htotal := h.total
  have hmade := h.made_pos
  refine ⟨h, Word.pred_32 (by omega) hlt, ?_, fun hleft => Word.pred_32 hleft (by omega)⟩
  have hcounted : b.made - 1 + 1 = b.made := Nat.sub_add_cancel hmade
  rw [Word.succ_32 (by omega), hcounted]

lemma Call.Bounded.exact {q : Query τ} {call : Call κ τ} (h : call.Bounded q)
    (hr : ∀ r ∈ q.rules?, r.maxPages ≤ Word.max) : call.Exact q := by
  cases h with
  | page hq hp => exact ⟨_, hq, hp.exact (hr _ hq)⟩
  | probe hq hb => exact ⟨_, hq, hb.exact⟩
  | create => trivial
  | lookup => trivial

namespace Loops

variable {label : String} {policy : RetryPolicy} {events : List (Event κ τ ν)} {s : Loops κ τ}

def flight (s : Loops κ τ) : Flight κ τ := ⟨s.query, s.tasks.map (·.2), s.calls.map (·.2)⟩

lemma Run.policy? (h : Run label policy (scheduler label policy) events s) :
    s.query.policy? = some policy := by
  rw [h.looping.query]
  rfl

lemma Run.bounded (h : Run label policy (scheduler label policy) events s) : s.flight.Bounded := by
  induction h with
  | nil => exact ⟨nofun, nofun⟩
  | @snoc events event t u hr hs ih =>
    cases hs with
    | start delay =>
      have hfirst : (Task.probe policy.budget : Task κ τ).call.Bounded t.query :=
        .probe hr.policy? (Retry.bounded_budget policy)
      refine ⟨fun task ht => ?_, ih.calls⟩
      simp only [flight, Loops.start, Multiset.map_add, Multiset.map_map, Multiset.mem_add,
        Function.comp_def, Multiset.map_id'] at ht
      rcases ht with ht | ht
      · obtain rfl : task = .probe policy.budget := by
          cases delay <;> exact Multiset.mem_singleton.mp ht
        exact hfirst
      · exact ih.tasks task ht
    | @begin i task rest ht =>
      have htasks : t.flight.tasks = task ::ₘ rest.map (·.2) := by
        simp only [flight, ht, Multiset.map_cons]
      have hafter : (t.begin i task rest).flight = t.flight.start task (rest.map (·.2)) := by
        simp only [flight, Loops.begin, Flight.start, Multiset.map_cons]
      rw [hafter]
      exact ih.start htasks
    | @answer i call rest answer hc hf =>
      have hcalls : t.flight.calls = call ::ₘ rest.map (·.2) := by
        simp only [flight, hc, Multiset.map_cons]
      have hafter : (t.settle i call answer rest).flight =
          t.flight.settle call answer (rest.map (·.2)) := by
        simp [flight, Loops.settle, Flight.settle, Function.comp_def]
      rw [hafter]
      exact ih.settle hcalls answer

end Loops

namespace Traffic

variable {admits : ℕ → Call κ τ → Answer τ ν → Prop} {moves : List (Move κ τ ν)} {s : Traffic κ τ}

def Counted (moves : List (Move κ τ ν)) (n : ℕ) (call : Call κ τ) : Prop :=
  ∃ l, (launches moves)[n]? = some l ∧ call.Exact l.query

lemma Run.counted (hr : Run admits {} moves s) (hl : ∀ l ∈ launches moves, l.Regular)
    (hw : ∀ l ∈ launches moves, ∀ r ∈ l.query.rules?, r.maxPages ≤ Word.max) {n : ℕ}
    (hn : n < s.roster.queries.length) :
    ∃ f, s.Carries n f ∧ (∀ task ∈ f.tasks, Counted moves n task.call) ∧
      ∀ call ∈ f.calls, Counted moves n call := by
  rw [hr.coherent.launched] at hn
  have hmem := List.getElem_mem hn
  have hlaunched := List.getElem?_eq_getElem hn
  generalize (launches moves)[n] = l at hmem hlaunched
  obtain ⟨f, hcarries, hflight⟩ := hr.carries hlaunched
  have hbounded := (hl l hmem).bounded.run hflight
  have hexact {call : Call κ τ} (h : call.Bounded f.query) : Counted moves n call := by
    have hown : call.Bounded l.query :=
      h.congr (Custody.rules?_run hflight).symm (Flight.policy?_run hflight).symm
    exact ⟨l, hlaunched, hown.exact (hw l hmem)⟩
  exact ⟨f, hcarries, fun task ht => hexact (hbounded.tasks task ht),
    fun call hc => hexact (hbounded.calls call hc)⟩

/-- Whatever the answers, no counter of any query leaves its word: neither one of all the queries in
traffic, nor one of the loops that are started on one scheduler. -/
theorem counters_exact (hr : Run admits {} moves s) (hl : ∀ l ∈ launches moves, l.Regular)
    (hw : ∀ l ∈ launches moves, ∀ r ∈ l.query.rules?, r.maxPages ≤ Word.max) :
    (∀ task ∈ s.tasks, Counted moves task.1 task.2.call) ∧
      (∀ sent ∈ s.sends, Counted moves sent.query sent.call) ∧
      ∀ (label : String) (policy : RetryPolicy) (events : List (Loops.Event κ τ ν))
        (t : Loops κ τ), Loops.Run label policy (Loops.scheduler label policy) events t →
        (∀ task ∈ t.tasks, ∃ b, task.2.call = .probe b ∧ b.Exact policy) ∧
          ∀ call ∈ t.calls, ∃ b, call.2 = .probe b ∧ b.Exact policy := by
  refine ⟨fun task ht => ?_, fun sent hs => ?_, fun label policy events t hloops => ?_⟩
  · obtain ⟨f, hcarries, htasks, -⟩ := hr.counted hl hw (hr.coherent.task_lt ht)
    apply htasks
    rw [← hcarries.tasks]
    exact (Multiset.mem_filterMap _ _).mpr ⟨task, ht, taskOf_self _ _⟩
  · obtain ⟨f, hcarries, -, hcalls⟩ := hr.counted hl hw (hr.coherent.send_lt hs)
    apply hcalls
    rw [← hcarries.calls]
    exact (Multiset.mem_filterMap _ _).mpr ⟨sent, hs, callOf_self _ _ _⟩
  · have hbounded := hloops.bounded
    have hexact {b : RetryBudget} (h : (Call.probe b : Call κ τ).Bounded t.query) :
        b.Exact policy := by
      cases h with
      | probe hq hb =>
        obtain rfl := Option.some.inj (hloops.policy?.symm.trans hq)
        exact hb.exact
    constructor
    · intro task ht
      obtain ⟨b, hb⟩ := hloops.looping.task task ht
      have hcall := hbounded.tasks task.2 (Multiset.mem_map_of_mem _ ht)
      rw [hb] at hcall ⊢
      exact ⟨_, rfl, hexact hcall⟩
    · intro call hc
      obtain ⟨b, hb⟩ := hloops.looping.call call hc
      have hcall := hbounded.calls call.2 (Multiset.mem_map_of_mem _ hc)
      rw [hb] at hcall ⊢
      exact ⟨b, rfl, hexact hcall⟩

theorem counters_exact_at_their_limits :
    ∃ (moves : List (Move ℕ ℕ Unit)) (s : Traffic ℕ ℕ),
      Run (fun _ => Call.Fits) {} moves s ∧ (∀ l ∈ launches moves, l.Regular) ∧
      (∀ l ∈ launches moves, ∀ r ∈ l.query.rules?, r.maxPages ≤ Word.max) ∧
      s.sends = {⟨0, 0, .page (.whole []) ⟨[7], 1, some ⟨"/2"⟩, [⟨"/2"⟩]⟩⟩,
        ⟨1, 0, .probe ⟨4294967294, 1, ⟨1⟩⟩⟩} ∧
      ∀ sent ∈ s.sends, Counted moves sent.query sent.call := by
  let r : Drain.Rules ℕ := { maxPages := Word.max }
  let policy : RetryPolicy := ⟨⟨1⟩, ⟨4294967296⟩⟩
  have hbudget : policy.budget.recordAttempt = ⟨4294967294, 1, ⟨1⟩⟩ := by decide
  have h₀ : Run (fun _ => Call.Fits) {} ([] : List (Move ℕ ℕ Unit)) {} := .nil
  have h₁ := h₀.launch (.paged "q" r)
  have h₂ := h₁.launch (.retrying "r" policy none)
  have h₃ := h₂.begin 1 (.probe policy.budget) {(0, .page (.whole []) {})} rfl
  have h₄ := h₃.begin 0 (.page (.whole []) {}) 0 rfl
  have h₅ := h₄.answer ⟨0, 0, .page (.whole []) {}⟩ {⟨1, 0, .probe policy.budget.recordAttempt⟩}
    (.page (.ok (.withNext [7] "/2"))) rfl trivial
  have h₆ := h₅.begin 0 (.page (.whole []) ⟨[7], 1, some ⟨"/2"⟩, [⟨"/2"⟩]⟩) 0 rfl
  obtain ⟨moves, s, hr, hlaunches, hsends⟩ : ∃ (moves : List (Move ℕ ℕ Unit)) (s : Traffic ℕ ℕ),
      Run (fun _ => Call.Fits) {} moves s ∧
      launches moves = [.paged "q" r, .retrying "r" policy none] ∧
      s.sends = {⟨0, 0, .page (.whole []) ⟨[7], 1, some ⟨"/2"⟩, [⟨"/2"⟩]⟩⟩,
        ⟨1, 0, .probe ⟨4294967294, 1, ⟨1⟩⟩⟩} :=
    ⟨_, _, h₆, rfl, by rw [← hbudget]; rfl⟩
  have hregular : ∀ l ∈ launches moves, l.Regular := by
    rw [hlaunches, List.forall_mem_cons, List.forall_mem_singleton]
    exact ⟨Or.inr (.paged "q" r), Or.inr (.probe "r" true policy none)⟩
  have hwords : ∀ l ∈ launches moves, ∀ r ∈ l.query.rules?, r.maxPages ≤ Word.max := by
    rw [hlaunches, List.forall_mem_cons, List.forall_mem_singleton]
    refine ⟨fun r' hr' => ?_, nofun⟩
    obtain rfl : r = r' := Option.some.inj hr'
    exact le_rfl
  exact ⟨moves, s, hr, hregular, hwords, hsends, (counters_exact hr hregular hwords).2.1⟩

end Traffic

end LedgerQuery
