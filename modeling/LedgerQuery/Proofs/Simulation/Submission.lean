import LedgerQuery.Proofs.Chunk.Blocks
import LedgerQuery.Proofs.Flight.Bulk
import LedgerQuery.Proofs.Simulation.Pending
import LedgerQuery.Simulation.History

/-! Submitting a query over many keys, one effect after the other. The keys are cut before anything
is noted, counted or handed out, so a query is either refused without a trace or submitted whole. -/

namespace LedgerQuery

namespace Simulation

variable {σ κ τ ν : Type}

/-- Something that is done to a simulation. What was done before an error stays done. -/
abbrev Doing (σ κ τ ν : Type) := ExceptT QueryError (StateM (Simulation σ κ τ ν))

def track (q : Query τ) : Doing σ κ τ ν ℕ := do
  let s ← get
  let n := s.roster.queries.length
  let r := s.roster.count q [.queryStarted]
  set { s with roster := { r with queries := r.queries ++ [q] }, awaited := s.awaited ++ [n] }
  return n

def submitBulk (label : String) (keys : List κ) (size : ℕ) (rules : Drain.Rules τ)
    (fetch : σ → σ) : Doing σ κ τ ν ℕ := do
  let chunks ← MonadExcept.ofExcept (Chunk.partition keys size)
  modify (·.note [⟨.info, Event.orchestratorTarget,
    label ++ ": " ++ toString chunks.length ++ " chunks of up to " ++ toString size ++ " keys"⟩])
  let n ← track ⟨label, true, .chunked rules (Coordinator.start label chunks), true⟩
  modify fun s => { s with service := fetch s.service }
  forM chunks fun chunk => modify (·.submit n (.page chunk {}))
  return n

def bulkQuery (keys : List κ) (size maxPages : ℕ) (fetch : σ → σ) : Doing σ κ τ ν ℕ :=
  submitBulk Launch.bulkLabel keys size { maxPages } fetch

def started (s : Simulation σ κ τ ν) (fetch : σ → σ) :
    Outcome (Launch κ τ) → Outcome ℕ × Simulation σ κ τ ν
  | .error e => (.error e, s)
  | .ok l => (.ok s.roster.queries.length, { s with service := fetch s.service }.launch l)

lemma forM_modify {β : Type} (f : β → Simulation σ κ τ ν → Simulation σ κ τ ν) (bs : List β)
    (s : Simulation σ κ τ ν) :
    (forM bs fun b => (modify (f b) : Doing σ κ τ ν PUnit)).run.run s =
      (.ok ⟨⟩, bs.foldl (fun s b => f b s) s) := by
  induction bs generalizing s with
  | nil => rfl
  | cons b bs ih => exact ih (f b s)

lemma submitBulk_run (label : String) (keys : List κ) (size : ℕ) (rules : Drain.Rules τ)
    (fetch : σ → σ) (s : Simulation σ κ τ ν) :
    (submitBulk label keys size rules fetch).run.run s =
      s.started fetch (Launch.chunked label keys size rules) := by
  unfold submitBulk Launch.chunked
  cases hp : Chunk.partition keys size with
  | error e => rfl
  | ok chunks =>
    let n := s.roster.queries.length
    let q : Query τ := ⟨label, true, .chunked rules (Coordinator.start label chunks), true⟩
    let e : Event := ⟨.info, Event.orchestratorTarget,
      label ++ ": " ++ toString chunks.length ++ " chunks of up to " ++ toString size ++ " keys"⟩
    let r := s.roster.count q [.queryStarted]
    let t : Simulation σ κ τ ν :=
      { s.note [e] with
        roster := { r with queries := r.queries ++ [q] }
        awaited := s.awaited ++ [n]
        service := fetch s.service }
    have hchunks := forM_modify (fun chunk (s : Simulation σ κ τ ν) => s.submit n (.page chunk {}))
      chunks t
    have hbind : (do
        forM chunks fun chunk => modify (·.submit n (.page chunk {}))
        return n : Doing σ κ τ ν ℕ).run.run t =
          (.ok n, chunks.foldl (fun s chunk => s.submit n (.page chunk {})) t) := by
      rw [ExceptT.run_bind, StateT.run_bind, hchunks]
      rfl
    refine Eq.trans hbind ?_
    simp only [started, launch, hand, List.foldl_map]
    rfl

structure Adds (s t : Simulation σ κ τ ν) (tasks : ℕ) : Prop where
  submissions : t.submissions = s.submissions + tasks
  schedules : t.schedules = s.schedules
  counters : t.roster.counters =
    { s.roster.counters with started := s.roster.counters.started + 1 }
  calls : ∀ n, t.calls n = s.calls n
  deliveries : t.deliveries = s.deliveries

/-- What can become of keys that are submitted: nothing, or a query with a task for each chunk. -/
inductive AllOrNothing (keys : List κ) (size : ℕ) (s : Simulation σ κ τ ν) :
    Outcome ℕ × Simulation σ κ τ ν → Prop
  | refused {field reason} : keys = [] ∨ size = 0 →
      AllOrNothing keys size s (.error (.invalidArgument field reason), s)
  | submitted {t} : keys ≠ [] → size ≠ 0 → Adds s t (keys.length ⌈/⌉ size) →
      AllOrNothing keys size s (.ok s.roster.queries.length, t)

lemma history_take (s : Simulation σ κ τ ν) (n : ℕ) (task : Task κ τ) (delay : Span) :
    (s.take n task delay).history = s.history ∧ (s.take n task delay).now = s.now := by
  unfold take
  split <;> exact ⟨rfl, rfl⟩

lemma history_submitted (s : Simulation σ κ τ ν) (n : ℕ) (tasks : List (Task κ τ)) :
    (tasks.foldl (submit · n) s).history =
      List.replicate tasks.length (s.now, .submitted) ++ s.history := by
  induction tasks generalizing s with
  | nil => rfl
  | cons task tasks ih =>
    obtain ⟨hhistory, hnow⟩ := history_take (s.record .submitted) n task .zero
    rw [List.foldl_cons, ih, submit, hhistory, hnow, List.length_cons, List.replicate_succ']
    simp [record]

lemma launch_adds (s : Simulation σ κ τ ν) {l : Launch κ τ} (hs : l.scheduled = [])
    (hc : l.query.counted = true) (hn : l.notes.counts = [.queryStarted]) :
    Adds s (s.launch l) l.submitted.length := by
  have hhistory : (s.launch l).history =
      List.replicate l.submitted.length (s.now, .submitted) ++ s.history := by
    simp only [launch, hand, hs, List.foldl_nil]
    exact history_submitted _ _ _
  have hroster : (s.launch l).roster = s.roster.launch l := hand_roster _ _ _ _
  constructor
  · simp [submissions, hhistory, List.countP_replicate, Nat.add_comm]
  · simp [schedules, hhistory]
  · rw [hroster, Roster.launch, Roster.count, if_pos hc, hn]
    rfl
  · intro n
    simp [calls, hhistory]
  · simp [deliveries, hhistory]

lemma submitBulk_allOrNothing (label : String) (keys : List κ) (size : ℕ) (rules : Drain.Rules τ)
    (fetch : σ → σ) (s : Simulation σ κ τ ν) :
    AllOrNothing keys size s ((submitBulk label keys size rules fetch).run.run s) := by
  rw [submitBulk_run]
  have hp := Chunk.partition_into_blocks keys size
  unfold Launch.chunked
  generalize Chunk.partition keys size = result at hp ⊢
  cases hp with
  | noKeys hk => exact .refused (Or.inl hk)
  | noSize _ hs => exact .refused (Or.inr hs)
  | @blocks chunks hk hs hblocks =>
    obtain ⟨hsubmissions, hschedules, hcounters, hcalls, hdeliveries⟩ :=
      launch_adds { s with service := fetch s.service }
        (l := Flight.launching label size rules chunks) rfl rfl rfl
    have htasks : (Flight.launching label size rules chunks).submitted.length =
        keys.length ⌈/⌉ size := by
      rw [← hblocks.length]
      exact List.length_map _
    rw [htasks] at hsubmissions
    apply AllOrNothing.submitted hk hs.ne'
    exact ⟨hsubmissions, hschedules, hcounters, hcalls, hdeliveries⟩

end Simulation

end LedgerQuery
