import LedgerQuery.Drain
import LedgerQuery.Proofs.Chunk.Blocks
import LedgerQuery.Proofs.Retry.Allowance
import LedgerQuery.Settings.Load

/-! What queries rely on in their settings. The check refuses a setting exactly where its use would
fail or fall back to another value. -/

namespace LedgerQuery

structure Demand where
  field : String
  reason : String
  holds : Prop

namespace Demand

def error (d : Demand) : SettingsError := .invalidValue d.field d.reason

inductive Checked : List Demand → Except SettingsError Unit → Prop
  | passed : Checked [] (.ok ())
  | refused {d rest} : ¬ d.holds → Checked (d :: rest) (.error d.error)
  | next {d rest result} : d.holds → Checked rest result → Checked (d :: rest) result

def FirstUnmet (demands : List Demand) (d : Demand) : Prop :=
  ∃ before after, demands = before ++ d :: after ∧ (∀ b ∈ before, b.holds) ∧ ¬ d.holds

variable {d : Demand} {demands rest : List Demand} {result : Except SettingsError Unit}

lemma Checked.eq_ok_iff (h : Checked demands result) :
    result = .ok () ↔ ∀ d ∈ demands, d.holds := by
  induction h with
  | passed => simp
  | refused hd => simp [hd]
  | next hd _ ih => simp [hd, ih]

lemma FirstUnmet.cons (hd : d.holds) {e : Demand} (h : FirstUnmet rest e) :
    FirstUnmet (d :: rest) e := by
  obtain ⟨before, after, rfl, hbefore, he⟩ := h
  refine ⟨d :: before, after, rfl, ?_, he⟩
  rintro b (_ | ⟨_, hb⟩)
  · exact hd
  · exact hbefore b hb

lemma FirstUnmet.of_cons (hd : d.holds) {e : Demand} (h : FirstUnmet (d :: rest) e) :
    FirstUnmet rest e := by
  obtain ⟨before, after, heq, hbefore, he⟩ := h
  cases before with
  | nil =>
    obtain ⟨rfl, -⟩ := List.cons.inj heq
    exact absurd hd he
  | cons b before =>
    obtain ⟨-, rfl⟩ := List.cons.inj heq
    exact ⟨before, after, rfl, fun b hb => hbefore b (List.mem_cons_of_mem _ hb), he⟩

lemma FirstUnmet.head (hd : ¬ d.holds) {e : Demand} (h : FirstUnmet (d :: rest) e) : e = d := by
  obtain ⟨before, after, heq, hbefore, -⟩ := h
  cases before with
  | nil => exact (List.cons.inj heq).1.symm
  | cons b before =>
    obtain ⟨rfl, -⟩ := List.cons.inj heq
    exact absurd (hbefore d List.mem_cons_self) hd

lemma Checked.eq_error_iff (h : Checked demands result) (e : SettingsError) :
    result = .error e ↔ ∃ d, FirstUnmet demands d ∧ e = d.error := by
  induction h with
  | passed => simp [FirstUnmet]
  | @refused d rest hd =>
    constructor
    · intro he
      exact ⟨d, ⟨[], rest, rfl, by simp, hd⟩, (Except.error.inj he).symm⟩
    · rintro ⟨d', hfirst, rfl⟩
      rw [hfirst.head hd]
  | next hd _ ih =>
    rw [ih]
    constructor
    · rintro ⟨d', hfirst, rfl⟩
      exact ⟨d', hfirst.cons hd, rfl⟩
    · rintro ⟨d', hfirst, rfl⟩
      exact ⟨d', hfirst.of_cons hd, rfl⟩

lemma Checked.positive {n : ℕ} (hd : d.holds ↔ 0 < n) (hr : d.reason = "must be greater than zero")
    (h : 0 < n → Checked rest result) :
    Checked (d :: rest) (Settings.positive d.field n >>= fun _ => result) := by
  rcases Nat.eq_zero_or_pos n with rfl | hn
  · have hrefused : Settings.positive d.field 0 = .error d.error := by
      rw [Settings.positive, if_pos rfl, error, hr]
    rw [hrefused]
    apply Checked.refused
    simpa using hd
  · rw [Settings.positive, if_neg hn.ne']
    apply Checked.next
    · exact hd.mpr hn
    · exact h hn

end Demand

namespace Settings

variable (s : Settings)

def demands : List Demand := [
  ⟨"chunk_size", "must be greater than zero", ∀ (κ : Type) (keys : List κ), keys ≠ [] →
    ∃ chunks, Chunk.partition keys s.chunkSize = .ok chunks⟩,
  ⟨"max_page_size", "must be greater than zero", 1 ≤ s.maxPageSize⟩,
  ⟨"max_pages_per_chunk", "must be greater than zero", ∀ (τ : Type) (rules : Drain.Rules τ),
    rules.maxPages = s.maxPagesPerChunk → rules.ceiling = s.maxPagesPerChunk⟩,
  ⟨"retry.period_secs", "must be greater than zero", s.retry.policy.period ≠ .zero⟩,
  ⟨"retry.duration_secs", "must be at least one retry period",
    1 ≤ s.retry.policy.total.nanos / s.retry.policy.period.nanos⟩]

structure Sound : Prop where
  demands : ∀ d ∈ s.demands, d.holds
  attempts : s.retry.policy.attempts =
    min (2 ^ 32 - 1) (s.retry.durationSeconds / s.retry.periodSeconds)

variable {s}

lemma cuts_all_iff {size : ℕ} : (∀ (κ : Type) (keys : List κ), keys ≠ [] →
    ∃ chunks, Chunk.partition keys size = .ok chunks) ↔ 0 < size := by
  constructor
  · intro h
    obtain ⟨chunks, hchunks⟩ := h Unit [()] (List.cons_ne_nil _ _)
    exact (Chunk.partition_eq_ok.mp hchunks).2.1
  · intro hs κ keys hk
    exact ⟨_, Chunk.partition_eq_ok.mpr ⟨hk, hs, rfl⟩⟩

lemma ceiling_all_iff {n : ℕ} : (∀ (τ : Type) (rules : Drain.Rules τ),
    rules.maxPages = n → rules.ceiling = n) ↔ 0 < n := by
  constructor
  · intro h
    have hceiling : max n 1 = n := h Unit { maxPages := n } rfl
    exact max_eq_left_iff.mp hceiling
  · rintro hn τ rules rfl
    exact max_eq_left hn

lemma period_iff : s.retry.policy.period ≠ .zero ↔ 0 < s.retry.periodSeconds := by
  simp [RetrySettings.policy, Span.ofSeconds, Span.zero, Span.perSecond, Nat.pos_iff_ne_zero]

lemma floor_eq : s.retry.policy.total.nanos / s.retry.policy.period.nanos =
    s.retry.durationSeconds / s.retry.periodSeconds :=
  Nat.mul_div_mul_right _ _ (by decide)

lemma checked (s : Settings) : Demand.Checked s.demands s.validate := by
  apply Demand.Checked.positive cuts_all_iff rfl
  intro _
  apply Demand.Checked.positive (Iff.rfl : 1 ≤ s.maxPageSize ↔ 0 < s.maxPageSize) rfl
  intro _
  apply Demand.Checked.positive ceiling_all_iff rfl
  intro _
  apply Demand.Checked.positive period_iff rfl
  intro hperiod
  have hfloor : 1 ≤ s.retry.policy.total.nanos / s.retry.policy.period.nanos ↔
      ¬ s.retry.durationSeconds < s.retry.periodSeconds := by
    rw [floor_eq, Nat.one_le_div_iff hperiod, not_lt]
  split_ifs with hshort
  · exact .refused fun hholds => hfloor.mp hholds hshort
  · exact .next (hfloor.mpr hshort) .passed

lemma attempts_of_demands (h : ∀ d ∈ s.demands, d.holds) : s.retry.policy.attempts =
    min (2 ^ 32 - 1) (s.retry.durationSeconds / s.retry.periodSeconds) := by
  simp only [demands, List.forall_mem_cons] at h
  obtain ⟨-, -, -, hperiod, hfloor, -⟩ := h
  have hzero : s.retry.policy.period.nanos ≠ 0 := fun h0 => hperiod (congrArg Span.mk h0)
  rw [RetryPolicy.attempts, if_neg hzero, max_eq_right hfloor, floor_eq]
  rfl

lemma validate_iff_sound (s : Settings) : s.validate = .ok () ↔ s.Sound := by
  rw [s.checked.eq_ok_iff]
  constructor
  · intro h
    exact ⟨h, attempts_of_demands h⟩
  · intro h
    exact h.demands

lemma load_eq_ok_iff {files : Files} {directory path : String} {vars : List (String × String)} :
    load files directory path vars = .ok s ↔
      gather files directory path vars = .ok s ∧ s.validate = .ok () := by
  unfold load
  cases hg : gather files directory path vars with
  | error fault => simp
  | ok t =>
    simp only [Except.ok.injEq]
    cases hv : t.validate with
    | error e =>
      simp only [reduceCtorEq, false_iff, not_and]
      rintro rfl
      simp [hv]
    | ok u =>
      simp only [Except.ok.injEq, iff_self_and]
      rintro rfl
      exact hv

theorem validate_meets_demands (s : Settings) :
    (s.validate = .ok () ↔ s.Sound) ∧
      (∀ e, s.validate = .error e ↔ ∃ d, Demand.FirstUnmet s.demands d ∧ e = d.error) ∧
      ∀ (files : Files) (directory path : String) (vars : List (String × String)),
        load files directory path vars = .ok s → s.Sound := by
  refine ⟨s.validate_iff_sound, s.checked.eq_error_iff, fun files directory path vars h => ?_⟩
  exact s.validate_iff_sound.mp (load_eq_ok_iff.mp h).2

end Settings

end LedgerQuery
