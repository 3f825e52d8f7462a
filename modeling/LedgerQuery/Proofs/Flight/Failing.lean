import LedgerQuery.Proofs.Flight.Bulk
import LedgerQuery.Proofs.Flight.Single

/-! Chunks whose page request is not answered but cancelled. Such a chunk fails, so that the query
it belongs to cannot succeed: it delivers the error of the chunk that fails first. -/

namespace LedgerQuery

variable {κ τ ν : Type}

namespace Flight

open Drain Coordinator

def Condemned (turns : List (Turn κ τ ν)) (s : Flight κ τ) (i : ℕ) : Prop :=
  (∃ call ∈ s.calls, call.chunk? = some i) ∨
    ∃ call effects, call.chunk? = some i ∧
      .answered call (.page (.error (.transport .cancelled))) effects ∈ turns

/-- The only delivery is an error, that of the chunk which is the first to fail; for one of these
chunks this is its cancellation. -/
def FailsOnce (r : Rules τ) (cancelled : ℕ → Prop) (turns : List (Turn κ τ ν)) : Prop :=
  ∃ before turn after i e, turns = before ++ turn :: after ∧ deliveries before = [] ∧
    turn.delivered = some (.error e) ∧ deliveries after = [] ∧
    turn.report? r = some (.failed i e) ∧ (∀ signal ∈ reports r before, signal.error? = none) ∧
    (cancelled i → e = .transport .cancelled)

section Reports

variable {r : Rules τ} {chunks : List (Chunk κ)} {turns : List (Turn κ τ ν)} {s : Flight κ τ}
  {i : ℕ} {signal : Signal τ}

lemma report?_cancelled (r : Rules τ) {call : Call κ τ} (hc : call.chunk? = some i)
    (effects : Effects κ τ ν) :
    Turn.report? r (.answered call (.page (.error (.transport .cancelled))) effects) =
      some (.failed i (.transport .cancelled)) := by
  cases call with
  | page chunk progress =>
    obtain rfl : chunk.index = i := Option.some.inj hc
    rfl
  | probe budget => simp [Call.chunk?] at hc
  | create => simp [Call.chunk?] at hc
  | lookup => simp [Call.chunk?] at hc

lemma Draining.condemned (h : Draining r chunks turns s) (hi : Condemned turns s i)
    (hsig : signal ∈ reports r turns) (hs : signal.index = i) :
    signal = .failed i (.transport .cancelled) := by
  obtain ⟨c, hc, hindex⟩ := h.report_chunk hsig
  obtain rfl : c.index = i := hindex.symm.trans hs
  obtain ⟨answers, stage, hcourse, -, hcalls⟩ := h.course c hc
  have hmem : signal ∈ reports r (turnsOf turns c.index) := by
    rw [reports_turnsOf, List.mem_filter]
    exact ⟨hsig, decide_eq_true hs⟩
  -- Only a chunk that has ended has reported, and it is not asked for any more.
  have hended : stage = .ended := by
    by_contra hopen
    rw [hcourse.reports_open hopen] at hmem
    exact List.not_mem_nil hmem
  subst hended
  rcases hi with ⟨call, hcall, hchunk⟩ | ⟨call, effects, hchunk, hturn⟩
  · have hnone : call ∈ s.callsOf c.index := Multiset.mem_filter.mpr ⟨hcall, hchunk⟩
    rw [hcalls] at hnone
    exact absurd hnone (Multiset.notMem_zero call)
  · have hcancelled : .failed c.index (.transport .cancelled) ∈
        reports r (turnsOf turns c.index) := by
      refine List.mem_filterMap.mpr ⟨_, List.mem_filter.mpr ⟨hturn, ?_⟩,
        report?_cancelled r hchunk effects⟩
      exact decide_eq_true hchunk
    obtain ⟨o, -, hone⟩ := hcourse.reports_ended
    rw [hone, List.mem_singleton] at hmem hcancelled
    exact hmem.trans hcancelled.symm

lemma Draining.not_covers (h : Draining r chunks turns s) {c : Chunk κ} (hc : c ∈ chunks)
    (hi : Condemned turns s c.index) {before after : List (Signal τ)}
    (hw : reports r turns = before ++ after) :
    ¬ Covers (chunks.map (·.index)).toFinset before := by
  rintro ⟨-, hsub⟩
  have hasked : c.index ∈ (chunks.map (·.index)).toFinset :=
    List.mem_toFinset.mpr (List.mem_map_of_mem hc)
  obtain ⟨signal, hsig, hcompletes⟩ :=
    List.mem_filterMap.mp (List.mem_toFinset.mp (hsub hasked))
  have hmem : signal ∈ reports r turns := by
    rw [hw]
    exact List.mem_append_left _ hsig
  cases signal with
  | completed j items =>
    have hfailed := h.condemned hi hmem (Option.some.inj hcompletes)
    cases hfailed
  | failed j e => simp [Signal.completes?] at hcompletes

end Reports

section Chunked

variable {admits : Call κ τ → Answer τ ν → Prop} {r : Rules τ} {label : String} {size : ℕ}
  {chunks : List (Chunk κ)} {turns : List (Turn κ τ ν)} {s : Flight κ τ}

lemma launching_flight (hn : (chunks.map (·.index)).Nodup) :
    Draining r chunks ([] : List (Turn κ τ ν)) (launching label size r chunks).flight :=
  draining_flight rfl hn rfl rfl

lemma launching_run (hn : (chunks.map (·.index)).Nodup) (ha : AnswersPages admits)
    (hr : Run admits (launching label size r chunks).flight turns s) :
    Draining r chunks turns s ∧ Coordinating r label chunks turns s :=
  chunked_run (launching_flight hn) ⟨rfl, rfl⟩ hn ha hr

lemma condemned_never_ok (hn : (chunks.map (·.index)).Nodup) (ha : AnswersPages admits)
    (hr : Run admits (launching label size r chunks).flight turns s) {c : Chunk κ}
    (hc : c ∈ chunks) (hi : Condemned turns s c.index) (y : Yield τ ν) :
    .ok y ∉ deliveries turns := by
  obtain ⟨hd, hcoordinating⟩ := launching_run hn ha hr
  intro hy
  have href := (receiveAll_mirrors label chunks (reports r turns)).reference
  rcases href.cases_decided with ⟨hno, -⟩ | ⟨b, signal, a, hw, hb, hdec, -⟩
  · rw [hcoordinating.nothing_delivered hno] at hy
    exact List.not_mem_nil hy
  · rw [hcoordinating.delivered_once hw hb hdec, List.mem_singleton] at hy
    cases signal with
    | completed j items =>
      have hw' : reports r turns = (b ++ [.completed j items]) ++ a := by simp [hw]
      exact hd.not_covers hc hi hw' (covers_of_decided hb hdec)
    | failed j e => cases hy

lemma condemned_failsOnce (hn : (chunks.map (·.index)).Nodup) (ha : AnswersPages admits)
    (hr : Run admits (launching label size r chunks).flight turns s) (hs : s.Idle)
    {cancelled : ℕ → Prop} (hcancelled : ∀ i, cancelled i → Condemned turns s i) {c : Chunk κ}
    (hc : c ∈ chunks) (hi : cancelled c.index) : FailsOnce r cancelled turns := by
  obtain ⟨hd, hcoordinating⟩ := launching_run hn ha hr
  have href := (receiveAll_mirrors label chunks (reports r turns)).reference
  rcases href.cases_decided with ⟨hno, -⟩ | ⟨b, signal, a, hw, hb, hdec, -⟩
  · exact absurd (hd.decided hs hn (List.ne_nil_of_mem hc)) hno
  obtain ⟨before, turn, after, hturns, hbefore, hturn, -, hnone, hnomore, hone⟩ :=
    deciding_turn (launching_flight hn) ⟨rfl, rfl⟩ hn ha hr hw hb hdec
  have hfine : ∀ early ∈ b, early.error? = none := not_hasFailed_iff.mp fun hf => hb (Or.inr hf)
  -- The deciding report cannot complete the query, for the condemned chunk never completes.
  cases signal with
  | completed j items =>
    have hw' : reports r turns = (b ++ [.completed j items]) ++ a := by simp [hw]
    exact absurd (covers_of_decided hb hdec) (hd.not_covers hc (hcancelled _ hi) hw')
  | failed j e =>
    refine ⟨before, turn, after, j, e, hturns, hnone, hone, hnomore, hturn, hbefore ▸ hfine, ?_⟩
    intro hj
    have hmem : .failed j e ∈ reports r turns := by simp [hw]
    have hsignal := hd.condemned (hcancelled j hj) hmem rfl
    cases hsignal
    rfl

end Chunked

section Alone

variable {admits : Call κ τ → Answer τ ν → Prop} {r : Rules τ} {c : Chunk κ}
  {turns : List (Turn κ τ ν)} {s t : Flight κ τ}

lemma condemned_single (hp : s.query.plan = .single r)
    (hd₀ : Draining r [c] ([] : List (Turn κ τ ν)) s) (ha : AnswersPages admits)
    (hr : Run admits s turns t) (hi : Condemned turns t c.index) :
    (∀ o ∈ deliveries turns, o = .error (.transport .cancelled)) ∧
      (t.Idle → deliveries turns = [.error (.transport .cancelled)]) := by
  have hn : ([c].map (·.index)).Nodup := List.nodup_singleton _
  have hd := hd₀.run ha hn hr
  obtain ⟨-, hdelivered⟩ := single_run hp hd₀ hn ha hr
  have hreport (signal : Signal τ) (hsig : signal ∈ reports r turns) :
      signal = .failed c.index (.transport .cancelled) := by
    obtain ⟨d, hmem, hindex⟩ := hd.report_chunk hsig
    obtain rfl := List.mem_singleton.mp hmem
    exact hd.condemned hi hsig hindex
  rw [hdelivered]
  refine ⟨fun o ho => ?_, fun hs => ?_⟩
  · obtain ⟨signal, hsig, rfl⟩ := List.mem_map.mp ho
    rw [hreport signal hsig]
    rfl
  · obtain ⟨answers, stage, hcourse, ht, hc⟩ := hd.sole
    obtain rfl := (idle_iff_ended ht hc).mp hs
    obtain ⟨o, -, hone⟩ := hcourse.reports_ended
    have hfailed := hreport (.report c.index o) (by simp [hone])
    rw [hone, hfailed]
    rfl

end Alone

end Flight

end LedgerQuery
