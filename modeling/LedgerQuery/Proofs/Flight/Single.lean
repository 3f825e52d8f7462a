import LedgerQuery.Proofs.Flight.Draining

/-! A single chunk in flight, against a server that may go on for ever. The drain asks for one page
after the other up to the first answer that stops it, and delivers what it has come to. -/

namespace LedgerQuery

variable {κ τ ν : Type}

def Call.cursor? : Call κ τ → Option Cursor
  | .page _ progress => progress.cursor
  | _ => none

namespace Flight

open Drain

def Fed (stream : ℕ → Outcome (Page τ)) (turns : List (Turn κ τ ν)) : Prop :=
  ∃ k, turns.filterMap Turn.page? = upTo stream k

section Alone

variable {admits : Call κ τ → Answer τ ν → Prop} {r : Rules τ} {chunks : List (Chunk κ)}
  {c : Chunk κ} {turns : List (Turn κ τ ν)} {turn : Turn κ τ ν} {s t : Flight κ τ}
  {answers : List (Outcome (Page τ))} {stage : Stage}

lemma single_step (hp : s.query.plan = .single r) (hd : Draining r chunks turns s)
    (ha : AnswersPages admits) (hs : Step admits s turn t) :
    t.query.plan = .single r ∧
      turn.delivered = (turn.report? r).map fun signal => signal.outcome.map .items := by
  cases hs with
  | begin _ => exact ⟨hp, rfl⟩
  | answer hc hadmits =>
    obtain ⟨c, p, a, rfl, rfl⟩ := hd.page_answer ha hc hadmits
    cases hreceive : (Drain.receive r c.index p a).1 with
    | follow p' =>
      have hfollow := receive_follow (ν := ν) hd.rules hreceive
      refine ⟨by rw [settle, hfollow]; exact hp, ?_⟩
      simp only [Turn.delivered, hfollow, Turn.report?, hreceive, Option.map_none]
    | finished o =>
      obtain ⟨hquery, -, -, -, hdelivered⟩ := receive_finish_single (ν := ν) hp hreceive
      refine ⟨by rw [settle, hquery]; exact hp, ?_⟩
      simp only [Turn.delivered, hdelivered, Turn.report?, hreceive, Option.map_some,
        Signal.outcome_report]

lemma single_run (hp : s.query.plan = .single r) (hd : Draining r chunks ([] : List (Turn κ τ ν)) s)
    (hn : (chunks.map (·.index)).Nodup) (ha : AnswersPages admits) (hr : Run admits s turns t) :
    t.query.plan = .single r ∧
      deliveries turns = (reports r turns).map fun signal => signal.outcome.map .items := by
  induction hr with
  | nil => exact ⟨hp, rfl⟩
  | snoc hr hs ih =>
    obtain ⟨hplan, hdelivered⟩ := single_step ih.1 (hd.run ha hn hr) ha hs
    refine ⟨hplan, ?_⟩
    rw [deliveries_snoc, reports_snoc, ih.2, hdelivered, List.map_append, Option.toList_map]

lemma Draining.sole (h : Draining r [c] turns s) :
    ∃ answers stage, Course r c turns answers stage ∧ s.tasks = stage.tasks c answers ∧
      s.calls = stage.calls c answers := by
  obtain ⟨answers, stage, hcourse, htasks, hcalls⟩ := h.course c (by simp)
  have hall : turnsOf turns c.index = turns := by
    refine List.filter_eq_self.mpr fun turn ht => ?_
    simpa using h.turn_chunk turn ht
  have htask : s.tasksOf c.index = s.tasks := by
    refine Multiset.filter_eq_self.mpr fun task ht => ?_
    simpa using h.task_chunk task ht
  have hcall : s.callsOf c.index = s.calls := by
    refine Multiset.filter_eq_self.mpr fun call hc => ?_
    simpa using h.call_chunk call hc
  exact ⟨answers, stage, hall ▸ hcourse, htask ▸ htasks, hcall ▸ hcalls⟩

lemma idle_iff_ended (ht : s.tasks = stage.tasks c answers) (hc : s.calls = stage.calls c answers) :
    s.Idle ↔ stage = .ended := by
  cases stage <;> simp [Idle, ht, hc, Stage.tasks, Stage.calls]

end Alone

section Fed

variable {r : Rules τ} {stream : ℕ → Outcome (Page τ)} {c : Chunk κ}
  {turns : List (Turn κ τ ν)} {s : Flight κ τ} {k n : ℕ} {stage : Stage}

lemma Course.fed_open (h : Course r c turns (upTo stream k) stage) (hs : stage ≠ .ended)
    (hn : FirstStop r stream n) : k ≤ n :=
  hn.le (h.followed hs)

lemma Course.fed_ended (h : Course r c turns (upTo stream k) .ended) (hn : FirstStop r stream n) :
    k = n + 1 ∧ reports r turns = [.report c.index (verdict r (upTo stream n) (stream n))] := by
  obtain ⟨o, ⟨earlier, a, hsplit, hf, hstop, rfl⟩, hreports⟩ := h.reports_ended
  cases k with
  | zero => simp [upTo] at hsplit
  | succ m =>
    rw [upTo_succ] at hsplit
    obtain ⟨rfl, ha⟩ := List.append_inj' hsplit rfl
    obtain rfl : stream m = a := List.singleton_inj.mp ha
    obtain rfl := hn.eq hf hstop
    exact ⟨rfl, hreports⟩

lemma goes_on (ht : s.tasks = stage.tasks c (upTo stream k))
    (hc : s.calls = stage.calls c (upTo stream k))
    (hpages : turns.filterMap Turn.page? = upTo stream k) (hs : stage ≠ .ended) :
    ∃ (turn : Turn κ τ ν) (t : Flight κ τ), Step Call.Fits s turn t ∧
      Fed stream (turns ++ [turn]) := by
  cases stage with
  | queued =>
    refine ⟨_, _, .begin (ht.trans (Multiset.singleton_add _ 0)), k, ?_⟩
    rw [List.filterMap_append, hpages]
    exact List.append_nil _
  | asked =>
    have hfits : Call.Fits (.page c (gathered (upTo stream k)))
        (.page (stream k) : Answer τ ν) := trivial
    refine ⟨_, _, .answer (hc.trans (Multiset.singleton_add _ 0)) hfits, k + 1, ?_⟩
    simp [hpages, Turn.page?, upTo_succ]
  | ended => exact absurd rfl hs

lemma cursors_upTo (c : Chunk κ) (stream : ℕ → Outcome (Page τ)) (n : ℕ) :
    ((List.range (n + 1)).map fun k => Call.page c (gathered (upTo stream k))).map Call.cursor? =
      none :: (upTo stream n).map cursorOf := by
  have hcursor (k : ℕ) : (gathered (upTo stream (k + 1))).cursor = cursorOf (stream k) := by
    simp [gathered, upTo_succ]
  rw [List.range_succ_eq_map, List.map_cons, List.map_cons, List.map_map, List.map_map]
  simp only [Function.comp_def, Call.cursor?, hcursor]
  simp [upTo]

end Fed

structure Drained (l : Launch κ τ) (chunk : Chunk κ) (r : Rules τ)
    (stream : ℕ → Outcome (Page τ)) (n : ℕ) (turns : List (Turn κ τ ν)) : Prop where
  calls : callsMade turns =
    (List.range (n + 1)).map fun k => .page chunk (gathered (upTo stream k))
  own_task : (l.submitted ++ submissions turns).map Task.call = callsMade turns
  cursors : (callsMade turns).map Call.cursor? = none :: (upTo stream n).map cursorOf
  followed : ∀ cursor ∈ (upTo stream n).map cursorOf, cursor.isSome
  distinct : ((upTo stream n).map cursorOf).Nodup
  outcome : deliveries turns = [(verdict r (upTo stream n) (stream n)).map .items]

theorem drain_delivers_once (chunk : Chunk κ) (r : Rules τ) (counted : Bool)
    (stream : ℕ → Outcome (Page τ)) :
    ∃ n < max 1 r.maxPages, FirstStop r stream n ∧
      ∀ (turns : List (Turn κ τ ν)) (s : Flight κ τ),
        Run Call.Fits (Launch.drain chunk r counted).flight turns s → Fed stream turns →
        (callsMade turns).length ≤ n + 1 ∧ turns.length ≤ 2 * (n + 1) ∧
        (¬ s.Idle → deliveries turns = [] ∧
          ∃ (turn : Turn κ τ ν) (t : Flight κ τ), Step Call.Fits s turn t ∧
            Fed stream (turns ++ [turn])) ∧
        (s.Idle → Drained (Launch.drain chunk r counted) chunk r stream n turns) := by
  obtain ⟨n, hlt, hn⟩ := exists_firstStop r stream
  refine ⟨n, by rwa [max_comm], hn, fun turns s hr hfed => ?_⟩
  have hd₀ : Draining r [chunk] ([] : List (Turn κ τ ν)) (Launch.drain chunk r counted).flight :=
    draining_flight rfl (by simp) rfl rfl
  have hd := hd₀.run fits_answersPages (by simp) hr
  obtain ⟨-, hdelivered⟩ := single_run rfl hd₀ (by simp) fits_answersPages hr
  obtain ⟨answers, stage, hcourse, ht, hc⟩ := hd.sole
  obtain ⟨k, hk⟩ := hfed
  obtain rfl : answers = upTo stream k := hcourse.pages.symm.trans hk
  have hcalls := hcourse.calls
  have hlength := hcourse.length_turns
  rw [length_upTo] at hcalls hlength
  rw [idle_iff_ended ht hc]
  by_cases hs : stage = .ended
  · subst hs
    obtain ⟨rfl, hreports⟩ := hcourse.fed_ended hn
    have hmade : callsMade turns =
        (List.range (n + 1)).map fun k => .page chunk (gathered (upTo stream k)) := by
      rw [hcalls]
      refine List.map_congr_left fun k hk => ?_
      have hlt : k < n + 1 := by simpa using hk
      rw [take_upTo hlt.le]
    have hf : Followed r (upTo stream n) := followed_upTo.mpr hn.earlier
    refine ⟨by simp [hcalls], by simp [hlength], fun h => absurd rfl h, fun _ => ?_⟩
    refine ⟨hmade, ?_, ?_, ?_, hf.cursorOf_nodup, ?_⟩
    · exact hcourse.tasks_called.trans (List.append_nil _)
    · rw [hmade, cursors_upTo]
    · intro cursor hcursor
      obtain ⟨a, ha, rfl⟩ := List.mem_map.mp hcursor
      exact hf.cursorOf_isSome a ha
    · rw [hdelivered, hreports]
      simp
  · have hle := hcourse.fed_open hs hn
    refine ⟨?_, ?_, fun _ => ⟨?_, goes_on ht hc hk hs⟩, fun h => absurd h hs⟩
    · rw [hcalls, List.length_map, List.length_range]
      split_ifs <;> omega
    · split_ifs at hlength <;> omega
    · rw [hdelivered, hcourse.reports_open hs, List.map_nil]

theorem drain_delivers_once_in_circle :
    ∃ (turns : List (Turn ℕ ℕ Unit)) (s : Flight ℕ ℕ) (n : ℕ),
      Run Call.Fits (Launch.drain ⟨0, [7]⟩ {} true).flight turns s ∧ s.Idle ∧
      deliveries turns = [.error (.protocol ("cursor '" ++ "a" ++ "' was already followed"))] ∧
      Drained (Launch.drain ⟨0, [7]⟩ {} true) ⟨0, [7]⟩ {} (fun _ => .ok (.withNext [1] "a")) n
        turns := by
  let c : Chunk ℕ := ⟨0, [7]⟩
  let l : Launch ℕ ℕ := .drain c {} true
  let page : Outcome (Page ℕ) := .ok (.withNext [1] "a")
  obtain ⟨n, -, -, hall⟩ :=
    drain_delivers_once (ν := Unit) c ({} : Rules ℕ) true fun _ => page
  have h₀ : Run Call.Fits l.flight ([] : List (Turn ℕ ℕ Unit)) l.flight := .nil
  have h₁ := h₀.begin (.page c {}) 0 rfl
  have h₂ := h₁.answer (.page c {}) 0 (.page page) rfl trivial
  have h₃ := h₂.begin (.page c (gathered [page])) 0 rfl
  have h₄ := h₃.answer (.page c (gathered [page])) 0 (.page page) rfl trivial
  obtain ⟨-, -, -, hdrained⟩ := hall _ _ h₄ ⟨2, rfl⟩
  exact ⟨_, _, n, h₄, ⟨rfl, rfl⟩, rfl, hdrained ⟨rfl, rfl⟩⟩

end Flight

end LedgerQuery
