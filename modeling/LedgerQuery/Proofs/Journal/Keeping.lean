import LedgerQuery.Journal.Basic
import LedgerQuery.Proofs.Journal.Lines
import LedgerQuery.Proofs.Text.Split

/-! What a journal keeps that writes to a single file. Outcomes of queries have a limit of their
own, which is not one more reason to keep an event: it stands in the place of the other limit, for
every target that begins as theirs does. -/

namespace LedgerQuery

lemma Text.sameLetters_eq (s t : String) :
    Text.sameLetters s t = decide (s.toList.map Char.toLower = t.toList.map Char.toLower) := by
  have hlower (s : String) : s.toLower.toList = s.toList.map Char.toLower := String.toList_map
  simp only [sameLetters, beq_eq_decide, ← String.toList_inj, hlower]

namespace Filter

variable {f : Filter} {target : String} {d : Directive} {ds : List Directive}

def longest (ds : List Directive) : Option Directive :=
  ds.foldr (fun d best => some (longer d best)) none

lemma longest_eq_none (h : longest ds = none) : ds = [] := by
  cases ds with
  | nil => rfl
  | cons d ds => cases h

lemma longest_eq_some (h : longest ds = some d) :
    d ∈ ds ∧ ∀ e ∈ ds, e.target.length ≤ d.target.length := by
  induction ds generalizing d with
  | nil => cases h
  | cons e ds ih =>
    obtain rfl : longer e (longest ds) = d := Option.some.inj h
    cases hbest : longest ds with
    | none =>
      rw [longest_eq_none hbest]
      exact ⟨List.mem_singleton_self e, List.forall_mem_singleton.mpr le_rfl⟩
    | some best =>
      obtain ⟨hmem, hle⟩ := ih hbest
      rw [List.forall_mem_cons]
      by_cases hlt : e.target.length < best.target.length
      · rw [longer, if_pos hlt]
        exact ⟨List.mem_cons_of_mem e hmem, hlt.le, hle⟩
      · rw [longer, if_neg hlt]
        have hlast := not_lt.mp hlt
        exact ⟨List.mem_cons_self, le_rfl, fun d hd => (hle d hd).trans hlast⟩

lemma deciding_eq_some (h : f.deciding target = some d) :
    d ∈ f.directives ∧ d.cares target = true ∧
      ∀ e ∈ f.directives, e.cares target = true → e.target.length ≤ d.target.length := by
  obtain ⟨hmem, hle⟩ := longest_eq_some h
  obtain ⟨hd, hcares⟩ := List.mem_filter.mp hmem
  exact ⟨hd, hcares, fun e he hc => hle e (List.mem_filter.mpr ⟨he, hc⟩)⟩

lemma exists_deciding (hd : d ∈ f.directives) (hc : d.cares target = true) :
    ∃ e, f.deciding target = some e := by
  apply Option.ne_none_iff_exists'.mp
  intro hnone
  have hmem : d ∈ f.directives.filter (·.cares target) := List.mem_filter.mpr ⟨hd, hc⟩
  rw [longest_eq_none hnone] at hmem
  exact List.not_mem_nil hmem

end Filter

namespace Event

/-- What a file is meant to hold: all that is as grave as the level, and outcomes from info on. -/
def wanted (limit : Level) (e : Event) : Bool :=
  e.level.atLeast limit || (e.target == outcomeTarget && e.level.atLeast .info)

def likeOutcomes (e : Event) : Bool := outcomeTarget.toList.isPrefixOf e.target.toList

def kept (limit : Level) (e : Event) : Bool :=
  e.level.atLeast (if e.likeOutcomes then .info else limit)

variable {limit : Level} {e : Event}

lemma likeOutcomes_of_target (h : e.target = outcomeTarget) : e.likeOutcomes = true := by
  rw [likeOutcomes, h, List.isPrefixOf_iff_prefix]

lemma keeps_outcomesAnd (limit : Level) (e : Event) :
    (Filter.outcomesAnd limit).keeps e = e.kept limit := by
  obtain ⟨d, hd⟩ : ∃ d, (Filter.outcomesAnd limit).deciding e.target = some d :=
    Filter.exists_deciding (d := ⟨"", limit⟩) (by simp [Filter.outcomesAnd]) rfl
  obtain ⟨hmem, hcares, hlongest⟩ := Filter.deciding_eq_some hd
  have hkeeps : (Filter.outcomesAnd limit).keeps e = e.level.atLeast d.limit := by
    rw [Filter.keeps, hd, Option.any_some]
  have hlength : "".length < outcomeTarget.length := by decide
  simp only [Filter.outcomesAnd, List.mem_cons, List.not_mem_nil, or_false] at hmem
  rw [hkeeps, kept]
  -- The directive for outcomes is the longer one, so the other decides only where it does not care.
  rcases hmem with rfl | rfl
  · have hlike : e.likeOutcomes = true := hcares
    rw [if_pos hlike]
  · rw [if_neg]
    intro hlike
    have hle := hlongest ⟨outcomeTarget, .info⟩ (by simp [Filter.outcomesAnd]) hlike
    exact absurd hle hlength.not_ge

lemma missed_iff : (e.wanted limit = true ∧ e.kept limit = false) ↔
    e.likeOutcomes = true ∧ e.level.atLeast limit = true ∧ e.level.atLeast .info = false := by
  have htarget := likeOutcomes_of_target (e := e)
  unfold wanted kept
  split_ifs <;> grind

lemma unwanted_iff : (e.kept limit = true ∧ e.wanted limit = false) ↔
    e.likeOutcomes = true ∧ e.target ≠ outcomeTarget ∧ e.level.atLeast .info = true ∧
      e.level.atLeast limit = false := by
  have htarget := likeOutcomes_of_target (e := e)
  unfold wanted kept
  split_ifs <;> grind

end Event

structure WrittenEvent where
  stamp : String
  event : Event

namespace WrittenEvent

def Stamped (e : WrittenEvent) : Prop := Stamp.hasShape Stamp.second.toList e.stamp.toList = true

def text (e : WrittenEvent) : String := e.stamp ++ e.event.fileText

def record (e : WrittenEvent) : String := e.text ++ "\n"

lemma lines_text {e : WrittenEvent} (h : e.Stamped) :
    (Event.lines (e.text.toList ++ ['\n']) []).map Stamp.dropSecond =
      (Event.lines (e.event.fileText.toList ++ ['\n']) []).map Stamp.dropSecond := by
  obtain ⟨rest, hrest⟩ : ∃ rest, e.event.fileText.toList = '[' :: rest := by
    simp [Event.fileText]
  rw [text, String.toList_append, hrest]
  exact Event.dropSecond_lines h rest

end WrittenEvent

namespace Sink

def write (s : Sink) (text : String) (e : WrittenEvent) : String :=
  if s.fileFilter.keeps e.event then text ++ e.record else text

def writeAll (s : Sink) (entries : List WrittenEvent) : String := entries.foldl s.write ""

variable {s : Sink} {entries : List WrittenEvent}

lemma writeAll_snoc (s : Sink) (entries : List WrittenEvent) (e : WrittenEvent) :
    s.writeAll (entries ++ [e]) =
      s.writeAll entries ++ if s.fileFilter.keeps e.event then e.record else "" := by
  rw [writeAll, List.foldl_append, List.foldl_cons, List.foldl_nil, write]
  split_ifs
  · rfl
  · exact (String.append_empty).symm

lemma writeAll_eq (s : Sink) (entries : List WrittenEvent) : s.writeAll entries =
    String.join ((entries.filter fun e => s.fileFilter.keeps e.event).map WrittenEvent.record) := by
  induction entries using List.reverseRecOn with
  | nil => rfl
  | append_singleton entries e ih =>
    rw [writeAll_snoc, ih, List.filter_append, List.map_append]
    by_cases hk : s.fileFilter.keeps e.event = true
    · simp [hk, String.join_append]
    · simp [hk]

lemma lines_writeAll (s : Sink) (hs : ∀ e ∈ entries, e.Stamped) :
    (Event.lines (s.writeAll entries).toList []).map Stamp.dropSecond =
      (Event.linesOf (((entries.map WrittenEvent.event).filter s.fileFilter.keeps).map
        Event.fileText)).map Stamp.dropSecond := by
  have hrecords (kept : List WrittenEvent) : (String.join (kept.map WrittenEvent.record)).toList =
      (kept.map WrittenEvent.text).flatMap fun text => text.toList ++ ['\n'] := by
    simp [String.toList_join, List.flatMap_map, WrittenEvent.record]
  rw [writeAll_eq, hrecords, Event.lines_entries, List.filter_map, List.map_map]
  simp only [Event.linesOf, List.map_flatMap, List.flatMap_map]
  refine List.flatMap_congr fun e he => ?_
  exact WrittenEvent.lines_text (hs e (List.mem_of_mem_filter he))

end Sink

namespace Journal

variable {j j' : Journal} {path level : String}

lemma setup_file_ok : j.setup (.file path level) = (j', .ok ()) ↔
    ∃ file limit, j.workspace.createFile? path = some (j'.workspace, file) ∧
      Level.ofText? level = some limit ∧ j.sink = none ∧
      j'.sink = some ⟨file, .outcomesAnd limit, none⟩ := by
  obtain ⟨workspace', sink'⟩ := j'
  cases hcreate : j.workspace.createFile? path with
  | none => simp [setup, openFile, hcreate, bind, Except.bind]
  | some created =>
    cases hlevel : Level.ofText? level with
    | none => simp [setup, openFile, hcreate, levelOf, hlevel, bind, Except.bind]
    | some limit =>
      cases hsink : j.sink with
      | some s =>
        simp [setup, openFile, hcreate, levelOf, hlevel, install, hsink, bind, Except.bind]
      | none =>
        simp only [setup, openFile, hcreate, levelOf, hlevel, install, hsink, bind, Except.bind]
        grind

/-- After a setup with a single file just the records of what is kept are written into it, in order.
That is what was wanted, but for events that begin as outcomes do: of those details are missed
where the level asks for them, and those that are no outcomes are kept where it does not. -/
theorem file_keeps (h : j.setup (.file path level) = (j', .ok ())) :
    ∃ file limit s, j.workspace.createFile? path = some (j'.workspace, file) ∧
      Level.ofText? level = some limit ∧ j'.sink = some s ∧
      (∀ entries : List WrittenEvent, s.writeAll entries =
          String.join ((entries.filter fun e => e.event.kept limit).map WrittenEvent.record) ∧
        ((∀ e ∈ entries, e.Stamped) → j'.fileLines file (entries.map WrittenEvent.event) =
          (Event.lines (s.writeAll entries).toList []).map Stamp.dropSecond)) ∧
      ∀ e : Event,
        ((e.wanted limit = true ∧ e.kept limit = false) ↔
          e.likeOutcomes = true ∧ e.level.atLeast limit = true ∧
            e.level.atLeast .info = false) ∧
        ((e.kept limit = true ∧ e.wanted limit = false) ↔
          e.likeOutcomes = true ∧ e.target ≠ Event.outcomeTarget ∧
            e.level.atLeast .info = true ∧ e.level.atLeast limit = false) := by
  obtain ⟨file, limit, hcreate, hlevel, -, hsink⟩ := setup_file_ok.mp h
  have hkeeps : (Filter.outcomesAnd limit).keeps = Event.kept limit :=
    funext (Event.keeps_outcomesAnd limit)
  refine ⟨file, limit, _, hcreate, hlevel, hsink, fun entries => ⟨?_, fun hs => ?_⟩,
    fun e => ⟨Event.missed_iff, Event.unwanted_iff⟩⟩
  · rw [Sink.writeAll_eq, hkeeps]
  · rw [Sink.lines_writeAll _ hs, fileLines, hsink]
    exact if_pos rfl

lemma create_here : ({} : Workspace).createFile? "a.log" =
    some (⟨[⟨.above 0, ["a.log"]⟩], []⟩, ⟨.above 0, ["a.log"]⟩) := by
  have husable : Path.isUsable "a.log" = true := by
    rw [Path.isUsable_eq]
    decide +kernel
  simp only [Workspace.createFile?, husable, Path.steps_eq]
  decide +kernel

def here (limit : Level) : Journal where
  workspace := ⟨[⟨.above 0, ["a.log"]⟩], []⟩
  sink := some ⟨⟨.above 0, ["a.log"]⟩, .outcomesAnd limit, none⟩

lemma setup_here {level : String} {limit : Level} (h : Level.ofText? level = some limit) :
    ({} : Journal).setup (.file "a.log" level) = (here limit, .ok ()) :=
  setup_file_ok.mpr ⟨_, _, create_here, h, rfl, rfl⟩

theorem file_keeps_warnings :
    ({} : Journal).setup (.file "a.log" "Warn") = (here .warn, .ok ()) ∧
      ∃ s, (here .warn).sink = some s ∧
        s.writeAll [⟨"2026-01-01 00:00:00 ", .info, Event.outcomeTarget, "q SUCCESS"⟩,
            ⟨"2026-01-01 00:00:01 ", .info, Event.coordinatorTarget, "q: chunk 0 done"⟩,
            ⟨"2026-01-01 00:00:02 ", .warn, Event.pagingTarget, "q: page 2 late"⟩] =
          "2026-01-01 00:00:00 [INFO] query_outcome: q SUCCESS\n" ++
            "2026-01-01 00:00:02 [WARN] query_core::paging: q: page 2 late\n" := by
  have hlevel : Level.ofText? "Warn" = some .warn := by
    simp only [Level.ofText?, Level.ofName?, Text.sameLetters_eq]
    decide +kernel
  have hsetup := setup_here hlevel
  obtain ⟨file, limit, s, -, hlimit, hs, hwritten, -⟩ := file_keeps hsetup
  obtain rfl : Level.warn = limit := Option.some.inj (hlevel.symm.trans hlimit)
  refine ⟨hsetup, s, hs, ?_⟩
  rw [(hwritten _).1]
  decide +kernel

theorem outcome_details_missed :
    ¬ ∀ (j j' : Journal) (path level : String) (file : Location) (limit : Level),
      j.setup (.file path level) = (j', .ok ()) →
      j.workspace.createFile? path = some (j'.workspace, file) →
      Level.ofText? level = some limit →
      ∀ events : List Event, j'.fileLines file events =
        (Event.linesOf ((events.filter (·.wanted limit)).map Event.fileText)).map
          Stamp.dropSecond := by
  intro h
  have hlevel : Level.ofText? "debug" = some .debug := by
    simp only [Level.ofText?, Level.ofName?, Text.sameLetters_eq]
    decide +kernel
  have hlines := h _ _ _ _ _ _ (setup_here hlevel) create_here hlevel
    [⟨.debug, Event.outcomeTarget, "m"⟩]
  have hdropped : (Filter.outcomesAnd .debug).keeps ⟨.debug, Event.outcomeTarget, "m"⟩ = false := by
    rw [Event.keeps_outcomesAnd]
    decide +kernel
  have hwanted : Event.wanted .debug ⟨.debug, Event.outcomeTarget, "m"⟩ = true := by decide +kernel
  have hline : Event.linesOf [Event.fileText ⟨.debug, Event.outcomeTarget, "m"⟩] =
      ["[DEBUG] query_outcome: m"] := by decide +kernel
  simp only [fileLines, here, if_pos, List.filter_cons, List.filter_nil, hdropped, hwanted,
    List.map_cons, List.map_nil, hline] at hlines
  cases hlines

end Journal

end LedgerQuery
