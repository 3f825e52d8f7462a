import LedgerQuery.Proofs.Settings.Demands
import LedgerQuery.Proofs.Settings.Files
import LedgerQuery.Proofs.Settings.Places

/-! The layers of the settings. Each of them is what the environment says of it, else what the file
says, else its default, whatever is said of the others. -/

namespace LedgerQuery.Settings

def Leaf.Settled {α : Type} (convert : Datum → Except Wanted α) (vars : List (String × String))
    (ms : List (String × Datum)) (s : Settings) (p : Leaf α) : Prop :=
  match p.given vars ms with
  | some d => convert d = .ok (p.value s)
  | none => p.value s = p.value {}

structure Layered (vars : List (String × String)) (ms : List (String × Datum)) (s : Settings) :
    Prop where
  numbers : ∀ p ∈ numbers, p.Settled Datum.unsigned vars ms s
  texts : ∀ p ∈ texts, p.Settled Datum.string vars ms s

variable {p q : Place} {d : Datum} {t : Tree} {origin : String} {vars : List (String × String)}
  {ms : List (String × Datum)} {s : Settings} {files : Files} {directory path : String}

lemma Member.given_takes {m : String × Datum} (h : Member m) (hp : p ∈ places)
    (hd : d ∈ p.inMember m) : p.Takes d := by
  cases h with
  | @setting name e htakes =>
    rw [Place.inMember_setting htakes.mem_places hp] at hd
    split_ifs at hd with hplace
    · rw [List.mem_singleton.mp hd]
      exact hplace ▸ htakes
    · cases hd
  | @group g items hg hitems =>
    rw [Place.inMember_group hg hp] at hd
    split_ifs at hd with hgroup
    · obtain ⟨m, hm, hmem⟩ := List.mem_flatMap.mp hd
      split_ifs at hmem with hname
      · obtain rfl := List.mem_singleton.mp hmem
        obtain ⟨pg, pn⟩ := p
        obtain rfl : pg = some g := hgroup
        simp only at hname
        cases hitems m hm with
        | setting htakes => exact hname ▸ htakes
        | unknown hunknown => exact absurd (Place.eq_name_of_lower hp hname) hunknown
      · cases hmem
    · cases hd
  | @unknown name e _ hname hgroup =>
    rw [Place.inMember_unknown hname hgroup hp] at hd
    cases hd

lemma Variable.given_takes {v : String × String} (h : Variable v) (hp : p ∈ places)
    (hd : d ∈ p.inVariable v) : p.Takes d := by
  unfold Place.inVariable at hd
  split_ifs at hd with hname
  · obtain rfl := List.mem_singleton.mp hd
    cases h with
    | @setting name value q hq htakes =>
      have heq := Place.asVariable_inj q htakes.mem_places p hp (hq.symm.trans hname)
      exact heq ▸ htakes
    | other hother => exact absurd (hname ▸ Place.prefix_asVariable p hp) hother
  · cases hd

lemma given_takes (hms : ∀ m ∈ ms, Member m) (hvars : ∀ v ∈ vars, Variable v) (hp : p ∈ places)
    (hd : p.given vars ms = some d) : p.Takes d := by
  rcases Option.or_eq_some_iff.mp hd with henv | ⟨-, hfile⟩
  · obtain ⟨v, hv, hmem⟩ := List.mem_flatMap.mp (List.mem_of_getLast? henv)
    exact (hvars v hv).given_takes hp hmem
  · obtain ⟨m, hm, hmem⟩ := List.mem_flatMap.mp (List.mem_of_getLast? hfile)
    exact (hms m hm).given_takes hp hmem

def layered (origin : String) (ms : List (String × Datum)) (vars : List (String × String)) : Tree :=
  (Tree.empty.lay origin ms).lay environment (ofVariables vars)

lemma view_layered (hms : ∀ m ∈ ms, Member m) (hvars : ∀ v ∈ vars, Variable v) (hq : q ∈ places)
    (origin : String) :
    Grouped (layered origin ms vars) ∧ q.view (layered origin ms vars) =
      ((vars.flatMap q.inVariable).getLast?.map (Tree.ofDatum environment)).or
        ((ms.flatMap q.inMember).getLast?.map (Tree.ofDatum origin)) := by
  have hempty : Grouped .empty := by
    intro g _ u hu
    cases hu
  obtain ⟨hkept, hfile⟩ := Tree.lookup_foldl origin q.view hempty
    fun m hm t ht => (hms m hm).step hq ht
  obtain ⟨hkept', henv⟩ := Tree.lookup_foldl environment q.view hkept
    fun v hv t ht => (hvars v hv).step hq ht
  rw [layered, lay_ofVariables]
  refine ⟨hkept', ?_⟩
  have hnone : q.view .empty = none := by
    obtain ⟨qg, qn⟩ := q
    cases qg <;> rfl
  rw [Tree.lay, henv, hfile, hnone, Option.or_none]

lemma grouped_layered (hms : ∀ m ∈ ms, Member m) (hvars : ∀ v ∈ vars, Variable v)
    (origin : String) : Grouped (layered origin ms vars) :=
  (view_layered hms hvars (by decide : ⟨none, "chunk_size"⟩ ∈ places) origin).1

lemma blame_ofDatum (hd : d.Single) (hlist : ∀ ds, d ≠ .list ds) :
    (Tree.ofDatum origin d).blame.1 = d := by
  cases d <;> first | exact absurd hd id | exact absurd rfl (hlist _) | rfl

lemma Place.Takes.blame (h : p.Takes d) : (Tree.ofDatum origin d).blame.1 = d := by
  apply blame_ofDatum h.single
  rintro ds rfl
  rcases h with ⟨-, n, hn⟩ | ⟨-, s, hs⟩
  · cases hn
  · cases hs

lemma Leaf.Settled.read_eq_ok {α : Type} {convert : Datum → Except Wanted α} {l : Leaf α}
    (hs : l.Settled convert vars ms s) (hms : ∀ m ∈ ms, Member m) (hvars : ∀ v ∈ vars, Variable v)
    (origin : String) {names : List String} (qualify : String → String)
    (hl : l.toPlace ∈ places) (hname : l.name ∈ names) : read convert (l.value {}) l.name
      (givenByName names qualify ((layered origin ms vars).held l.group)) = .ok (l.value s) := by
  apply Settings.read_eq_ok hname
  have hview := (view_layered hms hvars hl origin).2
  unfold Place.view at hview
  rw [hview]
  have htakes (d : Datum) : l.given vars ms = some d → l.Takes d := given_takes hms hvars hl
  unfold Leaf.Settled Place.given at hs
  unfold Place.given at htakes
  cases henv : (vars.flatMap l.inVariable).getLast? with
  | some d =>
    rw [henv] at hs htakes
    simpa [(htakes d rfl).blame] using hs
  | none =>
    rw [henv] at hs htakes
    cases hfile : (ms.flatMap l.inMember).getLast? with
    | some d =>
      rw [hfile] at hs htakes
      simpa [(htakes d rfl).blame] using hs
    | none =>
      rw [hfile] at hs
      simpa using hs

lemma group_eq_ok {α : Type} {convert : Tree → Except Mismatch α} {fallback value : α} {g : String}
    (hg : g ∈ groups) (ht : Grouped t) (hempty : convert .empty = .ok fallback)
    (h : ∀ o, convert (.table o (t.held (some g))) = .ok value) :
    group convert fallback g t.members = .ok value := by
  simp only [Tree.held] at h
  unfold group
  cases hl : Tree.lookup g t.members with
  | none =>
    rw [hl] at h
    exact hempty.symm.trans (h none)
  | some u =>
    rw [hl] at h
    cases u with
    | table o us => exact h o
    | leaf o d => exact absurd (ht g hg _ hl) id
    | list o us => exact absurd (ht g hg _ hl) id

lemma retry_layered (hms : ∀ m ∈ ms, Member m) (hvars : ∀ v ∈ vars, Variable v)
    (hs : Layered vars ms s) (origin : String) :
    group retryOf {} "retry" (layered origin ms vars).members = .ok s.retry := by
  have hnumbers := hs.numbers
  simp only [numbers, List.forall_mem_cons] at hnumbers
  obtain ⟨-, -, -, hperiod, hduration, hdelay, -⟩ := hnumbers
  refine group_eq_ok (by decide) (grouped_layered hms hvars origin) rfl fun o => ?_
  have hperiod := hperiod.read_eq_ok hms hvars origin ("retry" ++ "." ++ ·)
    (by decide) (by decide : _ ∈ retryNames)
  have hduration := hduration.read_eq_ok hms hvars origin ("retry" ++ "." ++ ·)
    (by decide) (by decide : _ ∈ retryNames)
  have hdelay := hdelay.read_eq_ok hms hvars origin ("retry" ++ "." ++ ·)
    (by decide) (by decide : _ ∈ retryNames)
  simp only at hperiod hduration hdelay
  simp only [retryOf, givenGroup, bind, Except.bind, hperiod, hduration, hdelay]

lemma logging_layered (hms : ∀ m ∈ ms, Member m) (hvars : ∀ v ∈ vars, Variable v)
    (hs : Layered vars ms s) (origin : String) :
    group loggingOf {} "logging" (layered origin ms vars).members = .ok s.logging := by
  have htexts := hs.texts
  simp only [texts, List.forall_mem_cons] at htexts
  obtain ⟨hdirectory, hprefix, hfile, hconsole, -⟩ := htexts
  refine group_eq_ok (by decide) (grouped_layered hms hvars origin) rfl fun o => ?_
  have hdirectory := hdirectory.read_eq_ok hms hvars origin ("logging" ++ "." ++ ·)
    (by decide) (by decide : _ ∈ logNames)
  have hprefix := hprefix.read_eq_ok hms hvars origin ("logging" ++ "." ++ ·)
    (by decide) (by decide : _ ∈ logNames)
  have hfile := hfile.read_eq_ok hms hvars origin ("logging" ++ "." ++ ·)
    (by decide) (by decide : _ ∈ logNames)
  have hconsole := hconsole.read_eq_ok hms hvars origin ("logging" ++ "." ++ ·)
    (by decide) (by decide : _ ∈ logNames)
  simp only at hdirectory hprefix hfile hconsole
  simp only [loggingOf, givenGroup, bind, Except.bind, hdirectory, hprefix, hfile, hconsole]

lemma ofTree_layered (hms : ∀ m ∈ ms, Member m) (hvars : ∀ v ∈ vars, Variable v)
    (hs : Layered vars ms s) (origin : String) : ofTree (layered origin ms vars) = .ok s := by
  have hnumbers := hs.numbers
  simp only [numbers, List.forall_mem_cons] at hnumbers
  obtain ⟨hchunk, hpage, hpages, -⟩ := hnumbers
  have hchunk := hchunk.read_eq_ok hms hvars origin id
    (by decide) (by decide : _ ∈ names)
  have hpage := hpage.read_eq_ok hms hvars origin id
    (by decide) (by decide : _ ∈ names)
  have hpages := hpages.read_eq_ok hms hvars origin id
    (by decide) (by decide : _ ∈ names)
  simp only [Tree.held] at hchunk hpage hpages
  simp only [ofTree, bind, Except.bind, hchunk, hpage, hpages, retry_layered hms hvars hs,
    logging_layered hms hvars hs]

lemma numbers_apart : ∀ p ∈ numbers.map (·.toPlace), p ∉ texts.map (·.toPlace) := by decide

lemma mem_places_of_numbers {l : Leaf ℕ} (hl : l ∈ numbers) : l.toPlace ∈ places :=
  List.mem_append_left _ (List.mem_map_of_mem (f := (·.toPlace)) hl)

lemma mem_places_of_texts {l : Leaf String} (hl : l ∈ texts) : l.toPlace ∈ places :=
  List.mem_append_right _ (List.mem_map_of_mem (f := (·.toPlace)) hl)

lemma unsigned_of_takes {l : Leaf ℕ} (hl : l ∈ numbers) (h : l.Takes d) :
    ∃ n, d.unsigned = .ok n := by
  rcases h with ⟨-, hn⟩ | ⟨htext, -⟩
  · exact hn
  · exact absurd htext (numbers_apart _ (List.mem_map_of_mem (f := (·.toPlace)) hl))

lemma string_of_takes {l : Leaf String} (hl : l ∈ texts) (h : l.Takes d) :
    ∃ s, d.string = .ok s := by
  rcases h with ⟨hnumber, -⟩ | ⟨-, hs⟩
  · exact absurd (List.mem_map_of_mem (f := (·.toPlace)) hl) (numbers_apart _ hnumber)
  · exact hs

lemma Leaf.exists_value {α : Type} {convert : Datum → Except Wanted α} {l : Leaf α}
    (hms : ∀ m ∈ ms, Member m) (hvars : ∀ v ∈ vars, Variable v) (hl : l.toPlace ∈ places)
    (hconvert : ∀ {d}, l.Takes d → ∃ a, convert d = .ok a) :
    ∃ a, match l.given vars ms with
      | some d => convert d = .ok a
      | none => a = l.value {} := by
  cases hd : l.given vars ms with
  | none => exact ⟨_, rfl⟩
  | some d => exact hconvert (given_takes hms hvars hl hd)

lemma exists_layered (hms : ∀ m ∈ ms, Member m) (hvars : ∀ v ∈ vars, Variable v) :
    ∃ s, Layered vars ms s := by
  have hnumbers : ∀ l ∈ numbers, ∃ n, match l.given vars ms with
      | some d => d.unsigned = .ok n
      | none => n = l.value {} := by
    intro l hl
    exact Leaf.exists_value hms hvars (mem_places_of_numbers hl) (unsigned_of_takes hl)
  have htexts : ∀ l ∈ texts, ∃ s, match l.given vars ms with
      | some d => d.string = .ok s
      | none => s = l.value {} := by
    intro l hl
    exact Leaf.exists_value hms hvars (mem_places_of_texts hl) (string_of_takes hl)
  simp only [numbers, List.forall_mem_cons] at hnumbers
  simp only [texts, List.forall_mem_cons] at htexts
  obtain ⟨⟨chunkSize, hchunk⟩, ⟨maxPageSize, hpage⟩, ⟨maxPagesPerChunk, hpages⟩,
    ⟨periodSeconds, hperiod⟩, ⟨durationSeconds, hduration⟩, ⟨initialDelaySeconds, hdelay⟩, -⟩ :=
    hnumbers
  obtain ⟨⟨directory, hdirectory⟩, ⟨filePrefix, hprefix⟩, ⟨fileLevel, hfile⟩,
    ⟨consoleLevel, hconsole⟩, -⟩ := htexts
  let s : Settings := {
    chunkSize, maxPageSize, maxPagesPerChunk
    retry := { periodSeconds, durationSeconds, initialDelaySeconds }
    logging := { directory, filePrefix, fileLevel, consoleLevel } }
  refine ⟨s, ?_, ?_⟩
  · simp only [numbers, List.forall_mem_cons]
    exact ⟨hchunk, hpage, hpages, hperiod, hduration, hdelay, by simp⟩
  · simp only [texts, List.forall_mem_cons]
    exact ⟨hdirectory, hprefix, hfile, hconsole, by simp⟩

lemma Leaf.Settled.value_eq {α : Type} {convert : Datum → Except Wanted α} {l : Leaf α}
    {vars' : List (String × String)} {ms' : List (String × Datum)} {s' : Settings}
    (h : l.Settled convert vars ms s) (h' : l.Settled convert vars' ms' s')
    (hgiven : l.given vars' ms' = l.given vars ms) : l.value s' = l.value s := by
  unfold Leaf.Settled at h h'
  rw [hgiven] at h'
  cases hd : l.given vars ms with
  | none =>
    rw [hd] at h h'
    exact h'.trans h.symm
  | some d =>
    rw [hd] at h h'
    exact Except.ok.inj (h'.symm.trans h)

lemma eq_of_leaves {s' : Settings} (hnumbers : ∀ l ∈ numbers, l.value s' = l.value s)
    (htexts : ∀ l ∈ texts, l.value s' = l.value s) : s' = s := by
  simp only [numbers, List.forall_mem_cons] at hnumbers
  simp only [texts, List.forall_mem_cons] at htexts
  obtain ⟨hchunk, hpage, hpages, hperiod, hduration, hdelay, -⟩ := hnumbers
  obtain ⟨hdirectory, hprefix, hfile, hconsole, -⟩ := htexts
  obtain ⟨_, _, _, ⟨_, _, _⟩, ⟨_, _, _, _⟩⟩ := s
  obtain ⟨_, _, _, ⟨_, _, _⟩, ⟨_, _, _, _⟩⟩ := s'
  simp_all

lemma gather_eq_ok {found : Found} (hfind : find files directory path = .ok found)
    (hread : found.format.read found.text = some (.table ms)) (hms : ∀ m ∈ ms, Member m)
    (hvars : ∀ v ∈ vars, Variable v) (hs : Layered vars ms s) :
    gather files directory path vars = .ok s := by
  have hfile : ofFile found = .ok ms := by rw [ofFile, hread]
  have hsettings : ofTree (layered found.name ms vars) = .ok s := ofTree_layered hms hvars hs _
  unfold layered at hsettings
  simp only [gather, hfind, hfile, bind, Except.bind, hsettings]

lemma load_eq (hgather : gather files directory path vars = .ok s) :
    load files directory path vars = s.validate.map fun _ => s := by
  unfold load
  simp only [hgather]
  cases s.validate <;> rfl

/-- Every setting is settled by its own variable, its own place in the file and its own default:
nothing that is said of another one resets it. Then the settings are checked. -/
theorem load_layered {found : Found} (hfind : find files directory path = .ok found)
    (hread : found.format.read found.text = some (.table ms)) (hms : ∀ m ∈ ms, Member m)
    (hvars : ∀ v ∈ vars, Variable v) :
    ∃ s, Layered vars ms s ∧
      (∀ vars' ms' s', Layered vars' ms' s' →
        (∀ l ∈ numbers, l.given vars' ms' = l.given vars ms → l.value s' = l.value s) ∧
        ∀ l ∈ texts, l.given vars' ms' = l.given vars ms → l.value s' = l.value s) ∧
      (load files directory path vars = .ok s ↔ s.validate = .ok ()) ∧
      ∀ e, s.validate = .error e → load files directory path vars = .error e ∧
        ∃ field reason, e = .invalidValue field reason := by
  obtain ⟨s, hs⟩ := exists_layered hms hvars
  have hload := load_eq (gather_eq_ok hfind hread hms hvars hs)
  refine ⟨s, hs, fun vars' ms' s' hs' => ⟨?_, ?_⟩, ?_, ?_⟩
  · intro l hl
    exact (hs.numbers l hl).value_eq (hs'.numbers l hl)
  · intro l hl
    exact (hs.texts l hl).value_eq (hs'.texts l hl)
  · rw [hload]
    cases s.validate <;> simp [Except.map]
  · intro e he
    rw [hload, he]
    obtain ⟨d, -, rfl⟩ := (s.checked.eq_error_iff e).mp he
    exact ⟨rfl, d.field, d.reason, rfl⟩

theorem load_layered_over_partial_group :
    let retry : List (String × Json) := [("period_secs", .num (.natural 3))]
    let logging : List (String × Json) := [("file_prefix", .num (.natural 12))]
    let members : List (String × Json) := [("chunk_size", .num (.natural 7)),
      ("extra", .bool true), ("logging", .obj logging), ("retry", .obj retry)]
    let text := (Json.obj members).write
    let files : Files := [("settings.json", text)]
    let vars := [("Query_Core__RETRY__duration_secs", "60"),
      ("query_core__logging__console_level", "info"), ("HOME", "/")]
    let ms := Datum.ofJsonMembers members
    find files "" "settings.json" = .ok ⟨"settings.json", .json, text⟩ ∧
      Format.read .json text = some (.table ms) ∧ (∀ m ∈ ms, Member m) ∧
      (∀ v ∈ vars, Variable v) ∧ load files "" "settings.json" vars =
        .ok { chunkSize := 7
              retry := { periodSeconds := 3, durationSeconds := 60 }
              logging := { filePrefix := "12", consoleLevel := "info" } } := by
  intro retry logging members text files vars ms
  have hfind : find files "" "settings.json" = .ok ⟨"settings.json", .json, text⟩ := find_here text
  have hread : Format.read .json text = some (.table ms) := by
    apply read_written
    · simp only [members, retry, logging, Json.Proper, Json.ProperMembers]
      decide +kernel
    · decide
  have hms : ∀ m ∈ ms, Member m := by
    have hperiod : Item (some "retry") ("period_secs", .integer 3) :=
      .setting (Or.inl ⟨by decide, 3, rfl⟩)
    have hretry : Member ("retry", .table [("period_secs", .integer 3)]) :=
      .group (by decide) (by simpa using hperiod)
    have hprefix : Item (some "logging") ("file_prefix", .integer 12) :=
      .setting (Or.inr ⟨by decide, "12", rfl⟩)
    have hlogging : Member ("logging", .table [("file_prefix", .integer 12)]) :=
      .group (by decide) (by simpa using hprefix)
    have hchunk : Member ("chunk_size", .integer 7) := .setting (Or.inl ⟨by decide, 7, rfl⟩)
    have hextra : Member ("extra", .truth true) := by
      apply Member.unknown
      · exact ⟨by decide, by decide⟩
      · decide +kernel
      · decide +kernel
    have hall : ∀ m ∈ [("chunk_size", .integer 7), ("extra", .truth true),
        ("logging", .table [("file_prefix", .integer 12)]),
        ("retry", .table [("period_secs", .integer 3)])], Member m := by
      simp only [List.forall_mem_cons]
      exact ⟨hchunk, hextra, hlogging, hretry, by simp⟩
    exact hall
  have hlower : PathStep.lower "Query_Core__RETRY__duration_secs" =
      "query_core__retry__duration_secs" := by decide +kernel
  have hlevel : PathStep.lower "query_core__logging__console_level" =
      "query_core__logging__console_level" := by decide +kernel
  have hhome : PathStep.lower "HOME" = "home" := by decide +kernel
  have hduration : Datum.unsigned (.text "60") = .ok 60 := by decide +kernel
  have hvars : ∀ v ∈ vars, Variable v := by
    simp only [vars, List.forall_mem_cons]
    refine ⟨.setting (p := ⟨some "retry", "duration_secs"⟩) ?_ ?_,
      .setting (p := ⟨some "logging", "console_level"⟩) ?_ ?_, .other ?_, by simp⟩
    · decide +kernel
    · exact Or.inl ⟨by decide, 60, hduration⟩
    · decide +kernel
    · exact Or.inr ⟨by decide, "info", rfl⟩
    · decide +kernel
  obtain ⟨s, -, hsame, hok, -⟩ := load_layered hfind hread hms hvars
  let s' : Settings := {
    chunkSize := 7
    retry := { periodSeconds := 3, durationSeconds := 60 }
    logging := { filePrefix := "12", consoleLevel := "info" } }
  have hs' : Layered vars ms s' := by
    have hchunk : Datum.unsigned (.integer 7) = .ok 7 := rfl
    have hperiod : Datum.unsigned (.integer 3) = .ok 3 := rfl
    have hprefix : Datum.string (.integer 12) = .ok "12" := rfl
    have hconsole : Datum.string (.text "info") = .ok "info" := rfl
    constructor
    · simp [numbers, Leaf.Settled, Place.given, Place.inVariable, Place.inMember,
        Place.asVariable, vars, ms, members, retry, logging, hlower, hlevel, hhome, hduration,
        hchunk, hperiod, Datum.ofJsonMembers, Datum.ofJson, Datum.members, s']
    · simp [texts, Leaf.Settled, Place.given, Place.inVariable, Place.inMember,
        Place.asVariable, vars, ms, members, retry, logging, hlower, hlevel, hhome, hprefix,
        hconsole, Datum.ofJsonMembers, Datum.ofJson, Datum.members, s']
  obtain ⟨hnumbers, htexts⟩ := hsame vars ms s' hs'
  obtain rfl : s' = s := eq_of_leaves (fun l hl => hnumbers l hl rfl) fun l hl => htexts l hl rfl
  exact ⟨hfind, hread, hms, hvars, hok.mpr (by decide)⟩

end LedgerQuery.Settings
