import LedgerQuery.Proofs.Settings.Laying
import LedgerQuery.Settings.Load

/-! The places of the settings, and what files and variables say of them. Laying a file or the
environment over the settings changes each place by what is said of it. -/

namespace LedgerQuery.Settings

structure Place where
  group : Option String
  name : String
deriving DecidableEq

structure Leaf (α : Type) extends Place where
  value : Settings → α

def numbers : List (Leaf ℕ) := [
  ⟨⟨none, "chunk_size"⟩, (·.chunkSize)⟩,
  ⟨⟨none, "max_page_size"⟩, (·.maxPageSize)⟩,
  ⟨⟨none, "max_pages_per_chunk"⟩, (·.maxPagesPerChunk)⟩,
  ⟨⟨some "retry", "period_secs"⟩, (·.retry.periodSeconds)⟩,
  ⟨⟨some "retry", "duration_secs"⟩, (·.retry.durationSeconds)⟩,
  ⟨⟨some "retry", "initial_delay_secs"⟩, (·.retry.initialDelaySeconds)⟩]

def texts : List (Leaf String) := [
  ⟨⟨some "logging", "directory"⟩, (·.logging.directory)⟩,
  ⟨⟨some "logging", "file_prefix"⟩, (·.logging.filePrefix)⟩,
  ⟨⟨some "logging", "file_level"⟩, (·.logging.fileLevel)⟩,
  ⟨⟨some "logging", "console_level"⟩, (·.logging.consoleLevel)⟩]

def groups : List String := ["retry", "logging"]

def places : List Place := numbers.map (·.toPlace) ++ texts.map (·.toPlace)

def namesIn (group : Option String) : List String :=
  (places.filter (·.group = group)).map (·.name)

namespace Place

def asVariable (p : Place) : String :=
  match p.group with
  | none => "query_core__" ++ p.name
  | some g => "query_core__" ++ g ++ "__" ++ p.name

def inVariable (p : Place) (v : String × String) : List Datum :=
  if PathStep.lower v.1 = p.asVariable then [.text v.2] else []

def inMember (p : Place) (m : String × Datum) : List Datum :=
  match p.group with
  | none => if m.1 = p.name then [m.2] else []
  | some g => if m.1 = g then m.2.members.flatMap fun n => if n.1 = p.name then [n.2] else [] else []

def given (p : Place) (vars : List (String × String)) (ms : List (String × Datum)) : Option Datum :=
  (vars.flatMap p.inVariable).getLast?.or (ms.flatMap p.inMember).getLast?

def Takes (p : Place) (d : Datum) : Prop :=
  (p ∈ numbers.map (·.toPlace) ∧ ∃ n, d.unsigned = .ok n) ∨
    (p ∈ texts.map (·.toPlace) ∧ ∃ s, d.string = .ok s)

end Place

inductive Item (group : Option String) : String × Datum → Prop
  | setting {name d} : Place.Takes ⟨group, name⟩ d → Item group (name, d)
  | unknown {name d} : PathStep.lower name ∉ namesIn group → Item group (name, d)

inductive Member : String × Datum → Prop
  | setting {name d} : Place.Takes ⟨none, name⟩ d → Member (name, d)
  | group {g items} : g ∈ groups → (∀ m ∈ items, Item (some g) m) → Member (g, .table items)
  | unknown {name d} : PathStep.Plain name → PathStep.lower name ∉ namesIn none →
      PathStep.lower name ∉ groups → Member (name, d)

inductive Variable : String × String → Prop
  | setting {name value} {p : Place} : PathStep.lower name = p.asVariable → p.Takes (.text value) →
      Variable (name, value)
  | other {name value} : ¬ variablePrefix.toList <+: (PathStep.lower name).toList →
      Variable (name, value)

namespace Place

def dotted (p : Place) : String :=
  match p.group with
  | none => p.name
  | some g => g ++ "." ++ p.name

def steps (p : Place) : List PathStep :=
  match p.group with
  | none => [.name p.name]
  | some g => [.name g, .name p.name]

lemma lower_group : ∀ g ∈ groups, PathStep.lower g = g := by decide +kernel

lemma plain_group : ∀ g ∈ groups, PathStep.Plain g := by
  unfold PathStep.Plain
  decide

lemma lower_name : ∀ p ∈ places, PathStep.lower p.name = p.name := by decide +kernel

lemma plain_name : ∀ p ∈ places, PathStep.Plain p.name := by
  unfold PathStep.Plain
  decide

lemma name_not_mem_groups : ∀ p ∈ places, p.name ∉ groups := by decide

lemma group_mem_groups : ∀ p ∈ places, ∀ g ∈ p.group, g ∈ groups := by decide

lemma path_of_variable : ∀ p ∈ places, PathStep.lower p.asVariable = p.asVariable ∧
    pathOfVariable? p.asVariable = some p.dotted ∧ PathStep.path p.dotted = p.steps := by
  decide +kernel

lemma prefix_asVariable : ∀ p ∈ places, variablePrefix.toList <+: p.asVariable.toList := by
  decide

lemma asVariable_inj : ∀ p ∈ places, ∀ q ∈ places, p.asVariable = q.asVariable → p = q := by
  decide

def view (p : Place) (t : Tree) : Option Tree := Tree.lookup p.name (t.held p.group)

end Place

def Grouped (t : Tree) : Prop := ∀ g ∈ groups, ∀ u, Tree.lookup g t.members = some u → u.IsTable

variable {p q : Place} {d : Datum} {t : Tree} {origin : String}

namespace Place

lemma Takes.mem_places (h : p.Takes d) : p ∈ places := by
  rcases h with ⟨hp, -⟩ | ⟨hp, -⟩
  · exact List.mem_append_left _ hp
  · exact List.mem_append_right _ hp

lemma single_of_unsigned {n : ℕ} (h : d.unsigned = .ok n) : d.Single := by
  cases d <;> trivial

lemma single_of_string {s : String} (h : d.string = .ok s) : d.Single := by
  cases d <;> trivial

lemma Takes.single (h : p.Takes d) : d.Single := by
  rcases h with ⟨-, n, hn⟩ | ⟨-, s, hs⟩
  · exact single_of_unsigned hn
  · exact single_of_string hs

lemma mem_namesIn (hq : q ∈ places) : q.name ∈ namesIn q.group := by
  refine List.mem_map.mpr ⟨q, ?_, rfl⟩
  exact List.mem_filter.mpr ⟨hq, by simp⟩

lemma eq_name_of_lower {name : String} (hq : q ∈ places) (hname : name = q.name) :
    PathStep.lower name ∈ namesIn q.group := by
  rw [hname, lower_name q hq]
  exact mem_namesIn hq

lemma name_ne_group (hp : p ∈ places) {g : String} (hg : g ∈ groups) : p.name ≠ g := by
  rintro rfl
  exact name_not_mem_groups p hp hg

lemma inMember_setting {name : String} (hp : ⟨none, name⟩ ∈ places) (hq : q ∈ places) (d : Datum) :
    q.inMember (name, d) = if (⟨none, name⟩ : Place) = q then [d] else [] := by
  obtain ⟨qg, qn⟩ := q
  cases qg with
  | none => simp [inMember]
  | some g =>
    have hne : name ≠ g := name_ne_group hp (group_mem_groups _ hq g rfl)
    simp [inMember, hne]

lemma inMember_group {g : String} (hg : g ∈ groups) (hq : q ∈ places)
    (items : List (String × Datum)) : q.inMember (g, .table items) =
      if q.group = some g then items.flatMap fun n => if n.1 = q.name then [n.2] else [] else [] := by
  obtain ⟨qg, qn⟩ := q
  cases qg with
  | none =>
    have hne : g ≠ qn := (name_ne_group hq hg).symm
    simp [inMember, hne]
  | some g' => simp [inMember, Datum.members, eq_comm]

lemma inMember_unknown {name : String} (hname : PathStep.lower name ∉ namesIn none)
    (hgroup : PathStep.lower name ∉ groups) (hq : q ∈ places) (d : Datum) :
    q.inMember (name, d) = [] := by
  obtain ⟨qg, qn⟩ := q
  cases qg with
  | none =>
    have hne : name ≠ qn := fun heq => hname (eq_name_of_lower hq heq)
    simp [inMember, hne]
  | some g =>
    have hne : name ≠ g := by
      rintro rfl
      have hg := group_mem_groups _ hq name rfl
      exact hgroup ((lower_group name hg).symm ▸ hg)
    simp [inMember, hne]

lemma view_place (hp : p ∈ places) (hq : q ∈ places) (hd : d.Single) :
    q.view (Tree.place origin d p.steps t) =
      if p = q then some (Tree.ofDatum origin d) else q.view t := by
  have hlower := lower_name p hp
  obtain ⟨pg, pn⟩ := p
  obtain ⟨qg, qn⟩ := q
  cases pg with
  | none =>
    simp only [steps, Tree.place, Tree.merge_single origin pn hd, hlower, view]
    cases qg with
    | none => simp [Tree.held, Tree.lookup_put]
    | some g =>
      have hne : pn ≠ g := name_ne_group hp (group_mem_groups _ hq g rfl)
      simp [Tree.held_put_group, hne]
  | some g =>
    simp only [steps, Tree.place, Tree.merge_single origin pn hd, hlower, view]
    cases qg with
    | none =>
      have hne : g ≠ qn := (name_ne_group hq (group_mem_groups _ hp g rfl)).symm
      simp [Tree.held, Tree.lookup_put, hne]
    | some g' =>
      by_cases hg : g = g'
      · subst hg
        rw [Tree.held_put_group, if_pos rfl, Tree.lookup_put]
        cases hl : Tree.lookup g t.members <;> simp only [Tree.held, hl] <;>
          simp [Tree.absent, Tree.empty, Tree.members]
      · simp [Tree.held_put_group, hg]

lemma grouped_put {name : String} {u : Tree} (hu : name ∈ groups → u.IsTable) (ht : Grouped t) :
    Grouped (Tree.put name u t) := by
  intro g hg v hv
  rw [Tree.lookup_put] at hv
  split_ifs at hv with hname
  · obtain rfl := Option.some.inj hv
    exact hu (hname ▸ hg)
  · exact ht g hg v hv

lemma grouped_place (hp : p ∈ places) (hd : d.Single) (ht : Grouped t) :
    Grouped (Tree.place origin d p.steps t) := by
  obtain ⟨pg, pn⟩ := p
  cases pg with
  | none =>
    rw [steps, Tree.place, Tree.merge_single origin pn hd, lower_name _ hp]
    apply grouped_put _ ht
    exact fun hg => absurd rfl (name_ne_group hp hg)
  | some g =>
    simp only [steps, Tree.place]
    apply grouped_put _ ht
    exact fun _ => Tree.isTable_merge _ _ _ _

end Place

lemma Item.named_eq {items : List (String × Datum)} (hq : q ∈ places)
    (h : ∀ m ∈ items, Item q.group m) : Tree.named q.name items =
      items.flatMap fun n => if n.1 = q.name then [n.2] else [] := by
  apply List.flatMap_congr
  intro m hm
  cases h m hm with
  | @setting name d htakes => rw [Place.lower_name _ htakes.mem_places]
  | @unknown name d hunknown =>
    have hne : PathStep.lower name ≠ q.name := fun heq => hunknown (heq ▸ Place.mem_namesIn hq)
    have hne' : name ≠ q.name := fun heq => hunknown (Place.eq_name_of_lower hq heq)
    simp [hne, hne']

lemma Item.single {items : List (String × Datum)} (hq : q ∈ places)
    (h : ∀ m ∈ items, Item q.group m) :
    ∀ m ∈ items, PathStep.lower m.1 = q.name → m.2.Single := by
  intro m hm heq
  cases h m hm with
  | setting htakes => exact htakes.single
  | unknown hunknown => exact absurd (heq ▸ Place.mem_namesIn hq) hunknown

lemma Member.plain {m : String × Datum} (h : Member m) : PathStep.Plain m.1 := by
  cases h with
  | setting htakes => exact Place.plain_name _ htakes.mem_places
  | group hg => exact Place.plain_group _ hg
  | unknown hplain => exact hplain

lemma place_member {m : String × Datum} (h : Member m) :
    Tree.place origin m.2 (PathStep.path m.1) t = Tree.merge origin m.1 m.2 t := by
  rw [PathStep.path_plain h.plain, Tree.place]
  obtain ⟨name, d⟩ := m
  cases d <;> simp [Tree.merge, PathStep.lower_lower]

lemma view_group {g : String} {items : List (String × Datum)} (hg : g ∈ groups)
    (hitems : ∀ m ∈ items, Item (some g) m) (hq : q ∈ places) (origin : String) (t : Tree) :
    q.view (Tree.put g (Tree.mergeAll origin items ((Tree.lookup g t.members).getD .empty)) t) =
      ((q.inMember (g, .table items)).getLast?.map (Tree.ofDatum origin)).or (q.view t) := by
  rw [Place.inMember_group hg hq]
  obtain ⟨qg, qn⟩ := q
  cases qg with
  | none =>
    have hne : g ≠ qn := (Place.name_ne_group hq hg).symm
    simp [Place.view, Tree.held, Tree.lookup_put, hne]
  | some g' =>
    by_cases hgg : g = g'
    · subst hgg
      rw [Place.view, Tree.held_put_group, if_pos rfl,
        Tree.lookup_mergeAll (Item.single hq hitems), Item.named_eq hq hitems]
      simp [Place.view, Tree.held]
    · simp [Place.view, Tree.held_put_group, hgg, Ne.symm hgg]

lemma view_unknown {name : String} (hname : PathStep.lower name ∉ namesIn none)
    (hgroup : PathStep.lower name ∉ groups) (hq : q ∈ places) (origin : String) (d : Datum)
    (t : Tree) : q.view (Tree.merge origin name d t) = q.view t := by
  obtain ⟨qg, qn⟩ := q
  cases qg with
  | none =>
    have hne : PathStep.lower name ≠ qn := fun heq => hname (heq ▸ Place.mem_namesIn hq)
    simp [Place.view, Tree.held, Tree.lookup_merge_of_ne hne]
  | some g =>
    have hne : PathStep.lower name ≠ g := fun heq =>
      hgroup (heq ▸ Place.group_mem_groups _ hq g rfl)
    simp [Place.view, Tree.held, Tree.lookup_merge_of_ne hne]

lemma Member.step {m : String × Datum} (h : Member m) (hq : q ∈ places) (ht : Grouped t) :
    Grouped (Tree.place origin m.2 (PathStep.path m.1) t) ∧
      q.view (Tree.place origin m.2 (PathStep.path m.1) t) =
        ((q.inMember m).getLast?.map (Tree.ofDatum origin)).or (q.view t) := by
  cases h with
  | @setting name d htakes =>
    have hp := htakes.mem_places
    have hpath : PathStep.path name = Place.steps ⟨none, name⟩ := by
      rw [PathStep.path_plain (Place.plain_name _ hp), Place.lower_name _ hp, Place.steps]
    rw [hpath]
    refine ⟨Place.grouped_place hp htakes.single ht, ?_⟩
    rw [Place.view_place hp hq htakes.single, Place.inMember_setting hp hq]
    split_ifs <;> rfl
  | @group g items hg hitems =>
    rw [place_member (.group hg hitems)]
    simp only [Tree.merge, Place.lower_group g hg]
    -- What stands under a group is a table already, so the new members are laid over the old ones.
    refine ⟨Place.grouped_put (fun _ => ?_) ht, view_group hg hitems hq origin t⟩
    apply Tree.isTable_mergeAll
    cases hl : Tree.lookup g t.members with
    | none => trivial
    | some u => exact ht g hg u hl
  | @unknown name d hplain hname hgroup =>
    rw [place_member (.unknown hplain hname hgroup), Place.inMember_unknown hname hgroup hq]
    refine ⟨?_, view_unknown hname hgroup hq origin d t⟩
    intro g hg u hu
    rw [Tree.lookup_merge_of_ne fun heq => hgroup (heq ▸ hg)] at hu
    exact ht g hg u hu

def layVariable (t : Tree) (v : String × String) : Tree :=
  match pathOfVariable? v.1 with
  | some path => Tree.place environment (.text v.2) (PathStep.path path) t
  | none => t

lemma lay_ofVariables (t : Tree) (vars : List (String × String)) :
    t.lay environment (ofVariables vars) = vars.foldl layVariable t := by
  unfold Tree.lay ofVariables
  rw [List.foldl_filterMap]
  congr 1
  funext t v
  cases h : pathOfVariable? v.1 <;> simp [layVariable, h]

lemma Variable.step {v : String × String} (h : Variable v) (hq : q ∈ places) (ht : Grouped t) :
    Grouped (layVariable t v) ∧ q.view (layVariable t v) =
      ((q.inVariable v).getLast?.map (Tree.ofDatum environment)).or (q.view t) := by
  cases h with
  | @setting name value p hname htakes =>
    have hp := htakes.mem_places
    obtain ⟨hlower, hpath, hsteps⟩ := Place.path_of_variable p hp
    have hgives : pathOfVariable? name = some p.dotted := by
      rw [← hpath, ← hname, pathOfVariable?, pathOfVariable?, PathStep.lower_lower]
    simp only [layVariable, hgives, hsteps]
    refine ⟨Place.grouped_place hp htakes.single ht, ?_⟩
    rw [Place.view_place hp hq htakes.single]
    by_cases hpq : p = q
    · subst hpq
      simp [Place.inVariable, hname]
    · have hne : p.asVariable ≠ q.asVariable := fun heq => hpq (Place.asVariable_inj p hp q hq heq)
      simp [Place.inVariable, hname, hne, hpq]
  | @other name value hname =>
    have hnone : pathOfVariable? name = none := by
      rw [pathOfVariable?, if_neg]
      simpa using hname
    have hne : PathStep.lower name ≠ q.asVariable := fun heq =>
      hname (heq ▸ Place.prefix_asVariable q hq)
    simp only [layVariable, hnone]
    exact ⟨ht, by simp [Place.inVariable, hne]⟩

end LedgerQuery.Settings
