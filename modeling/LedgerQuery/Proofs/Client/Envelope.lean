import LedgerQuery.Client.Envelope
import LedgerQuery.Proofs.Json.Record
import LedgerQuery.Proofs.Json.Written

/-! Which pages there are in the answers of the service. -/

namespace LedgerQuery

open Json

namespace Json

variable {members : List (String × Json)}

lemma lookup_ofMembers (hn : (members.map (·.1)).Nodup) :
    ∃ sorted, ofMembers members = .obj sorted ∧ ∀ key, lookup key sorted = lookup key members := by
  obtain ⟨sorted, hsorted, hperm⟩ := ofMembers_perm hn
  have hnodup := (hperm.map (·.1)).nodup_iff.mpr hn
  exact ⟨sorted, hsorted, fun key => lookup_perm hnodup hperm⟩

end Json

namespace Envelope

variable {τ : Type}

def link? : Json → Option String
  | .obj members => (lookup "href" members).bind text?
  | .arr [j] => text? j
  | _ => none

def links? : Json → Option (Option String)
  | .obj members => ((lookup "next" members).map (nullable link?)).getD (some none)
  | .arr [j] => nullable link? j
  | _ => none

def part {α : Type} (f : Json → Option α) (before : Option α) : Option Json → Option (Option α)
  | none => some before
  | some j => (f j).map some

def fill (p : Parts) (embedded links : Option Json) : Option Parts :=
  (part members? p.embedded embedded).bind fun embedded =>
    (part (fun j => (links? j).map some) p.links links).map fun links => ⟨embedded, links⟩

def places? : Json → Option (Option Json × Option Json)
  | .obj members => some (lookup "_embedded" members, lookup "_links" members)
  | .arr [] => some (none, none)
  | .arr [j] => some (some j, none)
  | .arr [j, k] => some (some j, some k)
  | _ => none

def parts? (j : Json) : Option Parts := (places? j).bind fun places => fill {} places.1 places.2

section Records

open Record

def takeText (name : String) (j : Json) (a : Texts.Filled) : Option Texts.Filled :=
  (text? j).map fun text => a ++ [(name, text)]

def takeNext (_ : String) (j : Json) (_ : Links) : Option Links := (nullable link? j).map some

def takePart (name : String) (j : Json) (p : Parts) : Option Parts :=
  if name = "_embedded" then (members? j).map fun embedded => { p with embedded := some embedded }
  else (links? j).map fun next => { p with links := some (some next) }

lemma link_reads : Reads link.record.read fun j => (link? j).map fun href => [("href", href)] := by
  have htakes : ∀ f ∈ link.record.fields, f.Takes (takeText f.name) := by
    intro f hf a
    obtain rfl := List.mem_singleton.mp hf
    exact Scan.text_reads.map fun text => a ++ [("href", text)]
  refine read_reads htakes (fun members hn => ?_) (fun items => ?_) fun j ha ho => ?_
  · have hfills (j : Json) (a b : Texts.Filled) (h : takeText "href" j a = some b) :
        (Texts.field "href").filled b = true := by
      obtain ⟨text, -, rfl⟩ := Option.map_eq_some_iff.mp h
      simp [Texts.field]
    obtain ⟨sorted, hsorted, hlookup⟩ := lookup_ofMembers hn
    rw [gather_single rfl hfills hn rfl, hsorted, link?, hlookup]
    cases hl : lookup "href" members with
    | none => simp [Texts.field, hl]
    | some j => simp [Texts.field, hl, takeText, link, Texts.record]
  · match items with
    | [] => rfl
    | [j] => exact collect_single [j]
    | j :: k :: more => exact collect_single (j :: k :: more)
  · cases j with
    | arr items => exact absurd rfl (ha items)
    | obj members => exact absurd rfl (ho members)
    | _ => rfl

lemma next_takes : (linksRecord.fields.head (List.cons_ne_nil _ _)).Takes (takeNext "next") := by
  intro a
  have hread := (Scan.optional_reads link_reads).map fun fields =>
    (some (fields.bind fun fields => fields.head?.map (·.2)) : Links)
  have htake : (fun j => takeNext "next" j a) = fun j =>
      (nullable (fun j => (link? j).map fun href => [("href", href)]) j).map fun fields =>
        (some (fields.bind fun fields => fields.head?.map (·.2)) : Links) := by
    funext j
    cases hj : link? j with
    | none => cases j <;> simp [takeNext, nullable, hj]
    | some href => cases j <;> simp [takeNext, nullable, hj]
  rw [htake]
  exact hread

lemma links_reads : Reads linksRecord.read fun j => (links? j).map some := by
  have htakes : ∀ f ∈ linksRecord.fields, f.Takes (takeNext f.name) := by
    intro f hf
    obtain rfl := List.mem_singleton.mp hf
    exact next_takes
  refine read_reads htakes (fun members hn => ?_) (fun items => ?_) fun j ha ho => ?_
  · have hfills (j : Json) (a b : Links) (h : takeNext "next" j a = some b) :
        Option.isSome b = true := by
      obtain ⟨next, -, rfl⟩ := Option.map_eq_some_iff.mp h
      rfl
    obtain ⟨sorted, hsorted, hlookup⟩ := lookup_ofMembers hn
    rw [gather_single rfl hfills hn rfl, hsorted, links?, hlookup]
    cases lookup "next" members with
    | none => rfl
    | some j => rfl
  · match items with
    | [] => rfl
    | [j] => exact collect_single [j]
    | j :: k :: more => exact collect_single (j :: k :: more)
  · cases j with
    | arr items => exact absurd rfl (ha items)
    | obj members => exact absurd rfl (ho members)
    | _ => rfl

lemma gather_record {members : List (String × Json)} (hn : (members.map (·.1)).Nodup) (p : Parts)
    (he : p.embedded.isSome = true → "_embedded" ∉ members.map (·.1))
    (hl : p.links.isSome = true → "_links" ∉ members.map (·.1)) :
    record.gather takePart p members =
      fill p (lookup "_embedded" members) (lookup "_links" members) := by
  induction members generalizing p with
  | nil =>
    obtain ⟨embedded, links⟩ := p
    cases embedded <;> cases links <;> rfl
  | cons m members ih =>
    obtain ⟨key, j⟩ := m
    rw [List.map_cons, List.nodup_cons] at hn
    simp only [List.map_cons, List.mem_cons, not_or] at he hl
    by_cases hkey : key = "_embedded"
    · subst hkey
      have hfind : record.fields.find? (·.name == "_embedded") = record.fields.head? := rfl
      have hnone : p.embedded = none := by
        cases hp : p.embedded with
        | none => rfl
        | some e => exact absurd rfl (he (by rw [hp]; rfl)).1
      rw [gather_known hfind (congrArg Option.isSome hnone), lookup_cons_self,
        lookup_cons_of_ne (by decide)]
      cases hj : members? j with
      | none => simp [takePart, fill, part, hj]
      | some embedded =>
        have hlater := ih hn.2 { p with embedded := some embedded } (fun _ => hn.1)
          fun h => (hl h).2
        rw [lookup_eq_none hn.1] at hlater
        simpa [takePart, fill, part, hj] using hlater
    by_cases hkey' : key = "_links"
    · subst hkey'
      have hfind : record.fields.find? (·.name == "_links") = record.fields.getLast? := rfl
      have hnone : p.links = none := by
        cases hp : p.links with
        | none => rfl
        | some l => exact absurd rfl (hl (by rw [hp]; rfl)).1
      rw [gather_known hfind (congrArg Option.isSome hnone), lookup_cons_self,
        lookup_cons_of_ne (by decide)]
      cases hj : links? j with
      | none => simp [takePart, fill, part, hj]
      | some next =>
        have hlater := ih hn.2 { p with links := some (some next) } (fun h => (he h).2)
          fun _ => hn.1
        rw [lookup_eq_none hn.1] at hlater
        simpa [takePart, fill, part, hj] using hlater
    · have hfind : record.fields.find? (·.name == key) = none := by
        simp [record, Ne.symm hkey, Ne.symm hkey']
      rw [gather_unknown hfind, lookup_cons_of_ne hkey, lookup_cons_of_ne hkey']
      exact ih hn.2 p (fun h => (he h).2) fun h => (hl h).2

lemma part_takes : ∀ f ∈ record.fields, f.Takes (takePart f.name) := by
  intro f hf p
  rcases List.mem_pair.mp hf with rfl | rfl
  · exact Scan.object_reads.map fun embedded => { p with embedded := some embedded }
  · have hread := links_reads.map fun links => { p with links := some links }
    simp only [Option.map_map] at hread
    exact hread

lemma record_reads : Reads record.read parts? := by
  refine read_reads part_takes (fun members hn => ?_) (fun items => ?_) fun j ha ho => ?_
  · obtain ⟨sorted, hsorted, hlookup⟩ := lookup_ofMembers hn
    have hgather := gather_record hn {} (by simp) (by simp)
    rw [hsorted, parts?, places?, hlookup, hlookup]
    exact hgather
  · match items with
    | [] => rfl
    | [j] =>
      cases hj : members? j <;>
        simp [collect, record, takePart, parts?, places?, fill, part, hj]
    | [j, k] =>
      cases hj : members? j <;> cases hk : links? k <;>
        simp [collect, record, takePart, parts?, places?, fill, part, hj, hk]
    | j :: k :: l :: more =>
      cases hj : members? j <;> cases hk : links? k <;>
        simp [collect, record, takePart, parts?, places?, hj, hk]
  · cases j with
    | arr items => exact absurd rfl (ha items)
    | obj members => exact absurd rfl (ho members)
    | _ => rfl

end Records

inductive IsLink : Json → String → Prop
  | object {members : List (String × Json)} {href : String} :
      lookup "href" members = some (.str href) → IsLink (.obj members) href
  | list {href : String} : IsLink (.arr [.str href]) href

inductive IsNext : Json → Option String → Prop
  | null : IsNext .null none
  | link {j : Json} {href : String} : IsLink j href → IsNext j (some href)

inductive IsLinks : Json → Option String → Prop
  | absent {members : List (String × Json)} :
      lookup "next" members = none → IsLinks (.obj members) none
  | object {members : List (String × Json)} {j : Json} {next : Option String} :
      lookup "next" members = some j → IsNext j next → IsLinks (.obj members) next
  | list {j : Json} {next : Option String} : IsNext j next → IsLinks (.arr [j]) next

inductive HasItems (take : Json → Except String τ) (resource : String) :
    Option Json → List τ → Prop
  | nowhere : HasItems take resource none []
  | absent {members : List (String × Json)} :
      lookup resource members = none → HasItems take resource (some (.obj members)) []
  | array {members : List (String × Json)} {values : List Json} {items : List τ} :
      lookup resource members = some (.arr values) →
      List.Forall₂ (fun j x => take j = .ok x) values items →
      HasItems take resource (some (.obj members)) items

inductive HasNext : Option Json → Option String → Prop
  | nowhere : HasNext none none
  | links {j : Json} {next : Option String} : IsLinks j next → HasNext (some j) next

structure Carries (take : Json → Except String τ) (resource : String)
    (members : List (String × Json)) (p : Page τ) : Prop where
  items : HasItems take resource (lookup "_embedded" members) p.items
  next : HasNext (lookup "_links" members) (p.next.map (·.token))

section Carries

variable {take : Json → Except String τ} {resource href : String} {next : Option String} {j : Json}
  {members : List (String × Json)} {entry embedded links : Option Json}

lemma text?_eq_some : text? j = some href ↔ j = .str href := by
  cases j <;> simp [text?]

lemma isLink_iff : IsLink j href ↔ link? j = some href := by
  constructor
  · rintro (h | -)
    · simp [link?, h, text?]
    · rfl
  · intro h
    match j, h with
    | .obj members, h =>
      obtain ⟨k, hk, hhref⟩ := Option.bind_eq_some_iff.mp h
      obtain rfl := text?_eq_some.mp hhref
      exact .object hk
    | .arr [k], h =>
      obtain rfl := text?_eq_some.mp h
      exact .list

lemma isNext_iff : IsNext j next ↔ nullable link? j = some next := by
  constructor
  · rintro (- | h)
    · rfl
    · have hne : j ≠ .null := by
        rintro rfl
        cases h
      rw [nullable_of_ne_null link? hne, isLink_iff.mp h, Option.map_some]
  · intro h
    by_cases hj : j = .null
    · subst hj
      obtain rfl := Option.some.inj h
      exact .null
    · rw [nullable_of_ne_null link? hj] at h
      obtain ⟨href, hlink, rfl⟩ := Option.map_eq_some_iff.mp h
      exact .link (isLink_iff.mpr hlink)

lemma isLinks_iff : IsLinks j next ↔ links? j = some next := by
  constructor
  · rintro (h | ⟨h, hn⟩ | hn)
    · simp [links?, h]
    · simp [links?, h, isNext_iff.mp hn]
    · exact isNext_iff.mp hn
  · intro h
    match j, h with
    | .obj members, h =>
      cases hl : lookup "next" members with
      | none =>
        rw [links?, hl] at h
        obtain rfl := Option.some.inj h
        exact .absent hl
      | some k =>
        rw [links?, hl] at h
        exact .object hl (isNext_iff.mpr h)
    | .arr [k], h => exact .list (isNext_iff.mpr h)

lemma takeAll_eq_ok {values : List Json} {items : List τ} :
    takeAll take values = .ok items ↔ List.Forall₂ (fun j x => take j = .ok x) values items := by
  induction values generalizing items with
  | nil =>
    rw [takeAll, List.forall₂_nil_left_iff, Except.ok.injEq]
    exact eq_comm
  | cons j values ih =>
    rw [takeAll, List.forall₂_cons_left_iff]
    constructor
    · intro h
      obtain ⟨x, hx, h⟩ := bind_eq_ok h
      obtain ⟨more, hmore, h⟩ := bind_eq_ok h
      exact ⟨x, more, hx, ih.mp hmore, (Except.ok.inj h).symm⟩
    · rintro ⟨x, more, hx, hmore, rfl⟩
      rw [hx, ih.mpr hmore]
      rfl

lemma itemsBy_eq_ok {e : Envelope} {items : List τ} : e.itemsBy resource take = .ok items ↔
    lookup resource e.embedded = none ∧ items = [] ∨
      ∃ values, lookup resource e.embedded = some (.arr values) ∧
        List.Forall₂ (fun j x => take j = .ok x) values items := by
  unfold itemsBy
  split
  · next h => simp [h, eq_comm]
  · next values h =>
    have htake : (takeAll take values).mapError QueryError.decode = .ok items ↔
        takeAll take values = .ok items := by
      cases takeAll take values <;> simp [Except.mapError]
    rw [htake, takeAll_eq_ok]
    simp [h]
  · next other hother h =>
    simp only [h, reduceCtorEq, Option.some.injEq, false_and, false_or, false_iff]
    rintro ⟨values, hvalues, -⟩
    exact hother values hvalues

lemma hasItems_iff {items : List τ} : HasItems take resource entry items ↔
    ∃ embedded, part members? none entry = some embedded ∧
      ∀ next, itemsBy ⟨embedded.getD [], next⟩ resource take = .ok items := by
  constructor
  · rintro (- | h | ⟨h, hitems⟩)
    · exact ⟨none, rfl, fun next => rfl⟩
    · exact ⟨_, rfl, fun next => itemsBy_eq_ok.mpr (Or.inl ⟨h, rfl⟩)⟩
    · exact ⟨_, rfl, fun next => itemsBy_eq_ok.mpr (Or.inr ⟨_, h, hitems⟩)⟩
  · rintro ⟨embedded, hpart, hitems⟩
    cases entry with
    | none =>
      obtain rfl := Option.some.inj hpart
      obtain rfl := Except.ok.inj (hitems none)
      exact .nowhere
    | some j =>
      obtain ⟨members, hmembers, rfl⟩ := Option.map_eq_some_iff.mp hpart
      obtain rfl : j = .obj members := by
        cases j with
        | obj m => exact congrArg Json.obj (Option.some.inj hmembers)
        | _ => cases hmembers
      rcases itemsBy_eq_ok.mp (hitems none) with ⟨h, rfl⟩ | ⟨values, h, hall⟩
      · exact .absent h
      · exact .array h hall

lemma hasNext_iff : HasNext entry next ↔
    ∃ links : Option Links, part (fun j => (links? j).map some) none entry = some links ∧
      (links.bind id).bind id = next := by
  constructor
  · rintro (- | h)
    · exact ⟨none, rfl, rfl⟩
    · exact ⟨some (some next), by simp [part, isLinks_iff.mp h], rfl⟩
  · rintro ⟨links, hpart, rfl⟩
    cases entry with
    | none =>
      obtain rfl := Option.some.inj hpart
      exact .nowhere
    | some j =>
      simp only [part, Option.map_map] at hpart
      obtain ⟨next, hnext, rfl⟩ := Option.map_eq_some_iff.mp hpart
      exact .links (isLinks_iff.mpr hnext)

lemma fill_iff {p : Page τ} :
    (∃ parts, fill {} embedded links = some parts ∧
      (ofParts parts).pageBy resource take = .ok p) ↔
      HasItems take resource embedded p.items ∧ HasNext links (p.next.map (·.token)) := by
  constructor
  · rintro ⟨parts, hparts, hpage⟩
    obtain ⟨embedded, hembedded, hparts⟩ := Option.bind_eq_some_iff.mp hparts
    obtain ⟨links, hlinks, rfl⟩ := Option.map_eq_some_iff.mp hparts
    rw [pageBy, ofParts] at hpage
    split at hpage
    · next items hitems =>
      obtain rfl := Except.ok.inj hpage
      refine ⟨hasItems_iff.mpr ⟨embedded, hembedded, fun next => hitems⟩,
        hasNext_iff.mpr ⟨links, hlinks, ?_⟩⟩
      cases (links.bind id).bind id <;> rfl
    · cases hpage
  · rintro ⟨hitems, hnext⟩
    obtain ⟨embedded, hembedded, hitems⟩ := hasItems_iff.mp hitems
    obtain ⟨links, hlinks, hnext⟩ := hasNext_iff.mp hnext
    refine ⟨⟨embedded, links⟩, by simp [fill, hembedded, hlinks], ?_⟩
    have hcursor : (p.next.map (·.token)).map Cursor.mk = p.next := by
      cases p.next <;> rfl
    rw [pageBy, ofParts, hitems]
    dsimp only
    rw [hnext, hcursor]

end Carries

section Reading

variable {take : Json → Except String τ} {resource : String} {members : List (String × Json)}
  {bytes : List UInt8}

lemma itemsBy_error {e : Envelope} {error : QueryError}
    (h : e.itemsBy resource take = .error error) : ∃ reason, error = .decode reason := by
  unfold itemsBy at h
  split at h
  · cases h
  · next values _ =>
    cases ht : takeAll take values with
    | ok items =>
      rw [ht] at h
      cases h
    | error reason =>
      rw [ht] at h
      exact ⟨reason, (Except.error.inj h).symm⟩
  · exact ⟨_, (Except.error.inj h).symm⟩

lemma readPageBy_cases (bytes : List UInt8) (resource : String) (take : Json → Except String τ) :
    (∃ p, readPageBy bytes resource take = .ok p) ∨
      ∃ reason, readPageBy bytes resource take = .error (.decode reason) := by
  unfold readPageBy
  cases read bytes with
  | error fault => exact Or.inr ⟨_, rfl⟩
  | ok e =>
    simp only [pageBy]
    cases hi : e.itemsBy resource take with
    | ok items => exact Or.inl ⟨_, rfl⟩
    | error error =>
      obtain ⟨reason, rfl⟩ := itemsBy_error hi
      exact Or.inr ⟨reason, rfl⟩

lemma readPageBy_eq_ok {j : Json} (hd : Document j bytes) (hn : nesting j < Scan.levels)
    {p : Page τ} : readPageBy bytes resource take = .ok p ↔
      ∃ embedded links, places? j = some (embedded, links) ∧
        HasItems take resource embedded p.items ∧ HasNext links (p.next.map (·.token)) := by
  obtain ⟨hsome, hnone⟩ := Record.readAll_document record_reads hd hn
  have hread : readPageBy bytes resource take = .ok p ↔
      ∃ parts, parts? j = some parts ∧ (ofParts parts).pageBy resource take = .ok p := by
    rw [readPageBy, read]
    cases hparts : parts? j with
    | none =>
      obtain ⟨fault, hread⟩ := hnone hparts
      rw [hread]
      constructor
      · intro h
        cases h
      · rintro ⟨parts, h, -⟩
        cases h
    | some parts =>
      rw [hsome parts hparts]
      constructor
      · intro h
        exact ⟨parts, rfl, h⟩
      · rintro ⟨parts', h, hp⟩
        obtain rfl := Option.some.inj h
        exact hp
  rw [hread]
  constructor
  · rintro ⟨parts, hparts, hpage⟩
    obtain ⟨⟨embedded, links⟩, hplaces, hparts⟩ := Option.bind_eq_some_iff.mp hparts
    exact ⟨embedded, links, hplaces, fill_iff.mp ⟨parts, hparts, hpage⟩⟩
  · rintro ⟨embedded, links, hplaces, hcarries⟩
    obtain ⟨parts, hparts, hpage⟩ := fill_iff.mpr hcarries
    exact ⟨parts, by rw [parts?, hplaces]; exact hparts, hpage⟩

lemma readPageBy_object (hd : Document (.obj members) bytes)
    (hn : nesting (.obj members) < Scan.levels) {p : Page τ} :
    readPageBy bytes resource take = .ok p ↔ Carries take resource members p := by
  rw [readPageBy_eq_ok hd hn]
  constructor
  · rintro ⟨embedded, links, hplaces, hitems, hnext⟩
    obtain ⟨rfl, rfl⟩ := Prod.mk.inj (Option.some.inj hplaces)
    exact ⟨hitems, hnext⟩
  · rintro ⟨hitems, hnext⟩
    exact ⟨_, _, rfl, hitems, hnext⟩

end Reading

def written (resource : String) (values : List Json) (href : Option String) :
    List (String × Json) :=
  [("_embedded", .obj [(resource, .arr values)]),
    ("_links", .obj (href.toList.map fun href => ("next", .obj [("href", .str href)])))]

section Writing

variable {take : Json → Except String τ} {value : τ → Json} {resource : String} {items : List τ}
  {href : Option String}

lemma written_carries (h : ∀ x ∈ items, take (value x) = .ok x) :
    Carries take resource (written resource (items.map value) href)
      ⟨items, href.map Cursor.mk⟩ := by
  constructor
  · refine .array (lookup_cons_self _ _ _) ?_
    induction items with
    | nil => exact .nil
    | cons x items ih =>
      rw [List.forall_mem_cons] at h
      exact .cons h.1 (ih h.2)
  · cases href with
    | none => exact .links (.absent rfl)
    | some href =>
      exact .links (.object (lookup_cons_self _ _ _) (.link (.object (lookup_cons_self _ _ _))))

lemma written_proper (h : ∀ x ∈ items, (value x).Proper) :
    (Json.obj (written resource (items.map value) href)).Proper := by
  have hitems : ProperItems (items.map value) := by
    induction items with
    | nil => trivial
    | cons x items ih =>
      rw [List.forall_mem_cons] at h
      exact ⟨h.1, ih h.2⟩
  have horder : ("_embedded" : String) < "_links" := by decide
  have hlinks : (Json.obj (href.toList.map fun href =>
      ("next", .obj [("href", .str href)]))).Proper := by
    cases href <;> simp [Proper, ProperMembers]
  have hembedded : (Json.obj [(resource, .arr (items.map value))]).Proper :=
    ⟨List.pairwise_singleton _ _, hitems, trivial⟩
  exact ⟨List.pairwise_pair.mpr horder, hembedded, hlinks, trivial⟩

lemma written_nesting (h : ∀ x ∈ items, nesting (value x) + 3 < Scan.levels) :
    nesting (.obj (written resource (items.map value) href)) < Scan.levels := by
  have hitems : nestingItems (items.map value) + 3 < Scan.levels := by
    induction items with
    | nil => simp [nestingItems, Scan.levels]
    | cons x items ih =>
      rw [List.forall_mem_cons] at h
      have hlater := ih h.2
      have hfirst := h.1
      simp only [List.map_cons, nestingItems]
      omega
  have hlinks : nesting (.obj (href.toList.map fun href =>
      ("next", .obj [("href", .str href)]))) ≤ 2 := by
    cases href <;> simp [nesting, nestingMembers]
  simp only [written, nesting, nestingMembers] at hlinks ⊢
  omega

lemma readPageBy_written (h : ∀ x ∈ items, (value x).Proper ∧
    nesting (value x) + 3 < Scan.levels ∧ take (value x) = .ok x) :
    readPageBy (Utf8.ofString (Json.obj (written resource (items.map value) href)).write)
      resource take = .ok ⟨items, href.map Cursor.mk⟩ := by
  have hproper : (Json.obj (written resource (items.map value) href)).Proper :=
    written_proper fun x hx => (h x hx).1
  have hnesting : nesting (.obj (written resource (items.map value) href)) < Scan.levels :=
    written_nesting fun x hx => (h x hx).2.1
  exact (readPageBy_object (document_write hproper) hnesting).mpr
    (written_carries fun x hx => (h x hx).2.2)

lemma readPageBy_values {values : List Json}
    (h : ∀ j ∈ values, j.Proper ∧ nesting j + 3 < Scan.levels) :
    readPageBy (Utf8.ofString (Json.obj (written resource values href)).write) resource .ok =
      .ok ⟨values, href.map Cursor.mk⟩ := by
  have hread : readPageBy (Utf8.ofString (Json.obj (written resource (values.map id) href)).write)
      resource .ok = .ok ⟨values, href.map Cursor.mk⟩ :=
    readPageBy_written fun j hj => ⟨(h j hj).1, (h j hj).2, rfl⟩
  rwa [List.map_id] at hread

end Writing

theorem reads_envelope_format (take : Json → Except String τ) (resource : String) :
    (∀ members bytes, Document (.obj members) bytes → nesting (.obj members) < Scan.levels →
      (∀ p, readPageBy bytes resource take = .ok p ↔ Carries take resource members p) ∧
      ((∀ p, ¬ Carries take resource members p) →
        ∃ reason, readPageBy bytes resource take = .error (.decode reason))) ∧
    ∀ (value : τ → Json) (items : List τ) (href : Option String),
      (∀ x ∈ items, (value x).Proper ∧ nesting (value x) + 3 < Scan.levels ∧
        take (value x) = .ok x) →
      readPageBy (Utf8.ofString (Json.obj (written resource (items.map value) href)).write)
        resource take = .ok ⟨items, href.map Cursor.mk⟩ := by
  constructor
  · intro members bytes hd hn
    refine ⟨fun p => readPageBy_object hd hn, fun hnone => ?_⟩
    rcases readPageBy_cases bytes resource take with ⟨p, hp⟩ | hreason
    · exact absurd ((readPageBy_object hd hn).mp hp) (hnone p)
    · exact hreason
  · intro value items href h
    exact readPageBy_written h

theorem reads_envelope_format_entity :
    let entity : Json := .obj [("id", .str "a")]
    let page : Page Json := ⟨[entity], some ⟨"/2"⟩⟩
    let members := written "transfers" [entity] (some "/2")
    readPageBy (Utf8.ofString (Json.obj members).write) "transfers" ItemKind.entity.take =
        .ok page ∧
      Carries ItemKind.entity.take "transfers" members page := by
  intro entity page members
  have hproper : entity.Proper := ⟨List.pairwise_singleton _ _, trivial, trivial⟩
  have hall : ∀ x ∈ [entity], (id x).Proper := fun x hx => List.mem_singleton.mp hx ▸ hproper
  have hdocument : Document (.obj members) (Utf8.ofString (Json.obj members).write) :=
    document_write (written_proper hall)
  have hread := (reads_envelope_format ItemKind.entity.take "transfers").2 id [entity] (some "/2")
    fun x hx => List.mem_singleton.mp hx ▸ ⟨hproper, by decide, rfl⟩
  exact ⟨hread, (((reads_envelope_format ItemKind.entity.take "transfers").1 members _ hdocument
    (by decide)).1 page).mp hread⟩

end Envelope

end LedgerQuery
