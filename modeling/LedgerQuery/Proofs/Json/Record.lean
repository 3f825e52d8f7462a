import LedgerQuery.Proofs.Json.Reader

/-! Reading a text straight into a record takes from it what its value holds. -/

namespace LedgerQuery.Json

variable {α β σ : Type}

/-- A reader that makes this of the text of a value, or fails where it can make nothing of it. -/
structure Reads (read : ℕ → Scan → Except Fault (α × Scan)) (f : Json → Option α) : Prop where
  yields : ∀ {j : Json} {w rest : List UInt8} {s : Scan} {depth : ℕ}, Text j w rest →
    past s.rest = past w → Ends rest → nesting j < depth → Scan.Yields (read depth s) (f j) rest

lemma Reads.map {read : ℕ → Scan → Except Fault (α × Scan)} {f : Json → Option α}
    (h : Reads read f) (g : α → β) : Reads (fun depth s => do
      let (a, s) ← read depth s
      .ok (g a, s)) fun j => (f j).map g := by
  constructor
  intro j w rest s depth hj hs he hd
  rw [Option.map_eq_bind]
  exact (h.yields hj hs he hd).bind fun a t _ ht => ⟨t, rfl, ht⟩

def text? : Json → Option String
  | .str s => some s
  | _ => none

def members? : Json → Option (List (String × Json))
  | .obj members => some members
  | _ => none

def nullable (f : Json → Option α) : Json → Option (Option α)
  | .null => some none
  | j => (f j).map some

lemma nullable_of_ne_null (f : Json → Option α) {j : Json} (h : j ≠ .null) :
    nullable f j = (f j).map some := by
  cases j with
  | null => exact absurd rfl h
  | _ => rfl

namespace Scan

variable {s : Scan} {w body rest : List UInt8}

lemma mismatch_error (s : Scan) (expected : String) :
    Yields (s.mismatch expected : Except Fault (α × Scan)) none rest := by
  unfold mismatch
  split
  · exact ⟨_, rfl⟩
  · split_ifs
    · exact ⟨_, rfl⟩
    · exact ⟨_, rfl⟩
    · cases s.scalar _ with
      | error fault => exact ⟨fault, rfl⟩
      | ok p => exact ⟨_, rfl⟩

lemma text_reads : Reads (fun _ s => s.text) text? := by
  constructor
  intro j w rest s depth h hs he hd
  obtain ⟨b, body, hb, hbegins⟩ := h.begins
  obtain ⟨hrest, hpeek⟩ := peek_blanks (hs.trans hb)
  by_cases hq : b = 0x22
  · subst hq
    obtain ⟨t, rfl, hquoted⟩ := h.string hb
    obtain ⟨body', hb', hread⟩ := hquoted.reads
    simp only [text, hpeek, ↓reduceIte]
    exact hread (hrest.trans (hb.symm.trans hb'))
  · have hnone : text? j = none := by
      cases j with
      | str t => exact absurd hbegins hq
      | _ => rfl
    simp only [text, hpeek, hq, ↓reduceIte, hnone]
    exact mismatch_error _ _

lemma object_reads : Reads (fun depth s => s.object depth) members? := by
  constructor
  intro j w rest s depth h hs he hd
  obtain ⟨b, body, hb, hbegins⟩ := h.begins
  obtain ⟨hrest, hpeek⟩ := peek_blanks (hs.trans hb)
  by_cases ho : b = 0x7b
  · subst ho
    obtain ⟨members, rfl, hm, hn⟩ := h.object hb
    rw [nesting_ofMembers hn] at hd
    have hdeep : ¬ depth ≤ 1 := by omega
    have hfuel : 2 * body.length < s.blanks.fuel := by
      rw [fuel, hrest, List.length_cons]
      omega
    simp only [object, hpeek, hdeep, ↓reduceIte]
    exact Members.yields hm (next_of_cons hrest) (by omega) hfuel []
  · have hnone : members? j = none := by
      cases j with
      | obj members => exact absurd hbegins ho
      | _ => rfl
    simp only [object, hpeek, ho, ↓reduceIte, hnone]
    exact mismatch_error _ _

lemma optional_reads {read : ℕ → Scan → Except Fault (α × Scan)} {f : Json → Option α}
    (h : Reads read f) : Reads (fun depth s => s.optional (read depth)) (nullable f) := by
  constructor
  intro j w rest s depth hj hs he hd
  obtain ⟨b, body, hb, hbegins⟩ := hj.begins
  obtain ⟨hrest, hpeek⟩ := peek_blanks (hs.trans hb)
  by_cases hn : b = 0x6e
  · subst hn
    obtain ⟨rfl, rfl⟩ := hj.null hb
    simp only [optional, hpeek]
    exact (word_passes _ (next_of_cons hrest)).then fun t ht => ⟨t, rfl, ht⟩
  · have hsome : nullable f j = (f j).bind fun a => some (some a) := by
      rw [nullable_of_ne_null f, Option.map_eq_bind]
      · rfl
      · rintro rfl
        exact hn hbegins
    have hblanks : past s.blanks.rest = past w := by rw [blanks_rest, past_past, hs]
    have hne : (some b == some (0x6e : UInt8)) = false := by simpa using hn
    simp only [optional, hpeek, hne, hsome]
    exact (h.yields hj hblanks he hd).bind fun a t _ ht => ⟨t, rfl, ht⟩

lemma endList_error {b : UInt8} (hb : past s.rest = b :: body) (hne : b ≠ 0x5d) :
    ∃ fault, s.endList = .error fault := by
  obtain ⟨-, hpeek⟩ := peek_blanks hb
  simp only [endList, hpeek, hne, ↓reduceIte]
  by_cases hcomma : b = 0x2c
  · simp only [hcomma, ↓reduceIte]
    split_ifs <;> exact ⟨_, rfl⟩
  · simp only [hcomma, ↓reduceIte]
    exact ⟨_, rfl⟩

lemma endList_passes (hb : past s.rest = 0x5d :: rest) : Passes s.endList rest := by
  obtain ⟨hrest, hpeek⟩ := peek_blanks hb
  simp only [endList, hpeek]
  exact ⟨_, rfl, next_of_cons hrest⟩

end Scan

def Field.Takes (f : Field σ) (take : Json → σ → Option σ) : Prop :=
  ∀ a, Reads (fun depth s => f.read depth a s) (take · a)

namespace Record

open Scan

variable {r : Record σ} {take : String → Json → σ → Option σ}

def gather (r : Record σ) (take : String → Json → σ → Option σ) (a : σ) :
    List (String × Json) → Option σ
  | [] => (complete a r.fields).toOption
  | (key, j) :: more =>
    match r.fields.find? (·.name == key) with
    | none => r.gather take a more
    | some f => if f.filled a then none else (take key j a).bind (r.gather take · more)

def collect (take : String → Json → σ → Option σ) (a : σ) : List (Field σ) → List Json → Option σ
  | [], [] => some a
  | [], _ :: _ => none
  | f :: fields, j :: items => (take f.name j a).bind (collect take · fields items)
  | f :: fields, [] => f.short.bind fun store => collect take (store a) fields []

lemma find_field {fields : List (Field σ)} {key : String} {f : Field σ}
    (h : fields.find? (·.name == key) = some f) : f ∈ fields ∧ f.name = key := by
  have hname := List.find?_some h
  exact ⟨List.mem_of_find?_eq_some h, by simpa using hname⟩

lemma gather_unknown {key : String} (h : r.fields.find? (·.name == key) = none) (j : Json)
    (more : List (String × Json)) (a : σ) :
    r.gather take a ((key, j) :: more) = r.gather take a more := by
  rw [gather, h]

lemma gather_known {key : String} {f : Field σ} (h : r.fields.find? (·.name == key) = some f)
    {a : σ} (ha : f.filled a = false) (j : Json) (more : List (String × Json)) :
    r.gather take a ((key, j) :: more) = (take key j a).bind (r.gather take · more) := by
  rw [gather, h]
  simp [ha]

lemma named_yields (htake : ∀ f ∈ r.fields, f.Takes (take f.name))
    {members : List (String × Json)} {first : Bool} {w rest : List UInt8} {s : Scan}
    {depth fuel : ℕ} (h : Members first members w rest) (hs : s.rest = w)
    (hd : nestingMembers members < depth) (hf : w.length ≤ fuel) (a : σ) :
    Yields (r.named depth a s first fuel) (r.gather take a members) rest := by
  have hpos := h.length_lt
  obtain ⟨n, rfl⟩ := Nat.exists_eq_add_of_le' (show 1 ≤ fuel by omega)
  rw [named]
  induction members generalizing first w s n a with
  | nil =>
    cases h with
    | close hb =>
      refine (objectGoesOn_close (hs ▸ hb) first).then fun t ht => ?_
      simp only [gather]
      cases complete a r.fields with
      | ok a => exact ⟨_, rfl, next_of_cons ht⟩
      | error name => exact ⟨_, rfl⟩
  | cons m members ih =>
    cases h with
    | @member _ key j _ _ name behind value more _ hsep hq hc hv hm =>
      rw [nestingMembers] at hd
      have hvalue := hsep.member_length_lt hq hc
      have hmore := hv.length_lt
      have hlater := hm.length_lt
      obtain ⟨m, rfl⟩ := Nat.exists_eq_add_of_le' (show 1 ≤ n by omega)
      have hgo (t : Scan) (ht : t.rest = more) (a : σ) :
          Yields (r.named depth a t false (m + 1)) (r.gather take a members) rest := by
        rw [named]
        exact ih hm ht (by omega) a hlater m (by omega)
      obtain ⟨body, hb, hread⟩ := hq.reads
      refine (objectGoesOn_member (hs ▸ hsep) hb).then fun t ht => ?_
      refine (hread (ht.trans hb)).then fun t ht => ?_
      have hcolon : Passes t.colon value := colon_passes (ht.symm ▸ hc)
      simp only [gather]
      cases hfind : r.fields.find? (·.name == key) with
      | none =>
        refine hcolon.then fun t ht => ?_
        have hfuel : 2 * value.length ≤ t.fuel := by
          rw [fuel, ht]
          omega
        exact (hv.passes (congrArg past ht) hm.ends hfuel).then fun t ht => hgo t ht a
      | some f =>
        dsimp only
        split_ifs
        · exact ⟨_, rfl⟩
        · obtain ⟨hmem, rfl⟩ := find_field hfind
          refine hcolon.then fun t ht => ?_
          exact ((htake f hmem a).yields hv (congrArg past ht) hm.ends (by omega)).bind
            fun a t _ ht => hgo t ht a

lemma listed_yields {fields : List (Field σ)} (htake : ∀ f ∈ fields, f.Takes (take f.name))
    {items : List Json} {first : Bool} {n : ℕ} {w rest : List UInt8} {s : Scan} {depth : ℕ}
    (h : Items first items w rest) (hfirst : (n == 0) = first) (hs : s.rest = w)
    (hd : nestingItems items < depth) (a : σ) :
    Yields (r.listed depth a s n fields) (collect take a fields items) rest := by
  induction fields generalizing items first n w s a with
  | nil =>
    rw [listed]
    cases h with
    | close hb => exact (endList_passes (hs ▸ hb)).then fun t ht => ⟨t, rfl, ht⟩
    | item hsep hv hi =>
      obtain ⟨b, body, hb, hne⟩ := hsep.goes_on hv
      obtain ⟨fault, hfault⟩ := endList_error (hs ▸ hb) hne
      rw [hfault]
      exact ⟨fault, rfl⟩
  | cons f fields ih =>
    have hlater (f' : Field σ) (hf : f' ∈ fields) := htake f' (List.mem_cons_of_mem f hf)
    rw [listed, hfirst]
    cases h with
    | close hb =>
      refine (listGoesOn_close (hs ▸ hb) first).then fun t ht => ?_
      simp only [collect]
      cases f.short with
      | none => exact ⟨_, rfl⟩
      | some store =>
        exact ih hlater (.close (past_of_head (by decide))) hfirst ht hd (store a)
    | @item _ j items _ value more _ hsep hv hi =>
      rw [nestingItems] at hd
      obtain ⟨b, body, hb, hbegins⟩ := hv.begins
      refine (listGoesOn_item (hs ▸ hsep) hb hbegins.ne_bracket).then fun t ht => ?_
      have hpast : past t.rest = past value := (congrArg past ht).trans (past_past value)
      have hread : Yields (f.read depth a t) (take f.name j a) more :=
        (htake f List.mem_cons_self a).yields hv hpast hi.ends (by omega)
      have hnested : nestingItems items < depth := by omega
      exact hread.bind fun a t _ ht => ih hlater hi rfl ht hnested a

theorem read_reads {f : Json → Option σ} (htake : ∀ f ∈ r.fields, f.Takes (take f.name))
    (hobject : ∀ members, (members.map (·.1)).Nodup →
      r.gather take r.empty members = f (ofMembers members))
    (hlist : ∀ items, collect take r.empty r.fields items = f (.arr items))
    (hother : ∀ j, (∀ items, j ≠ .arr items) → (∀ members, j ≠ .obj members) → f j = none) :
    Reads r.read f := by
  constructor
  intro j w rest s depth h hs he hd
  obtain ⟨b, body, hb, hbegins⟩ := h.begins
  obtain ⟨hrest, hpeek⟩ := peek_blanks (hs.trans hb)
  by_cases hl : b = 0x5b
  · subst hl
    obtain ⟨items, rfl, hi⟩ := h.list hb
    rw [nesting] at hd
    have hdeep : ¬ depth ≤ 1 := by omega
    simp only [Record.read, hpeek, hdeep, ↓reduceIte, ← hlist]
    exact listed_yields htake hi rfl (next_of_cons hrest) (by omega) r.empty
  by_cases ho : b = 0x7b
  · subst ho
    obtain ⟨members, rfl, hm, hn⟩ := h.object hb
    rw [nesting_ofMembers hn] at hd
    have hdeep : ¬ depth ≤ 1 := by omega
    have hfuel : body.length ≤ s.blanks.fuel := by
      rw [fuel, hrest, List.length_cons]
      omega
    simp only [Record.read, hpeek, hl, hdeep, ↓reduceIte, ← hobject members hn]
    exact named_yields htake hm (next_of_cons hrest) (by omega) hfuel r.empty
  have hnone : f j = none := by
    apply hother
    · rintro items rfl
      exact hl hbegins
    · rintro members rfl
      exact ho hbegins
  simp only [Record.read, hpeek, hl, ho, ↓reduceIte, hnone]
  exact mismatch_error _ _

lemma readAll_document {f : Json → Option σ} (hr : Reads r.read f) {j : Json}
    {bytes : List UInt8} (h : Document j bytes) (hn : nesting j < levels) :
    (∀ a, f j = some a → r.readAll bytes = .ok a) ∧
      (f j = none → ∃ fault, r.readAll bytes = .error fault) := by
  obtain ⟨rest, ht, hrest⟩ := h
  have hends : Ends rest := ends_of_past (hrest.symm ▸ ends_nil)
  have hyields : Yields (r.read levels (start bytes)) (f j) rest := hr.yields ht rfl hends hn
  constructor
  · intro a ha
    rw [ha] at hyields
    obtain ⟨s, hread, hs⟩ := hyields
    rw [readAll, hread]
    exact finish_ok a (hs.symm ▸ hrest)
  · intro ha
    rw [ha] at hyields
    obtain ⟨fault, hread⟩ := hyields
    rw [readAll, hread]
    exact ⟨fault, rfl⟩

section Single

variable {f : Field σ} {a : σ} {members : List (String × Json)}

lemma gather_filled (hr : r.fields = [f]) (hn : f.name ∉ members.map (·.1))
    (ha : f.filled a = true) : r.gather take a members = some a := by
  induction members with
  | nil => simp [gather, hr, complete, ha, Except.toOption]
  | cons m members ih =>
    obtain ⟨key, j⟩ := m
    rw [List.map_cons, List.mem_cons, not_or] at hn
    have hfind : r.fields.find? (·.name == key) = none := by simpa [hr] using hn.1
    rw [gather_unknown hfind, ih hn.2]

lemma gather_single (hr : r.fields = [f])
    (hfills : ∀ j a b, take f.name j a = some b → f.filled b = true)
    (hn : (members.map (·.1)).Nodup) (ha : f.filled a = false) :
    r.gather take a members =
      match lookup f.name members with
      | some j => take f.name j a
      | none => f.missing.map (· a) := by
  induction members with
  | nil =>
    simp only [gather, hr, complete, ha, lookup, List.find?_nil, Option.map_none]
    cases f.missing <;> rfl
  | cons m members ih =>
    obtain ⟨key, j⟩ := m
    rw [List.map_cons, List.nodup_cons] at hn
    by_cases hk : f.name = key
    · subst hk
      have hfind : r.fields.find? (·.name == f.name) = some f := by simp [hr]
      rw [gather_known hfind ha, lookup_cons_self]
      cases hj : take f.name j a with
      | none => exact hj.symm
      | some b => exact (gather_filled hr hn.1 (hfills j a b hj)).trans hj.symm
    · have hfind : r.fields.find? (·.name == key) = none := by simpa [hr] using hk
      rw [gather_unknown hfind, lookup_cons_of_ne (Ne.symm hk), ih hn.2]

lemma collect_single (items : List Json) : collect take a [f] items =
    match items with
    | [] => f.short.map (· a)
    | [j] => take f.name j a
    | _ :: _ :: _ => none := by
  match items with
  | [] =>
    rw [collect]
    cases f.short <;> rfl
  | [j] => cases hj : take f.name j a <;> simp [collect, hj]
  | j :: _ :: _ => cases hj : take f.name j a <;> simp [collect, hj]

end Single

end Record

end LedgerQuery.Json
