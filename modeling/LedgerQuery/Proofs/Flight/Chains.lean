import LedgerQuery.Proofs.Drain.Chain
import LedgerQuery.Proofs.Flight.Bulk

/-! Queries over many chunks whose server has laid out a chain of pages for each of them. How the
keys are cut, how the items are spread over pages and in which order the turns come makes no
difference to what is delivered, up to the order of the items. -/

namespace LedgerQuery

namespace Flight

open Drain Coordinator

variable {κ τ ν : Type}

def Lays (book : Chunk κ → List (Page τ)) : Call κ τ → Answer τ ν → Prop
  | .page c p, answer => ∃ page, (book c)[p.pages]? = some page ∧ answer = .page (.ok page)
  | _, _ => False

structure Brings (r : Rules τ) (g : κ → List τ) (book : Chunk κ → List (Page τ))
    (c : Chunk κ) : Prop where
  chain : Chain r (book c)
  items : (book c).flatMap Page.items = c.keys.flatMap g
  accepted : r.validate (c.keys.flatMap g) = .ok ()

/-- No run goes on for ever, and none gets stuck before nothing is left. -/
def Completes (admits : Call κ τ → Answer τ ν → Prop) (l : Launch κ τ) : Prop :=
  ∃ most, ∀ (turns : List (Turn κ τ ν)) (s : Flight κ τ), Run admits l.flight turns s →
    turns.length ≤ most ∧
      (¬ s.Idle → ∃ (turn : Turn κ τ ν) (t : Flight κ τ), Step admits s turn t)

lemma lays_answersPages (book : Chunk κ → List (Page τ)) :
    AnswersPages (Lays book : Call κ τ → Answer τ ν → Prop) := by
  rintro c p answer ⟨page, -, rfl⟩
  exact ⟨_, rfl⟩

section Answers

variable {r : Rules τ} {chunks : List (Chunk κ)} {turns : List (Turn κ τ ν)}
  {turn : Turn κ τ ν} {s t : Flight κ τ} {book : Chunk κ → List (Page τ)} {g : κ → List τ}

def Served (book : Chunk κ → List (Page τ)) (chunks : List (Chunk κ))
    (turns : List (Turn κ τ ν)) : Prop :=
  ∀ c ∈ chunks, answersOf turns c.index <+: (book c).map .ok

lemma snoc_prefix {α : Type} {xs ys : List α} {x : α} (h : xs <+: ys)
    (hx : ys[xs.length]? = some x) : xs ++ [x] <+: ys := by
  have htake : xs ++ [x] = ys.take (xs.length + 1) := by
    rw [List.take_add_one, hx, ← List.prefix_iff_eq_take.mp h]
    rfl
  rw [htake]
  exact List.take_prefix _ ys

lemma Served.begin (h : Served book chunks turns) (call : Call κ τ) :
    Served book chunks (turns ++ [.begun call]) := by
  intro c hc
  by_cases hi : (Turn.begun call : Turn κ τ ν).chunk? = some c.index
  · rw [answersOf_snoc hi]
    simpa [Turn.page?] using h c hc
  · rw [answersOf_snoc_of_ne hi]
    exact h c hc

lemma Served.step (h : Served book chunks turns) (hd : Draining r chunks turns s)
    (hn : (chunks.map (·.index)).Nodup) (hs : Step (Lays book) s turn t) :
    Served book chunks (turns ++ [turn]) := by
  cases hs with
  | begin _ => exact h.begin _
  | @answer call rest answer hcalls hlays =>
    obtain ⟨c₀, hc₀, hcall⟩ := hd.call_chunk call (by simp [hcalls])
    obtain ⟨answers, rfl, hcourse, -⟩ := (hd.course c₀ hc₀).asked hcalls hcall
    obtain ⟨page, hpage, rfl⟩ := hlays
    have hanswers : answersOf turns c₀.index = answers := hcourse.pages
    intro c hc
    by_cases hi : c.index = c₀.index
    · obtain rfl := eq_of_index hn hc hc₀ hi
      have hnext : ((book c).map Except.ok : List (Outcome (Page τ)))[
          (answersOf turns c.index).length]? = some (.ok page) := by
        have hown : (book c)[answers.length]? = some page := hpage
        rw [hanswers, List.getElem?_map, hown]
        rfl
      rw [answersOf_snoc rfl]
      exact snoc_prefix (h c hc) hnext
    · have hother : (Turn.answered (.page c₀ (gathered answers)) (.page (.ok page))
          (s.query.receive (.page c₀ (gathered answers)) (.page (.ok page))).2 :
            Turn κ τ ν).chunk? ≠ some c.index := by
        intro he
        exact hi (Option.some.inj he).symm
      rw [answersOf_snoc_of_ne hother]
      exact h c hc

lemma Served.goes_on (h : Served book chunks turns) (hd : Draining r chunks turns s)
    (hb : ∀ c ∈ chunks, Brings r g book c) (hs : ¬ s.Idle) :
    ∃ (turn : Turn κ τ ν) (t : Flight κ τ), Step (Lays book) s turn t := by
  rcases s.tasks.empty_or_exists_mem with htasks | ⟨task, htask⟩
  · rcases s.calls.empty_or_exists_mem with hcalls | ⟨call, hcall⟩
    · exact absurd ⟨htasks, hcalls⟩ hs
    · obtain ⟨rest, hrest⟩ := Multiset.exists_cons_of_mem hcall
      obtain ⟨c, hc, hchunk⟩ := hd.call_chunk call hcall
      obtain ⟨answers, rfl, hcourse, -⟩ := (hd.course c hc).asked hrest hchunk
      -- The last page of a chain ends its chunk, so a chunk that still asks has pages to come.
      have hprefix := h c hc
      rw [show answersOf turns c.index = answers from hcourse.pages] at hprefix
      have hlt : answers.length < (book c).length :=
        (hb c hc).chain.length_lt hprefix (hcourse.followed (by simp))
      have hlays : Lays book (.page c (gathered answers))
          (.page (.ok (book c)[answers.length]) : Answer τ ν) :=
        ⟨_, List.getElem?_eq_getElem hlt, rfl⟩
      exact ⟨_, _, .answer hrest hlays⟩
  · obtain ⟨rest, hrest⟩ := Multiset.exists_cons_of_mem htask
    exact ⟨_, _, .begin hrest⟩

lemma Served.report (h : Served book chunks turns) (hd : Draining r chunks turns s)
    (hb : ∀ c ∈ chunks, Brings r g book c) (hs : s.Idle) {signal : Signal τ}
    (hsig : signal ∈ reports r turns) :
    ∃ c ∈ chunks, signal = .completed c.index (c.keys.flatMap g) := by
  obtain ⟨c, hc, hi⟩ := hd.report_chunk hsig
  obtain ⟨o, ho, hsignal⟩ := hd.report_eq hs hsig
  obtain ⟨hchain, hitems, haccepted⟩ := hb c hc
  rw [hi] at ho hsignal
  rw [hchain.comesTo_eq (hitems ▸ haccepted) (h c hc) ho, hitems] at hsignal
  exact ⟨c, hc, hsignal⟩

end Answers

section Transparency

variable {g : κ → List τ} {r : Rules τ} {label : String} {keys : List κ} {size : ℕ}
  {book : Chunk κ → List (Page τ)} {chunks : List (Chunk κ)} {turns : List (Turn κ τ ν)}
  {s : Flight κ τ}

lemma items_perm (hp : Chunk.partition keys size = .ok chunks)
    (hperm : ((reports r turns).map Signal.index).Perm (chunks.map (·.index)))
    (hreport : ∀ signal ∈ reports r turns,
      ∃ c ∈ chunks, signal = .completed c.index (c.keys.flatMap g)) :
    ((reports r turns).flatMap Signal.items).Perm (keys.flatMap g) := by
  let own : Chunk κ → List τ := fun c => c.keys.flatMap g
  have hown : ∀ signal ∈ reports r turns,
      ∃ c ∈ chunks, signal.index = c.index ∧ signal.items = own c := by
    intro signal hsig
    obtain ⟨c, hc, rfl⟩ := hreport signal hsig
    exact ⟨c, hc, rfl, rfl⟩
  obtain ⟨order, horder, hitems⟩ := items_in_order hp hperm hown
  have hkeys : chunks.flatMap own = keys.flatMap g := by
    obtain ⟨-, -, rfl⟩ := Chunk.partition_eq_ok.mp hp
    calc (Chunk.cut size 0 keys).flatMap own
        = ((Chunk.cut size 0 keys).flatMap (·.keys)).flatMap g := List.flatMap_assoc.symm
      _ = keys.flatMap g := by rw [Chunk.cut_keys]
  rw [hitems, ← hkeys]
  exact horder.flatMap_right own

lemma served_run (hd₀ : Draining r chunks ([] : List (Turn κ τ ν)) s)
    (hn : (chunks.map (·.index)).Nodup) {t : Flight κ τ} (hr : Run (Lays book) s turns t) :
    Served book chunks turns := by
  induction hr with
  | nil =>
    intro c _
    exact List.nil_prefix
  | snoc hr hs ih => exact ih.step (hd₀.run (lays_answersPages book) hn hr) hn hs

lemma laid_completes {l : Launch κ τ} (hd₀ : Draining r chunks ([] : List (Turn κ τ ν)) l.flight)
    (hn : (chunks.map (·.index)).Nodup) (hb : ∀ c ∈ chunks, Brings r g book c) :
    Completes (Lays book : Call κ τ → Answer τ ν → Prop) l := by
  refine ⟨chunks.length * (2 * r.ceiling), fun turns s hr => ?_⟩
  have hd := hd₀.run (lays_answersPages book) hn hr
  refine ⟨hd.length_le, fun hs => ?_⟩
  exact (served_run hd₀ hn hr).goes_on hd hb hs

lemma laid_delivers (label : String) (hk : keys ≠ []) (hsize : 1 ≤ size)
    (hb : ∀ chunks, Chunk.partition keys size = .ok chunks → ∀ c ∈ chunks, Brings r g book c) :
    ∃ l, Launch.chunked label keys size r = .ok l ∧
      Completes (Lays book : Call κ τ → Answer τ ν → Prop) l ∧
      ∀ (turns : List (Turn κ τ ν)) (s : Flight κ τ), Run (Lays book) l.flight turns s →
        s.Idle → ∃ xs, deliveries turns = [.ok (.items xs)] ∧ xs.Perm (keys.flatMap g) := by
  have hp : Chunk.partition keys size = .ok _ := Chunk.partition_eq_ok.mpr ⟨hk, hsize, rfl⟩
  have hl : Launch.chunked label keys size r = .ok _ := chunked_eq_ok.mpr ⟨_, hp, rfl⟩
  obtain ⟨chunks, hp', hn, hd₀, hc₀⟩ := chunked_flight (ν := ν) hl
  obtain rfl := Except.ok.inj (hp.symm.trans hp')
  refine ⟨_, hl, laid_completes hd₀ hn (hb _ hp), fun turns s hr hs => ?_⟩
  obtain ⟨hd, hc⟩ := chunked_run hd₀ hc₀ hn (lays_answersPages book) hr
  have hreport : ∀ signal ∈ reports r turns, ∃ c ∈ Chunk.cut size 0 keys,
      signal = .completed c.index (c.keys.flatMap g) := by
    intro signal hsig
    exact (served_run hd₀ hn hr).report hd (hb _ hp) hs hsig
  have hfine : ∀ signal ∈ reports r turns, signal.error? = none := by
    intro signal hsig
    obtain ⟨c, -, rfl⟩ := hreport signal hsig
    rfl
  have hperm := hd.reports_perm hs hn
  have hdelivered := hc.completes (Chunk.partition_ne_nil hp) hn hperm hfine
  exact ⟨_, hdelivered, items_perm hp hperm hreport⟩

theorem bulk_independent_of_chunking (label : String) {keys : List κ} (hk : keys ≠ [])
    {size size' : ℕ} (hsize : 1 ≤ size) (hsize' : 1 ≤ size')
    {book book' : Chunk κ → List (Page τ)}
    (hb : ∀ chunks, Chunk.partition keys size = .ok chunks → ∀ c ∈ chunks, Brings r g book c)
    (hb' : ∀ chunks, Chunk.partition keys size' = .ok chunks →
      ∀ c ∈ chunks, Brings r g book' c) :
    ∃ l l' : Launch κ τ, Launch.chunked label keys size r = .ok l ∧
      Launch.chunked label keys size' r = .ok l' ∧
      Completes (Lays book : Call κ τ → Answer τ ν → Prop) l ∧
      Completes (Lays book' : Call κ τ → Answer τ ν → Prop) l' ∧
      ∀ (turns turns' : List (Turn κ τ ν)) (s s' : Flight κ τ),
        Run (Lays book) l.flight turns s → s.Idle →
        Run (Lays book') l'.flight turns' s' → s'.Idle →
        ∃ xs xs', deliveries turns = [.ok (.items xs)] ∧ deliveries turns' = [.ok (.items xs')] ∧
          xs.Perm xs' ∧ xs.Perm (keys.flatMap g) := by
  obtain ⟨l, hl, hcompletes, hall⟩ := laid_delivers (ν := ν) label hk hsize hb
  obtain ⟨l', hl', hcompletes', hall'⟩ := laid_delivers (ν := ν) label hk hsize' hb'
  refine ⟨l, l', hl, hl', hcompletes, hcompletes', fun turns turns' s s' hr hs hr' hs' => ?_⟩
  obtain ⟨xs, hxs, hperm⟩ := hall turns s hr hs
  obtain ⟨xs', hxs', hperm'⟩ := hall' turns' s' hr' hs'
  exact ⟨xs, xs', hxs, hxs', hperm.trans hperm'.symm, hperm⟩

end Transparency

theorem bulk_independent_of_chunking_cut_twice :
    ∃ (r : Rules ℕ) (book book' : Chunk ℕ → List (Page ℕ)) (l l' : Launch ℕ ℕ)
      (turns turns' : List (Turn ℕ ℕ Unit)) (s s' : Flight ℕ ℕ) (xs xs' : List ℕ),
      Launch.chunked "bulk" [5, 6, 5] 2 r = .ok l ∧ Launch.chunked "bulk" [5, 6, 5] 3 r = .ok l' ∧
      Run (Lays book) l.flight turns s ∧ s.Idle ∧ Run (Lays book') l'.flight turns' s' ∧ s'.Idle ∧
      deliveries turns = [.ok (.items xs)] ∧ deliveries turns' = [.ok (.items xs')] ∧
      xs.Perm xs' ∧ xs.Perm ([5, 6, 5].flatMap fun k => [k, k]) ∧
      xs = [5, 5, 5, 5, 6, 6] ∧ xs' = [5, 5, 6, 6, 5, 5] := by
  let r : Rules ℕ :=
    ⟨2, fun items => if items = [] then .error (.protocol "nothing found") else .ok ()⟩
  let g : ℕ → List ℕ := fun k => [k, k]
  let book : Chunk ℕ → List (Page ℕ) := fun c => [.last (c.keys.flatMap g)]
  let book' : Chunk ℕ → List (Page ℕ) := fun c =>
    [.withNext ((c.keys.flatMap g).take 1) "rest", .last ((c.keys.flatMap g).drop 1)]
  let c₀ : Chunk ℕ := ⟨0, [5, 6]⟩
  let c₁ : Chunk ℕ := ⟨1, [5]⟩
  let d : Chunk ℕ := ⟨0, [5, 6, 5]⟩
  let first : Page ℕ := .withNext [5] "rest"
  have hp : Chunk.partition [5, 6, 5] 2 = .ok [c₀, c₁] := by
    simp [Chunk.partition, Chunk.cut, c₀, c₁]
  have hp' : Chunk.partition [5, 6, 5] 3 = .ok [d] := by simp [Chunk.partition, Chunk.cut, d]
  have hb : ∀ chunks, Chunk.partition [5, 6, 5] 2 = .ok chunks →
      ∀ c ∈ chunks, Brings r g book c := by
    intro chunks h c hc
    obtain rfl := Except.ok.inj (hp.symm.trans h)
    have hshort : (book c).length ≤ r.ceiling := show 1 ≤ max 2 1 by decide
    have hchain : Chain r (book c) := ⟨⟨[], _, rfl, rfl, by simp⟩, List.nodup_nil, hshort⟩
    rcases List.mem_pair.mp hc with rfl | rfl
    · exact ⟨hchain, rfl, rfl⟩
    · exact ⟨hchain, rfl, rfl⟩
  have hb' : ∀ chunks, Chunk.partition [5, 6, 5] 3 = .ok chunks →
      ∀ c ∈ chunks, Brings r g book' c := by
    intro chunks h c hc
    obtain rfl := Except.ok.inj (hp'.symm.trans h)
    obtain rfl := List.mem_singleton.mp hc
    have hchain : Chain r (book' d) :=
      ⟨⟨[first], _, rfl, rfl, by simp [first, Page.withNext]⟩, by decide, by decide⟩
    exact ⟨hchain, rfl, rfl⟩
  obtain ⟨l, l', hl, hl', -, -, hall⟩ :=
    bulk_independent_of_chunking (ν := Unit) "bulk" (List.cons_ne_nil 5 [6, 5]) (by decide)
      (by decide) hb hb'
  obtain rfl := Except.ok.inj (hl.symm.trans (chunked_eq_ok.mpr ⟨_, hp, rfl⟩))
  obtain rfl := Except.ok.inj (hl'.symm.trans (chunked_eq_ok.mpr ⟨_, hp', rfl⟩))
  have h₀ : Run (Lays book) _ ([] : List (Turn ℕ ℕ Unit)) (launching "bulk" 2 r [c₀, c₁]).flight :=
    .nil
  have h₁ := h₀.begin (.page c₀ {}) {.page c₁ {}} rfl
  have h₂ := h₁.begin (.page c₁ {}) 0 rfl
  have h₃ := h₂.answer (.page c₁ {}) {.page c₀ {}} (.page (.ok (.last [5, 5]))) rfl ⟨_, rfl, rfl⟩
  have h₄ := h₃.answer (.page c₀ {}) 0 (.page (.ok (.last [5, 5, 6, 6]))) rfl ⟨_, rfl, rfl⟩
  have k₀ : Run (Lays book') _ ([] : List (Turn ℕ ℕ Unit)) (launching "bulk" 3 r [d]).flight := .nil
  have k₁ := k₀.begin (.page d {}) 0 rfl
  have k₂ := k₁.answer (.page d {}) 0 (.page (.ok first)) rfl ⟨_, rfl, rfl⟩
  have k₃ := k₂.begin (.page d (gathered [.ok first])) 0 rfl
  have k₄ := k₃.answer (.page d (gathered [.ok first])) 0 (.page (.ok (.last [5, 6, 6, 5, 5]))) rfl
    ⟨_, rfl, rfl⟩
  obtain ⟨xs, xs', hxs, hxs', hperm, hkeys⟩ := hall _ _ _ _ h₄ ⟨rfl, rfl⟩ k₄ ⟨rfl, rfl⟩
  have hxs₀ : xs = [5, 5, 5, 5, 6, 6] := by
    have h := hxs.symm.trans (show _ = [.ok (.items [5, 5, 5, 5, 6, 6])] from rfl)
    simpa using h
  have hxs₁ : xs' = [5, 5, 6, 6, 5, 5] := by
    have h := hxs'.symm.trans (show _ = [.ok (.items [5, 5, 6, 6, 5, 5])] from rfl)
    simpa using h
  exact ⟨r, book, book', _, _, _, _, _, _, xs, xs', hl, hl', h₄, ⟨rfl, rfl⟩, k₄, ⟨rfl, rfl⟩, hxs,
    hxs', hperm, hkeys, hxs₀, hxs₁⟩

end Flight

end LedgerQuery
