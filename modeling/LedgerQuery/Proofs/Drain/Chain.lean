import LedgerQuery.Proofs.Drain.Answers

/-! Chains of pages that a drain follows to their end. Every page but the last one has items and a
cursor of its own, so nothing stops a drain before the end. -/

namespace LedgerQuery

namespace Drain

variable {τ : Type} {r : Rules τ} {pages : List (Page τ)} {answers : List (Outcome (Page τ))}

structure Chain (r : Rules τ) (pages : List (Page τ)) : Prop where
  linked : ∃ front last, pages = front ++ [last] ∧ last.next = none ∧
    ∀ page ∈ front, page.next.isSome ∧ page.items ≠ []
  distinct : (pages.filterMap Page.next).Nodup
  short : pages.length ≤ r.ceiling

lemma cursors_map_ok (pages : List (Page τ)) :
    cursors (pages.map .ok) = pages.filterMap Page.next := by
  rw [cursors, List.filterMap_map]
  rfl

lemma items_map_ok (pages : List (Page τ)) :
    (pages.map .ok).flatMap itemsOf = pages.flatMap Page.items := by
  rw [List.flatMap_map]
  rfl

lemma Chain.not_stops {before after : List (Page τ)} {page : Page τ}
    (h : Chain r (before ++ page :: after)) (ha : after ≠ []) :
    ¬ Stops r (before.map .ok) (.ok page) := by
  obtain ⟨front, last, hsplit, -, hlinked⟩ := h.linked
  obtain ⟨rest, x, rfl⟩ := List.eq_nil_or_concat' after |>.resolve_left ha
  rw [← List.cons_append, ← List.append_assoc] at hsplit
  obtain ⟨rfl, -⟩ := List.append_inj' hsplit rfl
  obtain ⟨hnext, hitems⟩ := hlinked page (by simp)
  intro hstop
  cases hstop with
  | last hn => simp [hn] at hnext
  | empty _ he => exact hitems he
  | ceiling hc =>
    have hshort := h.short
    simp only [List.length_append, List.length_cons, List.length_map] at hshort hc
    omega
  | repeated hn hc =>
    -- the cursor would occur twice in the chain
    rw [cursors_map_ok] at hc
    have hdistinct := h.distinct
    rw [List.filterMap_append, List.filterMap_cons_some hn, List.nodup_append] at hdistinct
    exact hdistinct.2.2 _ hc _ (List.mem_cons_self) rfl

lemma Chain.length_lt (h : Chain r pages) (hp : answers <+: pages.map .ok)
    (hf : Followed r answers) : answers.length < pages.length := by
  by_contra hle
  have hlen : (pages.map Except.ok : List (Outcome (Page τ))).length ≤ answers.length := by
    rw [List.length_map]
    exact not_lt.mp hle
  obtain rfl := hp.eq_of_length_le hlen
  obtain ⟨front, last, rfl, hlast, -⟩ := h.linked
  rw [List.map_append, List.map_singleton] at hf
  exact (followed_snoc.mp hf).2 (.last hlast)

lemma Chain.comesTo_eq (h : Chain r pages)
    (hv : r.validate (pages.flatMap Page.items) = .ok ()) (hp : answers <+: pages.map .ok)
    {o : Outcome (List τ)} (ho : ComesTo r answers o) : o = .ok (pages.flatMap Page.items) := by
  obtain ⟨earlier, a, rfl, -, hstop, rfl⟩ := ho
  obtain ⟨rest, hrest⟩ := hp
  rw [List.append_assoc, List.singleton_append, eq_comm] at hrest
  obtain ⟨before, tail, rfl, rfl, htail⟩ := List.map_eq_append_iff.mp hrest
  obtain ⟨page, after, rfl, rfl, -⟩ := List.map_eq_cons_iff.mp htail
  have hafter : after = [] := by
    by_contra ha
    exact h.not_stops ha hstop
  subst hafter
  obtain ⟨front, last, hsplit, hlast, -⟩ := h.linked
  obtain ⟨rfl, hpage⟩ := List.append_inj' hsplit rfl
  obtain rfl : page = last := List.singleton_inj.mp hpage
  have hall : (before.map .ok).flatMap itemsOf ++ page.items =
      (before ++ [page]).flatMap Page.items := by
    rw [items_map_ok, List.flatMap_append, List.flatMap_singleton]
  simp only [verdict, hlast, hall, hv]
  rfl

end Drain

end LedgerQuery
