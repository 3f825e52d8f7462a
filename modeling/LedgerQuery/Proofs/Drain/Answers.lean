import LedgerQuery.Drain
import Mathlib.Tactic

/-! A drain as a function of the answers it has got: what it has gathered after answers that it
followed, which answer is its last, and what it comes to with that one. -/

namespace LedgerQuery

namespace Drain

variable {τ : Type}

def itemsOf : Outcome (Page τ) → List τ
  | .ok page => page.items
  | .error _ => []

def cursorOf : Outcome (Page τ) → Option Cursor
  | .ok page => page.next
  | .error _ => none

def cursors (answers : List (Outcome (Page τ))) : List Cursor := answers.filterMap cursorOf

def gathered (answers : List (Outcome (Page τ))) : Progress τ where
  items := answers.flatMap itemsOf
  pages := answers.length
  cursor := answers.getLast?.bind cursorOf
  seen := (cursors answers).reverse

inductive Stops (r : Rules τ) (earlier : List (Outcome (Page τ))) : Outcome (Page τ) → Prop
  | failed (e : QueryError) : Stops r earlier (.error e)
  | last {page : Page τ} : page.next = none → Stops r earlier (.ok page)
  | repeated {page : Page τ} {c : Cursor} : page.next = some c → c ∈ cursors earlier →
      Stops r earlier (.ok page)
  | empty {page : Page τ} {c : Cursor} : page.next = some c → page.items = [] →
      Stops r earlier (.ok page)
  | ceiling {answer : Outcome (Page τ)} : r.ceiling ≤ earlier.length + 1 → Stops r earlier answer

def verdict (r : Rules τ) (earlier : List (Outcome (Page τ))) : Outcome (Page τ) → Outcome (List τ)
  | .error e => .error e
  | .ok page =>
    match page.next with
    | none =>
      let items := earlier.flatMap itemsOf ++ page.items
      (r.validate items).map fun _ => items
    | some c =>
      .error (.protocol (
        if c ∈ cursors earlier then "cursor '" ++ c.token ++ "' was already followed"
        else if page.items = [] then "empty page carried cursor '" ++ c.token ++ "'"
        else "chunk exceeded " ++ toString r.ceiling ++ " pages"))

def Followed (r : Rules τ) (answers : List (Outcome (Page τ))) : Prop :=
  ∀ before a after, answers = before ++ a :: after → ¬ Stops r before a

/-- With the last of these answers, and not before, a drain ends in this outcome. -/
def ComesTo (r : Rules τ) (answers : List (Outcome (Page τ))) (outcome : Outcome (List τ)) : Prop :=
  ∃ earlier a, answers = earlier ++ [a] ∧ Followed r earlier ∧ Stops r earlier a ∧
    outcome = verdict r earlier a

lemma cursors_snoc {page : Page τ} {c : Cursor} (h : page.next = some c)
    (answers : List (Outcome (Page τ))) :
    cursors (answers ++ [.ok page]) = cursors answers ++ [c] := by
  simp [cursors, cursorOf, h]

@[simp] lemma gathered_nil : gathered ([] : List (Outcome (Page τ))) = {} := rfl

lemma gathered_snoc {page : Page τ} {c : Cursor} (h : page.next = some c)
    (answers : List (Outcome (Page τ))) :
    gathered (answers ++ [.ok page]) =
      ⟨(gathered answers).items ++ page.items, answers.length + 1, some c,
        c :: (gathered answers).seen⟩ := by
  simp [gathered, cursors_snoc h, itemsOf, cursorOf, h]

lemma close_eq (r : Rules τ) (items : List τ) :
    close r items = (r.validate items).map fun _ => items := by
  unfold close
  cases r.validate items with
  | ok u => rfl
  | error e => rfl

lemma objection_eq_none {r : Rules τ} {earlier : List (Outcome (Page τ))} {page : Page τ}
    {c : Cursor} (hn : page.next = some c) (h : ¬ Stops r earlier (.ok page)) :
    objection r (gathered earlier).seen ((gathered earlier).pages + 1) page.items.isEmpty c =
      none := by
  have hs : c ∉ (gathered earlier).seen := by
    simpa [gathered] using fun hc => h (.repeated hn hc)
  have he : page.items.isEmpty = false := by
    simpa using fun hp => h (.empty hn hp)
  have hm : ¬ r.ceiling ≤ (gathered earlier).pages + 1 := fun hc => h (.ceiling hc)
  simp only [objection, if_neg hs, he, Bool.false_eq_true, if_false, if_neg hm]

lemma objection_eq_some {r : Rules τ} {earlier : List (Outcome (Page τ))} {page : Page τ}
    {c : Cursor} (hn : page.next = some c) (h : Stops r earlier (.ok page)) :
    (objection r (gathered earlier).seen ((gathered earlier).pages + 1) page.items.isEmpty c).map
      .error = some (verdict r earlier (.ok page)) := by
  by_cases hs : c ∈ cursors earlier
  · simp [objection, gathered, verdict, hn, hs]
  by_cases he : page.items = []
  · simp [objection, gathered, verdict, hn, hs, he]
  have hm : r.ceiling ≤ earlier.length + 1 := by
    cases h with
    | last hl => simp [hn] at hl
    | repeated hr hc =>
      obtain rfl := Option.some.inj (hn.symm.trans hr)
      exact absurd hc hs
    | empty _ hp => exact absurd hp he
    | ceiling hc => exact hc
  simp [objection, gathered, verdict, hn, hs, he, hm]

lemma exists_next_of_not_stops {r : Rules τ} {earlier : List (Outcome (Page τ))}
    {answer : Outcome (Page τ)} (h : ¬ Stops r earlier answer) :
    ∃ page c, answer = .ok page ∧ page.next = some c := by
  cases answer with
  | error e => exact absurd (.failed e) h
  | ok page =>
    cases hn : page.next with
    | none => exact absurd (.last hn) h
    | some c => exact ⟨page, c, rfl, hn⟩

lemma receive_of_not_stops {r : Rules τ} {earlier : List (Outcome (Page τ))}
    {answer : Outcome (Page τ)} (h : ¬ Stops r earlier answer) (index : ℕ) :
    (receive r index (gathered earlier) answer).1 = .follow (gathered (earlier ++ [answer])) := by
  obtain ⟨page, c, rfl, hn⟩ := exists_next_of_not_stops h
  have ho := objection_eq_none hn h
  simp only [receive, hn, ho, gathered_snoc hn]
  rfl

lemma receive_of_stops {r : Rules τ} {earlier : List (Outcome (Page τ))}
    {answer : Outcome (Page τ)} (h : Stops r earlier answer) (index : ℕ) :
    (receive r index (gathered earlier) answer).1 = .finished (verdict r earlier answer) := by
  cases answer with
  | error e => rfl
  | ok page =>
    cases hn : page.next with
    | none => simp [receive, verdict, hn, close_eq, gathered]
    | some c =>
      obtain ⟨e, ho, hv⟩ := Option.map_eq_some_iff.mp (objection_eq_some hn h)
      simp only [receive, hn, ho, hv]

@[simp] lemma followed_nil (r : Rules τ) : Followed r ([] : List (Outcome (Page τ))) := by
  intro before a after h
  simp at h

lemma followed_snoc {r : Rules τ} {answers : List (Outcome (Page τ))} {a : Outcome (Page τ)} :
    Followed r (answers ++ [a]) ↔ Followed r answers ∧ ¬ Stops r answers a := by
  constructor
  · intro h
    exact ⟨fun before b after hb => h before b (after ++ [a]) (by simp [hb]), h answers a [] rfl⟩
  · rintro ⟨h, ha⟩ before b after hb
    rcases List.eq_nil_or_concat' after with rfl | ⟨after, c, rfl⟩
    · obtain ⟨rfl, hab⟩ := List.append_inj' hb rfl
      cases hab
      exact ha
    · rw [← List.cons_append, ← List.append_assoc] at hb
      exact h before b after (List.append_inj' hb rfl).1

lemma Followed.not_comesTo {r : Rules τ} {answers : List (Outcome (Page τ))}
    {o : Outcome (List τ)} (h : Followed r answers) : ¬ ComesTo r answers o := by
  rintro ⟨earlier, a, rfl, -, hstop, -⟩
  exact (followed_snoc.mp h).2 hstop

lemma ComesTo.unique {r : Rules τ} {answers : List (Outcome (Page τ))}
    {o o' : Outcome (List τ)} (h : ComesTo r answers o) (h' : ComesTo r answers o') : o = o' := by
  obtain ⟨earlier, a, rfl, -, -, rfl⟩ := h
  obtain ⟨earlier', a', hsplit, -, -, rfl⟩ := h'
  obtain ⟨rfl, ha⟩ := List.append_inj' hsplit rfl
  rw [List.singleton_inj.mp ha]

lemma Followed.prior {r : Rules τ} {answers more : List (Outcome (Page τ))}
    (h : Followed r (answers ++ more)) : Followed r answers := by
  intro before a after hsplit
  apply h before a (after ++ more)
  rw [hsplit, List.append_assoc, List.cons_append]

lemma ComesTo.no_more {r : Rules τ} {answers more : List (Outcome (Page τ))}
    {o o' : Outcome (List τ)} (h : ComesTo r answers o) (h' : ComesTo r (answers ++ more) o') :
    more = [] := by
  rcases List.eq_nil_or_concat' more with rfl | ⟨more, b, rfl⟩
  · rfl
  obtain ⟨earlier, a, hsplit, hf, -, -⟩ := h'
  rw [← List.append_assoc] at hsplit
  obtain ⟨rfl, -⟩ := List.append_inj' hsplit rfl
  exact absurd h hf.prior.not_comesTo

lemma prefix_of_agree {α : Type} {xs ys : List α} (hl : xs.length ≤ ys.length)
    (h : ∀ (k : ℕ) (x y : α), xs[k]? = some x → ys[k]? = some y → x = y) : xs <+: ys := by
  apply List.prefix_iff_getElem?.mpr
  intro k hk
  have hy : ys[k]? = some ys[k] := List.getElem?_eq_getElem (hk.trans_le hl)
  rw [h k xs[k] ys[k] (List.getElem?_eq_getElem hk) hy, hy]

lemma ComesTo.same {r : Rules τ} {answers answers' : List (Outcome (Page τ))}
    {o o' : Outcome (List τ)} (h : ComesTo r answers o) (h' : ComesTo r answers' o')
    (hsame : ∀ (k : ℕ) (a a' : Outcome (Page τ)), answers[k]? = some a → answers'[k]? = some a' →
      a = a') : answers = answers' := by
  rcases Nat.le_total answers.length answers'.length with hl | hl
  · obtain ⟨more, rfl⟩ := prefix_of_agree hl hsame
    rw [h.no_more h', List.append_nil]
  · obtain ⟨more, rfl⟩ := prefix_of_agree hl fun k a a' ha ha' => (hsame k a' a ha' ha).symm
    rw [h'.no_more h, List.append_nil]

lemma Followed.length_lt {r : Rules τ} {answers : List (Outcome (Page τ))}
    (h : Followed r answers) : answers.length < r.ceiling := by
  rcases List.eq_nil_or_concat' answers with rfl | ⟨earlier, a, rfl⟩
  · simp [Rules.ceiling]
  · have hc : ¬ r.ceiling ≤ earlier.length + 1 := fun hc => (followed_snoc.mp h).2 (.ceiling hc)
    simpa using hc

lemma Followed.cursorOf_isSome {r : Rules τ} {answers : List (Outcome (Page τ))}
    (h : Followed r answers) : ∀ a ∈ answers, (cursorOf a).isSome := by
  intro a ha
  obtain ⟨before, after, rfl⟩ := List.append_of_mem ha
  obtain ⟨page, c, rfl, hn⟩ := exists_next_of_not_stops (h before a after rfl)
  simp [cursorOf, hn]

lemma Followed.cursorOf_nodup {r : Rules τ} {answers : List (Outcome (Page τ))}
    (h : Followed r answers) : (answers.map cursorOf).Nodup := by
  induction answers using List.reverseRecOn with
  | nil => simp
  | append_singleton answers a ih =>
    obtain ⟨hf, hs⟩ := followed_snoc.mp h
    obtain ⟨page, c, rfl, hn⟩ := exists_next_of_not_stops hs
    have hc : c ∉ cursors answers := fun hc => hs (.repeated hn hc)
    rw [List.map_append, List.nodup_append]
    refine ⟨ih hf, by simp, fun d hd e he hde => hc ?_⟩
    obtain ⟨b, hb, hbd⟩ := List.mem_map.mp hd
    refine List.mem_filterMap.mpr ⟨b, hb, ?_⟩
    rw [hbd, hde]
    simpa [cursorOf, hn] using he

section Drained

variable {r : Rules τ} {answers : List (Outcome (Page τ))}

def Drains (r : Rules τ) (answers : List (Outcome (Page τ))) : Prop :=
  ∃ earlier page, answers = earlier ++ [.ok page] ∧ Followed r earlier ∧ page.next = none

lemma Drains.comesTo (h : Drains r answers) :
    ComesTo r answers (close r (answers.flatMap itemsOf)) := by
  obtain ⟨earlier, page, rfl, hf, hlast⟩ := h
  refine ⟨earlier, .ok page, rfl, hf, .last hlast, ?_⟩
  simp [verdict, hlast, close_eq, itemsOf]

lemma eq_of_close {items found : List τ} (h : close r items = .ok found) :
    found = items ∧ r.validate found = .ok () := by
  unfold close at h
  cases hv : r.validate items with
  | error e => simp [hv] at h
  | ok u =>
    rw [hv] at h
    obtain rfl := Except.ok.inj h
    exact ⟨rfl, hv⟩

lemma ComesTo.drains {items : List τ} (h : ComesTo r answers (.ok items)) :
    Drains r answers ∧ items = answers.flatMap itemsOf ∧ r.validate items = .ok () := by
  obtain ⟨earlier, a, rfl, hf, hstop, hv⟩ := h
  cases a with
  | error e => cases hv
  | ok page =>
    cases hn : page.next with
    | some c => simp [verdict, hn] at hv
    | none =>
      have hdrains : Drains r (earlier ++ [.ok page]) := ⟨earlier, page, rfl, hf, hn⟩
      have hclose := hdrains.comesTo.unique ⟨earlier, .ok page, rfl, hf, hstop, hv⟩
      exact ⟨hdrains, eq_of_close hclose⟩

end Drained

def upTo (stream : ℕ → Outcome (Page τ)) (n : ℕ) : List (Outcome (Page τ)) :=
  (List.range n).map stream

structure FirstStop (r : Rules τ) (stream : ℕ → Outcome (Page τ)) (n : ℕ) : Prop where
  stops : Stops r (upTo stream n) (stream n)
  earlier : ∀ k < n, ¬ Stops r (upTo stream k) (stream k)

section Streams

variable {r : Rules τ} {stream : ℕ → Outcome (Page τ)}

@[simp] lemma length_upTo (n : ℕ) : (upTo stream n).length = n := by
  simp [upTo]

lemma upTo_succ (n : ℕ) : upTo stream (n + 1) = upTo stream n ++ [stream n] := by
  simp [upTo, List.range_succ]

lemma take_upTo {k n : ℕ} (h : k ≤ n) : (upTo stream n).take k = upTo stream k := by
  rw [upTo, ← List.map_take, List.take_range, min_eq_left h, upTo]

lemma followed_upTo {n : ℕ} :
    Followed r (upTo stream n) ↔ ∀ k < n, ¬ Stops r (upTo stream k) (stream k) := by
  induction n with
  | zero => simp [upTo]
  | succ n ih =>
    rw [upTo_succ, followed_snoc, ih]
    constructor
    · rintro ⟨h, hn⟩ k hk
      rcases Nat.lt_succ_iff_lt_or_eq.mp hk with hk | rfl
      · exact h k hk
      · exact hn
    · intro h
      exact ⟨fun k hk => h k (Nat.lt_succ_of_lt hk), h n n.lt_succ_self⟩

lemma exists_firstStop (r : Rules τ) (stream : ℕ → Outcome (Page τ)) :
    ∃ n < r.ceiling, FirstStop r stream n := by
  classical
  have hceiling : Stops r (upTo stream (r.ceiling - 1)) (stream (r.ceiling - 1)) := by
    refine .ceiling ?_
    rw [length_upTo]
    omega
  have hstop : ∃ n, Stops r (upTo stream n) (stream n) := ⟨_, hceiling⟩
  have hpos : 0 < r.ceiling := by simp [Rules.ceiling]
  have hle := Nat.find_min' hstop hceiling
  exact ⟨Nat.find hstop, by omega, Nat.find_spec hstop, fun k hk => Nat.find_min hstop hk⟩

lemma FirstStop.eq {m n : ℕ} (h : FirstStop r stream n) (hf : Followed r (upTo stream m))
    (hs : Stops r (upTo stream m) (stream m)) : m = n := by
  have hm := followed_upTo.mp hf
  rcases Nat.lt_trichotomy m n with hlt | rfl | hlt
  · exact absurd hs (h.earlier m hlt)
  · rfl
  · exact absurd h.stops (hm n hlt)

lemma FirstStop.le {k n : ℕ} (h : FirstStop r stream n) (hf : Followed r (upTo stream k)) :
    k ≤ n := by
  by_contra hlt
  exact followed_upTo.mp hf n (not_le.mp hlt) h.stops

end Streams

end Drain

end LedgerQuery
