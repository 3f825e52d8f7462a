import LedgerQuery.Text.Replace
import Mathlib.Tactic

/-! Words in a text. A character that a word does not have divides the text: the word occurs, and is
replaced, before it and after it. -/

namespace LedgerQuery.Text

variable {word image text before after : List Char} {c : Char}

lemma isPrefixOf_of_ne {w : Char} (hne : w ≠ c) (word text : List Char) :
    (w :: word).isPrefixOf (c :: text) = false := by
  rw [List.isPrefixOf_cons_cons, beq_false_of_ne hne, Bool.false_and]

lemma isPrefixOf_divided (hc : c ∉ word) (before after : List Char) :
    word.isPrefixOf (before ++ c :: after) = word.isPrefixOf before := by
  induction word generalizing before with
  | nil => simp only [List.isPrefixOf_nil_left]
  | cons w word ih =>
    rw [List.mem_cons, not_or] at hc
    cases before with
    | nil => exact isPrefixOf_of_ne (Ne.symm hc.1) word after
    | cons b before => rw [List.cons_append, List.isPrefixOf_cons_cons, List.isPrefixOf_cons_cons,
        ih hc.2]

lemma isPrefixOf_eq_false (hword : word ≠ []) (hc : c ∉ word) (after : List Char) :
    word.isPrefixOf (c :: after) = false := by
  rw [← List.nil_append (c :: after), isPrefixOf_divided hc]
  cases word with
  | nil => exact absurd rfl hword
  | cons w word => rfl

lemma isPrefixOf_ended {s t : List Char} (hs : c ∉ s) (ht : c ∉ t) (after : List Char) :
    (t ++ [c]).isPrefixOf (s ++ c :: after) = decide (s = t) := by
  induction s generalizing t with
  | nil =>
    cases t with
    | nil => simp
    | cons b t => exact isPrefixOf_of_ne (Ne.symm (List.ne_of_not_mem_cons ht)) _ _
  | cons a s ih =>
    cases t with
    | nil => exact isPrefixOf_of_ne (List.ne_of_not_mem_cons hs) _ _
    | cons b t =>
      have htail := ih (List.not_mem_of_not_mem_cons hs) (List.not_mem_of_not_mem_cons ht)
      rw [List.cons_append, List.cons_append, List.isPrefixOf_cons_cons, htail, Bool.eq_iff_iff,
        Bool.and_eq_true, beq_iff_eq, decide_eq_true_eq, decide_eq_true_eq, List.cons.injEq,
        eq_comm (a := a)]

lemma occurs_divided (hword : word ≠ []) (hc : c ∉ word) (before after : List Char) :
    occurs word (before ++ c :: after) = (occurs word before || occurs word after) := by
  induction before with
  | nil => rw [List.nil_append, occurs, occurs, isPrefixOf_eq_false hword hc,
      List.isEmpty_eq_false_iff.mpr hword]
  | cons b before ih =>
    rw [List.cons_append, occurs, occurs, ih, ← List.cons_append, isPrefixOf_divided hc,
      Bool.or_assoc]

lemma occurs_eq_false (hc : c ∈ word) (ht : c ∉ text) : occurs word text = false := by
  induction text with
  | nil =>
    cases word with
    | nil => cases hc
    | cons w word => rfl
  | cons t text ih =>
    rw [occurs, ih (List.not_mem_of_not_mem_cons ht), Bool.or_false, Bool.eq_false_iff]
    intro hprefix
    exact ht ((List.isPrefixOf_iff_prefix.mp hprefix).subset hc)

lemma drop_of_isPrefixOf (hword : word ≠ []) (h : word.isPrefixOf (c :: text) = true) :
    c :: text = word ++ text.drop (word.length - 1) := by
  obtain ⟨rest, hrest⟩ := List.isPrefixOf_iff_prefix.mp h
  cases word with
  | nil => exact absurd rfl hword
  | cons w word =>
    obtain ⟨rfl, rfl⟩ : w = c ∧ word ++ rest = text := by simpa using hrest
    simp

lemma replaceWord_of_not_occurs (h : occurs word text = false) :
    replaceWord word image text = text := by
  induction text with
  | nil => rw [replaceWord]
  | cons c text ih =>
    rw [occurs, Bool.or_eq_false_iff] at h
    rw [replaceWord, if_neg (Bool.eq_false_iff.mp h.1), ih h.2]

lemma replaceWord_append (hword : word ≠ []) (image text : List Char) :
    replaceWord word image (word ++ text) = image ++ replaceWord word image text := by
  cases word with
  | nil => exact absurd rfl hword
  | cons w word =>
    have hprefix : (w :: word).isPrefixOf (w :: (word ++ text)) = true :=
      List.isPrefixOf_iff_prefix.mpr (List.prefix_append (w :: word) text)
    rw [List.cons_append, replaceWord, if_pos hprefix, List.length_cons, Nat.add_sub_cancel,
      List.drop_left]

lemma replaceWord_divided (hword : word ≠ []) (hc : c ∉ word) (image before after : List Char) :
    replaceWord word image (before ++ c :: after) =
      replaceWord word image before ++ c :: replaceWord word image after := by
  induction before using replaceWord.induct word with
  | case1 =>
    rw [List.nil_append, replaceWord.eq_2, isPrefixOf_eq_false hword hc, if_neg Bool.false_ne_true,
      replaceWord.eq_1, List.nil_append]
  | case2 b before hprefix ih =>
    rw [drop_of_isPrefixOf hword hprefix, List.append_assoc, replaceWord_append hword,
      replaceWord_append hword, ih, List.append_assoc]
  | case3 b before hprefix ih =>
    rw [List.cons_append, replaceWord, ← List.cons_append, isPrefixOf_divided hc, if_neg hprefix,
      ih, replaceWord, if_neg hprefix, List.cons_append]

def count (word : List Char) : List Char → Nat
  | [] => 0
  | c :: rest => (if word.isPrefixOf (c :: rest) then 1 else 0) + count word rest

lemma count_divided (hword : word ≠ []) (hc : c ∉ word) (before after : List Char) :
    count word (before ++ c :: after) = count word before + count word after := by
  induction before with
  | nil =>
    rw [List.nil_append, count, count, if_neg]
    exact Bool.eq_false_iff.mp (isPrefixOf_eq_false hword hc after)
  | cons b before ih =>
    rw [List.cons_append, count, count, ih, ← List.cons_append, isPrefixOf_divided hc,
      Nat.add_assoc]

lemma count_foreign (hword : word ≠ []) {piece : List Char} (hpiece : piece ≠ [])
    (hforeign : ∀ c ∈ piece, c ∉ word) (before after : List Char) :
    count word (before ++ piece ++ after) = count word before + count word after := by
  induction piece generalizing before with
  | nil => exact absurd rfl hpiece
  | cons c piece ih =>
    obtain ⟨hc, hrest⟩ := List.forall_mem_cons.mp hforeign
    rw [List.append_assoc, List.cons_append, count_divided hword hc]
    by_cases hempty : piece = []
    · rw [hempty, List.nil_append]
    · have hafter := ih hempty hrest []
      rw [List.nil_append] at hafter
      rw [hafter, count, Nat.zero_add]

lemma count_head (hc : c ∉ word) (before after : List Char) :
    count (c :: word) (before ++ c :: after) =
      count (c :: word) before + count (c :: word) (c :: after) := by
  induction before with
  | nil => rw [List.nil_append, count, Nat.zero_add]
  | cons b before ih =>
    rw [List.cons_append, count, ih, List.isPrefixOf_cons_cons, isPrefixOf_divided hc,
      ← List.isPrefixOf_cons_cons, ← Nat.add_assoc]
    rfl

lemma count_append_of_not_mem (hc : c ∉ before) (word after : List Char) :
    count (c :: word) (before ++ after) = count (c :: word) after := by
  induction before with
  | nil => rfl
  | cons b before ih =>
    rw [List.mem_cons, not_or] at hc
    rw [List.cons_append, count, ih hc.2, isPrefixOf_of_ne hc.1, if_neg Bool.false_ne_true,
      Nat.zero_add]

/-- If an image has so many occurrences of something more than its word, wherever it stands, then so
many more are there for each word that was replaced. -/
lemma count_replaceWord {mark : List Char} {n : Nat} (hword : word ≠ [])
    (hmore : ∀ before after, count mark (before ++ image ++ after) =
      count mark (before ++ word ++ after) + n) (text : List Char) :
    ∃ k, (occurs word text = true → 0 < k) ∧
      ∀ before, count mark (before ++ replaceWord word image text) =
        count mark (before ++ text) + k * n := by
  induction text using replaceWord.induct word with
  | case1 =>
    refine ⟨0, fun h => ?_, fun before => by rw [replaceWord, Nat.zero_mul, Nat.add_zero]⟩
    exact absurd (List.isEmpty_iff.mp h) hword
  | case2 c text hprefix ih =>
    obtain ⟨k, -, hk⟩ := ih
    refine ⟨k + 1, fun _ => Nat.succ_pos k, fun before => ?_⟩
    rw [drop_of_isPrefixOf hword hprefix, replaceWord_append hword, ← List.append_assoc, hmore, hk,
      List.append_assoc, Nat.add_assoc, Nat.succ_mul]
  | case3 c text hprefix ih =>
    obtain ⟨k, hoccurs, hk⟩ := ih
    refine ⟨k, fun h => hoccurs ?_, fun before => ?_⟩
    · rw [occurs, Bool.or_eq_true] at h
      exact h.resolve_left hprefix
    · rw [replaceWord, if_neg hprefix, List.append_cons, hk, ← List.append_cons]

end LedgerQuery.Text
