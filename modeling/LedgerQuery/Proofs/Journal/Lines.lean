import LedgerQuery.Journal.Line
import LedgerQuery.Journal.Stamp
import Mathlib.Tactic

/-! The lines of a file. Every entry ends its last line, so the lines of a file are those of its
entries one after the other; the stamp of an entry stands at the beginning of its first line. -/

namespace LedgerQuery

namespace Event

def ended (line : List Char) : String :=
  match line with
  | '\r' :: before => String.ofList before.reverse
  | line => String.ofList line.reverse

lemma lines_cons {c : Char} (hc : c ≠ '\n') (cs line : List Char) :
    lines (c :: cs) line = lines cs (c :: line) := by
  rw [lines]
  simpa using hc

lemma lines_newline (cs line : List Char) :
    lines ('\n' :: cs) line = ended line :: lines cs [] := by
  unfold ended
  split <;> simp only [lines]

lemma lines_append (cs rest line : List Char) :
    lines (cs ++ '\n' :: rest) line = lines (cs ++ ['\n']) line ++ lines rest [] := by
  induction cs generalizing line with
  | nil => simp only [List.nil_append, lines_newline, lines, List.cons_append]
  | cons c cs ih =>
    by_cases hc : c = '\n'
    · subst hc
      simp only [List.cons_append, lines_newline, ih]
    · simp only [List.cons_append, lines_cons hc, ih]

lemma lines_entries (entries : List String) :
    lines (entries.flatMap fun entry => entry.toList ++ ['\n']) [] = linesOf entries := by
  induction entries with
  | nil => rfl
  | cons entry entries ih =>
    rw [List.flatMap_cons, List.append_assoc, List.singleton_append, lines_append, ih]
    rfl

lemma lines_start (cs : List Char) : ∃ more, ∀ line, lines (cs ++ ['\n']) line =
    ended ((cs.takeWhile (· != '\n')).reverse ++ line) :: more := by
  induction cs with
  | nil => exact ⟨[], fun line => lines_newline [] line⟩
  | cons c cs ih =>
    by_cases hc : c = '\n'
    · subst hc
      exact ⟨_, fun line => lines_newline _ line⟩
    · obtain ⟨more, hmore⟩ := ih
      refine ⟨more, fun line => ?_⟩
      rw [List.cons_append, lines_cons hc, hmore, List.takeWhile_cons_of_pos (by simpa using hc),
        List.reverse_cons, List.append_assoc, List.singleton_append]

lemma lines_stamp {stamp : List Char} (hs : '\n' ∉ stamp) (cs line : List Char) :
    lines (stamp ++ cs) line = lines cs (stamp.reverse ++ line) := by
  induction stamp generalizing line with
  | nil => rfl
  | cons c stamp ih =>
    rw [List.mem_cons, not_or] at hs
    rw [List.cons_append, lines_cons (Ne.symm hs.1), ih hs.2, List.reverse_cons, List.append_assoc,
      List.singleton_append]

end Event

namespace Stamp

variable {shape cs : List Char}

lemma length_of_hasShape (h : hasShape shape cs = true) : cs.length = shape.length := by
  induction shape generalizing cs with
  | nil =>
    cases cs with
    | nil => rfl
    | cons c cs => cases h
  | cons s shape ih =>
    cases cs with
    | nil => cases h
    | cons c cs =>
      rw [hasShape, Bool.and_eq_true] at h
      rw [List.length_cons, List.length_cons, ih h.2]

lemma mem_of_hasShape (h : hasShape shape cs = true) {c : Char} (hc : c ∈ cs) :
    c.isDigit = true ∨ c ∈ shape := by
  induction shape generalizing cs with
  | nil =>
    cases cs with
    | nil => cases hc
    | cons d cs => cases h
  | cons s shape ih =>
    cases cs with
    | nil => cases h
    | cons d cs =>
      rw [hasShape, Bool.and_eq_true] at h
      rcases List.mem_cons.mp hc with rfl | hc
      · by_cases hs : s = '0'
        · rw [if_pos hs] at h
          exact Or.inl h.1
        · rw [if_neg hs] at h
          obtain rfl : c = s := by simpa using h.1
          exact Or.inr List.mem_cons_self
      · exact (ih h.2 hc).imp_right (List.mem_cons_of_mem s)

lemma dropSecond_stamp (h : hasShape second.toList cs = true) (rest : List Char) :
    dropSecond (String.ofList (cs ++ rest)) = String.ofList rest := by
  have hlength : cs.length = second.length := length_of_hasShape h
  rw [dropSecond, String.toList_ofList, ← hlength, List.take_left, if_pos h, List.drop_left]

lemma dropSecond_bracket (rest : List Char) :
    dropSecond (String.ofList ('[' :: rest)) = String.ofList ('[' :: rest) := by
  rw [dropSecond, String.toList_ofList, if_neg]
  have hsecond : second.toList = '0' :: second.toList.tail := by decide
  have hlength : second.length = second.length - 1 + 1 := by decide
  rw [hsecond, hlength, List.take_succ_cons, hasShape]
  simp

end Stamp

namespace Event

lemma ended_bracket (cs : List Char) : ∃ first, ∀ line,
    ended (('[' :: cs).reverse ++ line) = String.ofList (line.reverse ++ '[' :: first) := by
  rcases List.eq_nil_or_concat' cs with rfl | ⟨ds, d, rfl⟩
  · exact ⟨[], fun line => by simp [ended]⟩
  · by_cases hd : d = '\r'
    · subst hd
      exact ⟨ds, fun line => by simp [ended]⟩
    · exact ⟨ds ++ [d], fun line => by simp [ended, hd]⟩

/-- All that a stamp before an entry adds to its lines is the stamp of the first of them. -/
lemma dropSecond_lines {stamp : List Char} (hs : Stamp.hasShape Stamp.second.toList stamp = true)
    (text : List Char) :
    (lines (stamp ++ '[' :: text ++ ['\n']) []).map Stamp.dropSecond =
      (lines ('[' :: text ++ ['\n']) []).map Stamp.dropSecond := by
  have hnewline : '\n' ∉ stamp := by
    intro hmem
    rcases Stamp.mem_of_hasShape hs hmem with hdigit | hshape
    · exact absurd hdigit (by decide)
    · exact absurd hshape (by decide)
  obtain ⟨more, hmore⟩ := lines_start ('[' :: text)
  have hfirst : ('[' :: text).takeWhile (· != '\n') = '[' :: text.takeWhile (· != '\n') :=
    List.takeWhile_cons_of_pos (by decide)
  obtain ⟨first, hended⟩ := ended_bracket (text.takeWhile (· != '\n'))
  rw [List.append_assoc, lines_stamp hnewline, hmore, hmore, hfirst, hended, hended, List.map_cons,
    List.map_cons]
  congr 1
  rw [List.append_nil, List.reverse_reverse, Stamp.dropSecond_stamp hs]
  exact (Stamp.dropSecond_bracket first).symm

end Event

end LedgerQuery
