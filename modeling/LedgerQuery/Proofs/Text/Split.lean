import LedgerQuery.Location
import Mathlib.Data.String.Basic
import Mathlib.Tactic

/-! Texts that are split at a character, and paths, which are split at the slashes. -/

namespace LedgerQuery.Text

open String

lemma get_separator (c : Char) : Pos.Raw.get (singleton c) 0 = c := by
  simpa [utf8Len] using get_of_valid [] [c]

lemma next_separator (c : Char) : Pos.Raw.next (singleton c) 0 = ⟨c.utf8Size⟩ := by
  simpa [utf8Len] using next_of_valid [] c []

lemma atEnd_separator (c : Char) : Pos.Raw.atEnd (singleton c) ⟨c.utf8Size⟩ = true := by
  simpa [utf8Len] using (atEnd_of_valid [c] []).mpr rfl

lemma splitOnAux_singleton (c : Char) (l m r : List Char) (acc : List String) :
    splitOnAux (ofList (l ++ m ++ r)) (singleton c) ⟨utf8Len l⟩ ⟨utf8Len l + utf8Len m⟩ 0 acc =
      acc.reverse ++ (List.splitOnPPrepend (· == c) r m.reverse).map ofList := by
  induction r generalizing l m acc with
  | nil =>
    have hend := (atEnd_of_valid (l ++ m) []).mpr rfl
    rw [utf8Len_append] at hend
    have hpart := extract_of_valid l m []
    rw [splitOnAux.eq_def, if_pos hend, hpart]
    simp
  | cons d r ih =>
    have hend := mt (atEnd_of_valid (l ++ m) (d :: r)).mp (List.cons_ne_nil d r)
    have hget := get_of_valid (l ++ m) (d :: r)
    have hnext := next_of_valid (l ++ m) d r
    have hpart := extract_of_valid l m (d :: r)
    rw [utf8Len_append] at hend hget hnext
    rw [splitOnAux.eq_def, if_neg hend, hget, hnext, get_separator, next_separator]
    rw [if_pos (atEnd_separator c)]
    by_cases hd : d = c
    · subst hd
      have hback : (⟨utf8Len l + utf8Len m + d.utf8Size⟩ : Pos.Raw).unoffsetBy ⟨d.utf8Size⟩ =
          ⟨utf8Len l + utf8Len m⟩ := Pos.Raw.ext (Nat.add_sub_cancel ..)
      have hrest := ih (l ++ m ++ [d]) [] (ofList m :: acc)
      rw [List.headD_cons, if_pos (beq_self_eq_true d), hback, hpart]
      simpa [List.splitOnPPrepend_cons_eq_if, Nat.add_assoc] using hrest
    · have hback : (⟨utf8Len l + utf8Len m⟩ : Pos.Raw).unoffsetBy 0 = ⟨utf8Len l + utf8Len m⟩ :=
        Pos.Raw.ext (Nat.sub_zero _)
      have hrest := ih l (m ++ [d]) acc
      rw [List.headD_cons, if_neg (by simpa using hd), hback, hnext]
      simpa [List.splitOnPPrepend_cons_eq_if, hd, Nat.add_assoc] using hrest

lemma splitOn_singleton (s : String) (c : Char) :
    s.splitOn (singleton c) = (s.toList.splitOnP (· == c)).map ofList := by
  have hne : (singleton c == "") = false := by
    simp [String.ext_iff]
  rw [splitOn, hne]
  simpa using splitOnAux_singleton c [] [] s.toList []

end LedgerQuery.Text

namespace LedgerQuery.Path

lemma steps_eq (path : String) :
    steps path = ((path.toList.splitOnP (· == '/')).map String.ofList).filter (· != "") := by
  rw [← Text.splitOn_singleton]
  rfl

lemma isUsable_eq (path : String) : isUsable path =
    (decide (path.utf8ByteSize ≤ maxLength) && !path.toList.contains '\x00') := by
  simp [isUsable]

end LedgerQuery.Path
