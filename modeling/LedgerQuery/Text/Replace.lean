/-!
Replacing a word wherever it occurs in a text, from left to right and without overlaps.
-/

namespace LedgerQuery.Text

def occurs (word : List Char) : List Char → Bool
  | [] => word.isEmpty
  | c :: rest => word.isPrefixOf (c :: rest) || occurs word rest

def replaceWord (word image : List Char) : List Char → List Char
  | [] => []
  | c :: rest =>
    if word.isPrefixOf (c :: rest) then
      image ++ replaceWord word image (rest.drop (word.length - 1))
    else c :: replaceWord word image rest
termination_by cs => cs.length
decreasing_by
  all_goals
    simp only [List.length_cons, List.length_drop]
    omega

end LedgerQuery.Text
