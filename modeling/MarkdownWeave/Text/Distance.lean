import MarkdownWeave.Text.Basic

/-!
# Edit distance

The Levenshtein distance of two texts: how many characters have to be inserted, deleted or
replaced to make one out of the other.  It is computed row by row, a row holding the distances of
one beginning of the first text to every beginning of the second.

## Main definitions

* `Text.distance` — the edit distance of two texts.
-/

namespace MarkdownWeave

namespace Text

/-- The rest of the next row: `c` is the new character of the first text, `left` the entry to the
left, `corner` the entry above that one, and the list the entries above, one for each character of
the second text. -/
def distanceRest (c : Char) (left corner : Nat) : Text → List Nat → List Nat
  | d :: ds, above :: row =>
    let here := min (min (above + 1) (left + 1)) (if c = d then corner else corner + 1)
    here :: distanceRest c here above ds row
  | _, _ => []

/-- The row that follows `row` when the first text goes on with `c`. -/
def distanceRow (c : Char) (t : Text) : List Nat → List Nat
  | [] => []
  | corner :: row => (corner + 1) :: distanceRest c (corner + 1) corner t row

/-- The Levenshtein distance of two texts, in characters. -/
def distance (s t : Text) : Nat :=
  (s.foldl (fun row c => distanceRow c t row) (List.range (t.length + 1))).getLastD 0

end Text

end MarkdownWeave
