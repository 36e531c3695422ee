import MarkdownWeave.Text.Blank

/-!
# The slot for a child

A parent marks the place in its body where the body of a child belongs with the word `content`
between double braces, with or without white space around it.  These marks are looked for by a
pattern of their own, from left to right, and none is looked for inside of another.

## Main definitions

* `contentName` — the word.
* `ContentSlot.behind?` — what stands behind the mark that a text begins with.
* `ContentSlot.spans` — where the marks of a text begin and end.
* `ContentSlot.replace` — a text with something in place of its first mark.
-/

namespace MarkdownWeave

/-- The name of the slot for the body of a child. -/
def contentName : Text := "content"

namespace ContentSlot

/-- What stands behind the mark that a text begins with: two opening braces, white space, the word,
white space and two closing braces. -/
def behind? (t : Text) : Option Text := do
  let inner ← List.isPrefixOf? ['{', '{'] t
  let padded ← List.isPrefixOf? contentName (inner.dropWhile Text.isBlank)
  List.isPrefixOf? ['}', '}'] (padded.dropWhile Text.isBlank)

/-- A text is as long as what it begins with and the rest. -/
theorem length_of_isPrefixOf? {p t rest : Text} (h : p.isPrefixOf? t = some rest) :
    t.length = p.length + rest.length := by
  induction p generalizing t with
  | nil =>
    change some t = some rest at h
    rw [Option.some.inj h, List.length_nil, Nat.zero_add]
  | cons c p ih =>
    cases t with
    | nil =>
      change none = some rest at h
      cases h
    | cons d t =>
      change (if c == d then p.isPrefixOf? t else none) = some rest at h
      rw [Option.ite_none_right_eq_some] at h
      rw [List.length_cons, List.length_cons, ih h.2]
      omega

/-- What stands behind a mark is shorter than the text. -/
theorem length_lt_of_behind? {t rest : Text} (h : behind? t = some rest) :
    rest.length < t.length := by
  simp only [behind?, Option.bind_eq_bind, Option.bind_eq_some_iff] at h
  obtain ⟨inner, hinner, padded, hpadded, hrest⟩ := h
  have hleft := (List.dropWhile_suffix Text.isBlank (l := inner)).length_le
  have hright := (List.dropWhile_suffix Text.isBlank (l := padded)).length_le
  have hopen := length_of_isPrefixOf? hinner
  have hword := length_of_isPrefixOf? hpadded
  have hclose := length_of_isPrefixOf? hrest
  simp only [List.length_cons, List.length_nil] at hopen hclose
  omega

/-- The places of the marks in a text with `i` characters before it, from left to right: for each
how many characters stand before it, and how many before what stands behind it. -/
def spansFrom (i : Nat) (t : Text) : List (Nat × Nat) :=
  match t with
  | [] => []
  | c :: cs =>
    match _h : behind? (c :: cs) with
    | some rest =>
      (i, i + ((c :: cs).length - rest.length)) ::
        spansFrom (i + ((c :: cs).length - rest.length)) rest
    | none => spansFrom (i + 1) cs
termination_by t.length
decreasing_by
  · exact length_lt_of_behind? (by assumption)
  · simp

/-- The places of the marks in a text. -/
def spans (t : Text) : List (Nat × Nat) := spansFrom 0 t

/-- A text with another one in place of its first mark, if it has one. -/
def replace (t new : Text) : Text :=
  match spans t with
  | [] => t
  | (i, j) :: _ => t.take i ++ new ++ t.drop j

end ContentSlot

end MarkdownWeave
