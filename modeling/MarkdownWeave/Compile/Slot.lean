import MarkdownWeave.Text.Blank

/-!
# Slots

A slot is a name between double braces, with or without white space around it, such as
`{{ title }}`.  Slots are filled with the values of variables, and the slot named `content` in a
parent with the body of its child.

## Main definitions

* `Slot` — a slot as it is written.
* `Slot.read?` — the slot that a text begins with.
* `Slot.pieces` — a text as slots and the characters between them.
* `Slot.fill` — a text with its slots filled.

`Slot.source_pieces` says that cutting a text into pieces loses nothing.
-/

namespace MarkdownWeave

/-- A slot as it is written. -/
structure Slot where
  /-- The text from the first brace to the last. -/
  source : Text
  /-- The name. -/
  name : Text
deriving DecidableEq

/-- A part of a text: one character, or a slot. -/
inductive Piece
  /-- A character that is no part of a slot. -/
  | verbatim (c : Char)
  /-- A slot. -/
  | slot (s : Slot)
deriving DecidableEq

namespace Piece

/-- The text of a piece as it is written. -/
def source : Piece → Text
  | verbatim c => [c]
  | slot s => s.source

/-- The slot that a piece is. -/
def slot? : Piece → Option Slot
  | verbatim _ => none
  | slot s => some s

end Piece

namespace Slot

/-- Whether a character may stand in the name of a slot: ASCII letters, digits, the underscore and
the hyphen. -/
def isNameChar (c : Char) : Bool := Text.isLetter c || Text.isDigit c || c == '_' || c == '-'

/-- The slot that a text begins with, and the rest of the text. -/
def read? : Text → Option (Slot × Text)
  | '{' :: '{' :: inner =>
    let left := inner.takeWhile Text.isBlank
    let named := inner.dropWhile Text.isBlank
    let name := named.takeWhile isNameChar
    let padded := named.dropWhile isNameChar
    let right := padded.takeWhile Text.isBlank
    match name, padded.dropWhile Text.isBlank with
    | _ :: _, '}' :: '}' :: rest =>
      some (⟨'{' :: '{' :: left ++ name ++ right ++ ['}', '}'], name⟩, rest)
    | _, _ => none
  | _ => none

/-- A text that begins with a slot is the slot and the rest. -/
theorem eq_append_of_read? {t rest : Text} {s : Slot} (h : read? t = some (s, rest)) :
    t = s.source ++ rest := by
  unfold read? at h
  split at h
  · rename_i inner
    dsimp only at h
    split at h
    · rename_i hp
      obtain ⟨rfl, rfl⟩ := Prod.mk.inj (Option.some.inj h)
      have h1 := List.takeWhile_append_dropWhile (p := Text.isBlank) (l := inner)
      have h2 := List.takeWhile_append_dropWhile (p := isNameChar)
        (l := inner.dropWhile Text.isBlank)
      have h3 := List.takeWhile_append_dropWhile (p := Text.isBlank)
        (l := (inner.dropWhile Text.isBlank).dropWhile isNameChar)
      rw [hp] at h3
      simp only [List.cons_append, List.append_assoc, List.nil_append]
      rw [h3, h2, h1]
    · cases h
  · cases h

/-- The rest behind a slot is shorter than the text. -/
theorem length_lt_of_read? {t rest : Text} {s : Slot} (h : read? t = some (s, rest)) :
    rest.length < t.length := by
  have key : 0 < s.source.length := by
    unfold read? at h
    split at h
    · dsimp only at h
      split at h
      · obtain ⟨rfl, rfl⟩ := Prod.mk.inj (Option.some.inj h)
        simp
      · cases h
    · cases h
  have := congrArg List.length (eq_append_of_read? h)
  rw [List.length_append] at this
  omega

/-- A text as slots and the characters between them, from left to right. -/
def pieces (t : Text) : List Piece :=
  match t with
  | [] => []
  | c :: cs =>
    match _h : read? (c :: cs) with
    | some (s, rest) => .slot s :: pieces rest
    | none => .verbatim c :: pieces cs
termination_by t.length
decreasing_by
  · exact length_lt_of_read? (by assumption)
  · simp

/-- The slots of a text, from left to right. -/
def all (t : Text) : List Slot := (pieces t).filterMap Piece.slot?

/-- The names of the slots of a text, each once, in the order in which they first occur. -/
def names (t : Text) : List Text := ((all t).map Slot.name).eraseDups

/-- A piece with its slot filled. -/
def fillPiece (value : Slot → Text) : Piece → Text
  | .verbatim c => [c]
  | .slot s => value s

/-- A text in which every slot is replaced by its value. -/
def fill (value : Slot → Text) (t : Text) : Text := (pieces t).flatMap (fillPiece value)

@[simp] theorem pieces_nil : pieces [] = [] := by
  rw [pieces]

theorem pieces_of_read? {t rest : Text} {s : Slot} (h : read? t = some (s, rest)) :
    pieces t = .slot s :: pieces rest := by
  cases t with
  | nil => simp [read?] at h
  | cons c cs =>
    rw [pieces]
    split
    · rename_i s' rest' h'
      rw [h] at h'
      obtain ⟨rfl, rfl⟩ := Prod.mk.inj (Option.some.inj h')
      rfl
    · rename_i h'
      rw [h] at h'
      cases h'

theorem pieces_of_read?_eq_none {c : Char} {cs : Text} (h : read? (c :: cs) = none) :
    pieces (c :: cs) = .verbatim c :: pieces cs := by
  rw [pieces]
  split
  · rename_i h'
    rw [h] at h'
    cases h'
  · rfl

/-- The pieces of a text, as they are written, are the text. -/
theorem source_pieces (t : Text) : (pieces t).flatMap Piece.source = t := by
  fun_induction pieces t with
  | case1 => rfl
  | case2 c cs s rest h ih => simp [Piece.source, ih, ← eq_append_of_read? h]
  | case3 c cs h ih => simp [Piece.source, ih]

end Slot

end MarkdownWeave
