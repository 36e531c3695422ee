import MarkdownWeave.Yaml.Chars

/-!
# Laying out lines

What a YAML text is written with.  A pen stands at the beginning of a line, behind an indicator
that content may follow on the same line, or behind content.  A stroke writes something, which may
depend on where the pen stands, and leaves the pen somewhere else.

## Main definitions

* `Yaml.Pen` — where the next character will be written.
* `Yaml.Stroke` — a piece of text that depends on where the pen stands.
* `Yaml.Stroke.indent`, `Yaml.Stroke.word`, `Yaml.Stroke.joined` — the strokes all others are made of.
-/

namespace MarkdownWeave

namespace Yaml

/-- Where the next character will be written. -/
inductive Pen
  /-- At the beginning of a line. -/
  | lineStart
  /-- Behind the hyphen of an item, the question mark of a key or the colon below it. -/
  | indicator
  /-- Behind anything else. -/
  | content
deriving DecidableEq

/-- A piece of text, and where the pen stands after it. -/
abbrev Stroke := Pen → Text × Pen

namespace Stroke

/-- Writes nothing. -/
def nothing : Stroke := fun p => ([], p)

/-- Writes one piece after the other. -/
def andThen (a b : Stroke) : Stroke := fun p =>
  let (s, q) := a p
  let (t, r) := b q
  (s ++ t, r)

/-- Writes pieces one after the other. -/
def all (strokes : List Stroke) : Stroke := strokes.foldr andThen nothing

/-- Begins a line that is indented by `n` spaces.  Behind an indicator the line goes on after one
space, and there is no new line either where the pen is at the beginning of one. -/
def indent (n : Nat) : Stroke := fun p =>
  match p with
  | .lineStart => (List.replicate n ' ', .lineStart)
  | .indicator => ([' '], .lineStart)
  | .content => ('\n' :: List.replicate n ' ', .lineStart)

/-- Writes a word, with a space between it and what stands before it on the line. -/
def word (t : Text) : Stroke := fun p =>
  match p with
  | .lineStart => (t, .content)
  | _ => (' ' :: t, .content)

/-- Writes a text directly behind what stands before it. -/
def joined (t : Text) : Stroke := fun _ => (t, .content)

/-- Writes an indicator behind which content may follow on the same line. -/
def mark (c : Char) : Stroke := fun _ => ([c], .indicator)

/-- Ends a line. -/
def newLine : Stroke := fun _ => (['\n'], .lineStart)

/-- Writes a line break that is part of the content. -/
def breakChar (c : Char) : Stroke := fun _ => ([c], .lineStart)

@[simp] theorem nothing_apply (p : Pen) : nothing p = ([], p) := rfl

theorem andThen_apply (a b : Stroke) (p : Pen) :
    a.andThen b p = ((a p).1 ++ (b (a p).2).1, (b (a p).2).2) := rfl

theorem andThen_assoc (a b c : Stroke) : (a.andThen b).andThen c = a.andThen (b.andThen c) := by
  funext p
  simp [andThen_apply]

@[simp] theorem all_nil : all [] = nothing := rfl

@[simp] theorem all_cons (s : Stroke) (ss : List Stroke) : all (s :: ss) = s.andThen (all ss) := rfl

end Stroke

end Yaml

end MarkdownWeave
