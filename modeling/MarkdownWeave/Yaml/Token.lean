import MarkdownWeave.Text.Utf8
import MarkdownWeave.Yaml.Chars

/-!
# YAML tokens

The tokens of a YAML text and the places in the text that the lexer moves through.  Line and
column are kept because indentation gives YAML its structure, and the bytes of the line are counted
because they limit how long a key may be.

## Main definitions

* `Yaml.Token` — a token.
* `Yaml.Place` — what is left of a text, with the line, the column and the byte of its beginning.
-/

namespace MarkdownWeave

namespace Yaml

/-- A tag as it is written: a handle that a directive may define, and what follows it. -/
structure TagToken where
  /-- The handle, with its exclamation marks; empty for a tag in angle brackets. -/
  handle : Text
  /-- The UTF-8 bytes of the rest. -/
  suffix : List UInt8
deriving DecidableEq

/-- A token of a YAML text. -/
inductive Token
  /-- The directive that tells the version. -/
  | version (major minor : Nat)
  /-- The directive that defines a tag handle. -/
  | tagDirective (handle : Text) (start : List UInt8)
  /-- Three hyphens at the beginning of a line. -/
  | documentStart
  /-- Three dots at the beginning of a line. -/
  | documentEnd
  /-- The beginning of a sequence laid out by indentation. -/
  | blockSequenceStart
  /-- The beginning of a mapping laid out by indentation. -/
  | blockMappingStart
  /-- The end of what is laid out by one indentation. -/
  | blockEnd
  /-- An opening square bracket. -/
  | flowSequenceStart
  /-- A closing square bracket. -/
  | flowSequenceEnd
  /-- An opening brace. -/
  | flowMappingStart
  /-- A closing brace. -/
  | flowMappingEnd
  /-- A hyphen in front of an item. -/
  | blockEntry
  /-- A comma. -/
  | flowEntry
  /-- A key follows. -/
  | key
  /-- A value follows. -/
  | value
  /-- A reference to an anchor. -/
  | alias (name : Text)
  /-- An anchor. -/
  | anchor (name : Text)
  /-- A tag. -/
  | tag (t : TagToken)
  /-- A scalar; `plain` if it is neither quoted nor in a block of its own. -/
  | scalar (plain : Bool) (t : Text)
deriving DecidableEq

/-- What is left of a text, and where in the text that begins. -/
structure Place where
  /-- The characters that are left. -/
  rest : Text
  /-- The number of line breaks before. -/
  line : Nat
  /-- The number of characters before on the same line. -/
  column : Nat
  /-- The number of UTF-8 bytes of these characters. -/
  offset : Nat

namespace Place

/-- Past a number of characters that are no line breaks. -/
def skip (p : Place) (n : Nat) : Place :=
  ⟨p.rest.drop n, p.line, p.column + n, p.offset + Text.byteSize (p.rest.take n)⟩

/-- What is passed moves from the bytes that are left to those before. -/
theorem offset_add_byteSize_skip (p : Place) (n : Nat) :
    (p.skip n).offset + Text.byteSize (p.skip n).rest = p.offset + Text.byteSize p.rest := by
  have h : Text.byteSize (p.rest.take n) + Text.byteSize (p.rest.drop n) = Text.byteSize p.rest := by
    rw [← Text.byteSize_append, List.take_append_drop]
  simp only [skip]
  omega

/-- Past one character that is no line break. -/
def step (p : Place) : Place := p.skip 1

/-- Past a line break, if there is one. -/
def newLine (p : Place) : Place :=
  match p.rest with
  | [] => p
  | _ :: cs => ⟨cs, p.line + 1, 0, 0⟩

/-- Past all leading characters of a class that has no line breaks. -/
def skipWhile (f : Char → Bool) (p : Place) : Place := p.skip (p.rest.takeWhile f).length

/-- The leading characters of a class that has no line breaks, and the place past them. -/
def span (f : Char → Bool) (p : Place) : Text × Place := (p.rest.takeWhile f, p.skipWhile f)

/-- Past a comment, up to the end of the line. -/
def skipComment (p : Place) : Place :=
  match p.rest with
  | '#' :: _ => p.skipWhile fun c => !isBreak c
  | _ => p

/-- Whether three copies of `c` stand at the beginning of a line, with nothing attached to them. -/
def isMarker (c : Char) (p : Place) : Bool :=
  p.column == 0 && p.rest.take 3 == [c, c, c] && atGap (p.rest.drop 3)

/-- Whether a line begins here that starts or ends a document. -/
def isDocumentMarker (p : Place) : Bool := p.isMarker '-' || p.isMarker '.'

end Place

end Yaml

end MarkdownWeave
