import MarkdownWeave.Text.Blank
import MarkdownWeave.Value.Normal
import MarkdownWeave.Failure
import MarkdownWeave.Yaml.Layout
import MarkdownWeave.Yaml.Reading

/-!
# Headers

The metadata of a document stands before its body, in YAML between two lines of three hyphens.  A
text that does not begin with such a block is all body.

## Main definitions

* `Header.split?` — the YAML text of the header and the body.
* `Header.read` — the metadata that a YAML text spells.
* `Header.format` — metadata and body as one text.
-/

namespace MarkdownWeave

namespace Header

/-! ### Splitting -/

/-- The three hyphens. -/
def delimiter : Text := ['-', '-', '-']

/-- What follows the opening line, which ends with a line feed or with a carriage return and a line
feed, if a text begins with one. -/
def afterOpening? : Text → Option Text
  | '-' :: '-' :: '-' :: '\n' :: rest => some rest
  | '-' :: '-' :: '-' :: '\r' :: '\n' :: rest => some rest
  | _ => none

/-- The lines of a text, each with its line feed. -/
def fullLines : Text → List Text
  | [] => []
  | c :: cs =>
    if c = '\n' then ['\n'] :: fullLines cs
    else
      match fullLines cs with
      | [] => [[c]]
      | l :: ls => (c :: l) :: ls

/-- Whether a character ends a line. -/
def isLineEnd (c : Char) : Bool := c == '\n' || c == '\r'

/-- Whether a line is three hyphens, apart from carriage returns and line feeds at its end. -/
def isClosing (line : Text) : Bool := Text.trimEndBy isLineEnd line == delimiter

/-- The text before the first closing line, and the text behind it. -/
def splitLines? : List Text → Option (Text × Text)
  | [] => none
  | l :: ls =>
    if isClosing l then some ([], ls.flatten)
    else (splitLines? ls).map fun (yaml, body) => (l ++ yaml, body)

/-- The YAML text of the header of a document and its body, if it has a header. -/
def split? (t : Text) : Option (Text × Text) :=
  (afterOpening? t).bind fun rest => splitLines? (fullLines rest)

@[simp] theorem fullLines_nil : fullLines [] = [] := rfl

@[simp] theorem splitLines?_nil : splitLines? [] = none := rfl

/-- Lines put behind each other give the text back. -/
theorem flatten_fullLines (t : Text) : (fullLines t).flatten = t := by
  induction t with
  | nil => rfl
  | cons c cs ih =>
    by_cases h : c = '\n'
    · simp [fullLines, h, ih]
    · rw [fullLines, if_neg h]
      cases hl : fullLines cs with
      | nil =>
        rw [hl] at ih
        simpa using ih
      | cons l ls =>
        rw [hl] at ih
        simpa using ih

/-! ### Reading and writing -/

/-- The metadata that the YAML text of a header spells.  A header that is blank or null has none,
and one that is neither that nor a mapping is refused. -/
def read (yaml : Text) : Except Failure Metadata :=
  if yaml.all Text.isBlank then .ok []
  else
    match Yaml.read? yaml with
    | some (.mapping m) => .ok (Metadata.normalize m)
    | some .null => .ok []
    | some v => .error (.headerOfKind v.kind)
    | none => .error .malformedHeader

/-- A text with a line feed at its end, unless it is empty. -/
def endLine (t : Text) : Text :=
  if t.isEmpty || Text.endsWith '\n' t then t else t ++ ['\n']

/-- The failure of metadata that cannot be written. -/
def nestedTags : Failure := .unwritable "serializing nested enums in YAML is not supported yet"

/-- A header with the given YAML text, and a body. -/
def join (yaml body : Text) : Text :=
  delimiter ++ '\n' :: yaml ++ delimiter ++ '\n' :: endLine body

/-- Metadata and body as one text.  Without metadata that is the body as it is; otherwise the body
gets a line feed at its end. -/
def format (m : Metadata) (body : Text) : Except Failure Text :=
  if m.isEmpty then .ok body
  else
    match Yaml.write? m with
    | some yaml => .ok (join yaml body)
    | none => .error nestedTags

@[simp] theorem format_nil (body : Text) : format [] body = .ok body := rfl

end Header

end MarkdownWeave
