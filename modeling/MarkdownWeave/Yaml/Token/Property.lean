import MarkdownWeave.Text.Utf8
import MarkdownWeave.Yaml.Token

/-!
# Anchors, tags and directives

Reading the tokens that say something about a node or about the document, and are no part of the
content.

## Main definitions

* `Yaml.anchorName?` — the name of an anchor or an alias.
* `Yaml.tag?` — a tag.
* `Yaml.directive?` — a directive line.
-/

namespace MarkdownWeave

namespace Yaml

/-- Reads the name behind `&` or `*`; something that ends a name has to follow. -/
def anchorName? (p : Place) : Option (Text × Place) :=
  let (name, q) := p.step.span isWord
  let ended := atGap q.rest || (q.rest.head?.any fun c => "?:,]\x7d%@\x60".toList.contains c)
  if name.isEmpty || !ended then none else some (name, q)

/-! ### Tags -/

/-- Whether a character may stand in a tag; `wide` also admits the comma and square brackets. -/
def isTagChar (wide : Bool) (c : Char) : Bool :=
  isWord c || ";/?:@&=+$.!~*'()".toList.contains c || (wide && (c == ',' || c == '[' || c == ']'))

/-- The byte behind a percent sign: two hexadecimal digits. -/
def percentByte? : Text → Option UInt8
  | '%' :: a :: b :: _ => do
    let h ← Text.digitValue? a
    let l ← Text.digitValue? b
    return (h * 16 + l).toUInt8
  | _ => none

/-- How many bytes the character has that begins with a byte. -/
def leadWidth? (b : UInt8) : Option Nat :=
  if b < 0x80 then some 1
  else if 0xC0 ≤ b ∧ b < 0xE0 then some 2
  else if 0xE0 ≤ b ∧ b < 0xF0 then some 3
  else if 0xF0 ≤ b ∧ b < 0xF8 then some 4
  else none

/-- Reads further bytes of one character, each behind a percent sign. -/
def percentTail? : Nat → Text → Option (List UInt8)
  | 0, _ => some []
  | n + 1, t => do
    let b ← percentByte? t
    if b < 0x80 || 0xC0 ≤ b then none
    return b :: (← percentTail? n (t.drop 3))

/-- Reads one character that is written byte by byte behind percent signs. -/
def percentChar? (t : Text) : Option (List UInt8) := do
  let b ← percentByte? t
  let width ← leadWidth? b
  return b :: (← percentTail? (width - 1) (t.drop 3))

/-- Reads the characters of a tag, as bytes. -/
def tagBytes? (wide : Bool) : Nat → Place → Option (List UInt8 × Place)
  | 0, _ => none
  | fuel + 1, p =>
    match p.rest with
    | [] => some ([], p)
    | c :: _ => do
      if c = '%' then
        let bytes ← percentChar? p.rest
        let (more, last) ← tagBytes? wide fuel (p.skip (3 * bytes.length))
        return (bytes ++ more, last)
      else if isTagChar wide c then
        let (more, last) ← tagBytes? wide fuel p.step
        return (Text.utf8 [c] ++ more, last)
      else return ([], p)

/-- Reads the characters of a tag of which `before` have been read already; there has to be at
least one in all.  What follows a zero byte is no part of the tag. -/
def tagSuffix? (wide : Bool) (before : Text) (p : Place) : Option (List UInt8 × Place) := do
  let (bytes, q) ← tagBytes? wide (p.rest.length + 1) p
  if before.isEmpty && bytes.isEmpty then none
  return ((Text.utf8 (before.drop 1) ++ bytes).takeWhile (· != 0), q)

/-- Reads a tag handle: an exclamation mark, a name, and a second mark if it is there. -/
def tagHandle? (p : Place) : Option (Text × Place) :=
  match p.rest with
  | '!' :: _ =>
    let (name, q) := p.step.span isWord
    match q.rest with
    | '!' :: _ => some ('!' :: name ++ ['!'], q.step)
    | _ => some ('!' :: name, q)
  | _ => none

/-- Reads a tag as it is written. -/
def tagToken? (p : Place) : Option (TagToken × Place) := do
  if p.rest[1]? = some '<' then
    let (suffix, q) ← tagSuffix? true [] (p.skip 2)
    if q.rest.head? != some '>' then none
    return (⟨[], suffix⟩, q.step)
  else
    let (handle, q) ← tagHandle? p
    if 2 ≤ handle.length ∧ handle.getLast? = some '!' then
      let (suffix, r) ← tagSuffix? false [] q
      return (⟨handle, suffix⟩, r)
    else
      let (suffix, r) ← tagSuffix? false handle q
      return (if suffix.isEmpty then ⟨[], Text.utf8 ['!']⟩ else ⟨['!'], suffix⟩, r)

/-- Reads a tag; a gap has to follow, or inside of brackets a comma. -/
def tag? (flow : Bool) (p : Place) : Option (TagToken × Place) := do
  let (t, q) ← tagToken? p
  if atGap q.rest || (flow && q.rest.head? == some ',') then return (t, q) else none

/-! ### Directives -/

/-- Reads a number of at most nine digits. -/
def versionNumber? (p : Place) : Option (Nat × Place) :=
  let (ds, q) := p.span Text.isDigit
  if ds.isEmpty || 9 < ds.length then none else some (Text.decimalValue ds, q)

/-- Reads what follows the name of a version directive. -/
def versionDirective? (p : Place) : Option (Token × Place) := do
  let (major, q) ← versionNumber? (p.skipWhile isSpacing)
  if q.rest.head? != some '.' then none
  let (minor, r) ← versionNumber? q.step
  return (.version major minor, r)

/-- Reads what follows the name of a tag directive: a handle and what it stands for. -/
def tagDirective? (p : Place) : Option (Token × Place) := do
  let (handle, q) ← tagHandle? (p.skipWhile isSpacing)
  if handle != ['!'] && (handle.length < 2 || handle.getLast? != some '!') then none
  if !(q.rest.head?.any isSpacing) then none
  let (start, r) ← tagSuffix? true [] (q.skipWhile isSpacing)
  if !atGap r.rest then none
  return (.tagDirective handle start, r)

/-- Reads a directive line, from the percent sign on. -/
def directive? (p : Place) : Option (Token × Place) := do
  let (name, q) := p.step.span isWord
  if !atGap q.rest then none
  let (token, r) ←
    if name == ("YAML" : Text) then versionDirective? q
    else if name == ("TAG" : Text) then tagDirective? q
    else none
  let last := (r.skipWhile isSpacing).skipComment
  if atBreak last.rest then return (token, last.newLine) else none

end Yaml

end MarkdownWeave
