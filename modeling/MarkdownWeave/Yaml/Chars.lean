import MarkdownWeave.Text.Basic

/-!
# Characters of YAML

The classes of characters that the YAML reader and writer tell apart.

## Main definitions

* `Yaml.isBreak`, `Yaml.isSpacing` — the characters that end a line and that separate words.
* `Yaml.isWord` — the characters of anchors and tag handles.
* `Yaml.isAllowed` — the characters that may stand in a YAML text at all.
* `Yaml.isPlainly` — the characters that are written without an escape.
* `Yaml.unifyBreaks` — one spelling for the ends of lines.
-/

namespace MarkdownWeave

namespace Yaml

/-- The line separator. -/
def lineSeparator : Char := '\u2028'

/-- The paragraph separator. -/
def paragraphSeparator : Char := '\u2029'

/-- The next-line control character. -/
def nextLine : Char := '\u0085'

/-- The byte order mark. -/
def byteOrderMark : Char := '\ufeff'

/-- Whether a character ends a line: carriage return, line feed, next line and the two separators. -/
def isBreak (c : Char) : Bool :=
  c == '\n' || c == '\r' || c == nextLine || c == lineSeparator || c == paragraphSeparator

/-- Whether a character is a space or a tab. -/
def isSpacing (c : Char) : Bool := c == ' ' || c == '\t'

/-- Whether a text is at its end, or goes on with spacing or a new line. -/
def atGap : Text → Bool
  | [] => true
  | c :: _ => isSpacing c || isBreak c

/-- Whether a text is at its end or at the end of a line. -/
def atBreak : Text → Bool
  | [] => true
  | c :: _ => isBreak c

/-- Whether a character may stand in the name of an anchor or of a tag handle. -/
def isWord (c : Char) : Bool := Text.isLetter c || Text.isDigit c || c == '_' || c == '-'

/-- Whether a character may stand in a YAML text; most control characters may not. -/
def isAllowed (c : Char) : Bool :=
  let n := c.toNat
  n == 0x09 || n == 0x0A || n == 0x0D || (0x20 ≤ n && n ≤ 0x7E) || n == 0x85 ||
    (0xA0 ≤ n && n ≤ 0xFFFD) || 0x10000 ≤ n

/-- Whether a character is written as it is, and not only by an escape. -/
def isPlainly (c : Char) : Bool :=
  let n := c.toNat
  n == 0x0A || (0x20 ≤ n && n ≤ 0x7E) || (0xA0 ≤ n && n ≤ 0xFFFD && n != 0xFEFF) || 0x10000 ≤ n

/-- A text in which every line that ends with a carriage return, both or the next-line character
ends with a line feed instead. -/
def unifyBreaks : Text → Text
  | [] => []
  | '\r' :: '\n' :: cs => '\n' :: unifyBreaks cs
  | c :: cs => (if c = '\r' ∨ c = nextLine then '\n' else c) :: unifyBreaks cs

end Yaml

end MarkdownWeave
