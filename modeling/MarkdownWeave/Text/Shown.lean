import MarkdownWeave.Text.Hidden
import MarkdownWeave.Text.Basic

/-!
# Shown texts

A text shown in double quotes for a reader who debugs a document: characters that would not be
visible, or would join with their neighbour, are written by their code points.

## Main definitions

* `Text.shownChar` — a character as it stands between the quotes.
* `Text.shown` — a text in quotes.
-/

namespace MarkdownWeave

namespace Text

/-- A character as it is shown inside the quotes. -/
def shownChar (c : Char) : Text :=
  if c = '"' then ['\\', '"']
  else if c = '\\' then ['\\', '\\']
  else if c.toNat = 0 then ['\\', '0']
  else if c = '\t' then ['\\', 't']
  else if c = '\n' then ['\\', 'n']
  else if c = '\r' then ['\\', 'r']
  else if isHidden c then ['\\', 'u', '{'] ++ Nat.toDigits 16 c.toNat ++ ['}']
  else [c]

/-- A text in double quotes, with what is not visible written by code points. -/
def shown (t : Text) : Text := '"' :: t.flatMap shownChar ++ ['"']

end Text

end MarkdownWeave
