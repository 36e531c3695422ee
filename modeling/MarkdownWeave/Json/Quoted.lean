import MarkdownWeave.Text.Basic

/-!
# Quoted JSON strings

A string in double quotes.  Quotes, backslashes and the control characters below the blank are
escaped; every other character stands for itself.

## Main definitions

* `Json.escaped` — one character inside the quotes.
* `Json.quoted` — a text in quotes.
-/

namespace MarkdownWeave

namespace Json

/-- A character as it stands inside the quotes. -/
def escaped (c : Char) : Text :=
  if c = '"' then ['\\', '"']
  else if c = '\\' then ['\\', '\\']
  else if c = '\n' then ['\\', 'n']
  else if c = '\r' then ['\\', 'r']
  else if c = '\t' then ['\\', 't']
  else if c.toNat = 8 then ['\\', 'b']
  else if c.toNat = 12 then ['\\', 'f']
  else if c.toNat < 32 then ['\\', 'u'] ++ Text.hexLower 4 c.toNat
  else [c]

/-- A text as a JSON string. -/
def quoted (t : Text) : Text := '"' :: t.flatMap escaped ++ ['"']

end Json

end MarkdownWeave
