import MarkdownWeave.Text.Basic

/-!
# Blank characters

The characters with the Unicode property `White_Space`, which pad placeholder names, indent
reference lines and are trimmed from the ends of a text.

## Main definitions

* `Text.isBlank` — whether a character is white space.
* `Text.trim` — a text without the white space at its ends.
-/

namespace MarkdownWeave

namespace Text

/-- Whether a character has the Unicode property `White_Space`. -/
def isBlank (c : Char) : Bool :=
  let n := c.toNat
  (0x09 ≤ n && n ≤ 0x0D) || n == 0x20 || n == 0x85 || n == 0xA0 || n == 0x1680 ||
    (0x2000 ≤ n && n ≤ 0x200A) || n == 0x2028 || n == 0x2029 || n == 0x202F || n == 0x205F ||
    n == 0x3000

/-- A text without the white space at its end. -/
def trimEnd (t : Text) : Text := trimEndBy isBlank t

/-- A text without the white space at either end. -/
def trim (t : Text) : Text := trimEnd (t.dropWhile isBlank)

/-- The ASCII white space is among the blank characters. -/
theorem isBlank_of_isWhitespace {c : Char} (h : c.isWhitespace = true) : isBlank c = true := by
  simp only [Char.isWhitespace, Bool.or_eq_true, decide_eq_true_eq] at h
  rcases h with ((rfl | rfl) | rfl) | rfl <;> rfl

theorem isBlank_cr : isBlank '\r' = true := rfl

/-- No ASCII letter is white space. -/
theorem isBlank_eq_false_of_isLetter {c : Char} (h : isLetter c = true) : isBlank c = false := by
  have hn : c.toNat = c.val.toNat := rfl
  simp only [isLetter, Bool.or_eq_true, Bool.and_eq_true, decide_eq_true_eq, Char.le_def,
    UInt32.le_iff_toNat_le] at h
  rcases h with h | h
  · change 97 ≤ c.val.toNat ∧ c.val.toNat ≤ 122 at h
    simp [isBlank]
    omega
  · change 65 ≤ c.val.toNat ∧ c.val.toNat ≤ 90 at h
    simp [isBlank]
    omega

/-- Nor is an ASCII digit. -/
theorem isBlank_eq_false_of_isDigit {c : Char} (h : isDigit c = true) : isBlank c = false := by
  have hn : c.toNat = c.val.toNat := rfl
  simp only [isDigit, Bool.and_eq_true, decide_eq_true_eq, Char.le_def,
    UInt32.le_iff_toNat_le] at h
  change 48 ≤ c.val.toNat ∧ c.val.toNat ≤ 57 at h
  simp [isBlank]
  omega

end Text

end MarkdownWeave
