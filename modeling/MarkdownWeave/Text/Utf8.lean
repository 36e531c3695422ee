import MarkdownWeave.Text.Basic

/-!
# UTF-8

Texts as bytes.  Reading is strict: surrogates, over-long forms, stray continuation bytes and
sequences that are cut short are refused.

## Main definitions

* `Text.utf8` — the bytes of a text.
* `Text.byteSize` — how many bytes a text has.
* `Text.ofUtf8` — the text that a list of bytes encodes, or where it is faulty.
-/

namespace MarkdownWeave

namespace Text

/-! ### Writing -/

/-- The UTF-8 bytes of one character. -/
def utf8Char (c : Char) : List UInt8 :=
  let n := c.toNat
  let tail (k : Nat) : UInt8 := (0x80 + n / Nat.pow 64 k % 64).toUInt8
  if n < 0x80 then [n.toUInt8]
  else if n < 0x800 then [(0xC0 + n / 64).toUInt8, tail 0]
  else if n < 0x10000 then [(0xE0 + n / Nat.pow 64 2).toUInt8, tail 1, tail 0]
  else [(0xF0 + n / Nat.pow 64 3).toUInt8, tail 2, tail 1, tail 0]

/-- The UTF-8 bytes of a text. -/
def utf8 (t : Text) : List UInt8 := t.flatMap utf8Char

/-- The number of bytes of a text. -/
def byteSize (t : Text) : Nat := (utf8 t).length

@[simp] theorem utf8_nil : utf8 [] = [] := rfl

theorem utf8_append (s t : Text) : utf8 (s ++ t) = utf8 s ++ utf8 t := by
  simp [utf8]

theorem byteSize_append (s t : Text) : byteSize (s ++ t) = byteSize s + byteSize t := by
  simp [byteSize, utf8_append]

/-! ### Reading -/

/-- Where bytes stop being UTF-8. -/
structure Utf8Fault where
  /-- The index of the first byte of the faulty sequence. -/
  index : Nat
  /-- How many bytes of it could have begun a character; none if the bytes end too early. -/
  length : Option Nat
deriving DecidableEq

/-- A fault in words. -/
def Utf8Fault.message (f : Utf8Fault) : Text :=
  match f.length with
  | some n =>
    "invalid utf-8 sequence of " ++ ofNat n ++ " bytes from index " ++ ofNat f.index
  | none => "incomplete utf-8 byte sequence from index " ++ ofNat f.index

/-- A character of which the last bytes are still to come. -/
structure Utf8Pending where
  /-- How many bytes have been read. -/
  taken : Nat
  /-- How many bytes are missing. -/
  missing : Nat
  /-- The bits read so far. -/
  value : Nat
  /-- The least byte that may come next. -/
  low : Nat
  /-- The greatest byte that may come next. -/
  high : Nat

/-- What the first byte of a character announces; nothing for a byte that begins none.  The bounds
for the second byte leave out the surrogates, the code points above the last one and those that
have a shorter form. -/
def Utf8Pending.ofLead? (b : UInt8) : Option Utf8Pending :=
  let n := b.toNat
  if n < 0x80 then some ⟨1, 0, n, 0x80, 0xBF⟩
  else if n < 0xC2 then none
  else if n < 0xE0 then some ⟨1, 1, n - 0xC0, 0x80, 0xBF⟩
  else if n < 0xF0 then
    some ⟨1, 2, n - 0xE0, if n = 0xE0 then 0xA0 else 0x80, if n = 0xED then 0x9F else 0xBF⟩
  else if n < 0xF5 then
    some ⟨1, 3, n - 0xF0, if n = 0xF0 then 0x90 else 0x80, if n = 0xF4 then 0x8F else 0xBF⟩
  else none

/-- A character with one more byte of it. -/
def Utf8Pending.continue? (p : Utf8Pending) (b : UInt8) : Option Utf8Pending :=
  let n := b.toNat
  if p.low ≤ n ∧ n ≤ p.high then
    some ⟨p.taken + 1, p.missing - 1, p.value * 64 + (n - 0x80), 0x80, 0xBF⟩
  else none

/-- What one more byte makes of a character that is pending, or begins. -/
def Utf8Pending.next? (state : Option Utf8Pending) (b : UInt8) : Option Utf8Pending :=
  match state with
  | none => Utf8Pending.ofLead? b
  | some p => p.continue? b

/-- The fault of a byte at an index that cannot go on with a character, or begin one. -/
def Utf8Fault.ofState (index : Nat) (state : Option Utf8Pending) : Utf8Fault :=
  match state with
  | none => ⟨index, some 1⟩
  | some p => ⟨index - p.taken, some p.taken⟩

/-- Reads bytes from a given index on, in the middle of a character if there is one pending. -/
def readUtf8 (index : Nat) (state : Option Utf8Pending) : List UInt8 → Except Utf8Fault Text
  | [] =>
    match state with
    | none => .ok []
    | some p => .error ⟨index - p.taken, none⟩
  | b :: bs =>
    match Utf8Pending.next? state b with
    | none => .error (Utf8Fault.ofState index state)
    | some p =>
      if p.missing = 0 then (readUtf8 (index + 1) none bs).map (Char.ofNat p.value :: ·)
      else readUtf8 (index + 1) (some p) bs

/-- The text that a list of bytes encodes, or where it is no UTF-8. -/
def ofUtf8 (bytes : List UInt8) : Except Utf8Fault Text := readUtf8 0 none bytes

/-- The text that a list of bytes encodes, if it is well-formed UTF-8. -/
def ofUtf8? (bytes : List UInt8) : Option Text := (ofUtf8 bytes).toOption

end Text

end MarkdownWeave
