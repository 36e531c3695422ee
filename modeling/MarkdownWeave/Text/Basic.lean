/-!
# Texts

A text is the list of its characters, in order.  Everything the library reads, keeps or writes is
a text, so that its laws are laws about lists; a quoted literal stands for its characters.

## Main definitions

* `Text` — a list of characters.
* `Text.ofNat`, `Text.ofInt` — decimal numerals.
* `Text.splitOn`, `Text.lines`, `Text.unlines` — a text as the pieces between separators.
* `Text.trimEndBy`, `Text.dropCr` — what a line is without its ending.

`unlines_lines` and `lines_unlines` say that cutting a text into lines loses nothing, and neither
does putting them together again.
-/

namespace MarkdownWeave

/-- A text: the list of its characters. -/
abbrev Text := List Char

instance : Coe String Text := ⟨String.toList⟩

instance : LawfulBEq Text := inferInstance

namespace Text

/-! ### Numerals -/

/-- The decimal numeral of a natural number. -/
def ofNat (n : Nat) : Text := Nat.toDigits 10 n

/-- The decimal numeral of an integer, with a minus sign for a negative one. -/
def ofInt : Int → Text
  | .ofNat n => ofNat n
  | .negSucc n => '-' :: ofNat (n + 1)

/-- Whether a character is one of the ten ASCII digits. -/
def isDigit (c : Char) : Bool := '0' ≤ c && c ≤ '9'

/-- Whether a character is an ASCII letter. -/
def isLetter (c : Char) : Bool := ('a' ≤ c && c ≤ 'z') || ('A' ≤ c && c ≤ 'Z')

/-- The value of a digit in the bases up to sixteen; letters count in either case. -/
def digitValue? (c : Char) : Option Nat :=
  if isDigit c then some (c.toNat - '0'.toNat)
  else if 'a' ≤ c ∧ c ≤ 'f' then some (c.toNat - 'a'.toNat + 10)
  else if 'A' ≤ c ∧ c ≤ 'F' then some (c.toNat - 'A'.toNat + 10)
  else none

/-- Reads the digits of a base one after the other onto a number already read. -/
def readDigits (base : Nat) : Nat → Text → Option Nat
  | n, [] => some n
  | n, c :: cs =>
    match digitValue? c with
    | some d => if d < base then readDigits base (n * base + d) cs else none
    | none => none

/-- The natural number a non-empty text of digits denotes in a base. -/
def toNat? (base : Nat) : Text → Option Nat
  | [] => none
  | c :: cs => readDigits base 0 (c :: cs)

/-- The number a text of decimal digits denotes; characters that are no digits count as zero. -/
def decimalValue (t : Text) : Nat := (readDigits 10 0 t).getD 0

/-- A number in upper-case hexadecimal with exactly `width` digits. -/
def hexUpper : Nat → Nat → Text
  | 0, _ => []
  | width + 1, n => hexUpper width (n / 16) ++ [(Nat.digitChar (n % 16)).toUpper]

/-- A number in lower-case hexadecimal with exactly `width` digits. -/
def hexLower : Nat → Nat → Text
  | 0, _ => []
  | width + 1, n => hexLower width (n / 16) ++ [Nat.digitChar (n % 16)]

/-! ### Pieces -/

/-- The pieces of a text between the occurrences of a separator; there is always at least one. -/
def splitOn (c : Char) : Text → List Text
  | [] => [[]]
  | x :: xs =>
    if x = c then [] :: splitOn c xs
    else
      match splitOn c xs with
      | [] => [[x]]
      | p :: ps => (x :: p) :: ps

/-- Joins pieces with a separator between each two. -/
def joinWith (sep : Text) : List Text → Text
  | [] => []
  | [p] => p
  | p :: q :: ps => p ++ sep ++ joinWith sep (q :: ps)

/-- The lines of a text: its pieces between line feeds. -/
def lines (t : Text) : List Text := splitOn '\n' t

/-- Lines put back together, with a line feed between each two. -/
def unlines (ls : List Text) : Text := joinWith ['\n'] ls

@[simp] theorem splitOn_nil (c : Char) : splitOn c [] = [[]] := rfl

@[simp] theorem joinWith_nil (sep : Text) : joinWith sep [] = [] := rfl

@[simp] theorem joinWith_singleton (sep p : Text) : joinWith sep [p] = p := rfl

@[simp] theorem joinWith_cons_cons (sep p q : Text) (ps : List Text) :
    joinWith sep (p :: q :: ps) = p ++ sep ++ joinWith sep (q :: ps) := rfl

theorem splitOn_ne_nil (c : Char) (t : Text) : splitOn c t ≠ [] := by
  cases t with
  | nil => simp
  | cons x xs =>
    by_cases h : x = c
    · simp [splitOn, h]
    · cases hs : splitOn c xs <;> simp [splitOn, h, hs]

/-- Pieces joined with the separator they were cut at give the text back. -/
theorem joinWith_splitOn (c : Char) (t : Text) : joinWith [c] (splitOn c t) = t := by
  induction t with
  | nil => rfl
  | cons x xs ih =>
    cases hs : splitOn c xs with
    | nil => exact absurd hs (splitOn_ne_nil c xs)
    | cons p ps =>
      rw [hs] at ih
      by_cases h : x = c
      · simp [splitOn, h, hs, ih]
      · cases ps with
        | nil => simpa [splitOn, h, hs] using ih
        | cons q qs => simpa [splitOn, h, hs] using ih

/-- Cutting a text into lines loses nothing. -/
theorem unlines_lines (t : Text) : unlines (lines t) = t := joinWith_splitOn '\n' t

/-- A piece ends at the first separator. -/
theorem splitOn_append {c : Char} {p : Text} (h : c ∉ p) (t : Text) :
    splitOn c (p ++ c :: t) = p :: splitOn c t := by
  induction p with
  | nil => simp [splitOn]
  | cons x xs ih =>
    rw [List.mem_cons, not_or] at h
    rw [List.cons_append, splitOn, if_neg (Ne.symm h.1), ih h.2]

theorem splitOn_of_not_mem {c : Char} {p : Text} (h : c ∉ p) : splitOn c p = [p] := by
  induction p with
  | nil => rfl
  | cons x xs ih =>
    rw [List.mem_cons, not_or] at h
    rw [splitOn, if_neg (Ne.symm h.1), ih h.2]

/-- No piece has the separator in it. -/
theorem not_mem_of_mem_splitOn {c : Char} {t p : Text} (h : p ∈ splitOn c t) : c ∉ p := by
  induction t generalizing p with
  | nil => simp_all
  | cons x xs ih =>
    by_cases hx : x = c
    · rw [splitOn, if_pos hx, List.mem_cons] at h
      rcases h with rfl | h
      · exact List.not_mem_nil
      · exact ih h
    · rw [splitOn, if_neg hx] at h
      cases hs : splitOn c xs with
      | nil => exact absurd hs (splitOn_ne_nil c xs)
      | cons q qs =>
        rw [hs] at h ih
        -- only the first piece gets longer, by a character that is not the separator
        rcases List.mem_cons.1 h with rfl | h
        · rw [List.mem_cons, not_or]
          exact ⟨Ne.symm hx, ih List.mem_cons_self⟩
        · exact ih (List.mem_cons_of_mem q h)

/-- Pieces that do not have the separator in them are found again in their join. -/
theorem splitOn_joinWith {c : Char} {ps : List Text} (hne : ps ≠ []) (h : ∀ p ∈ ps, c ∉ p) :
    splitOn c (joinWith [c] ps) = ps := by
  induction ps with
  | nil => exact absurd rfl hne
  | cons p ps ih =>
    have hp : c ∉ p := h p List.mem_cons_self
    cases ps with
    | nil => exact splitOn_of_not_mem hp
    | cons q qs =>
      rw [joinWith_cons_cons, List.append_assoc, List.singleton_append, splitOn_append hp,
        ih (List.cons_ne_nil q qs) fun x hx => h x (List.mem_cons_of_mem p hx)]

/-- Around a separator a text is cut into the pieces before it and those behind it. -/
theorem splitOn_append_cons (c : Char) (a b : Text) :
    splitOn c (a ++ c :: b) = splitOn c a ++ splitOn c b := by
  induction a with
  | nil => simp [splitOn]
  | cons x xs ih =>
    by_cases hx : x = c
    · simp [splitOn, hx, ih]
    · cases hs : splitOn c xs with
      | nil => exact absurd hs (splitOn_ne_nil c xs)
      | cons p ps =>
        rw [hs] at ih
        simp [splitOn, hx, hs, ih]

theorem lines_append_lf (a b : Text) : lines (a ++ '\n' :: b) = lines a ++ lines b :=
  splitOn_append_cons '\n' a b

/-- The lines above one end with a line feed, and those below begin with one. -/
theorem unlines_around (above : List Text) (line : Text) (below : List Text) :
    unlines (above ++ line :: below) =
      above.flatMap (· ++ ['\n']) ++ line ++ below.flatMap ('\n' :: ·) := by
  have hbelow : ∀ line, unlines (line :: below) = line ++ below.flatMap ('\n' :: ·) := by
    induction below with
    | nil => simp [unlines]
    | cons first below ih =>
      intro line
      have h := ih first
      rw [unlines] at h ⊢
      rw [joinWith_cons_cons, h]
      simp
  induction above with
  | nil => exact hbelow line
  | cons first above ih =>
    cases above with
    | nil =>
      rw [unlines] at ih ⊢
      rw [List.nil_append] at ih
      simp [ih]
    | cons second above =>
      rw [unlines] at ih ⊢
      rw [List.cons_append] at ih
      simp [ih]

theorem lines_ne_nil (t : Text) : lines t ≠ [] := splitOn_ne_nil '\n' t

theorem not_mem_of_mem_lines {t line : Text} (h : line ∈ lines t) : '\n' ∉ line :=
  not_mem_of_mem_splitOn h

/-- Putting lines together loses nothing either, if they are lines. -/
theorem lines_unlines {ls : List Text} (hne : ls ≠ []) (h : ∀ line ∈ ls, '\n' ∉ line) :
    lines (unlines ls) = ls := splitOn_joinWith hne h

/-! ### Ends -/

/-- A text without the longest ending whose characters all satisfy `p`. -/
def trimEndBy (p : Char → Bool) : Text → Text
  | [] => []
  | c :: cs =>
    match trimEndBy p cs with
    | [] => if p c then [] else [c]
    | d :: ds => c :: d :: ds

/-- A text is what is left of it without such an ending, and the ending. -/
theorem exists_trimEndBy_append (p : Char → Bool) (t : Text) :
    ∃ ending, t = trimEndBy p t ++ ending ∧ ∀ c ∈ ending, p c = true := by
  induction t with
  | nil => exact ⟨[], rfl, by simp⟩
  | cons c cs ih =>
    obtain ⟨ending, he, hp⟩ := ih
    rw [trimEndBy]
    cases ht : trimEndBy p cs with
    | nil =>
      rw [ht, List.nil_append] at he
      by_cases hc : p c = true
      · exact ⟨c :: cs, by simp [hc], List.forall_mem_cons.2 ⟨hc, he ▸ hp⟩⟩
      · exact ⟨ending, by simp [hc, ← he], hp⟩
    | cons d ds =>
      rw [ht] at he
      exact ⟨ending, congrArg (c :: ·) he, hp⟩

/-- Whether a text ends with the character `c`. -/
def endsWith (c : Char) (t : Text) : Bool := t.getLast? == some c

/-- A line without its final carriage return, if it has one. -/
def dropCr (line : Text) : Text := if endsWith '\r' line then line.dropLast else line

/-- A line is what is left of it without its carriage return, and the carriage return. -/
theorem dropCr_append (line : Text) :
    dropCr line ++ (if endsWith '\r' line then ['\r'] else []) = line := by
  unfold dropCr endsWith
  split
  · next h =>
    obtain ⟨words, rfl⟩ := List.getLast?_eq_some_iff.1 (eq_of_beq h)
    rw [List.dropLast_concat]
  · exact List.append_nil line

/-- The text after the first occurrence of `c` and the text before it, if `c` occurs. -/
def splitAt? (c : Char) : Text → Option (Text × Text)
  | [] => none
  | x :: xs => if x = c then some ([], xs) else (splitAt? c xs).map fun (l, r) => (x :: l, r)

theorem splitAt?_eq_some_iff {c : Char} {t l r : Text} :
    splitAt? c t = some (l, r) ↔ t = l ++ c :: r ∧ c ∉ l := by
  induction t generalizing l with
  | nil => simp [splitAt?]
  | cons x xs ih =>
    by_cases hx : x = c
    · subst hx
      rw [splitAt?, if_pos rfl]
      cases l with
      | nil => simp [eq_comm]
      | cons y l => simp +contextual [eq_comm]
    · rw [splitAt?, if_neg hx]
      cases l with
      | nil => simp [hx]
      | cons y l =>
        rw [Option.map_eq_some_iff, List.cons_append, List.cons.injEq, List.mem_cons, not_or]
        constructor
        · rintro ⟨⟨l', r'⟩, hs, he⟩
          obtain ⟨⟨rfl, rfl⟩, rfl⟩ := he
          obtain ⟨rfl, hl⟩ := ih.1 hs
          exact ⟨⟨rfl, rfl⟩, Ne.symm hx, hl⟩
        · rintro ⟨⟨rfl, he⟩, -, hl⟩
          exact ⟨(l, r), ih.2 ⟨he, hl⟩, rfl⟩

end Text

end MarkdownWeave
