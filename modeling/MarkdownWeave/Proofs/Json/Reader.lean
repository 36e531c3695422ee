import Mathlib.Data.List.DropRight
import Mathlib.Tactic.SplitIfs
import MarkdownWeave.Json.Quoted
import MarkdownWeave.Proofs.Doubles.Shortest
import MarkdownWeave.Value.Json

/-!
# Reading JSON

A strict reader of JSON texts: literals, strings with all their escapes, numbers, arrays and
objects, with white space between the parts and nothing behind the last.  A number without a
fraction and an exponent is an integer, and every other number the double nearest to it.  An object
keeps all of its members in order, also those with the same name.

## Main definitions

* `Json` — what a JSON text says.
* `Json.string?`, `Json.numeral?`, `Json.collection?` — the parts of the reader.
* `Json.read?` — reading a whole text.

## Main results

* `Json.string?_quoted` — **a quoted text is read character for character.**
* `Json.numeral?_ofInt`, `Json.numeral?_double` — numbers are read as themselves.
* `Json.collection?_joinWith` — what has been joined with commas is read one by one.
* `Json.reads_array`, `Json.reads_object` — a text is read if the texts in it are.
-/

namespace MarkdownWeave

/-- What a JSON text says. -/
inductive Json
  /-- The null value. -/
  | null
  /-- A truth value. -/
  | bool (b : Bool)
  /-- A number without a fraction and an exponent. -/
  | int (n : Int)
  /-- Any other number, as the double nearest to it. -/
  | double (x : Binary64)
  /-- A string. -/
  | string (t : Text)
  /-- An array. -/
  | array (items : List Json)
  /-- An object, with its members in order. -/
  | object (members : List (Text × Json))

namespace Json

/-- A reader takes what it reads from the beginning of a text, and leaves the rest. -/
abbrev Reader (α : Type) := Text → Option (α × Text)

/-- Whether a character is white space. -/
def isSpace (c : Char) : Bool := c == ' ' || c == '\t' || c == '\n' || c == '\r'

/-- A text without the white space at its beginning. -/
def skip (t : Text) : Text := t.dropWhile isSpace

/-! ### Strings -/

/-- The number that four hexadecimal digits denote, and what follows them. -/
def unit? (t : Text) : Option (Nat × Text) :=
  if (t.take 4).length = 4 then (Text.toNat? 16 (t.take 4)).map fun n => (n, t.drop 4) else none

/-- The character that an escape stands for, and what follows it.  Characters that need more than
one unit are escaped as a pair of surrogates, and a surrogate alone is no character. -/
def escape? : Reader Char
  | '"' :: rest => some ('"', rest)
  | '\\' :: rest => some ('\\', rest)
  | '/' :: rest => some ('/', rest)
  | 'b' :: rest => some ('\x08', rest)
  | 'f' :: rest => some ('\x0c', rest)
  | 'n' :: rest => some ('\n', rest)
  | 'r' :: rest => some ('\r', rest)
  | 't' :: rest => some ('\t', rest)
  | 'u' :: rest =>
    match unit? rest with
    | some (n, rest) =>
      if n < 0xD800 ∨ 0xDFFF < n then some (Char.ofNat n, rest)
      else if 0xDC00 ≤ n then none
      else
        match rest with
        | '\\' :: 'u' :: rest =>
          match unit? rest with
          | some (m, rest) =>
            if 0xDC00 ≤ m ∧ m ≤ 0xDFFF then
              some (Char.ofNat (0x10000 + (n - 0xD800) * 0x400 + (m - 0xDC00)), rest)
            else none
          | none => none
        | _ => none
    | none => none
  | _ => none

/-- Reads the characters up to a closing quote, at most as many as the first argument says. -/
def characters? : Nat → Reader Text
  | 0, _ => none
  | _ + 1, [] => none
  | n + 1, c :: rest =>
    if c = '"' then some ([], rest)
    else if c = '\\' then
      match escape? rest with
      | some (d, rest) => (characters? n rest).map fun (more, rest) => (d :: more, rest)
      | none => none
    else if c.toNat < 32 then none
    else (characters? n rest).map fun (more, rest) => (c :: more, rest)

/-- Reads a string. -/
def string? : Reader Text
  | '"' :: rest => characters? (rest.length + 1) rest
  | _ => none

theorem escaped_ne_nil (c : Char) : escaped c ≠ [] := by
  unfold escaped
  split_ifs <;> simp

theorem length_le_length_flatMap_escaped (t : Text) : t.length ≤ (t.flatMap escaped).length := by
  induction t with
  | nil => exact Nat.le_refl 0
  | cons c t ih =>
    have hc : 0 < (escaped c).length := List.length_pos_iff.2 (escaped_ne_nil c)
    rw [List.flatMap_cons, List.length_append, List.length_cons]
    omega

theorem length_hexLower (width n : Nat) : (Text.hexLower width n).length = width := by
  induction width generalizing n with
  | zero => rfl
  | succ width ih => rw [Text.hexLower, List.length_append, ih, List.length_singleton]

/-- The four digits of a control character are read as its number. -/
theorem unit?_hexLower {n : Nat} (hn : n < 32) (rest : Text) :
    unit? (Text.hexLower 4 n ++ rest) = some (n, rest) := by
  have hread : ∀ n < 32, Text.toNat? 16 (Text.hexLower 4 n) = some n := by decide
  have hlen : (Text.hexLower 4 n).length = 4 := length_hexLower 4 n
  rw [unit?, List.take_left' hlen, List.drop_left' hlen, if_pos hlen, hread n hn]
  rfl

/-- What has been escaped is read as one character. -/
theorem characters?_escaped (c : Char) (n : Nat) (rest : Text) :
    characters? (n + 1) (escaped c ++ rest) =
      (characters? n rest).map fun (more, rest) => (c :: more, rest) := by
  have hbind (d : Char) {t : Text} (he : escape? t = some (d, rest)) :
      characters? (n + 1) ('\\' :: t) =
        (characters? n rest).map fun (more, rest) => (d :: more, rest) := by
    rw [characters?, if_neg (by decide), if_pos rfl, he]
  unfold escaped
  split_ifs with hquote hbackslash hlf hcr htab hbs hff hcontrol
  · rw [hquote]
    exact hbind '"' rfl
  · rw [hbackslash]
    exact hbind '\\' rfl
  · rw [hlf]
    exact hbind '\n' rfl
  · rw [hcr]
    exact hbind '\r' rfl
  · rw [htab]
    exact hbind '\t' rfl
  · have hc : c = '\x08' := by rw [← Char.ofNat_toNat c, hbs]
    rw [hc]
    exact hbind '\x08' rfl
  · have hc : c = '\x0c' := by rw [← Char.ofNat_toNat c, hff]
    rw [hc]
    exact hbind '\x0c' rfl
  · refine hbind c (t := 'u' :: (Text.hexLower 4 c.toNat ++ rest)) ?_
    simp only [escape?, unit?_hexLower hcontrol]
    rw [if_pos (by omega), Char.ofNat_toNat]
  · rw [List.singleton_append, characters?, if_neg hquote, if_neg hbackslash, if_neg hcontrol]

theorem characters?_flatMap_escaped {t : Text} {n : Nat} (hn : t.length < n) (rest : Text) :
    characters? n (t.flatMap escaped ++ '"' :: rest) = some (t, rest) := by
  induction t generalizing n with
  | nil =>
    obtain ⟨n, rfl⟩ := Nat.exists_eq_succ_of_ne_zero (Nat.ne_of_gt hn)
    rfl
  | cons c t ih =>
    obtain ⟨n, rfl⟩ := Nat.exists_eq_succ_of_ne_zero (Nat.ne_of_gt (Nat.zero_lt_of_lt hn))
    rw [List.flatMap_cons, List.append_assoc, characters?_escaped,
      ih (Nat.lt_of_succ_lt_succ hn)]
    rfl

/-- **A quoted text is read character for character.** -/
theorem string?_quoted (t rest : Text) : string? (quoted t ++ rest) = some (t, rest) := by
  have hlen := length_le_length_flatMap_escaped t
  rw [quoted, List.cons_append, List.cons_append, List.append_assoc, List.singleton_append, string?]
  refine characters?_flatMap_escaped ?_ rest
  rw [List.length_append]
  omega

/-! ### Numbers -/

/-- Whether a character can stand in a number. -/
def isNumeralChar (c : Char) : Bool :=
  Text.isDigit c || c == '-' || c == '+' || c == '.' || c == 'e' || c == 'E'

/-- Digits that do not begin with a zero, or a zero alone. -/
def isWhole : Text → Bool
  | [] => false
  | c :: cs => (c :: cs).all Text.isDigit && (c != '0' || cs.isEmpty)

/-- One or more digits, behind a sign or without one. -/
def isPower : Text → Bool
  | '+' :: ds => !ds.isEmpty && ds.all Text.isDigit
  | '-' :: ds => !ds.isEmpty && ds.all Text.isDigit
  | ds => !ds.isEmpty && ds.all Text.isDigit

/-- Nothing, or the letter of an exponent and a power. -/
def isExponent : Text → Bool
  | [] => true
  | c :: t => (c == 'e' || c == 'E') && isPower t

/-- What can follow the whole part of a number: a fraction, an exponent, or both. -/
def isFraction : Text → Bool
  | '.' :: t => !(t.takeWhile Text.isDigit).isEmpty && isExponent (t.dropWhile Text.isDigit)
  | t => isExponent t

/-- The number that a text without a sign denotes, with the given sign put in front.  The third
argument is the text with its sign. -/
def unsigned? (negative : Bool) (t whole : Text) : Option Json :=
  let digits := t.takeWhile Text.isDigit
  let rest := t.dropWhile Text.isDigit
  if !isWhole digits then none
  else if rest.isEmpty then
    let n : Int := Text.decimalValue digits
    some (.int (if negative then -n else n))
  else if isFraction rest then (Binary64.ofText? whole).map .double
  else none

/-- The number that a text denotes. -/
def numeral? : Text → Option Json
  | '-' :: t => unsigned? true t ('-' :: t)
  | t => unsigned? false t t

/-- Reads a number: the longest beginning that is made of the characters of numbers. -/
def number? (t : Text) : Option (Json × Text) :=
  (numeral? (t.takeWhile isNumeralChar)).map fun j => (j, t.dropWhile isNumeralChar)

/-- What a number can be followed by. -/
def Ends (rest : Text) : Prop := ∀ c, rest.head? = some c → isNumeralChar c = false

/-- A number is read up to the first character that cannot stand in one. -/
theorem number?_append {t : Text} {j : Json} (h : numeral? t = some j)
    (ht : ∀ c ∈ t, isNumeralChar c = true) {rest : Text} (hrest : Ends rest) :
    number? (t ++ rest) = some (j, rest) := by
  obtain ⟨htake, hdrop⟩ := takeWhile_dropWhile_append ht hrest
  rw [number?, htake, hdrop, h]
  rfl

/-- Digits are the whole part of a number, unless a zero stands before others. -/
theorem isWhole_of_isDigit {ds : Text} (h : ∀ c ∈ ds, Text.isDigit c = true) (hne : ds ≠ [])
    (hzero : ds = ['0'] ∨ ds.head? ≠ some '0') : isWhole ds = true := by
  cases ds with
  | nil => exact absurd rfl hne
  | cons c cs =>
    rw [isWhole, List.all_eq_true.2 h]
    rcases hzero with hzero | hhead
    · cases hzero
      rfl
    · have hc : c ≠ '0' := by simpa using hhead
      simp [hc]

/-- A natural number is read as itself, with the sign that is put in front. -/
theorem unsigned?_ofNat (negative : Bool) (n : Nat) (whole : Text) :
    unsigned? negative (Text.ofNat n) whole = some (.int (if negative then -n else n)) := by
  have hall : ∀ c ∈ Text.ofNat n, Text.isDigit c = true := fun c => Text.isDigit_of_mem_ofNat
  have hzero : Text.ofNat n = ['0'] ∨ (Text.ofNat n).head? ≠ some '0' := by
    rcases Nat.eq_zero_or_pos n with rfl | hn
    · exact Or.inl rfl
    · exact Or.inr (Text.head?_ofNat_ne (Nat.ne_of_gt hn))
  obtain ⟨htake, hdrop⟩ := takeWhile_dropWhile_append (b := []) hall (by simp)
  rw [List.append_nil] at htake hdrop
  rw [unsigned?, htake, hdrop, isWhole_of_isDigit hall (Text.ofNat_ne_nil n) hzero,
    Text.decimalValue_ofNat]
  rfl

/-- A text that begins with a digit has no sign. -/
theorem numeral?_of_isDigit {t : Text} (h : ∀ c, t.head? = some c → Text.isDigit c = true) :
    numeral? t = unsigned? false t t := by
  rw [numeral?]
  rintro t rfl
  exact absurd (h '-' rfl) (by decide)

/-- **An integer is read as itself.** -/
theorem numeral?_ofInt (n : Int) : numeral? (Text.ofInt n) = some (.int n) := by
  cases n with
  | ofNat n =>
    rw [Text.ofInt, numeral?_of_isDigit fun c hc => Text.isDigit_of_mem_ofNat
      (List.mem_of_mem_head? hc), unsigned?_ofNat]
    rfl
  | negSucc n =>
    rw [Text.ofInt, numeral?, unsigned?_ofNat]
    rfl

section Doubles

open Binary64 (Decimal)

variable {d : Decimal} (l : d.Layout)

/-- The power of ten of a decimal is an exponent. -/
theorem isExponent_powerText : isExponent (l.powerText ['+']) = true := by
  have hpower (n : Nat) : (!(Text.ofNat n).isEmpty && (Text.ofNat n).all Text.isDigit) = true := by
    rw [Text.all_isDigit_ofNat]
    simpa using Text.ofNat_ne_nil n
  rw [Decimal.Layout.powerText]
  cases l.power with
  | none => rfl
  | some e =>
    cases e with
    | ofNat n => exact hpower n
    | negSucc n => exact hpower (n + 1)

/-- What follows the whole part is a fraction, a power of ten, or both. -/
theorem isFraction_layout : isFraction (l.fractionText ++ l.powerText ['+']) = true := by
  have hpower := isExponent_powerText l
  obtain ⟨htake, hdrop⟩ := l.takeWhile_dropWhile_fraction ['+']
  rw [Decimal.Layout.fractionText]
  split
  · rw [List.nil_append, isFraction]
    · exact hpower
    · intro t ht
      rw [ht] at hpower
      cases hpower
  · next hne =>
    rw [List.cons_append, isFraction, htake, hdrop, hpower, Bool.and_true]
    simpa using hne

/-- A decimal with a fraction or a power of ten is read as a double. -/
theorem unsigned?_layout (hd : d.digits ≠ 0) (negative : Bool) (t : Text) :
    unsigned? negative (l.text ['+']) t = (Binary64.ofText? t).map .double := by
  have hwhole : isWhole l.whole = true := isWhole_of_isDigit
    (fun c hc => l.isDigit_of_mem (List.mem_append_left l.fraction hc)) l.whole_ne_nil
    (l.whole_eq_or_head?_ne hd)
  obtain ⟨htake, hdrop⟩ := l.takeWhile_dropWhile_text ['+']
  rw [unsigned?, htake, hdrop, hwhole, isFraction_layout l]
  simp [l.fractionText_append_powerText_ne_nil]

/-- **A finite double other than zero is read as itself.** -/
theorem numeral?_double {m : Nat} {q : Int} (h : Binary64.Fits m q) (hm : m ≠ 0)
    (negative : Bool) : numeral? (Binary64.text Value.jsonFloatStyle (.finite negative m q)) =
      some (.double (.finite negative m q)) := by
  have hread := Binary64.ofText?_text Value.jsonFloatStyle (Or.inr rfl) h negative
  obtain ⟨l, hl⟩ := (Binary64.shortest m q).exists_layout ['+']
  have htext : Binary64.text Value.jsonFloatStyle (.finite negative m q) =
      (if negative then ['-'] else []) ++ l.text ['+'] := by
    rw [← hl, Binary64.text, if_neg hm]
    rfl
  have hdigits := Binary64.shortest_digits_ne_zero h hm
  rw [htext] at hread ⊢
  cases negative with
  | true =>
    rw [if_pos rfl] at hread ⊢
    rw [List.singleton_append, numeral?, unsigned?_layout l hdigits, ← List.singleton_append, hread]
    rfl
  | false =>
    rw [if_neg Bool.false_ne_true, List.nil_append] at hread ⊢
    rw [numeral?_of_isDigit fun _ => Binary64.isDigit_of_head?_text l ['+'],
      unsigned?_layout l hdigits, hread]
    rfl

end Doubles

/-! ### Collections -/

section Collections

variable {α : Type}

/-- Reads one or more items with commas between them, at most as many as the argument says, up to a
closing bracket. -/
def items? (closing : Char) (item : Reader α) : Nat → Reader (List α)
  | 0, _ => none
  | n + 1, t =>
    match item t with
    | some (a, rest) =>
      match skip rest with
      | c :: rest =>
        if c = closing then some ([a], rest)
        else if c = ',' then (items? closing item n rest).map fun (as, rest) => (a :: as, rest)
        else none
      | [] => none
    | none => none

/-- Reads items behind an opening bracket, of which there may be none. -/
def collection? (closing : Char) (item : Reader α) (t : Text) : Option (List α × Text) :=
  match skip t with
  | c :: rest =>
    if c = closing then some ([], rest) else items? closing item (t.length + 1) (c :: rest)
  | [] => none

/-- Reads a name, a colon and a value. -/
def member? (value : Reader α) (t : Text) : Option ((Text × α) × Text) :=
  match string? (skip t) with
  | some (name, rest) =>
    match skip rest with
    | ':' :: rest => (value rest).map fun (a, rest) => ((name, a), rest)
    | _ => none
  | none => none

/-! ### Collections that have been joined -/

/-- A reader reads a text as something, wherever a number could end behind it. -/
def Reads (r : Reader α) (t : Text) (a : α) : Prop :=
  ∀ rest, Ends rest → r (t ++ rest) = some (a, rest)

theorem ends_cons {c : Char} (hc : isNumeralChar c = false) (rest : Text) : Ends (c :: rest) := by
  rintro _ ⟨⟩
  exact hc

theorem skip_skip (t : Text) : skip (skip t) = skip t := List.dropWhile_idempotent _ _

theorem skip_cons {c : Char} (hc : isSpace c = false) (rest : Text) :
    skip (c :: rest) = c :: rest := by
  rw [skip, List.dropWhile_cons, hc]
  rfl

section

variable {closing : Char} {item : Reader α}

theorem items?_of_closing {a : α} {t more rest : Text} (n : Nat) (h : item t = some (a, more))
    (hmore : skip more = closing :: rest) : items? closing item (n + 1) t = some ([a], rest) := by
  simp only [items?, h, hmore, if_true]

theorem items?_of_comma {a : α} {t more rest : Text} (n : Nat) (hne : ',' ≠ closing)
    (h : item t = some (a, more)) (hmore : skip more = ',' :: rest) :
    items? closing item (n + 1) t =
      (items? closing item n rest).map fun (as, rest) => (a :: as, rest) := by
  simp only [items?, h, hmore, if_neg hne, if_true]

/-- Items that have been joined with commas are read one by one. -/
theorem items?_joinWith (hends : ∀ rest, Ends (closing :: rest)) (hspace : isSpace closing = false)
    (hne : ',' ≠ closing) {ts : List Text} {as : List α} (h : List.Forall₂ (Reads item) ts as)
    (hts : ts ≠ []) {n : Nat} (hn : ts.length ≤ n) (rest : Text) :
    items? closing item n (Text.joinWith [','] ts ++ closing :: rest) = some (as, rest) := by
  induction h generalizing n with
  | nil => exact absurd rfl hts
  | @cons t a ts as ht htail ih =>
    cases n with
    | zero => exact absurd hn (by simp)
    | succ n =>
      cases htail with
      | nil =>
        exact items?_of_closing n (ht _ (hends rest)) (skip_cons hspace rest)
      | @cons t' a' ts as ht' htail =>
        have hrest := ih (List.cons_ne_nil t' ts) (Nat.le_of_succ_le_succ hn)
        rw [Text.joinWith_cons_cons, List.append_assoc, List.append_assoc, List.singleton_append,
          items?_of_comma n hne (ht _ (ends_cons rfl _)) (skip_cons rfl _), hrest]
        rfl

theorem length_le_length_joinWith (ts : List Text) :
    ts.length ≤ (Text.joinWith [','] ts).length + 1 := by
  induction ts with
  | nil => exact Nat.zero_le _
  | cons t ts ih =>
    cases ts with
    | nil => simp
    | cons t' ts =>
      rw [Text.joinWith_cons_cons, List.length_append, List.length_append, List.length_cons,
        List.length_singleton]
      omega

/-- **A collection is read item by item**, if white space makes no difference to the reader of an
item, and a closing bracket is not the beginning of one. -/
theorem collection?_joinWith (hends : ∀ rest, Ends (closing :: rest))
    (hspace : isSpace closing = false) (hne : ',' ≠ closing)
    (hskip : ∀ t, item (skip t) = item t) (hclosing : ∀ rest, item (closing :: rest) = none)
    {ts : List Text} {as : List α} (h : List.Forall₂ (Reads item) ts as) (rest : Text) :
    collection? closing item (Text.joinWith [','] ts ++ closing :: rest) = some (as, rest) := by
  by_cases hts : ts = []
  · subst hts
    cases h
    rw [Text.joinWith_nil, List.nil_append, collection?, skip_cons hspace]
    exact if_pos rfl
  · have hlen := length_le_length_joinWith ts
    generalize ht : Text.joinWith [','] ts ++ closing :: rest = t
    have hitems : items? closing item (t.length + 1) t = some (as, rest) := by
      rw [← ht]
      refine items?_joinWith hends hspace hne h hts ?_ rest
      rw [List.length_append]
      omega
    rw [items?, ← hskip t] at hitems
    rw [collection?]
    cases hbegin : skip t with
    | nil =>
      -- the closing bracket is no white space
      have hmem : closing ∈ t := by simp [← ht]
      rw [List.dropWhile_eq_nil_iff.1 hbegin closing hmem] at hspace
      cases hspace
    | cons c more =>
      rw [hbegin] at hitems
      by_cases hc : c = closing
      · rw [hc, hclosing] at hitems
        cases hitems
      · dsimp only
        rw [if_neg hc, items?]
        exact hitems

end

theorem member?_skip (value : Reader α) (t : Text) : member? value (skip t) = member? value t := by
  rw [member?, member?, skip_skip]

end Collections

/-! ### Values -/

/-- Reads a value in which collections are nested less deep than the argument says. -/
def value? : Nat → Reader Json
  | 0, _ => none
  | depth + 1, t =>
    match skip t with
    | 'n' :: 'u' :: 'l' :: 'l' :: rest => some (.null, rest)
    | 't' :: 'r' :: 'u' :: 'e' :: rest => some (.bool true, rest)
    | 'f' :: 'a' :: 'l' :: 's' :: 'e' :: rest => some (.bool false, rest)
    | '"' :: rest => (string? ('"' :: rest)).map fun (s, rest) => (.string s, rest)
    | '[' :: rest => (collection? ']' (value? depth) rest).map fun (js, rest) => (.array js, rest)
    | '\x7b' :: rest =>
      (collection? '\x7d' (member? (value? depth)) rest).map fun (ms, rest) => (.object ms, rest)
    | rest => number? rest

/-- White space in front of a value makes no difference. -/
theorem value?_skip (n : Nat) (t : Text) : value? n (skip t) = value? n t := by
  cases n with
  | zero => rfl
  | succ n =>
    unfold value?
    rw [skip_skip]

/-- What begins with a character of numbers is read as a number. -/
theorem value?_of_isNumeralChar {c : Char} (hc : isNumeralChar c = true) (n : Nat) (t : Text) :
    value? (n + 1) (c :: t) = number? (c :: t) := by
  have hne {d : Char} (hd : isNumeralChar d = false) (more : Text) : c :: t ≠ d :: more := by
    rintro ⟨⟩
    rw [hc] at hd
    cases hd
  have hspace : isSpace c = false := by
    rw [← Bool.not_eq_true]
    intro hspace
    simp only [isSpace, Bool.or_eq_true, beq_iff_eq] at hspace
    rcases hspace with ((rfl | rfl) | rfl) | rfl <;> exact absurd rfl (hne rfl t)
  rw [value?, skip_cons hspace]
  split
  · next he => exact absurd he (hne rfl _)
  · next he => exact absurd he (hne rfl _)
  · next he => exact absurd he (hne rfl _)
  · next he => exact absurd he (hne rfl _)
  · next he => exact absurd he (hne rfl _)
  · next he => exact absurd he (hne rfl _)
  · rfl

theorem value?_quote (n : Nat) (t : Text) : value? (n + 1) ('"' :: t) =
    (string? ('"' :: t)).map fun (s, rest) => (.string s, rest) := rfl

theorem value?_array (n : Nat) (t : Text) : value? (n + 1) ('[' :: t) =
    (collection? ']' (value? n) t).map fun (js, rest) => (.array js, rest) := rfl

theorem value?_object (n : Nat) (t : Text) : value? (n + 1) ('\x7b' :: t) =
    (collection? '\x7d' (member? (value? n)) t).map fun (ms, rest) => (.object ms, rest) := rfl

theorem reads_null (n : Nat) : Reads (value? (n + 1)) "null" .null := fun _ _ => rfl

theorem reads_bool (n : Nat) (b : Bool) : Reads (value? (n + 1)) (Value.boolText b) (.bool b) := by
  intro rest _
  cases b <;> rfl

/-- The text of a number is read as the number. -/
theorem reads_number {t : Text} {j : Json} (h : numeral? t = some j)
    (ht : ∀ c ∈ t, isNumeralChar c = true) (n : Nat) : Reads (value? (n + 1)) t j := by
  intro rest hrest
  cases t with
  | nil => cases h
  | cons c t =>
    rw [← number?_append h ht hrest, List.cons_append]
    exact value?_of_isNumeralChar (ht c List.mem_cons_self) n (t ++ rest)

theorem reads_int (n : Nat) (k : Int) : Reads (value? (n + 1)) (Text.ofInt k) (.int k) := by
  refine reads_number (numeral?_ofInt k) (fun c hc => ?_) n
  rcases Text.isDigit_or_eq_of_mem_ofInt hc with hc | rfl
  · simp [isNumeralChar, hc]
  · rfl

theorem reads_double (n : Nat) {m : Nat} {q : Int} (h : Binary64.Fits m q) (hm : m ≠ 0)
    (negative : Bool) : Reads (value? (n + 1))
      (Binary64.text Value.jsonFloatStyle (.finite negative m q))
      (.double (.finite negative m q)) := by
  refine reads_number (numeral?_double h hm negative) ?_ n
  obtain ⟨l, hl⟩ := (Binary64.shortest m q).exists_layout ['+']
  intro c hc
  rw [Binary64.text, if_neg hm, List.mem_append] at hc
  rcases hc with hc | hc
  · cases negative with
    | true =>
      rw [List.mem_singleton.1 hc]
      rfl
    | false => cases hc
  · change c ∈ (Binary64.shortest m q).text ['+'] at hc
    rw [hl] at hc
    exact l.forall_mem (p := fun c => isNumeralChar c = true)
      (fun c hc => by simp [isNumeralChar, hc]) rfl rfl rfl (by simp [isNumeralChar]) c hc

theorem reads_quoted (n : Nat) (t : Text) : Reads (value? (n + 1)) (quoted t) (.string t) := by
  intro rest _
  have hread := string?_quoted t rest
  rw [quoted, List.cons_append, List.cons_append] at hread ⊢
  rw [value?_quote, hread]
  rfl

/-- The text of a sequence is read if the texts of its items are. -/
theorem reads_array {n : Nat} {ts : List Text} {js : List Json}
    (h : List.Forall₂ (Reads (value? n)) ts js) :
    Reads (value? (n + 1)) (Value.jsonArray ts) (.array js) := by
  intro rest _
  have hends (rest : Text) : Ends (']' :: rest) := ends_cons rfl rest
  have hclosing (rest : Text) : value? n (']' :: rest) = none := by
    cases n <;> rfl
  have hread := collection?_joinWith hends rfl (by decide) (value?_skip n) hclosing h rest
  rw [Value.jsonArray, List.cons_append, List.cons_append, List.append_assoc,
    List.singleton_append, value?_array, hread]
  rfl

/-- A member is read if its value is. -/
theorem reads_member {value : Reader Json} {t : Text} {j : Json} (h : Reads value t j)
    (name : Text) : Reads (member? value) (Value.jsonMember name t) (name, j) := by
  intro rest hrest
  have hname := string?_quoted name (':' :: (t ++ rest))
  rw [quoted, List.cons_append, List.cons_append] at hname
  rw [Value.jsonMember, quoted, List.append_assoc, List.cons_append, List.cons_append,
    List.cons_append, member?, skip_cons rfl, hname]
  show (value (t ++ rest)).map _ = _
  rw [h rest hrest]
  rfl

/-- The text of a mapping is read if the texts of its entries are. -/
theorem reads_object {n : Nat} {ts : List Text} {ms : List (Text × Json)}
    (h : List.Forall₂ (Reads (member? (value? n))) ts ms) :
    Reads (value? (n + 1)) (Value.jsonObject ts) (.object ms) := by
  intro rest _
  have hends (rest : Text) : Ends ('\x7d' :: rest) := ends_cons rfl rest
  have hclosing (rest : Text) : member? (value? n) ('\x7d' :: rest) = none := rfl
  have hread := collection?_joinWith hends rfl (by decide) (member?_skip (value? n)) hclosing h rest
  rw [Value.jsonObject, List.cons_append, List.cons_append, List.append_assoc,
    List.singleton_append, value?_object, hread]
  rfl

/-- What a JSON text says, if it is one.  No text nests deeper than it is long. -/
def read? (t : Text) : Option Json :=
  match value? (t.length + 1) t with
  | some (j, rest) => if (skip rest).isEmpty then some j else none
  | none => none

/-- A text that a value reader reads to its end is read. -/
theorem read?_of_reads {t : Text} {j : Json} (h : Reads (value? (t.length + 1)) t j) :
    read? t = some j := by
  have hread := h [] (by rintro c ⟨⟩)
  rw [List.append_nil] at hread
  rw [read?, hread]
  rfl

example : read? " [ 1, \"\\u0041\\n\" ,[ ]]" =
    some (.array [.int 1, .string "A\n", .array []]) := rfl

end Json

end MarkdownWeave
