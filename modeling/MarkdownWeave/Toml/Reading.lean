import MarkdownWeave.Toml.Table

/-!
# Reading TOML

A TOML document as a table.

## Main definitions

* `Toml.Reader` — reads something from the beginning of a text.
* `Toml.read?` — the table of a document, or nothing if it is no TOML.
-/

namespace MarkdownWeave

namespace Toml

/-- Reads something from the beginning of a text; fails if it is not there. -/
abbrev Reader (α : Type) := Text → Option (α × Text)

/-! ### Space -/

/-- Whether a character is a space or a tab. -/
def isSpacing (c : Char) : Bool := c == ' ' || c == '\t'

/-- Whether a character may stand in a comment or a string: no control character but the tab. -/
def isVisible (c : Char) : Bool := c == '\t' || (0x20 ≤ c.toNat && c.toNat != 0x7F)

/-- A text without the spaces and tabs at its beginning. -/
def skipSpacing (t : Text) : Text := t.dropWhile isSpacing

/-- What follows a line break, if a text begins with one. -/
def newLine? : Text → Option Text
  | '\n' :: cs => some cs
  | '\r' :: '\n' :: cs => some cs
  | _ => none

/-- A text without the comment at its beginning; the comment ends at a line break. -/
def skipComment (t : Text) : Text :=
  match t with
  | '#' :: cs => cs.dropWhile isVisible
  | _ => t

/-- What follows a line that has nothing more than a comment. -/
def lineEnd? (t : Text) : Option Text :=
  match skipComment (skipSpacing t) with
  | [] => some []
  | rest => newLine? rest

/-- A text without the spaces, line breaks and comments at its beginning. -/
def skipLines : Nat → Text → Text
  | 0, t => t
  | fuel + 1, t =>
    let rest := skipComment (skipSpacing t)
    match newLine? rest with
    | some more => skipLines fuel more
    | none => rest

/-- A text without the spaces, line breaks and comments at its beginning. -/
def skipGap (t : Text) : Text := skipLines (t.length + 1) t

/-! ### Strings -/

/-- The character that an escape stands for, and what follows it. -/
def escape? : Text → Option (Char × Text)
  | 'b' :: cs => some ('\x08', cs)
  | 't' :: cs => some ('\t', cs)
  | 'n' :: cs => some ('\n', cs)
  | 'f' :: cs => some ('\x0c', cs)
  | 'r' :: cs => some ('\r', cs)
  | 'e' :: cs => some ('\x1b', cs)
  | '"' :: cs => some ('"', cs)
  | '\\' :: cs => some ('\\', cs)
  | 'x' :: cs => codePoint? 2 cs
  | 'u' :: cs => codePoint? 4 cs
  | 'U' :: cs => codePoint? 8 cs
  | _ => none
where
  /-- The character with a code point in a number of hexadecimal digits. -/
  codePoint? (width : Nat) (cs : Text) : Option (Char × Text) := do
    if (cs.take width).length != width then none
    let n ← Text.toNat? 16 (cs.take width)
    if h : n.isValidChar then some (Char.ofNatAux n h, cs.drop width) else none

/-- Reads a string in double quotes, behind the opening one. -/
def basic? : Nat → Reader Text
  | 0, _ => none
  | fuel + 1, t => do
    match t with
    | '"' :: rest => return ([], rest)
    | '\\' :: cs =>
      let (c, rest) ← escape? cs
      let (more, rest) ← basic? fuel rest
      return (c :: more, rest)
    | c :: cs =>
      if !isVisible c then none
      let (more, rest) ← basic? fuel cs
      return (c :: more, rest)
    | [] => none

/-- Reads a string in single quotes, behind the opening one. -/
def literal? (t : Text) : Option (Text × Text) :=
  let words := t.takeWhile fun c => c != '\'' && isVisible c
  match t.drop words.length with
  | '\'' :: rest => some (words, rest)
  | _ => none

/-- The quotes at the end of a string of several lines: three of them end it, and up to two more in
front of these belong to it. -/
def closing? (quote : Char) (t : Text) : Option (Text × Text) :=
  let n := (t.takeWhile (· == quote)).length
  if n < 3 then none
  else
    let own := min (n - 3) 2
    some (List.replicate own quote, t.drop (own + 3))

/-- What follows a backslash at the end of a line: the next text that is no space. -/
def continued? (t : Text) : Option Text :=
  (newLine? (skipSpacing t)).map fun rest => skipBlank (rest.length + 1) rest
where
  /-- A text without spaces and line breaks at its beginning. -/
  skipBlank : Nat → Text → Text
    | 0, t => t
    | fuel + 1, t =>
      let rest := skipSpacing t
      match newLine? rest with
      | some more => skipBlank fuel more
      | none => rest

/-- Reads a string of several lines, behind the opening quotes and the first line break. -/
def lines? (quote : Char) : Nat → Reader Text
  | 0, _ => none
  | fuel + 1, t => do
    match closing? quote t with
    | some r => return r
    | none =>
      match t with
      | [] => none
      | c :: cs =>
        if c == '\\' && quote == '"' then
          match continued? cs with
          | some rest => lines? quote fuel rest
          | none =>
            let (d, rest) ← escape? cs
            let (more, rest) ← lines? quote fuel rest
            return (d :: more, rest)
        else
          match newLine? t with
          | some rest =>
            let (more, rest) ← lines? quote fuel rest
            return ('\n' :: more, rest)
          | none =>
            if !isVisible c then none
            let (more, rest) ← lines? quote fuel cs
            return (c :: more, rest)

/-- Reads a string of any kind. -/
def string? (t : Text) : Option (Text × Text) :=
  match t with
  | '"' :: '"' :: '"' :: cs =>
    let body := (newLine? cs).getD cs
    lines? '"' (body.length + 1) body
  | '\'' :: '\'' :: '\'' :: cs =>
    let body := (newLine? cs).getD cs
    lines? '\'' (body.length + 1) body
  | '"' :: cs => basic? (cs.length + 1) cs
  | '\'' :: cs => literal? cs
  | _ => none

/-! ### Keys -/

/-- Whether a character may stand in a key without quotes. -/
def isBare (c : Char) : Bool := Text.isLetter c || Text.isDigit c || c == '_' || c == '-'

/-- Reads one part of a key. -/
def keyPart? (t : Text) : Option (Text × Text) :=
  match t with
  | '"' :: cs => basic? (cs.length + 1) cs
  | '\'' :: cs => literal? cs
  | _ =>
    let words := t.takeWhile isBare
    if words.isEmpty then none else some (words, t.drop words.length)

/-- Reads a dotted key. -/
def key? : Nat → Reader Path
  | 0, _ => none
  | fuel + 1, t => do
    let (part, rest) ← keyPart? (skipSpacing t)
    match skipSpacing rest with
    | '.' :: more =>
      let (parts, rest) ← key? fuel more
      return (part :: parts, rest)
    | rest => return ([part], rest)

/-! ### Numbers, truth values and times -/

/-- Digits of a base, with single underscores between them, without the underscores. -/
def digits? (base : Nat) (t : Text) : Option Text :=
  let isOne (c : Char) := (Text.digitValue? c).any (· < base)
  let parts := Text.splitOn '_' t
  if parts.all fun p => !p.isEmpty && p.all isOne then some parts.flatten else none

/-- Decimal digits without a zero in front of others. -/
def decimal? (t : Text) : Option Text :=
  (digits? 10 t).filter fun ds => ds.length == 1 || ds.head? != some '0'

/-- The sign of a number and what follows it. -/
def signed : Text → Bool × Text
  | '-' :: t => (true, t)
  | '+' :: t => (false, t)
  | t => (false, t)

/-- The integer that a word spells.  It has to fit into 128 bits. -/
def integer? (t : Text) : Option Int := do
  let n ← match t with
    | '0' :: 'x' :: ds => (digits? 16 ds).bind (Text.toNat? 16)
    | '0' :: 'o' :: ds => (digits? 8 ds).bind (Text.toNat? 8)
    | '0' :: 'b' :: ds => (digits? 2 ds).bind (Text.toNat? 2)
    | _ => (decimal? (signed t).2).bind (Text.toNat? 10)
  let z : Int := if (signed t).1 then -n else n
  if -(Int.pow 2 127) ≤ z && z < Int.pow 2 128 then return z else none

/-- Whether a word spells a floating-point number. -/
def isFloat (t : Text) : Bool :=
  let t := (signed t).2
  if t == ("inf" : Text) || t == ("nan" : Text) then true
  else
    let isMark (c : Char) := c == 'e' || c == 'E'
    let mantissa := t.takeWhile fun c => !isMark c
    let power := t.dropWhile fun c => !isMark c
    let powerOk := power.isEmpty || (digits? 10 (signed (power.drop 1)).2).isSome
    match Text.splitAt? '.' mantissa with
    | some (whole, fraction) =>
      (decimal? whole).isSome && (digits? 10 fraction).isSome && powerOk
    | none => (decimal? mantissa).isSome && !power.isEmpty && powerOk

/-- Reads a number of exactly `width` digits between two bounds. -/
def number? (width low high : Nat) (t : Text) : Option (Nat × Text) :=
  let ds := t.take width
  if ds.length == width && ds.all Text.isDigit then
    let n := Text.decimalValue ds
    if low ≤ n && n ≤ high then some (n, t.drop width) else none
  else none

/-- What follows a character, if a text begins with it. -/
def past? (c : Char) : Text → Option Text
  | d :: cs => if c = d then some cs else none
  | [] => none

/-- How many days a month has. -/
def daysIn (year month : Nat) : Nat :=
  if month == 2 then
    if year % 4 == 0 && (year % 100 != 0 || year % 400 == 0) then 29 else 28
  else if [4, 6, 9, 11].contains month then 30
  else 31

/-- What follows a date, if a text begins with one. -/
def pastDate? (t : Text) : Option Text := do
  let (year, t) ← number? 4 0 9999 t
  let (month, t) ← number? 2 1 12 (← past? '-' t)
  let (_, t) ← number? 2 1 (daysIn year month) (← past? '-' t)
  return t

/-- What follows a time of day, if a text begins with one.  Seconds need not be given. -/
def pastTime? (t : Text) : Option Text := do
  let (_, t) ← number? 2 0 23 t
  let (_, t) ← number? 2 0 59 (← past? ':' t)
  match past? ':' t with
  | none => return t
  | some t =>
    let (_, t) ← number? 2 0 60 t
    match past? '.' t with
    | none => return t
    | some t => if t.head?.any Text.isDigit then return t.dropWhile Text.isDigit else none

/-- What follows an offset from universal time. -/
def pastOffset? (t : Text) : Option Text :=
  match t with
  | c :: rest =>
    if c == 'Z' || c == 'z' then some rest
    else if c == '+' || c == '-' then do
      let (_, t) ← number? 2 0 23 rest
      let (_, t) ← number? 2 0 59 (← past? ':' t)
      return t
    else none
  | [] => none

/-- Whether a word spells a date, a time, or both. -/
def isMoment (t : Text) : Bool :=
  match pastDate? t with
  | some [] => true
  | some (c :: rest) =>
    if c == 'T' || c == 't' || c == ' ' then
      match pastTime? rest with
      | some [] => true
      | some more => pastOffset? more == some []
      | none => false
    else false
  | none => pastTime? t == some []

/-- The value that a word spells. -/
def word? (t : Text) : Option Value :=
  if t == ("true" : Text) then some (.bool true)
  else if t == ("false" : Text) then some (.bool false)
  else
    match integer? t with
    | some n => some (.int n)
    | none =>
      if isFloat t then some (.float t) else if isMoment t then some (.moment t) else none

/-- Whether a character may stand in a word. -/
def isWordChar (c : Char) : Bool := isBare c || c == '+' || c == '.' || c == ':'

/-- Reads a word.  A date can go on with a time after a space. -/
def readWord? (t : Text) : Option (Value × Text) :=
  let first := t.takeWhile isWordChar
  let rest := t.drop first.length
  match rest with
  | ' ' :: more =>
    if pastDate? first == some [] && more.head?.any Text.isDigit then
      let second := more.takeWhile isWordChar
      (word? (first ++ ' ' :: second)).map fun v => (v, more.drop second.length)
    else (word? first).map fun v => (v, rest)
  | _ => (word? first).map fun v => (v, rest)

/-! ### Values -/

mutual

/-- Reads a value. -/
def value? : Nat → Reader Value
  | 0, _ => none
  | fuel + 1, t =>
    match t with
    | '"' :: _ => (string? t).map fun (s, rest) => (.text s, rest)
    | '\'' :: _ => (string? t).map fun (s, rest) => (.text s, rest)
    | '[' :: cs => (items? fuel (skipGap cs)).map fun (vs, rest) => (.array vs, rest)
    | '{' :: cs => do
      let (es, rest) ← entries? fuel (skipGap cs)
      return (← inline? es, rest)
    | _ => readWord? t

/-- Reads the items of an array up to the closing bracket. -/
def items? : Nat → Reader (List Value)
  | 0, _ => none
  | fuel + 1, t =>
    match t with
    | ']' :: rest => some ([], rest)
    | _ => do
      let (v, rest) ← value? fuel t
      match skipGap rest with
      | ',' :: more =>
        let (vs, rest) ← items? fuel (skipGap more)
        return (v :: vs, rest)
      | ']' :: more => return ([v], more)
      | _ => none

/-- Reads the entries of a table in braces up to the closing one. -/
def entries? : Nat → Reader (List (Path × Value))
  | 0, _ => none
  | fuel + 1, t =>
    match t with
    | '}' :: rest => some ([], rest)
    | _ => do
      let (e, rest) ← pair? fuel t
      match skipGap rest with
      | ',' :: more =>
        let (es, rest) ← entries? fuel (skipGap more)
        return (e :: es, rest)
      | '}' :: more => return ([e], more)
      | _ => none

/-- Reads a key and its value. -/
def pair? : Nat → Reader (Path × Value)
  | 0, _ => none
  | fuel + 1, t => do
    let (path, rest) ← key? (t.length + 1) t
    let (v, rest) ← value? fuel (skipSpacing (← past? '=' rest))
    return ((path, v), rest)

end

/-! ### Documents -/

/-- Reads a statement, without the end of its line. -/
def statement? (t : Text) : Option (Statement × Text) :=
  match t with
  | '[' :: '[' :: cs => do
    let (path, rest) ← key? (cs.length + 1) cs
    return (.item path, ← past? ']' (← past? ']' rest))
  | '[' :: cs => do
    let (path, rest) ← key? (cs.length + 1) cs
    return (.table path, ← past? ']' rest)
  | _ => (pair? (2 * t.length + 2) t).map fun (e, rest) => (.assign e.1 e.2, rest)

/-- Reads the statements of a document, each on a line of its own. -/
def statements? : Nat → Text → Option (List Statement)
  | 0, _ => none
  | fuel + 1, t =>
    match skipGap t with
    | [] => some []
    | rest => do
      let (s, rest) ← statement? rest
      let more ← statements? fuel (← lineEnd? rest)
      return s :: more

/-- The byte order mark, which may stand before a document. -/
def byteOrderMark : Char := '\ufeff'

/-- The table of a TOML document. -/
def read? (t : Text) : Option Table :=
  let body :=
    match t with
    | c :: cs => if c = byteOrderMark then cs else t
    | [] => []
  (statements? (body.length + 1) body).bind build?

end Toml

end MarkdownWeave
