import MarkdownWeave.Yaml.Token

/-!
# Scalar tokens

Reading plain, quoted and block scalars.  A gap between words — spacing and line breaks — is folded:
spacing alone is kept, a single line break becomes a space, and of several line breaks all but the
first are kept.

## Main definitions

* `Yaml.Gap` — the spacing and the line breaks between two words.
* `Yaml.plainScalar?`, `Yaml.singleQuoted?`, `Yaml.doubleQuoted?`, `Yaml.blockScalar?` — reading
  one scalar; they fail where the text is no YAML.
-/

namespace MarkdownWeave

namespace Yaml

/-! ### Gaps -/

/-- What stands between two words of a scalar. -/
structure Gap where
  /-- The spacing before the first line break. -/
  spacing : Text
  /-- The line breaks. -/
  breaks : Text

/-- The text that line breaks stand for: one line feed is a space, several are all but the first. -/
def foldBreaks : Text → Text
  | [] => []
  | ['\n'] => [' ']
  | '\n' :: more => more
  | breaks => breaks

/-- The text that a gap stands for. -/
def Gap.folded (g : Gap) : Text := if g.breaks.isEmpty then g.spacing else foldBreaks g.breaks

/-- Reads a gap.  `noTab` is the column up to which no tab may indent a continued line; `after`
tells that a line break has already been passed, so that spacing does not count. -/
def readGap (noTab : Nat) (after : Bool) (line column offset : Nat) : Text → Option (Gap × Place)
  | [] => some (⟨[], []⟩, ⟨[], line, column, offset⟩)
  | c :: cs =>
    if isBreak c then
      (readGap noTab true (line + 1) 0 0 cs).map fun (g, p) => (⟨[], c :: g.breaks⟩, p)
    else if isSpacing c then
      if after && c == '\t' && column < noTab then none
      else
        (readGap noTab after line (column + 1) (offset + 1) cs).map fun (g, p) =>
          (⟨if after then [] else c :: g.spacing, g.breaks⟩, p)
    else some (⟨[], []⟩, ⟨c :: cs, line, column, offset⟩)

/-- Reads the gap at a place. -/
def gap? (noTab : Nat) (after : Bool) (p : Place) : Option (Gap × Place) :=
  readGap noTab after p.line p.column p.offset p.rest

/-! ### Plain scalars -/

/-- Whether a character has a meaning of its own inside brackets and braces. -/
def isFlowMark (c : Char) : Bool := c == ',' || c == '[' || c == ']' || c == '{' || c == '}'

/-- The length of the word of a plain scalar that a text begins with.  It ends at spacing, at a
line break and at a colon that has such a gap behind it, and inside brackets at their marks; a
colon inside brackets that has such a mark behind it is an error. -/
def plainWord? (flow : Bool) : Text → Option Nat
  | [] => some 0
  | c :: cs =>
    if isSpacing c || isBreak c then some 0
    else if c == ':' && atGap cs then some 0
    else if flow && c == ':' && (cs.head?.any fun d => isFlowMark d || d == '?') then none
    else if flow && isFlowMark c then some 0
    else (plainWord? flow cs).map (· + 1)

/-- Reads the words of a plain scalar.  Outside of brackets every line after the first has to be
indented by `indent` columns.  The result tells whether the scalar ends with a line break. -/
def plainWords? (flow : Bool) (indent : Nat) : Nat → Text → Bool → Place →
    Option (Text × Bool × Place)
  | 0, _, _, _ => none
  | fuel + 1, gap, broken, p => do
    if p.isDocumentMarker || p.rest.head? == some '#' then return ([], broken, p)
    let n ← plainWord? flow p.rest
    let q := p.skip n
    let word := if n = 0 then [] else gap ++ p.rest.take n
    let broken := broken && n == 0
    if !atGap q.rest || q.rest.isEmpty then return (word, broken, q)
    let (g, r) ← gap? indent broken q
    let broken := broken || !g.breaks.isEmpty
    if !flow && r.column < indent then return (word, broken, r)
    let (more, broken, last) ← plainWords? flow indent fuel g.folded broken r
    return (word ++ more, broken, last)

/-- Reads a plain scalar whose continued lines are indented by at least `indent` columns. -/
def plainScalar? (flow : Bool) (indent : Nat) (p : Place) : Option (Text × Bool × Place) :=
  plainWords? flow indent (p.rest.length + 1) [] false p

/-! ### Quoted scalars -/

/-- Reads the words of a scalar in single quotes; two quotes stand for one. -/
def singleWords? : Nat → Place → Option (Text × Place)
  | 0, _ => none
  | fuel + 1, p => do
    if p.isDocumentMarker then none
    match p.rest with
    | [] => none
    | '\'' :: '\'' :: _ =>
      let (more, last) ← singleWords? fuel (p.skip 2)
      return ('\'' :: more, last)
    | '\'' :: _ => return ([], p.step)
    | c :: _ =>
      if isSpacing c || isBreak c then
        let (g, q) ← gap? 0 false p
        let (more, last) ← singleWords? fuel q
        return (g.folded ++ more, last)
      else
        let (more, last) ← singleWords? fuel p.step
        return (c :: more, last)

/-- Reads a scalar in single quotes, from the opening quote on. -/
def singleQuoted? (p : Place) : Option (Text × Place) :=
  singleWords? (p.rest.length + 1) p.step

/-- The character that a letter behind a backslash stands for. -/
def simpleEscape? : Char → Option Char
  | '0' => some '\x00'
  | 'a' => some '\x07'
  | 'b' => some '\x08'
  | 't' => some '\t'
  | '\t' => some '\t'
  | 'n' => some '\n'
  | 'v' => some '\x0b'
  | 'f' => some '\x0c'
  | 'r' => some '\r'
  | 'e' => some '\x1b'
  | ' ' => some ' '
  | '"' => some '"'
  | '/' => some '/'
  | '\\' => some '\\'
  | 'N' => some nextLine
  | '_' => some '\u00a0'
  | 'L' => some lineSeparator
  | 'P' => some paragraphSeparator
  | _ => none

/-- How many hexadecimal digits follow a letter behind a backslash. -/
def escapeWidth? : Char → Option Nat
  | 'x' => some 2
  | 'u' => some 4
  | 'U' => some 8
  | _ => none

/-- The character with a code point given in hexadecimal digits. -/
def codePoint? (ds : Text) : Option Char := do
  let n ← Text.toNat? 16 ds
  if h : n.isValidChar then some (Char.ofNatAux n h) else none

/-- Reads an escape, from behind the backslash on: the character and how much of the text it
takes. -/
def escape? : Text → Option (Char × Nat)
  | [] => none
  | c :: cs =>
    match escapeWidth? c with
    | none => (simpleEscape? c).map fun d => (d, 1)
    | some width =>
      if (cs.take width).length = width then (codePoint? (cs.take width)).map fun d => (d, width + 1)
      else none

/-- Reads the words of a scalar in double quotes.  A backslash at the end of a line joins it with
the next one. -/
def doubleWords? : Nat → Place → Option (Text × Place)
  | 0, _ => none
  | fuel + 1, p => do
    if p.isDocumentMarker then none
    match p.rest with
    | [] => none
    | '"' :: _ => return ([], p.step)
    | '\\' :: cs =>
      if !cs.isEmpty && atBreak cs then
        let (g, q) ← gap? 0 true p.step.newLine
        let (more, last) ← doubleWords? fuel q
        return (g.breaks ++ more, last)
      else
        let (c, n) ← escape? cs
        let (more, last) ← doubleWords? fuel (p.skip (n + 1))
        return (c :: more, last)
    | c :: _ =>
      if isSpacing c || isBreak c then
        let (g, q) ← gap? 0 false p
        let (more, last) ← doubleWords? fuel q
        return (g.folded ++ more, last)
      else
        let (more, last) ← doubleWords? fuel p.step
        return (c :: more, last)

/-- Reads a scalar in double quotes, from the opening quote on. -/
def doubleQuoted? (p : Place) : Option (Text × Place) :=
  doubleWords? (p.rest.length + 1) p.step

/-! ### Block scalars -/

/-- What becomes of the line breaks at the end of a block scalar. -/
inductive Chomping
  /-- All are dropped. -/
  | strip
  /-- The first is kept. -/
  | clip
  /-- All are kept. -/
  | keep

/-- What the first line of a block scalar says. -/
structure BlockHeader where
  /-- The indentation relative to what is around, if it is given. -/
  increment : Option Nat
  /-- What becomes of the line breaks at the end. -/
  chomping : Chomping

/-- The chomping that a sign stands for. -/
def chomping? : Char → Option Chomping
  | '-' => some .strip
  | '+' => some .keep
  | _ => none

/-- Reads a sign and a digit, in either order and each only if it is there. -/
def blockHeader? (p : Place) : Option (BlockHeader × Place) :=
  match p.rest with
  | [] => some (⟨none, .clip⟩, p)
  | c :: cs =>
    match chomping? c with
    | some ch =>
      match cs with
      | d :: _ =>
        if Text.isDigit d then
          if d = '0' then none else some (⟨Text.digitValue? d, ch⟩, p.skip 2)
        else some (⟨none, ch⟩, p.step)
      | [] => some (⟨none, ch⟩, p.step)
    | none =>
      if Text.isDigit c then
        if c = '0' then none
        else
          match cs.head?.bind chomping? with
          | some ch => some (⟨Text.digitValue? c, ch⟩, p.skip 2)
          | none => some (⟨Text.digitValue? c, .clip⟩, p.step)
      else some (⟨none, .clip⟩, p)

/-- Reads empty lines and the indentation of the next one: at most `indent` spaces, or as many as
there are if `indent` is not known.  The result has the line breaks and the largest indentation
seen.  A tab within the indentation is an error. -/
def readBlockBreaks (indent : Option Nat) (widest line column offset : Nat) : Text →
    Option (Text × Nat × Place)
  | [] => some ([], max widest column, ⟨[], line, column, offset⟩)
  | c :: cs =>
    let inside := indent.all fun n => column < n
    if inside && c == ' ' then readBlockBreaks indent widest line (column + 1) (offset + 1) cs
    else if inside && c == '\t' then none
    else if isBreak c then
      (readBlockBreaks indent (max widest column) (line + 1) 0 0 cs).map fun (bs, r) => (c :: bs, r)
    else some ([], max widest column, ⟨c :: cs, line, column, offset⟩)

/-- Reads the empty lines and the indentation at a place. -/
def blockBreaks? (indent : Option Nat) (p : Place) : Option (Text × Nat × Place) :=
  readBlockBreaks indent 0 p.line p.column p.offset p.rest

/-- Reads the lines of a block scalar.  `pending` is the line break before the line that is next,
`breaks` the empty lines behind that one, and `indented` tells whether the line before begins with
spacing.  The result has the break and the empty lines at the end apart. -/
def blockLines? (folded : Bool) (indent : Nat) : Nat → (pending breaks : Text) →
    (indented : Bool) → Place → Option (Text × Text × Text × Place)
  | 0, _, _, _, _ => none
  | fuel + 1, pending, breaks, indented, p => do
    if p.column != indent || p.rest.isEmpty then return ([], pending, breaks, p)
    let spaced := p.rest.head?.any isSpacing
    let joint :=
      if folded && pending == ['\n'] && !indented && !spaced then
        if breaks.isEmpty then [' '] else breaks
      else pending ++ breaks
    let (words, q) := p.span fun c => !isBreak c
    let (breaks', _, r) ← blockBreaks? (some indent) q.newLine
    let (more, last) ← blockLines? folded indent fuel (q.rest.take 1) breaks' spaced r
    return (joint ++ words ++ more, last)

/-- Reads a block scalar, from its sign on, inside of the indentation `outer`; that is negative
where nothing is around. -/
def blockScalar? (folded : Bool) (outer : Int) (p : Place) : Option (Text × Place) := do
  let (header, p) ← blockHeader? p.step
  let p := (p.skipWhile isSpacing).skipComment
  if !atBreak p.rest then none
  let p := p.newLine
  let fixed := header.increment.map fun n => outer.toNat + n
  let (breaks, widest, q) ← blockBreaks? fixed p
  let indent := fixed.getD (max widest (max (outer + 1).toNat 1))
  let (words, pending, breaks, last) ←
    blockLines? folded indent (q.rest.length + 1) [] breaks false q
  let tail :=
    match header.chomping with
    | .strip => []
    | .clip => pending
    | .keep => pending ++ breaks
  return (words ++ tail, last)

end Yaml

end MarkdownWeave
