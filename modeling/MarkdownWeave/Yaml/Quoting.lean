import MarkdownWeave.Yaml.Pen
import MarkdownWeave.Yaml.Scalar

/-!
# Writing scalars

A scalar is written plain if it reads back as itself that way.  A text of several lines is written
as a block, and any other text in single quotes, or in double quotes if it has characters or gaps
that only an escape can show.

## Main definitions

* `Yaml.Traits` — the features of a text that decide how it can be written.
* `Yaml.Style` — the four ways to write a scalar.
* `Yaml.Style.of` — the way in which a text is written.
* `Yaml.scalar` — the written form of a scalar.
-/

namespace MarkdownWeave

namespace Yaml

/-! ### Features -/

/-- Whether `c` is a mark with a meaning of its own at the beginning of a scalar. -/
def isLeadingMark (c : Char) : Bool := "#,[]\x7b\x7d&*!|>'\"%@\x60".toList.contains c

/-- Whether the beginning of a text would not be read as that of a plain scalar. -/
def misreadAtStart : Text → Bool
  | [] => false
  | c :: cs => isLeadingMark c || ((c == '?' || c == ':' || c == '-') && atGap cs)

/-- Whether the rest of a plain scalar has a colon before a gap or a number sign behind one;
`gap` tells whether there is a gap before it. -/
def misreadInside (gap : Bool) : Text → Bool
  | [] => false
  | c :: cs =>
    (c == ':' && atGap cs) || (c == '#' && gap) || misreadInside (isSpacing c || isBreak c) cs

/-- Whether a text holds a character of one class directly before one of another. -/
def hasPair (f g : Char → Bool) : Text → Bool
  | c :: d :: cs => (f c && g d) || hasPair f g (d :: cs)
  | _ => false

/-- Whether a character is a space; tabs are written by escapes. -/
def isSpace (c : Char) : Bool := c == ' '

/-- The features of a text that decide how it can be written. -/
structure Traits where
  /-- It has line breaks. -/
  multiline : Bool
  /-- It can be written plain. -/
  plain : Bool
  /-- It can be written in single quotes. -/
  single : Bool
  /-- It can be written as a block. -/
  block : Bool

/-- The features of a text. -/
def Traits.of (t : Text) : Traits :=
  let multiline := t.any isBreak
  let escapes := !t.all isPlainly || hasPair isSpace isBreak t
  let indicators := t.take 3 == ['-', '-', '-'] || t.take 3 == ['.', '.', '.'] ||
    misreadAtStart t || misreadInside (t.head?.any fun c => isSpacing c || isBreak c) (t.drop 1)
  let edges := (t.head?.any isSpace) || (t.getLast?.any isSpace)
  let spaceAfterBreak := hasPair isBreak isSpace t
  { multiline
    plain := !multiline && !escapes && !indicators && !edges
    single := !escapes && !spaceAfterBreak
    block := !escapes && !t.isEmpty && !(t.getLast?.any isSpace) }

/-! ### Styles -/

/-- The ways to write a scalar. -/
inductive Style
  /-- Without quotes. -/
  | plain
  /-- In single quotes. -/
  | single
  /-- In double quotes. -/
  | double
  /-- As indented lines of its own. -/
  | block
deriving DecidableEq

/-- The way in which a text is best written, before it is known whether it can be. -/
def Style.wanted (t : Text) : Style :=
  if t.contains '\n' then .block
  else if isText t && !hasLeadingZero t then .plain
  else .single

/-- The way in which a text is written with the least need of escapes, given what is wanted.
`key` tells that it has to stay on one line. -/
def Style.allowed (key : Bool) (traits : Traits) (wanted : Style) : Style :=
  if key && traits.multiline then .double
  else
    match wanted with
    | .plain => if traits.plain then .plain else if traits.single then .single else .double
    | .single => if traits.single then .single else .double
    | .block => if traits.block && !key then .block else .double
    | .double => .double

/-- The way in which a text is written. -/
def Style.of (key : Bool) (t : Text) : Style := .allowed key (.of t) (.wanted t)

/-! ### Written forms -/

/-- The letter that stands for a character behind a backslash, if there is one. -/
def escapeLetter? (c : Char) : Option Char :=
  if c = '\x00' then some '0'
  else if c = '\x07' then some 'a'
  else if c = '\x08' then some 'b'
  else if c = '\t' then some 't'
  else if c = '\n' then some 'n'
  else if c = '\x0b' then some 'v'
  else if c = '\x0c' then some 'f'
  else if c = '\r' then some 'r'
  else if c = '\x1b' then some 'e'
  else if c = '"' then some '"'
  else if c = '\\' then some '\\'
  else if c = nextLine then some 'N'
  else if c = lineSeparator then some 'L'
  else if c = paragraphSeparator then some 'P'
  else none

/-- A character inside double quotes. -/
def escape (c : Char) : Text :=
  if isPlainly c && !isBreak c && c != '"' && c != '\\' then [c]
  else
    match escapeLetter? c with
    | some d => ['\\', d]
    | none =>
      let n := c.toNat
      if n < 0x100 then '\\' :: 'x' :: Text.hexUpper 2 n
      else if n < 0x10000 then '\\' :: 'u' :: Text.hexUpper 4 n
      else '\\' :: 'U' :: Text.hexUpper 8 n

/-- A text in double quotes. -/
def doubleQuoted (t : Text) : Text := '"' :: t.flatMap escape ++ ['"']

/-- The characters between single quotes; a line that follows a break is indented by `n` spaces,
and a quote is written twice. -/
def singleRest (n : Nat) : Text → Stroke
  | [] => fun p => Stroke.andThen (afterBreak n p) (.joined ['\'']) p
  | c :: cs =>
    if isBreak c then (Stroke.breakChar c).andThen (singleRest n cs)
    else fun p =>
      ((afterBreak n p).andThen (.joined (if c = '\'' then ['\'', '\''] else [c]))).andThen
        (singleRest n cs) p
where
  /-- Indentation at the beginning of a line, and nothing elsewhere. -/
  afterBreak (n : Nat) (p : Pen) : Stroke := if p = .lineStart then .indent n else .nothing

/-- A text in single quotes. -/
def singleQuoted (n : Nat) (t : Text) : Stroke :=
  (Stroke.word ['\'']).andThen (singleRest n t)

/-- The lines of a block: every line that is not empty is indented by `n` spaces. -/
def blockRest (n : Nat) : Text → Stroke
  | [] => .nothing
  | c :: cs =>
    if isBreak c then (Stroke.breakChar c).andThen (blockRest n cs)
    else fun p =>
      (((if p = .lineStart then Stroke.indent n else .nothing)).andThen
        ((Stroke.joined [c]).andThen (blockRest n cs))) p

/-- The signs behind the bar of a block: the indentation where it could not be guessed, and what
becomes of the line breaks at the end. -/
def blockSigns (t : Text) : Text :=
  let hint := if t.head?.any fun c => isSpace c || isBreak c then ['2'] else []
  let chomp :=
    match t.reverse with
    | [] => ['-']
    | [c] => if isBreak c then ['+'] else ['-']
    | c :: d :: _ => if isBreak c then (if isBreak d then ['+'] else []) else ['-']
  hint ++ chomp

/-- A text as a block whose lines are indented by `n` spaces. -/
def block (n : Nat) (t : Text) : Stroke :=
  Stroke.all [.word ('|' :: blockSigns t), .newLine, blockRest n t]

/-- The written form of a text in a given style; further lines are indented by `n` spaces. -/
def styled (n : Nat) (t : Text) : Style → Stroke
  | .plain => .word t
  | .single => singleQuoted n t
  | .double => .word (doubleQuoted t)
  | .block => block n t

/-- The written form of a text in the middle of a layout whose indentation is `n`. -/
def scalar (key : Bool) (n : Nat) (t : Text) : Stroke := styled (n + 2) t (.of key t)

end Yaml

end MarkdownWeave
