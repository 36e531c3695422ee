import MarkdownWeave.Yaml.Token.Property
import MarkdownWeave.Yaml.Token.Scalar

/-!
# Reading tokens

A YAML text as tokens.  Indentation is turned into tokens that open and close sequences and
mappings.  A key without a question mark is recognised only at the colon behind it; until then its
place among the tokens is remembered, one place for the block and one for each open bracket.

## Main definitions

* `Yaml.Lexer` — what has been read so far.
* `Yaml.Lexer.next?` — reads the next token.
* `Yaml.tokens?` — all tokens of a text.
-/

namespace MarkdownWeave

namespace Yaml

/-- A place where a key may have begun. -/
structure PendingKey where
  /-- How many tokens stand before it. -/
  index : Nat
  /-- Whether nothing but a key can begin here. -/
  required : Bool
  /-- The line of its first character. -/
  line : Nat
  /-- The column of its first character. -/
  column : Nat
  /-- The number of bytes before it on its line. -/
  offset : Nat

/-- What has been read of a YAML text. -/
structure Lexer where
  /-- What is left of the text. -/
  place : Place
  /-- The tokens so far, the last one first. -/
  tokens : List Token
  /-- The column of the block that is open; negative if there is none. -/
  indent : Int
  /-- The columns of the blocks around it. -/
  outer : List Int
  /-- The place where a key may have begun, for every open bracket and for the block. -/
  keys : List (Option PendingKey)
  /-- Whether a key may begin at the next token. -/
  keyAllowed : Bool

namespace Lexer

/-- Whether a bracket or brace is open. -/
def inFlow (x : Lexer) : Bool := 1 < x.keys.length

/-- The column of the next character. -/
def column (x : Lexer) : Nat := x.place.column

/-- The tokens so far and one more. -/
def push (t : Token) (x : Lexer) : Lexer := { x with tokens := t :: x.tokens }

/-- One more token, of a given length without a line break. -/
def take (t : Token) (n : Nat) (x : Lexer) : Lexer :=
  { x with tokens := t :: x.tokens, place := x.place.skip n }

/-- Puts a token in front of those from number `n` on. -/
def insertAt (n : Nat) (t : Token) (x : Lexer) : Lexer :=
  { x with tokens := x.tokens.insertIdx (x.tokens.length - n) t }

/-! ### Keys -/

/-- Gives up the key that may have begun here; that is an error if there had to be one. -/
def dropKey? (x : Lexer) : Option Lexer :=
  match x.keys with
  | some k :: keys => if k.required then none else some { x with keys := none :: keys }
  | _ => some x

/-- Remembers that a key may begin at the next token. -/
def markKey? (x : Lexer) : Option Lexer := do
  if x.keyAllowed then
    let required := !x.inFlow && x.indent == (x.column : Int)
    let y ← x.dropKey?
    return { y with
      keys := some ⟨x.tokens.length, required, x.place.line, x.column, x.place.offset⟩ ::
        y.keys.drop 1 }
  else return x

/-- Whether a key may still be one where its colon would stand at a place: it has to be on one line
and at most 1024 bytes long. -/
def mayBeKey (p : Place) (k : PendingKey) : Bool :=
  k.line == p.line && p.offset ≤ k.offset + 1024

/-- Gives up all keys that have become too long. -/
def dropStale? (x : Lexer) : Option Lexer :=
  if x.keys.any fun k => k.any fun k => k.required && !mayBeKey x.place k then none
  else some { x with keys := x.keys.map fun k => k.filter (mayBeKey x.place) }

/-! ### Indentation -/

/-- Opens a block at a column, if that is farther in than the block around, by a token that comes
before those from number `at_` on. -/
def openBlock (column at_ : Nat) (t : Token) (x : Lexer) : Lexer :=
  if !x.inFlow && x.indent < (column : Int) then
    { x.insertAt at_ t with indent := column, outer := x.indent :: x.outer }
  else x

/-- Closes the blocks that begin farther in than a column. -/
def closeBlocks (column : Int) (x : Lexer) : Lexer :=
  if x.inFlow then x else go x.outer x
where
  /-- Closes blocks, given the columns around them. -/
  go : List Int → Lexer → Lexer
    | [], x => x
    | n :: ns, x =>
      if column < x.indent then go ns { x.push .blockEnd with indent := n, outer := ns } else x

/-! ### Steps -/

/-- Skips spaces, comments and line breaks.  Tabs are skipped where no key can begin, and one byte
order mark at the beginning of a line, where it counts as a column. -/
def skipGap : Nat → Lexer → Lexer
  | 0, x => x
  | fuel + 1, x =>
    let p := x.place
    let p := if p.column == 0 && p.rest.head? == some byteOrderMark then p.step else p
    let tabs := x.inFlow || !x.keyAllowed
    let p := (p.skipWhile fun c => c == ' ' || (tabs && c == '\t')).skipComment
    if !p.rest.isEmpty && atBreak p.rest then
      skipGap fuel { x with place := p.newLine, keyAllowed := x.keyAllowed || !x.inFlow }
    else { x with place := p }

/-- Reads a directive or the first or last line of a document: all blocks end before it. -/
def atMargin? (x : Lexer) (read : Place → Option (Token × Place)) : Option Lexer := do
  let y ← (x.closeBlocks (-1)).dropKey?
  let (t, p) ← read y.place
  return { y with tokens := t :: y.tokens, place := p, keyAllowed := false }

/-- Reads an opening bracket or brace. -/
def openFlow? (t : Token) (x : Lexer) : Option Lexer := do
  let y ← x.markKey?
  return { y.take t 1 with keys := none :: y.keys, keyAllowed := true }

/-- Reads a closing bracket or brace. -/
def closeFlow? (t : Token) (x : Lexer) : Option Lexer := do
  let y ← x.dropKey?
  return { y.take t 1 with
    keys := if y.inFlow then y.keys.drop 1 else y.keys
    keyAllowed := false }

/-- Reads a comma. -/
def comma? (x : Lexer) : Option Lexer := do
  let y ← x.dropKey?
  return { y.take .flowEntry 1 with keyAllowed := true }

/-- Opens a block for an indicator at the next character, where such an indicator may stand. -/
def openBlockHere? (t : Token) (x : Lexer) : Option Lexer :=
  if x.inFlow then some x
  else if x.keyAllowed then some (x.openBlock x.column x.tokens.length t)
  else none

/-- Reads the hyphen in front of an item. -/
def item? (x : Lexer) : Option Lexer := do
  let y ← (← x.openBlockHere? .blockSequenceStart).dropKey?
  return { y.take .blockEntry 1 with keyAllowed := true }

/-- Reads the question mark in front of a key. -/
def explicitKey? (x : Lexer) : Option Lexer := do
  let y ← (← x.openBlockHere? .blockMappingStart).dropKey?
  return { y.take .key 1 with keyAllowed := !x.inFlow }

/-- Reads the colon in front of a value.  If a key may have begun before it, it did. -/
def value? (x : Lexer) : Option Lexer :=
  match x.keys with
  | some k :: keys =>
    let y := (x.insertAt k.index .key).openBlock k.column k.index .blockMappingStart
    some { y.take .value 1 with keys := none :: keys, keyAllowed := false }
  | _ => do
    let y ← x.openBlockHere? .blockMappingStart
    return { y.take .value 1 with keyAllowed := !x.inFlow }

/-- Reads something that may be a key or begin one. -/
def node? (x : Lexer) (read : Place → Option (Token × Place)) : Option Lexer := do
  let y ← x.markKey?
  let (t, p) ← read y.place
  return { y with tokens := t :: y.tokens, place := p, keyAllowed := false }

/-- Reads a plain scalar; after a line break behind it a key may begin. -/
def plain? (x : Lexer) : Option Lexer := do
  let y ← x.markKey?
  let (t, broken, p) ← plainScalar? y.inFlow (y.indent + 1).toNat y.place
  return { y with tokens := .scalar true t :: y.tokens, place := p, keyAllowed := broken }

/-- Reads a block scalar. -/
def block? (folded : Bool) (x : Lexer) : Option Lexer := do
  let y ← x.dropKey?
  let (t, p) ← blockScalar? folded y.indent y.place
  return { y with tokens := .scalar false t :: y.tokens, place := p, keyAllowed := true }

/-- A scalar that is not plain, as a token. -/
def notPlain (r : Text × Place) : Token × Place := (.scalar false r.1, r.2)

/-- The characters that begin no plain scalar. -/
def isIndicator (c : Char) : Bool := "-?:,[]\x7b\x7d#&*!|>'\"%@\x60".toList.contains c

/-- Reads the token that begins with the character `c` and goes on with `cs`. -/
def token? (c : Char) (cs : Text) (x : Lexer) : Option Lexer :=
  let flow := x.inFlow
  if x.column == 0 && c == '%' then x.atMargin? directive?
  else if x.place.isMarker '-' then x.atMargin? fun p => some (.documentStart, p.skip 3)
  else if x.place.isMarker '.' then x.atMargin? fun p => some (.documentEnd, p.skip 3)
  else if c == '[' then x.openFlow? .flowSequenceStart
  else if c == '{' then x.openFlow? .flowMappingStart
  else if c == ']' then x.closeFlow? .flowSequenceEnd
  else if c == '}' then x.closeFlow? .flowMappingEnd
  else if c == ',' then x.comma?
  else if c == '-' && atGap cs then x.item?
  else if c == '?' && (flow || atGap cs) then x.explicitKey?
  else if c == ':' && (flow || atGap cs) then x.value?
  else if c == '*' then x.node? fun p => (anchorName? p).map fun (n, q) => (.alias n, q)
  else if c == '&' then x.node? fun p => (anchorName? p).map fun (n, q) => (.anchor n, q)
  else if c == '!' then x.node? fun p => (tag? flow p).map fun (t, q) => (.tag t, q)
  else if c == '|' && !flow then x.block? false
  else if c == '>' && !flow then x.block? true
  else if c == '\'' then x.node? fun p => (singleQuoted? p).map notPlain
  else if c == '"' then x.node? fun p => (doubleQuoted? p).map notPlain
  else if !isSpacing c && (!isIndicator c || (c == '-' && !(cs.head?.any isSpacing)) ||
      (!flow && (c == '?' || c == ':'))) then x.plain?
  else none

/-- Reads the next token, after what separates it from the one before.  At the end of the text all
blocks are closed. -/
def next? (x : Lexer) : Option Lexer := do
  let y ← (x.skipGap (x.place.rest.length + 1)).dropStale?
  let y := y.closeBlocks y.column
  match y.place.rest with
  | [] => (y.closeBlocks (-1)).dropKey?
  | c :: cs => y.token? c cs

/-- Reads tokens up to the end of the text. -/
def run? : Nat → Lexer → Option Lexer
  | 0, _ => none
  | fuel + 1, x => do
    let y ← x.next?
    if y.place.rest.isEmpty then y.next? else run? fuel y

/-- The lexer at the beginning of a text. -/
def start (t : Text) : Lexer := ⟨⟨t, 0, 0, 0⟩, [], -1, [], [none], true⟩

end Lexer

/-- The tokens of a YAML text, unless it contains characters or combinations that are no YAML. -/
def tokens? (t : Text) : Option (List Token) :=
  if t.all isAllowed then
    ((Lexer.start (unifyBreaks t)).run? (t.length + 1)).map fun x => x.tokens.reverse
  else none

end Yaml

end MarkdownWeave
