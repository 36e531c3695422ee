import MarkdownWeave.Text.Utf8
import MarkdownWeave.Value.Normal
import MarkdownWeave.Yaml.Quoting

/-!
# Writing values

Metadata as YAML.  Mappings and sequences are laid out by indentation, two spaces for every level;
a sequence under a key is not indented any farther than the key.  Short keys on one line stand
before a colon, all others behind a question mark.

## Main definitions

* `Yaml.isWritable` — whether a value can be written; a tag directly under a tag cannot.
* `Yaml.node` — the layout of a value.
* `Yaml.write?` — the YAML text of metadata.
-/

namespace MarkdownWeave

namespace Yaml

/-! ### What can be written -/

/-- Whether a value looks like a tagged one: it is one, or a mapping of one entry. -/
def looksTagged : Value → Bool
  | .tagged .. => true
  | .mapping [_] => true
  | _ => false

/-- Whether a mapping is one entry whose key looks like a tagged value. -/
def isAmbiguous : Metadata → Bool
  | [(k, _)] => looksTagged k
  | _ => false

mutual

/-- Whether a value can be written.  There must be no tag directly under a tag, and no mapping of
one entry, except under a tag, whose key looks like a tagged value. -/
def isWritable (underTag : Bool) : Value → Bool
  | .tagged _ v => !underTag && isWritable true v
  | .sequence vs => areWritable vs
  | .mapping m => (underTag || !isAmbiguous m) && haveWritable m
  | _ => true
termination_by structural v => v

/-- Whether all items of a sequence can be written. -/
def areWritable : List Value → Bool
  | [] => true
  | v :: vs => isWritable false v && areWritable vs
termination_by structural vs => vs

/-- Whether the keys and values of all entries can be written. -/
def haveWritable : List (Value × Value) → Bool
  | [] => true
  | e :: rest => hasWritable e && haveWritable rest
termination_by structural m => m

/-- Whether the key and the value of an entry can be written. -/
def hasWritable : Value × Value → Bool
  | (k, v) => isWritable false k && isWritable false v
termination_by structural e => e

end

/-! ### Tags -/

/-- Whether a character of a tag is written as it is. -/
def isTagPlain (c : Char) : Bool := isWord c || "-;/?:@&=+$,.~*'()[]".toList.contains c

/-- A character of a tag: itself, or its bytes behind percent signs. -/
def tagChar (c : Char) : Text :=
  if isTagPlain c then [c] else (Text.utf8 [c]).flatMap fun b => '%' :: Text.hexUpper 2 b.toNat

/-- The full text of a tag.  It begins with an exclamation mark, and a null character ends it. -/
def tagText (name : Text) : Text :=
  (if name.head? = some '!' then name else '!' :: name).takeWhile (· != '\x00')

/-- The written form of a tag; one that is only an exclamation mark stands in angle brackets. -/
def tagForm (name : Text) : Text :=
  match tagText name with
  | ['!'] => "!<%21>"
  | t => '!' :: (t.drop 1).flatMap tagChar

/-! ### Layout -/

/-- The text that a scalar is written from. -/
def scalarText : Value → Text
  | .text t => t
  | v => (Value.scalarText? v).getD []

/-- The most bytes that a key in front of a colon can have. -/
def maxKeySize : Nat := 128

/-- The size of a key, with its tag, and whether it is on one line; `none` for a collection that is
not empty. -/
def keySize? : Value → Option Nat
  | .tagged t v => (keySize? v).map (Text.byteSize (tagText t) + ·)
  | .sequence [] => some 0
  | .mapping [] => some 0
  | .sequence _ => none
  | .mapping _ => none
  | v => if (scalarText v).any isBreak then none else some (Text.byteSize (scalarText v))

/-- Whether a key can stand in front of a colon. -/
def isSimpleKey (k : Value) : Bool := (keySize? k).any (· ≤ maxKeySize)

/-- The layout of a scalar that is not a tag's or a collection.  A text is quoted where it has to
be, and all others are plain. -/
def scalarNode (key : Bool) (n : Nat) : Value → Stroke
  | .text t => scalar key n t
  | v => .word (scalarText v)

/-- The column of the items of a sequence, where the layout around it is indented by `n`: the same
directly behind the colon of a key, farther in elsewhere. -/
def itemColumn (inMapping : Bool) (n : Nat) (p : Pen) : Nat :=
  if inMapping && p = .content then n else n + 2

mutual

/-- The layout of a value inside of a layout that is indented by `n`.  `key` tells that it has to
stay on one line, `inMapping` that it is a key or a value of a mapping. -/
def node (key inMapping : Bool) (n : Nat) : Value → Stroke
  | .tagged t v => (Stroke.word (tagForm t)).andThen (node key inMapping n v)
  | .sequence [] => .word ['[', ']']
  | .mapping [] => .word ['{', '}']
  | .sequence (v :: vs) => fun p => items (itemColumn inMapping n p) (v :: vs) p
  | .mapping (e :: m) => entries (n + 2) (e :: m)
  | v => scalarNode key n v
termination_by structural v => v

/-- The layout of items, each on lines of its own behind a hyphen. -/
def items (n : Nat) : List Value → Stroke
  | [] => .nothing
  | v :: vs =>
    Stroke.all [.indent n, .mark '-', node false false n v, items n vs]
termination_by structural vs => vs

/-- The layout of entries, each on lines of its own. -/
def entries (n : Nat) : List (Value × Value) → Stroke
  | [] => .nothing
  | e :: rest => (entry n e).andThen (entries n rest)
termination_by structural m => m

/-- The layout of an entry: a key and a colon with the value behind it, or both behind marks of
their own. -/
def entry (n : Nat) : Value × Value → Stroke
  | (k, v) =>
    if isSimpleKey k then
      Stroke.all [.indent n, node true true n k, .joined [':'], node false true n v]
    else
      Stroke.all [.indent n, .mark '?', node false true n k, .indent n, .mark ':',
        node false true n v]
termination_by structural e => e

end

/-- The YAML text of metadata that is not empty: its entries on lines of their own. -/
def layout (m : Metadata) : Text :=
  ((entries 0 m).andThen (fun p => if p = .content then (['\n'], .lineStart) else ([], p))
    .lineStart).1

/-- The YAML text of metadata that is not empty, if it can be written. -/
def write? (m : Metadata) : Option Text :=
  if isWritable false (.mapping m) then some (layout m) else none

end Yaml

end MarkdownWeave
