import MarkdownWeave.Text.Utf8
import MarkdownWeave.Yaml.Node
import MarkdownWeave.Yaml.Scalar

/-!
# Reading values

The value that a YAML text spells out.  Aliases are replaced by what they refer to; how often that
may happen and how deep a value may be is limited, so that a short text has no huge value.

## Main definitions

* `Yaml.Linked` — a part of a document in which aliases refer to numbered anchors.
* `Yaml.load?` — the value of a node.
* `Yaml.read?` — the value of a text.
-/

namespace MarkdownWeave

namespace Yaml

/-! ### Anchors -/

/-- The names that have been anchored so far in a text, and what its length is. -/
structure Census where
  /-- The number of each name: how many names there were when it was anchored last. -/
  numbers : List (Text × Nat)
  /-- The number of pieces: one for a scalar or an alias and two for a collection. -/
  size : Nat

namespace Census

/-- The census after a node that has these properties and consists of `n` pieces of its own, and
the number of its anchor. -/
def add (ps : Properties) (n : Nat) (c : Census) : Option Nat × Census :=
  match ps.anchor with
  | none => (none, ⟨c.numbers, c.size + n⟩)
  | some name =>
    let number := c.numbers.length
    (some number, ⟨(name, number) :: c.numbers.filter fun e => e.1 != name, c.size + n⟩)

end Census

/-- What aliases refer to: numbered nodes.  Where a number is given twice, the later node counts. -/
abbrev Anchors := List (Nat × Node Nat)

/-- The node with a number. -/
def Anchors.find? (as : Anchors) (number : Nat) : Option (Node Nat) :=
  as.reverse.lookup number

/-- A part of a document in which aliases refer to numbers. -/
structure Linked (α : Type) where
  /-- The part. -/
  part : α
  /-- The anchored nodes in it, in the order of the text. -/
  anchors : Anchors
  /-- The census after it. -/
  census : Census

mutual

/-- Gives the aliases of a node the numbers of what they refer to; that fails at a name that has
not been anchored before. -/
def Node.link? : Node Text → Census → Option (Linked (Node Nat))
  | .alias name, c => (c.numbers.lookup name).map fun n => ⟨.alias n, [], ⟨c.numbers, c.size + 1⟩⟩
  | .scalar ps plain t, c =>
    let (number, c) := c.add ps 1
    let node := .scalar ps plain t
    some ⟨node, number.toList.map (·, node), c⟩
  | .sequence ps items, c => do
    let (number, c) := c.add ps 2
    let l ← Node.linkItems? items c
    let node := .sequence ps l.part
    return ⟨node, number.toList.map (·, node) ++ l.anchors, l.census⟩
  | .mapping ps entries, c => do
    let (number, c) := c.add ps 2
    let l ← Node.linkEntries? entries c
    let node := .mapping ps l.part
    return ⟨node, number.toList.map (·, node) ++ l.anchors, l.census⟩

/-- Links the items of a sequence. -/
def Node.linkItems? : List (Node Text) → Census → Option (Linked (List (Node Nat)))
  | [], c => some ⟨[], [], c⟩
  | n :: ns, c => do
    let l ← n.link? c
    let ls ← Node.linkItems? ns l.census
    return ⟨l.part :: ls.part, l.anchors ++ ls.anchors, ls.census⟩

/-- Links the entries of a mapping. -/
def Node.linkEntries? :
    List (Node Text × Node Text) → Census → Option (Linked (List (Node Nat × Node Nat)))
  | [], c => some ⟨[], [], c⟩
  | (k, v) :: es, c => do
    let l ← k.link? c
    let r ← v.link? l.census
    let ls ← Node.linkEntries? es r.census
    return ⟨(l.part, r.part) :: ls.part, l.anchors ++ r.anchors ++ ls.anchors, ls.census⟩

end

/-! ### Values -/

/-- The value that a plain scalar spells. -/
def plainValue? (t : Text) : Option Value :=
  match resolve t with
  | .null => some .null
  | .bool b => some (.bool b)
  | .int n => some (.int n)
  | .wide => none
  | .float x => some (.float x)
  | .text => some (.text t)

/-- The value of a scalar under a tag of YAML itself, given by the last part of its name. -/
def coreValue? (kind t : Text) : Option Value :=
  if kind == ("bool" : Text) then (bool? t).map .bool
  else if kind == ("int" : Text) then
    (integer? t).bind fun n => if fits64 n then some (.int n) else none
  else if kind == ("float" : Text) then (float? t).map .float
  else if kind == ("null" : Text) then if isNull t then some .null else none
  else some (.text t)

/-- What the tags of YAML itself begin with. -/
def corePart : Text := "tag:yaml.org,2002:"

/-- The name of an application's own tag: one that begins with an exclamation mark. -/
def ownTag? (bytes : List UInt8) : Option Text := do
  let t ← Text.ofUtf8? bytes
  if t.head? = some '!' then return Value.tagName (Value.tagName t) else none

/-- The value of a scalar without a tag: plain ones are resolved and others are texts. -/
def untaggedValue? (plain : Bool) (t : Text) : Option Value :=
  if plain then plainValue? t else some (.text t)

/-- The value of a scalar, the application's own tags aside.  A tag of YAML itself decides how it is
read, and under another tag it is a text; what begins with an exclamation mark does not count. -/
def scalarValue? (ps : Properties) (plain : Bool) (t : Text) : Option Value :=
  match ps.tag with
  | none => untaggedValue? plain t
  | some bytes =>
    if bytes.take 1 == Text.utf8 ['!'] then untaggedValue? plain t
    else
      match Text.ofUtf8? bytes with
      | some name =>
        if name.take corePart.length == corePart then coreValue? (name.drop corePart.length) t
        else some (.text t)
      | none => some (.text t)

/-- How deep a value may be. -/
def maxDepth : Nat := 128

/-- How often aliases may be followed for every piece of the text. -/
def aliasesPerPiece : Nat := 100

/-- A computation that counts how often an alias has been followed, and may fail. -/
abbrev Loading := StateT Nat Option

/-- What an alias refers to, unless aliases have been followed too often. -/
def follow? (anchors : Anchors) (limit : Nat) : Node Nat → Loading (Node Nat)
  | .alias number => do
    let n ← get
    if limit ≤ n then failure
    set (n + 1)
    match anchors.find? number with
    | some node => return node
    | none => failure
  | node => return node

/-- What is said about a node. -/
def Node.properties {α : Type} : Node α → Properties
  | .alias _ => .none
  | .scalar ps .. => ps
  | .sequence ps _ => ps
  | .mapping ps _ => ps

/-- Puts an entry at the end of a mapping that does not have its key. -/
def addNew? (m : Metadata) (k v : Value) : Option Metadata :=
  if m.hasKey k then none else some (m ++ [(k, v)])

/-- The value of a node; `depth` is how deep it may be. -/
def load? (anchors : Anchors) (limit : Nat) : (depth : Nat) → Node Nat → Loading Value
  | depth, node => do
    let target ← follow? anchors limit node
    let content ← match target with
      | .scalar ps plain t => StateT.lift (scalarValue? ps plain t)
      | .sequence _ items =>
        match depth with
        | 0 => failure
        | depth + 1 => Value.sequence <$> items.mapM (load? anchors limit depth)
      | .mapping _ entries =>
        match depth with
        | 0 => failure
        | depth + 1 => Value.mapping <$> entries.foldlM (fun m e => do
          let k ← load? anchors limit depth e.1
          let v ← load? anchors limit depth e.2
          StateT.lift (addNew? m k v)) []
      | .alias _ => failure
    match target.properties.tag.bind ownTag? with
    | some name => return .tagged name content
    | none => return content

/-- The value that a YAML text of one document spells; an empty one spells null. -/
def read? (t : Text) : Option Value := do
  match ← document? t with
  | none => return .null
  | some node =>
    let l ← node.link? ⟨[], 0⟩
    let r ← (load? l.anchors (aliasesPerPiece * l.census.size) maxDepth l.part).run 0
    return r.1

end Yaml

end MarkdownWeave
