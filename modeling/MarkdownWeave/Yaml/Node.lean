import MarkdownWeave.Yaml.Token.Lexer

/-!
# YAML nodes

The tree that the tokens of a YAML text spell out: scalars, sequences and mappings with their
anchors and tags, and aliases that refer to anchors.

## Main definitions

* `Yaml.Node` — a node.
* `Yaml.Grammar` — the reading of nodes from tokens.
* `Yaml.document?` — the node of a text that consists of one document.
-/

namespace MarkdownWeave

namespace Yaml

/-- What is said about a node in front of its content. -/
structure Properties where
  /-- The name by which aliases refer to the node. -/
  anchor : Option Text
  /-- The bytes of the tag, with its handle replaced by what that stands for. -/
  tag : Option (List UInt8)

/-- A node that nothing is said about. -/
def Properties.none : Properties := ⟨Option.none, Option.none⟩

/-- A node of a YAML document; `α` is how aliases name what they refer to. -/
inductive Node (α : Type)
  /-- A reference to an anchored node. -/
  | alias (target : α)
  /-- A scalar; `plain` if it is neither quoted nor in a block of its own. -/
  | scalar (properties : Properties) (plain : Bool) (t : Text)
  /-- A sequence. -/
  | sequence (properties : Properties) (items : List (Node α))
  /-- A mapping. -/
  | mapping (properties : Properties) (entries : List (Node α × Node α))

/-- The node that is read where there is none. -/
def Node.empty {α : Type} : Node α := .scalar .none true []

/-- What the tag handles of a document stand for. -/
abbrev Handles := List (Text × List UInt8)

/-- The handles that every document has, unless a directive defines them anew. -/
def standardHandles : Handles :=
  [(['!'], Text.utf8 ['!']), (['!', '!'], Text.utf8 "tag:yaml.org,2002:")]

/-- The bytes of a tag. -/
def TagToken.resolve? (handles : Handles) (t : TagToken) : Option (List UInt8) :=
  if t.handle.isEmpty then some t.suffix
  else (handles.lookup t.handle).map (· ++ t.suffix)

namespace Grammar

/-- A reader of tokens: a result and the tokens that are left, or nothing. -/
abbrev Reader (α : Type) := List Token → Option (α × List Token)

/-- Reads an anchor and a tag, in either order and each only if it is there. -/
def properties? (handles : Handles) : Reader Properties
  | .anchor a :: .tag t :: ts => (t.resolve? handles).map fun b => (⟨some a, some b⟩, ts)
  | .tag t :: .anchor a :: ts => (t.resolve? handles).map fun b => (⟨some a, some b⟩, ts)
  | .anchor a :: ts => some (⟨some a, none⟩, ts)
  | .tag t :: ts => (t.resolve? handles).map fun b => (⟨none, some b⟩, ts)
  | ts => some (.none, ts)

/-- Whether the tokens go on with one that has no content before it. -/
def startsWith (stops : List Token) (ts : List Token) : Bool := ts.head?.any stops.contains

/-- Passes the comma before an item that is not the first. -/
def separated? (first : Bool) : List Token → Option (List Token)
  | .flowEntry :: ts => some (if first then .flowEntry :: ts else ts)
  | ts => if first then some ts else none

mutual

/-- Reads a node.  `block` tells whether its content may be laid out by indentation, `hanging`
whether it may be a sequence that is not indented any farther than the key before it. -/
def node? (handles : Handles) : Nat → (block hanging : Bool) → Reader (Node Text)
  | 0, _, _, _ => none
  | fuel + 1, block, hanging, tokens =>
    match tokens with
    | .alias name :: ts => some (.alias name, ts)
    | _ => do
      let (ps, ts) ← properties? handles tokens
      match ts with
      | .scalar plain t :: rest => return (.scalar ps plain t, rest)
      | .flowSequenceStart :: rest =>
        let (items, rest) ← flowItems? handles fuel true rest
        return (.sequence ps items, rest)
      | .flowMappingStart :: rest =>
        let (entries, rest) ← flowEntries? handles fuel true rest
        return (.mapping ps entries, rest)
      | _ =>
        if hanging && startsWith [.blockEntry] ts then
          let (items, rest) ← hangingItems? handles fuel ts
          return (.sequence ps items, rest)
        else if block && startsWith [.blockSequenceStart] ts then
          let (items, rest) ← blockItems? handles fuel (ts.drop 1)
          return (.sequence ps items, rest)
        else if block && startsWith [.blockMappingStart] ts then
          let (entries, rest) ← blockEntries? handles fuel (ts.drop 1)
          return (.mapping ps entries, rest)
        else if ps.anchor.isSome || ps.tag.isSome then return (.scalar ps true [], ts)
        else none

/-- Reads a node, or an empty one before one of the tokens `stops`. -/
def nodeBefore? (handles : Handles) : Nat → (block hanging : Bool) → List Token → Reader (Node Text)
  | 0, _, _, _, _ => none
  | fuel + 1, block, hanging, stops, ts =>
    if startsWith stops ts then some (.empty, ts) else node? handles fuel block hanging ts

/-- Reads the items of a sequence that is laid out by indentation. -/
def blockItems? (handles : Handles) : Nat → Reader (List (Node Text))
  | 0, _ => none
  | fuel + 1, tokens =>
    match tokens with
    | .blockEntry :: ts => do
      let (n, ts) ← nodeBefore? handles fuel true false [.blockEntry, .blockEnd] ts
      let (ns, ts) ← blockItems? handles fuel ts
      return (n :: ns, ts)
    | .blockEnd :: ts => some ([], ts)
    | _ => none

/-- Reads the items of a sequence that is not indented farther than the key before it. -/
def hangingItems? (handles : Handles) : Nat → Reader (List (Node Text))
  | 0, _ => none
  | fuel + 1, tokens =>
    match tokens with
    | .blockEntry :: ts => do
      let (n, ts) ← nodeBefore? handles fuel true false [.blockEntry, .key, .value, .blockEnd] ts
      let (ns, ts) ← hangingItems? handles fuel ts
      return (n :: ns, ts)
    | ts => some ([], ts)

/-- Reads the entries of a mapping that is laid out by indentation. -/
def blockEntries? (handles : Handles) : Nat → Reader (List (Node Text × Node Text))
  | 0, _ => none
  | fuel + 1, tokens =>
    match tokens with
    | .key :: ts => do
      let (k, ts) ← nodeBefore? handles fuel true true [.key, .value, .blockEnd] ts
      let (v, ts) ← blockValue? handles fuel ts
      let (es, ts) ← blockEntries? handles fuel ts
      return ((k, v) :: es, ts)
    | .blockEnd :: ts => some ([], ts)
    | _ => none

/-- Reads the value behind a key in a mapping that is laid out by indentation. -/
def blockValue? (handles : Handles) : Nat → Reader (Node Text)
  | 0, _ => none
  | fuel + 1, tokens =>
    match tokens with
    | .value :: ts => nodeBefore? handles fuel true true [.key, .value, .blockEnd] ts
    | ts => some (.empty, ts)

/-- Reads the items between square brackets, up to the closing one.  A key or a colon makes an item
a mapping of one entry. -/
def flowItems? (handles : Handles) : Nat → (first : Bool) → Reader (List (Node Text))
  | 0, _, _ => none
  | fuel + 1, first, tokens =>
    match tokens with
    | .flowSequenceEnd :: ts => some ([], ts)
    | _ => do
      let ts ← separated? first tokens
      match ts with
      | .flowSequenceEnd :: rest => return ([], rest)
      | .key :: rest =>
        let (e, rest) ← flowPair? handles fuel rest
        let (ns, rest) ← flowItems? handles fuel false rest
        return (.mapping .none [e] :: ns, rest)
      | _ =>
        let (n, rest) ← node? handles fuel false false ts
        let (ns, rest) ← flowItems? handles fuel false rest
        return (n :: ns, rest)

/-- Reads the one entry of a mapping without braces, behind its key token.  Where the key is empty,
the token behind it is passed over. -/
def flowPair? (handles : Handles) : Nat → Reader (Node Text × Node Text)
  | 0, _ => none
  | fuel + 1, tokens => do
    let (k, ts) ←
      if startsWith [.value, .flowEntry, .flowSequenceEnd] tokens then
        some (.empty, tokens.drop 1)
      else node? handles fuel false false tokens
    match ts with
    | .value :: rest =>
      let (v, rest) ← nodeBefore? handles fuel false false [.flowEntry, .flowSequenceEnd] rest
      return ((k, v), rest)
    | _ => return ((k, .empty), ts)

/-- Reads the entries between braces, up to the closing one. -/
def flowEntries? (handles : Handles) : Nat → (first : Bool) → Reader (List (Node Text × Node Text))
  | 0, _, _ => none
  | fuel + 1, first, tokens =>
    match tokens with
    | .flowMappingEnd :: ts => some ([], ts)
    | _ => do
      let ts ← separated? first tokens
      match ts with
      | .flowMappingEnd :: rest => return ([], rest)
      | .key :: rest =>
        let (k, rest) ←
          nodeBefore? handles fuel false false [.value, .flowEntry, .flowMappingEnd] rest
        let (v, rest) ← flowValue? handles fuel rest
        let (es, rest) ← flowEntries? handles fuel false rest
        return ((k, v) :: es, rest)
      | _ =>
        let (k, rest) ← node? handles fuel false false ts
        let (es, rest) ← flowEntries? handles fuel false rest
        return ((k, .empty) :: es, rest)

/-- Reads the value behind a key between braces. -/
def flowValue? (handles : Handles) : Nat → Reader (Node Text)
  | 0, _ => none
  | fuel + 1, tokens =>
    match tokens with
    | .value :: ts => nodeBefore? handles fuel false false [.flowEntry, .flowMappingEnd] ts
    | ts => some (.empty, ts)

end

/-- Reads the directives in front of a document: whether a version has been given, and what the
handles stand for.  Nothing may be given twice, and the version has to be 1.1 or 1.2. -/
def directives? (version : Bool) (handles : Handles) : Reader Handles
  | .version major minor :: ts =>
    if version || major != 1 || (minor != 1 && minor != 2) then none
    else directives? true handles ts
  | .tagDirective handle start :: ts =>
    if (handles.lookup handle).isSome then none
    else directives? version (handles ++ [(handle, start)]) ts
  | ts => some (handles, ts)

/-- Whether the tokens go on with a directive. -/
def atDirective : List Token → Bool
  | .version .. :: _ => true
  | .tagDirective .. :: _ => true
  | _ => false

/-- Reads the document that the tokens consist of; there is none if there are no tokens at all.
After a document only closing lines may follow. -/
def document? (tokens : List Token) : Option (Option (Node Text)) :=
  let fuel := 4 * tokens.length + 4
  match tokens with
  | [] => some none
  | _ => do
    let (node, rest) ←
      if atDirective tokens || startsWith [.documentStart] tokens then do
        let (handles, ts) ← directives? false [] tokens
        match ts with
        | .documentStart :: rest =>
          if rest.isEmpty || atDirective rest || startsWith [.documentStart, .documentEnd] rest then
            some (.empty, rest)
          else node? (handles ++ standardHandles) fuel true false rest
        | _ => none
      else node? standardHandles fuel true false tokens
    if rest.all (· == .documentEnd) then return some node else none

end Grammar

/-- The node of a YAML text that consists of one document; `some none` for a text without any. -/
def document? (t : Text) : Option (Option (Node Text)) := (tokens? t).bind Grammar.document?

end Yaml

end MarkdownWeave
