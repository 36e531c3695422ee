import MarkdownWeave.Compile.Slot
import MarkdownWeave.Resolver
import MarkdownWeave.Text.Distance
import MarkdownWeave.Value.Json

/-!
# Substitution

Every slot in a body is filled with the value that the metadata has under its name.  A value that
begins with an at sign stands for the body of another document.

## Main definitions

* `similarNames` — names that may have been meant by one that is not defined.
* `Answers.render`, `render` — the text that stands for a value in a body.
* `outputMetadata` — the metadata that is left for the compiled document.
* `Answers.substitute`, `substitute` — a document with its slots filled.
-/

namespace MarkdownWeave

/-- The metadata key that holds the metadata of the compiled document. -/
def outputKey : Text := "output"

/-! ### Similar names -/

/-- How many names are suggested at most. -/
def maxSuggestions : Nat := 3

/-- How far a name may be from the one that was meant: half the length of the latter. -/
def maxDistance (name : Text) : Nat := name.length / 2

/-- The names that are most similar to a given one, the nearest first. -/
def similarNames (name : Text) (available : List Text) : List Text :=
  ((available.mergeSort fun a b => Text.distance name a ≤ Text.distance name b).filter
    fun a => Text.distance name a ≤ maxDistance name).take maxSuggestions

/-- The failure of a slot whose name is not defined. -/
def undefinedName (name : Text) (m : Metadata) : Failure :=
  .undefinedVariable name (similarNames name (m.filterMap fun e => e.1.textUnderTags?))

/-! ### Values -/

/-- The text that stands for a value in a body.  An at sign at the beginning of a text makes the
rest a path, and the body of the document there is taken. -/
def Answers.render (answers : Answers) : Value → Traced Text
  | .text ('@' :: path) => do
    Traced.debug ("Loading variable value from '" ++ path ++ ['\''])
    let d ← answers.load path
    return d.body
  | .text t => return t
  | v => return v.json

/-- The text that stands for a value, with documents from a resolver. -/
def render (r : Resolver) (v : Value) : Traced Text := Answers.render r.answer v

/-- The texts of the values under some names, each with its name. -/
def Answers.renderAll (answers : Answers) (m : Metadata) (names : List Text) :
    Traced (List (Text × Text)) :=
  names.mapM fun name => do
    let text ← answers.render ((m.get? name).getD .null)
    return (name, text)

/-- The metadata that is left for the compiled document: the mapping under the key for it.
Anything else there, except null, is passed over with a warning. -/
def outputMetadata (m : Metadata) : Traced Metadata :=
  match m.get? outputKey with
  | some (.mapping output) => return output
  | none => return []
  | some .null => return []
  | some _ => do
    Traced.warn ("Ignoring '" ++ outputKey ++ "' metadata: expected a mapping")
    return []

/-- A document with its slots filled.  All names are checked before any value is looked at, and a
slot that comes with a value is not filled again. -/
def Answers.substitute (answers : Answers) (d : Document) : Traced Document :=
  match (Slot.names d.body).find? fun name => !d.metadata.has name with
  | some name => Traced.fail (undefinedName name d.metadata)
  | none => do
    let values ← answers.renderAll d.metadata (Slot.names d.body)
    Traced.debug ("Substituted " ++ Text.ofNat values.length ++ " variable(s)")
    let output ← outputMetadata d.metadata
    return ⟨output, Slot.fill (fun s => (values.lookup s.name).getD s.source) d.body⟩

/-- A document with its slots filled, with documents from a resolver. -/
def substitute (r : Resolver) (d : Document) : Traced Document := Answers.substitute r.answer d

end MarkdownWeave
