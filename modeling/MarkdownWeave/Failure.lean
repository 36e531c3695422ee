import MarkdownWeave.Text.Basic

/-!
# Failures

Why a document could not be compiled.

## Main definitions

* `Failure` — the causes.
* `Failure.message` — a cause in words.
-/

namespace MarkdownWeave

/-- Why a document could not be compiled. -/
inductive Failure
  /-- There is no document at a path. -/
  | documentNotFound (path : Text)
  /-- A document refers to itself through the documents on `chain`, the outermost first. -/
  | circularReference (path : Text) (chain : List Text)
  /-- A parent has more than one slot for the body of its child. -/
  | multipleContentSlots (count : Nat)
  /-- A placeholder has a name that no metadata key has; `suggestions` are similar keys. -/
  | undefinedVariable (name : Text) (suggestions : List Text)
  /-- The parent of a document is given by something that is no path. -/
  | invalidExtends (value : Text)
  /-- The header of a document is no mapping in YAML. -/
  | invalidHeader (reason : Text)
  /-- A document has more bytes than are allowed. -/
  | documentTooLarge (path : Text) (size limit : Nat)
  /-- A file could not be read. -/
  | unreadable (path reason : Text)
  /-- Metadata could not be written. -/
  | unwritable (reason : Text)
  /-- A variable is not given as a name and a value. -/
  | invalidVariable (input reason : Text)
  /-- The settings cannot be used. -/
  | invalidSettings (reason : Text)
  /-- Any other failure, in words. -/
  | other (message : Text)
deriving DecidableEq

namespace Failure

/-- A failure in words. -/
def message : Failure → Text
  | documentNotFound path => "Document not found: " ++ path
  | circularReference path _ => "Circular reference detected: " ++ path
  | multipleContentSlots count =>
    "Multiple \x7b\x7b content \x7d\x7d markers found in parent (" ++ Text.ofNat count ++
      "). Only one content slot is allowed."
  | undefinedVariable name _ => "Undefined variable: " ++ name
  | invalidExtends value => "Invalid extends value: " ++ value ++ " (expected a document path)"
  | invalidHeader reason => "Invalid frontmatter: " ++ reason
  | documentTooLarge path size limit =>
    "Document too large: " ++ path ++ " (" ++ Text.ofNat size ++ " bytes, limit " ++
      Text.ofNat limit ++ " bytes)"
  | unreadable path reason => "Could not read " ++ path ++ ": " ++ reason
  | unwritable reason => "Serialization failed: " ++ reason
  | invalidVariable input reason =>
    "Invalid variable format: \"" ++ input ++ "\". " ++ reason
  | invalidSettings reason => "Configuration error: " ++ reason
  | other m => m

/-- The failure of a header that is YAML but no mapping, by what it is instead. -/
def headerOfKind (kind : Text) : Failure :=
  .invalidHeader ("expected a mapping of keys to values, found " ++ kind)

/-- The failure of a header that is no YAML. -/
def malformedHeader : Failure := .invalidHeader "malformed YAML"

end Failure

end MarkdownWeave
