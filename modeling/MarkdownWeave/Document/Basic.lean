import MarkdownWeave.Document.Header

/-!
# Documents

A document is metadata and a body.

## Main definitions

* `Document` — a document.
* `Document.parse` — the document that a text is.
* `Document.format` — the text of a document.
* `Document.same` — equality of documents, in which the order of metadata does not count.
-/

namespace MarkdownWeave

/-- A document: metadata and a body. -/
structure Document where
  /-- The metadata, by name. -/
  metadata : Metadata
  /-- The text behind the header. -/
  body : Text
deriving DecidableEq

namespace Document

/-- The document that a text is. -/
def parse (t : Text) : Except Failure Document :=
  match Header.split? t with
  | none => .ok ⟨[], t⟩
  | some (yaml, body) => (Header.read yaml).map fun m => ⟨m, body⟩

/-- The text of a document. -/
def format (d : Document) : Except Failure Text := Header.format d.metadata d.body

/-- The metadata under a name. -/
def get? (d : Document) (name : Text) : Option Value := d.metadata.get? name

/-- Whether two documents have the same body and equal metadata, in whatever order. -/
def same (d e : Document) : Bool := d.body == e.body && d.metadata.same e.metadata

end Document

end MarkdownWeave
