import MarkdownWeave.Compile.Inheritance
import MarkdownWeave.Compile.Substitution
import MarkdownWeave.Compile.Transclusion

/-!
# Compilation

A source text is compiled in five steps: it is read, completed with what it inherits, given the
variables of the caller, its slots are filled, and its references replaced.  The order matters:
slots can be filled with inherited values, variables of the caller win over all others, and a
reference can be the value of a variable.

## Main definitions

* `applyOverrides` — a document with the variables of the caller.
* `compileDocument` — the compiled document.
* `compile` — its text.
-/

namespace MarkdownWeave

/-- A document with variables put over its metadata. -/
def applyOverrides (d : Document) (vars : Metadata) : Document :=
  ⟨vars.foldl (fun m e => m.insert e.1.normalizeKey e.2) d.metadata, d.body⟩

/-- Variables with texts for values, in the order in which they are given; of two with the same name
the last one counts. -/
def textVariables (vars : List (Text × Text)) : Metadata :=
  Metadata.ofEntries (vars.map fun v => (.text v.1, .text v.2))

/-- The notice that variables are put over the metadata, if there are any. -/
def announceOverrides (vars : Metadata) : Traced Unit :=
  if vars.isEmpty then Traced.done ()
  else Traced.debug ("Applying " ++ Text.ofNat vars.length ++ " override variable(s)")

/-- The document that a source text is compiled to. -/
def compileDocument (r : Resolver) (source : Text) (vars : Metadata) : Traced Document := do
  let parsed ← Traced.ofExcept (Document.parse source)
  Traced.debug "Resolving extends chain"
  let complete ← inherit r parsed .empty
  announceOverrides vars
  Traced.debug "Substituting variables"
  let filled ← substitute r (applyOverrides complete vars)
  Traced.debug "Resolving includes"
  transclude r filled .empty

/-- The text that a source text is compiled to. -/
def compile (r : Resolver) (source : Text) (vars : Metadata) : Traced Text := do
  let d ← compileDocument r source vars
  Traced.ofExcept d.format

end MarkdownWeave
