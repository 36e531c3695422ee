import MarkdownWeave.Compile.Guard
import MarkdownWeave.Resolver
import MarkdownWeave.Text.Blank

/-!
# Transclusion

A line that is nothing but an at sign and a path is replaced with the body of the document there,
which is indented like the line and may refer to further documents.

## Main definitions

* `Reference` — a line that refers to a document.
* `splice` — the lines that a body becomes in place of such a line.
* `transclude` — a document with its references replaced.
-/

namespace MarkdownWeave

/-- A line that refers to a document. -/
structure Reference where
  /-- The white space before the at sign. -/
  indent : Text
  /-- The path. -/
  path : Text
deriving DecidableEq

namespace Reference

/-- Whether a character may stand in a path: ASCII letters, digits and some marks. -/
def isPathChar (c : Char) : Bool :=
  Text.isLetter c || Text.isDigit c || c == '-' || c == '_' || c == '/' || c == '.'

/-- The reference that a line is: an at sign and a path, with nothing but white space around. -/
def ofLine? (line : Text) : Option Reference :=
  match line.dropWhile Text.isBlank with
  | '@' :: rest =>
    let path := rest.takeWhile isPathChar
    if !path.isEmpty && (rest.dropWhile isPathChar).all Text.isBlank then
      some ⟨line.takeWhile Text.isBlank, path⟩
    else none
  | _ => none

end Reference

/-! ### Splicing -/

/-- One line of a body in its new place: the indentation before it unless it is empty, and a
carriage return at its end if it has one or the lines around it have. -/
def spliceLine (indent : Text) (cr : Bool) (line : Text) : Text :=
  let words := Text.dropCr line
  let ending := if cr || Text.endsWith '\r' line then ['\r'] else []
  if words.isEmpty then ending else indent ++ words ++ ending

/-- The lines that a body becomes in its new place. -/
def splice (indent : Text) (cr : Bool) (body : Text) : List Text :=
  (Text.lines body).map (spliceLine indent cr)

/-! ### Following references -/

/-- The paths that lines refer to. -/
def referencedPaths (lines : List Text) : List Text :=
  (lines.filterMap Reference.ofLine?).map Reference.path

/-- The paths that the documents of a resolver refer to. -/
def Resolver.references (r : Resolver) : List Text :=
  r.documents.flatMap fun d => referencedPaths (Text.lines d.body)

/-- What is left to follow: the paths that are not on the guard, and one more if the lines at hand
refer to a path that no document of the resolver refers to. -/
def transcludeMeasure (r : Resolver) (lines : List Text) (g : Guard) : Nat :=
  (g.fresh r.references).length +
    if ∀ p ∈ referencedPaths lines, p ∈ r.references then 0 else 1

theorem transcludeMeasure_cons_le (r : Resolver) (line : Text) (lines : List Text) (g : Guard) :
    transcludeMeasure r lines g ≤ transcludeMeasure r (line :: lines) g := by
  unfold transcludeMeasure
  by_cases h : ∀ p ∈ referencedPaths (line :: lines), p ∈ r.references
  · have h' : ∀ p ∈ referencedPaths lines, p ∈ r.references := fun p hp =>
      h p (by
        simp only [referencedPaths, List.filterMap_cons, List.mem_map] at hp ⊢
        obtain ⟨a, ha, rfl⟩ := hp
        refine ⟨a, ?_, rfl⟩
        cases Reference.ofLine? line <;> simp [ha])
    simp only [if_pos h, if_pos h', Nat.le_refl]
  · rw [if_neg h]
    split <;> omega

theorem transcludeMeasure_of_mem {r : Resolver} {d : Document} (hd : d ∈ r.documents) (g : Guard) :
    transcludeMeasure r (Text.lines d.body) g = (g.fresh r.references).length := by
  unfold transcludeMeasure
  have h : ∀ p ∈ referencedPaths (Text.lines d.body), p ∈ r.references :=
    fun p hp => List.mem_flatMap.2 ⟨d, hd, hp⟩
  rw [if_pos h]
  rfl

/-- Following a reference leaves less to follow. -/
theorem transcludeMeasure_extend_lt {r : Resolver} {d : Document} {g : Guard} {line : Text}
    {lines : List Text} {ref : Reference} (hl : Reference.ofLine? line = some ref)
    (hg : g.contains ref.path = false) (hd : d ∈ r.documents) :
    transcludeMeasure r (Text.lines d.body) (g.extend ref.path) <
      transcludeMeasure r (line :: lines) g := by
  rw [transcludeMeasure_of_mem hd]
  unfold transcludeMeasure
  by_cases h : ∀ p ∈ referencedPaths (line :: lines), p ∈ r.references
  · have hm : ref.path ∈ r.references := h _ (by simp [referencedPaths, hl])
    rw [if_pos h]
    simpa using Guard.length_fresh_extend_lt hm hg
  · have := Guard.length_fresh_extend_le g ref.path r.references
    rw [if_neg h]
    omega

/-- The notice that a document is put in place of a line. -/
def includingNotice (path : Text) (depth : Nat) : Text :=
  "Including '" ++ path ++ "' (depth " ++ Text.ofNat depth ++ [')']

/-- The warning that a line stays as it is. -/
def unresolvedWarning (path : Text) (f : Failure) : Text :=
  "Leaving '@" ++ path ++ "' unresolved: " ++ f.message

/-- What becomes of a line that is a reference, where `expand` completes the document that is put
in its place.  A path that there is no answer for leaves its line as it is. -/
def expandReference (r : Resolver) (line : Text) (ref : Reference) (depth : Nat)
    (expand : r.Stored → Traced (List Text)) : Traced (List Text) := do
  match ← r.tryFetch ref.path with
  | .error f => do
    Traced.warn (unresolvedWarning ref.path f)
    return [line]
  | .ok t => do
    Traced.debug (includingNotice ref.path depth)
    let d ← Traced.ofExcept (r.document t)
    let inner ← expand d
    return splice ref.indent (Text.endsWith '\r' line) (Text.unlines inner)

/-- Lines with their references replaced.  A path that is on the guard is an error. -/
def transcludeLines (r : Resolver) (g : Guard) : List Text → Traced (List Text)
  | [] => Traced.done []
  | line :: lines =>
    match _hl : Reference.ofLine? line with
    | none => do
      let rest ← transcludeLines r g lines
      return line :: rest
    | some ref =>
      match _hg : g.check ref.path with
      | .error f => Traced.fail f
      | .ok () => do
        let first ← expandReference r line ref g.depth fun d =>
          transcludeLines r (g.extend ref.path) (Text.lines d.1.body)
        let rest ← transcludeLines r g lines
        return first ++ rest
termination_by lines => (transcludeMeasure r lines g, lines.length)
decreasing_by
  · rcases Nat.lt_or_eq_of_le (transcludeMeasure_cons_le r line lines g) with h | h
    · exact Prod.Lex.left _ _ h
    · rw [h]
      exact Prod.Lex.right _ (by simp)
  · exact Prod.Lex.left _ _
      (transcludeMeasure_extend_lt (by assumption) (Guard.contains_of_check _hg) d.2)
  · rcases Nat.lt_or_eq_of_le (transcludeMeasure_cons_le r line lines g) with h | h
    · exact Prod.Lex.left _ _ h
    · rw [h]
      exact Prod.Lex.right _ (by simp)

/-- A document with the lines of its body that refer to other documents replaced. -/
def transclude (r : Resolver) (d : Document) (g : Guard) : Traced Document := do
  let lines ← transcludeLines r g (Text.lines d.body)
  return ⟨d.metadata, Text.unlines lines⟩

end MarkdownWeave
