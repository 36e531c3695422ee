import MarkdownWeave.Proofs.Inheritance.Ascent
import MarkdownWeave.Proofs.Transclusion.Expansion

/-!
# The failures of a compilation

Reading, naming a parent, merging, replacing references and writing fail for reasons of their own,
with one kind of failure for each, or two where documents are read on the way.  So a failure of
another kind is an answer of the resolver, or comes from a name without a value.

## Main results

* `Document.failure_of_parse`, `Document.failure_of_parent?`, `Document.failure_of_merge`,
  `Document.failure_of_format` — the failure of each operation on documents.
* `Expands.failure` — **replacing references fails because of the documents alone.**
-/

namespace MarkdownWeave

section Failures

variable {d : Document} {f : Failure}

/-- Reading fails because of the header. -/
theorem Document.failure_of_parse {t : Text} (h : Document.parse t = .error f) :
    ∃ reason, f = .invalidHeader reason := by
  unfold Document.parse at h
  split at h
  · cases h
  · have hread := Traced.error_of_map h
    unfold Header.read at hread
    split at hread
    · cases hread
    · split at hread <;> cases hread <;> exact ⟨_, rfl⟩

theorem Document.failure_of_parent? (h : d.parent? = .error f) :
    ∃ value, f = .invalidExtends value := by
  obtain ⟨v, -, -, -, -, rfl⟩ := Document.parent?_eq_error_iff.1 h
  exact ⟨_, rfl⟩

/-- Merging fails because of the slots for the body of the child. -/
theorem Document.failure_of_merge {p : Document} (h : merge p d = .error f) :
    ∃ count, f = .multipleContentSlots count := by
  have hbody := Traced.error_of_map h
  unfold mergeBodies at hbody
  split at hbody <;> cases hbody
  exact ⟨_, rfl⟩

theorem Document.failure_of_format (h : d.format = .error f) :
    ∃ reason, f = .unwritable reason := by
  unfold Document.format Header.format at h
  split at h
  · cases h
  · split at h <;> cases h
    exact ⟨_, rfl⟩

/-- **Replacing references fails because of the documents alone**, whatever the resolver answers:
with a path that leads back to itself, or with a header. -/
theorem Expands.failure {r : Resolver} {g : Guard} {lines : List Text} {x : Traced (List Text)}
    {calls : List Guard} (h : Expands r g lines x calls) (hf : x.outcome = .error f) :
    (∃ path chain, f = .circularReference path chain) ∨ ∃ reason, f = .invalidHeader reason := by
  induction h generalizing f with
  | nil => cases hf
  | plain _ _ ih => exact ih (Traced.error_of_map hf)
  | circular _ _ =>
    cases hf
    exact .inl ⟨_, _, rfl⟩
  | missing _ _ _ _ ih => exact ih (Traced.error_of_map hf)
  | malformed _ _ _ hd =>
    obtain rfl := Except.error.inj hf
    exact .inr (Document.failure_of_parse hd)
  | broken _ _ _ _ hy ih =>
    obtain rfl := Except.error.inj hf
    exact ih hy
  | included _ _ _ _ _ _ _ ih => exact ih (Traced.error_of_map hf)

theorem failure_of_transclude {r : Resolver} {g : Guard}
    (hf : (transclude r d g).outcome = .error f) :
    (∃ path chain, f = .circularReference path chain) ∨ ∃ reason, f = .invalidHeader reason := by
  rw [transclude_outcome] at hf
  obtain ⟨calls, h⟩ := expands_transcludeLines r g (Text.lines d.body)
  exact h.failure (Traced.error_of_map hf)

end Failures

end MarkdownWeave
