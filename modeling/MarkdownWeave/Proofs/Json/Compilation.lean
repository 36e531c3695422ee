import MarkdownWeave.Proofs.Json.Rendering
import MarkdownWeave.Proofs.Metadata.Proper
import MarkdownWeave.Proofs.Slots.Filling
import MarkdownWeave.Proofs.Stages
import MarkdownWeave.Proofs.Transclusion.Expansion

/-!
# The values of a compilation

A compilation does not calculate.  Its numbers come from decimals, which are rounded to doubles when
they are read, and from the caller; then they are handed on as they are, from parents to children
and into the output.  So whatever value a slot is given, its text says what the value says.

## Main results

* `Yaml.isSound_of_read?` — **values that are read are sound.**
* `Value.IsSound.normalize` — their normal forms are sound, too.
* `Reaches.isSound` — so is the metadata after each step of a compilation, if the caller's is.
* `Reaches.read?_json` — **all values that a compilation with texts for variables comes by are read
  back from their texts.**
-/

namespace MarkdownWeave

open Value (IsSound)

/-! ### Reading -/

namespace Value

theorem isSound_mapping {m : Metadata} : IsSound (mapping m) ↔ ∀ e ∈ m, e.2.IsSound := by
  constructor
  · rintro (_ | _ | _ | _ | _ | _ | h)
    exact h
  · exact .mapping

/-- Entries that are put in keep a mapping sound. -/
theorem IsSound.insertAll {m : Metadata} (hm : IsSound (.mapping m)) {es : List (Value × Value)}
    (hes : ∀ e ∈ es, e.2.IsSound) : IsSound (.mapping (m.insertAll es)) := by
  rw [isSound_mapping] at hm ⊢
  have hall := Metadata.forall_insertAll (p := fun _ => True) (q := IsSound)
    (fun e he => ⟨trivial, hm e he⟩) fun e he => ⟨trivial, hes e he⟩
  exact fun e he => (hall e he).2

/-- **The normal form of a sound value is sound.** -/
theorem IsSound.normalize {v : Value} (h : v.IsSound) : v.normalize.IsSound := by
  induction h with
  | null => exact .null
  | bool b => exact .bool b
  | int n => exact .int n
  | float hx => exact .float hx
  | text t => exact .text t
  | @sequence vs _ ih =>
    rw [Value.normalize, normalizeItems_eq_map]
    refine .sequence fun w hw => ?_
    obtain ⟨v, hv, rfl⟩ := List.mem_map.1 hw
    exact ih v hv
  | @mapping m _ ih =>
    rw [Value.normalize, normalizeEntries_eq_map, Metadata.ofEntries_eq_insertAll]
    refine IsSound.insertAll (.mapping (by simp)) fun f hf => ?_
    obtain ⟨e, he, rfl⟩ := List.mem_map.1 hf
    exact ih e he
  | tagged t _ ih => exact .tagged t ih

end Value

namespace Yaml

theorem loadClosed_isSound : LoadClosed IsSound where
  scalar hv := by
    cases hv with
    | null => exact .null
    | bool b => exact .bool b
    | int n => exact .int n
    | float hx => exact .float hx
    | text t => exact .text t
  sequence := .sequence
  empty := .mapping (by simp)
  entry := by
    intro m m' k v hm _ hv hadd
    unfold addNew? at hadd
    split at hadd
    · cases hadd
    · cases hadd
      rw [Value.isSound_mapping, List.forall_mem_append]
      exact ⟨Value.isSound_mapping.1 hm, by simpa using hv⟩
  tagged := .tagged _

/-- **Values that are read are sound.** -/
theorem isSound_of_read? {t : Text} {v : Value} (h : read? t = some v) : v.IsSound :=
  loadClosed_isSound.of_read? h

end Yaml

/-! ### From step to step -/

/-- The metadata of a document that has been read is sound. -/
theorem Document.isSound_of_parse {t : Text} {d : Document} (h : Document.parse t = .ok d) :
    IsSound (.mapping d.metadata) :=
  Yaml.loadClosed_isSound.of_parse (fun _ => IsSound.normalize) h

theorem isSound_withNormalKeys {m : Metadata} (h : ∀ e ∈ m, e.2.IsSound) :
    ∀ e ∈ m.withNormalKeys, e.2.IsSound := by
  intro f hf
  obtain ⟨e, he, rfl⟩ := List.mem_map.1 hf
  exact h e he

theorem isSound_mergeMetadata {p c : Metadata} (hp : IsSound (.mapping p))
    (hc : IsSound (.mapping c)) : IsSound (.mapping (mergeMetadata p c)) := by
  have hkept : ∀ e ∈ c.handedOn, e.2.IsSound := fun e he =>
    Value.isSound_mapping.1 hc e (List.mem_filter.1 he).1
  rw [mergeMetadata_eq]
  exact hp.normalize.insertAll (isSound_withNormalKeys hkept)

theorem isSound_applyOverrides {d : Document} {vars : Metadata}
    (hd : IsSound (.mapping d.metadata)) (hvars : IsSound (.mapping vars)) :
    IsSound (.mapping (applyOverrides d vars).metadata) := by
  rw [applyOverrides_metadata]
  exact hd.insertAll (isSound_withNormalKeys (Value.isSound_mapping.1 hvars))

theorem isSound_textVariables (vars : List (Text × Text)) :
    IsSound (.mapping (textVariables vars)) := by
  rw [textVariables, Metadata.ofEntries_eq_insertAll]
  refine IsSound.insertAll (.mapping (by simp)) fun f hf => ?_
  obtain ⟨e, -, rfl⟩ := List.mem_map.1 hf
  exact .text e.2

section Steps

variable {r : Resolver} {source : Text} {vars : Metadata} {step : Step} {d : Document}

/-- After each step metadata is sound, if that of the caller is. -/
theorem Reaches.isSound (h : Reaches r source vars step d) (hvars : IsSound (.mapping vars)) :
    IsSound (.mapping d.metadata) := by
  induction h with
  | parse hd => exact Document.isSound_of_parse hd
  | @inherit d _ _ he ih =>
    obtain ⟨calls, hi⟩ := inherits_inherit r .empty d
    exact hi.metadata (P := fun m => IsSound (.mapping m)) Document.isSound_of_parse
      isSound_mergeMetadata he ih
  | override _ ih => exact isSound_applyOverrides ih hvars
  | substitute _ he ih =>
    -- what is left for the output is one of the values
    have houtput := (Answers.substitute_ok_iff.1 he).2.1
    rw [outputMetadata_outcome] at houtput
    rw [← Except.ok.inj houtput]
    split
    · next output hget =>
      exact Value.isSound_mapping.1 ih _ (Metadata.exists_mem_of_get? hget)
    · exact .mapping (by simp)
  | transclude _ he ih =>
    rw [transclude_outcome] at he
    obtain ⟨ls, -, rfl⟩ := Traced.ok_of_map he
    exact ih

/-- **All values that a compilation with texts for variables comes by are read back from their
texts**, and so are those that it fills its slots with. -/
theorem Reaches.read?_json {vars : List (Text × Text)}
    (h : Reaches r source (textVariables vars) step d) :
    ∀ e ∈ d.metadata, Json.read? e.2.json = some e.2.toJson := by
  intro e he
  exact Value.read?_json (Value.isSound_mapping.1 (h.isSound (isSound_textVariables vars)) e he)

end Steps

end MarkdownWeave
