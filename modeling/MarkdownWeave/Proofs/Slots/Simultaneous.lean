import Mathlib.Control.Monad.Basic
import Mathlib.Data.List.Basic
import MarkdownWeave.Compile.Substitution
import MarkdownWeave.Proofs.Slots.Occurrence

/-!
# Substitution is simultaneous

The body is read twice, once for the names that are needed and once to fill the slots, and a slot
whose name has no value would be left as it is.  All the same, substitution is a single step that
happens at every occurrence of a slot at once: each is replaced by the text of its value, nothing
else is changed, and nothing is done to the texts that are put in.

## Main results

* `Slot.CutsAt.mem_iff` — the slots among the pieces of a text are those that occur in it.
* `Answers.renderAll_lookup` — every name that was asked for has the text of its value.
* `Answers.substitute_ok` — what a substitution that succeeds has done.
* `substitute_simultaneous` — **substitution replaces all occurrences at once.**
-/

namespace MarkdownWeave

/-! ### Slots that are named and slots that are filled -/

namespace Slot

theorem exists_mem_located {i : Nat} {s : Slot} {ps : List Piece} :
    (∃ j, (j, s) ∈ located i ps) ↔ .slot s ∈ ps := by
  induction ps generalizing i with
  | nil => simp
  | cons p ps ih =>
    cases p with
    | verbatim c => simp [ih]
    | slot r =>
      simp only [located_slot, List.mem_cons, Prod.mk.injEq, Piece.slot.injEq, exists_or, ih]
      exact or_congr_left (by simp)

variable {t : Text} {ps : List Piece} {s : Slot}

/-- The slots among the pieces of a text are those that occur in it. -/
theorem CutsAt.mem_iff (h : CutsAt t ps) : .slot s ∈ ps ↔ ∃ i, OccursAt t i s := by
  rw [← exists_mem_located (i := 0)]
  exact exists_congr fun i => h.mem_located i s

/-- The names of a text are those of the slots that occur in it. -/
theorem mem_names {name : Text} : name ∈ names t ↔ ∃ i s, OccursAt t i s ∧ s.name = name := by
  rw [names, List.mem_eraseDups, List.mem_map]
  constructor
  · rintro ⟨s, hs, rfl⟩
    obtain ⟨p, hp, hps⟩ := List.mem_filterMap.1 hs
    cases p with
    | verbatim c => cases hps
    | slot r =>
      cases hps
      obtain ⟨i, hi⟩ := (cutsAt_pieces t).mem_iff.1 hp
      exact ⟨i, s, hi, rfl⟩
  · rintro ⟨i, s, hi, rfl⟩
    exact ⟨s, List.mem_filterMap.2 ⟨.slot s, (cutsAt_pieces t).mem_iff.2 ⟨i, hi⟩, rfl⟩, rfl⟩

end Slot

/-! ### The texts of values -/

section Values

variable {answers : Answers} {m : Metadata}

/-- Every name among those that were asked for has the text of its value. -/
theorem Answers.renderAll_lookup {names : List Text} {values : List (Text × Text)}
    (h : (answers.renderAll m names).outcome = .ok values) :
    ∀ name ∈ names, ∃ t, values.lookup name = some t ∧
      (answers.render ((m.get? name).getD .null)).outcome = .ok t := by
  induction names generalizing values with
  | nil => simp
  | cons first names ih =>
    rw [renderAll, List.mapM_cons, bind_assoc, Traced.outcome_bind_eq_ok] at h
    obtain ⟨t, ht, h⟩ := h
    rw [pure_bind, Traced.outcome_bind_eq_ok] at h
    obtain ⟨later, hlater, h⟩ := h
    cases h
    intro name hname
    by_cases he : name = first
    · subst he
      exact ⟨t, by simp, ht⟩
    · obtain ⟨u, hu, hr⟩ := ih hlater name ((List.mem_cons.1 hname).resolve_left he)
      exact ⟨u, by rw [List.lookup_cons, beq_eq_false_iff_ne.2 he, hu], hr⟩

/-- The metadata that is left is the mapping under the key for it, if there is one. -/
theorem outputMetadata_outcome (m : Metadata) :
    (outputMetadata m).outcome =
      .ok (match m.get? outputKey with
        | some (.mapping output) => output
        | _ => []) := by
  unfold outputMetadata
  cases m.get? outputKey with
  | none => rfl
  | some v => cases v <;> rfl

/-- What a substitution that succeeds has done: every name has a value and every value a text, and
the slots are filled with these texts. -/
theorem Answers.substitute_ok {d d' : Document} (h : (answers.substitute d).outcome = .ok d') :
    ∃ values, (answers.renderAll d.metadata (Slot.names d.body)).outcome = .ok values ∧
      (∀ name ∈ Slot.names d.body, d.metadata.has name = true) ∧
      (outputMetadata d.metadata).outcome = .ok d'.metadata ∧
      d'.body = Slot.fill (fun s => (values.lookup s.name).getD s.source) d.body := by
  unfold substitute at h
  split at h
  · cases h
  · next hfind =>
    obtain ⟨values, hvalues, h⟩ := Traced.outcome_bind_eq_ok.1 h
    obtain ⟨-, -, h⟩ := Traced.outcome_bind_eq_ok.1 h
    obtain ⟨output, houtput, h⟩ := Traced.outcome_bind_eq_ok.1 h
    cases h
    refine ⟨values, hvalues, ?_, houtput, rfl⟩
    intro name hname
    simpa using List.find?_eq_none.1 hfind name hname

end Values

/-! ### All at once -/

/-- **Substitution replaces all occurrences of slots at once.**  Occurrences do not overlap.  If
the substitution succeeds, every occurrence has a value in the metadata and is replaced by the text
of that value, while all other characters stay as they are, in order; and the metadata is the
mapping that is meant for the output, or none. -/
theorem substitute_simultaneous (answers : Answers) (d : Document) :
    (∀ i j s s', Slot.OccursAt d.body i s → Slot.OccursAt d.body j s' →
        (i = j ∧ s = s') ∨ i + s.source.length ≤ j ∨ j + s'.source.length ≤ i) ∧
      ∀ d', (answers.substitute d).outcome = .ok d' →
        (∃ (ps : List Piece) (value : Text → Text), Slot.CutsAt d.body ps ∧
          (∀ i s, Slot.OccursAt d.body i s → ∃ v, d.get? s.name = some v ∧
            (answers.render v).outcome = .ok (value s.name)) ∧
          d'.body = ps.flatMap (Slot.fillPiece fun s => value s.name)) ∧
        d'.metadata =
          match d.get? outputKey with
          | some (.mapping output) => output
          | _ => [] := by
  refine ⟨fun i j s s' hi hj => hi.disjoint hj, ?_⟩
  intro d' h
  obtain ⟨values, hvalues, hhas, houtput, hbody⟩ := Answers.substitute_ok h
  have hlookup := Answers.renderAll_lookup hvalues
  have hcut := Slot.cutsAt_pieces d.body
  refine ⟨⟨Slot.pieces d.body, fun name => (values.lookup name).getD [], hcut, ?_, ?_⟩, ?_⟩
  · intro i s hi
    have hname : s.name ∈ Slot.names d.body := Slot.mem_names.2 ⟨i, s, hi, rfl⟩
    obtain ⟨v, hv⟩ := Option.isSome_iff_exists.1 (hhas s.name hname)
    obtain ⟨t, ht, hr⟩ := hlookup s.name hname
    rw [hv] at hr
    exact ⟨v, hv, by simpa [ht] using hr⟩
  · rw [hbody, Slot.fill]
    refine List.flatMap_congr fun p hp => ?_
    cases p with
    | verbatim c => rfl
    | slot s =>
      -- a slot that is filled has been named, so that it is never left as it is
      obtain ⟨i, hi⟩ := hcut.mem_iff.1 hp
      obtain ⟨t, ht, -⟩ := hlookup s.name (Slot.mem_names.2 ⟨i, s, hi, rfl⟩)
      simp [Slot.fillPiece, ht]
  · rw [outputMetadata_outcome] at houtput
    exact (Except.ok.inj houtput).symm

/-- A slot between more braces, and one with a document for its value that occurs twice. -/
def bracedDocument : Document where
  metadata := [(.text "a", .text "{{ b }}"), (.text "b", .text "@p"),
    (.text "output", .mapping [(.text "a", .int 1)])]
  body := "{{{{a}}}} {{b}}{{ b }}"

/-- The value of the first is put in as it is, and so is the body of the document, although both
look like slots; the other braces stay. -/
theorem substitute_bracedDocument :
    (Answers.substitute (fun _ => .ok "---\n---\n{{a}}") bracedDocument).outcome =
        .ok ⟨[(.text "a", .int 1)], "{{{{ b }}}} {{a}}{{a}}"⟩ ∧
      ∃ (ps : List Piece) (value : Text → Text), Slot.CutsAt bracedDocument.body ps ∧
        (∀ i s, Slot.OccursAt bracedDocument.body i s → ∃ v, bracedDocument.get? s.name = some v ∧
          (Answers.render (fun _ => .ok "---\n---\n{{a}}") v).outcome = .ok (value s.name)) ∧
        ("{{{{ b }}}} {{a}}{{a}}" : Text) = ps.flatMap (Slot.fillPiece fun s => value s.name) := by
  have h : (Answers.substitute (fun _ => .ok "---\n---\n{{a}}") bracedDocument).outcome =
      .ok ⟨[(.text "a", .int 1)], "{{{{ b }}}} {{a}}{{a}}"⟩ := by
    decide +kernel
  exact ⟨h, ((substitute_simultaneous _ bracedDocument).2 _ h).1⟩

end MarkdownWeave
