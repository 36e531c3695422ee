import MarkdownWeave.Document.Basic
import MarkdownWeave.Traced

/-!
# Resolvers

A resolver answers a path with the text stored there, or with a failure.  It has finitely many
texts to give, however many paths it answers; that is why following references comes to an end.

## Main definitions

* `Answers`, `Answers.load` — answers for paths, without any bound on how many texts there are.
* `Resolver` — answers for paths.
* `Resolver.Supplied`, `Resolver.Stored` — the texts and the documents that a resolver can give.
* `Resolver.fetch`, `Resolver.tryFetch` — asking for a path.
* `Resolver.Supplies` — what it means that there is a document at a path.
* `Resolver.ofAnswers` — the resolver of a list of paths with their answers.
-/

namespace MarkdownWeave

/-- For every path a text, or why there is none.  Whatever follows no references needs no more. -/
abbrev Answers := Text → Except Failure Text

/-- Asks for a path and reads the answer as a document. -/
def Answers.load (answers : Answers) (path : Text) : Traced Document :=
  ⟨(answers path).bind Document.parse, [.fetch path]⟩

/-- Answers for paths, among them finitely many different texts. -/
structure Resolver where
  /-- The text at a path, or why there is none. -/
  answer : Text → Except Failure Text
  /-- All texts that are an answer, and maybe others. -/
  texts : List Text
  /-- Every text that is an answer is among them. -/
  answer_mem : ∀ {path text : Text}, answer path = .ok text → text ∈ texts

namespace Resolver

/-- The texts that a resolver can give. -/
abbrev Supplied (r : Resolver) := { t : Text // t ∈ r.texts }

/-- All documents among the texts of a resolver. -/
def documents (r : Resolver) : List Document :=
  r.texts.filterMap fun t => (Document.parse t).toOption

/-- The documents that a resolver can give. -/
abbrev Stored (r : Resolver) := { d : Document // d ∈ r.documents }

/-- The document that a given text is. -/
def document (r : Resolver) (t : r.Supplied) : Except Failure r.Stored :=
  match h : Document.parse t.1 with
  | .ok d => .ok ⟨d, List.mem_filterMap.2 ⟨t.1, t.2, by rw [h]; rfl⟩⟩
  | .error e => .error e

/-- The answer at a path, as a text that the resolver can give. -/
def supply (r : Resolver) (path : Text) : Except Failure r.Supplied :=
  match h : r.answer path with
  | .ok t => .ok ⟨t, r.answer_mem h⟩
  | .error e => .error e

/-- What can be read of an answer is one of the documents. -/
theorem mem_documents {r : Resolver} {path t : Text} {d : Document} (ha : r.answer path = .ok t)
    (hd : Document.parse t = .ok d) : d ∈ r.documents :=
  List.mem_filterMap.2 ⟨t, r.answer_mem ha, by rw [hd]; rfl⟩

theorem document_of_ok {r : Resolver} {t : Text} {d : Document} (hd : Document.parse t = .ok d)
    (ht : t ∈ r.texts) (hm : d ∈ r.documents) : r.document ⟨t, ht⟩ = .ok ⟨d, hm⟩ := by
  unfold document
  split
  · next e he =>
    rw [hd] at he
    cases he
    rfl
  · next e he =>
    rw [hd] at he
    cases he

theorem document_of_error {r : Resolver} {t : Text} {f : Failure}
    (hd : Document.parse t = .error f) (ht : t ∈ r.texts) : r.document ⟨t, ht⟩ = .error f := by
  unfold document
  split
  · next e he =>
    rw [hd] at he
    cases he
  · next e he =>
    rw [hd] at he
    cases he
    rfl

theorem supply_of_ok {r : Resolver} {path t : Text} (ha : r.answer path = .ok t) :
    r.supply path = .ok ⟨t, r.answer_mem ha⟩ := by
  unfold supply
  split
  · next u hu =>
    have htu : t = u := Except.ok.inj (ha.symm.trans hu)
    subst htu
    rfl
  · next e he =>
    rw [ha] at he
    cases he

theorem supply_of_error {r : Resolver} {path : Text} {f : Failure} (ha : r.answer path = .error f) :
    r.supply path = .error f := by
  unfold supply
  split
  · next u hu =>
    rw [ha] at hu
    cases hu
  · next e he =>
    rw [ha] at he
    cases he
    rfl

/-- Asks for a path, and goes on with the answer whether it is a text or a failure. -/
def tryFetch (r : Resolver) (path : Text) : Traced (Except Failure r.Supplied) :=
  ⟨.ok (r.supply path), [.fetch path]⟩

/-- Asks for a path, and fails if the answer is a failure. -/
def fetch (r : Resolver) (path : Text) : Traced r.Supplied := ⟨r.supply path, [.fetch path]⟩

/-- Asks for a path and reads the answer as a document. -/
def load (r : Resolver) (path : Text) : Traced r.Stored := do
  let t ← r.fetch path
  Traced.ofExcept (r.document t)

/-! ### The document at a path -/

/-- There is a text at a path, and it reads as a document. -/
def Supplies (r : Resolver) (path : Text) (d : Document) : Prop :=
  ∃ t, r.answer path = .ok t ∧ Document.parse t = .ok d

theorem Supplies.mem_documents {r : Resolver} {path : Text} {d : Document}
    (h : r.Supplies path d) : d ∈ r.documents := by
  obtain ⟨t, ha, hd⟩ := h
  exact Resolver.mem_documents ha hd

theorem Supplies.unique {r : Resolver} {path : Text} {d e : Document} (hd : r.Supplies path d)
    (he : r.Supplies path e) : d = e := by
  obtain ⟨t, ht, hd⟩ := hd
  obtain ⟨u, hu, he⟩ := he
  obtain rfl := Except.ok.inj (ht.symm.trans hu)
  exact Except.ok.inj (hd.symm.trans he)

theorem load_of_supplies {r : Resolver} {path : Text} {d : Document} (h : r.Supplies path d) :
    r.load path = ⟨.ok ⟨d, h.mem_documents⟩, [.fetch path]⟩ := by
  have hm : d ∈ r.documents := h.mem_documents
  obtain ⟨t, ha, hd⟩ := h
  rw [load, Traced.bind_of_ok (supply_of_ok ha), document_of_ok hd _ hm]
  rfl

theorem load_of_malformed {r : Resolver} {path t : Text} {f : Failure} (ha : r.answer path = .ok t)
    (hd : Document.parse t = .error f) : r.load path = ⟨.error f, [.fetch path]⟩ := by
  rw [load, Traced.bind_of_ok (supply_of_ok ha), document_of_error hd]
  rfl

theorem load_of_error {r : Resolver} {path : Text} {f : Failure} (ha : r.answer path = .error f) :
    r.load path = ⟨.error f, [.fetch path]⟩ := by
  rw [load, Traced.bind_of_error (supply_of_error ha)]
  rfl

/-! ### Listed answers -/

/-- The resolver of a list of paths with their answers; of a path that is listed more than once the
first answer counts, and there is no document at a path that is not listed. -/
def ofAnswers (answers : List (Text × Except Failure Text)) : Resolver where
  answer path := (answers.lookup path).getD (.error (.documentNotFound path))
  texts := answers.filterMap fun a => a.2.toOption
  answer_mem := by
    intro path text h
    cases hl : answers.lookup path with
    | none => simp [hl] at h
    | some a =>
      rw [hl, Option.getD_some] at h
      subst h
      obtain ⟨l, r, rfl, _⟩ := List.lookup_eq_some_iff.1 hl
      exact List.mem_filterMap.2 ⟨(path, .ok text), by simp, rfl⟩

/-- Such a resolver fails because a path is not listed, or as it is listed. -/
theorem ofAnswers_error {answers : List (Text × Except Failure Text)} {path : Text} {f : Failure}
    (h : (ofAnswers answers).answer path = .error f) :
    f = .documentNotFound path ∨ (path, .error f) ∈ answers := by
  change (answers.lookup path).getD _ = _ at h
  cases hl : answers.lookup path with
  | none =>
    rw [hl] at h
    exact Or.inl (Except.error.inj h).symm
  | some a =>
    rw [hl, Option.getD_some] at h
    obtain ⟨l, r, rfl, _⟩ := List.lookup_eq_some_iff.1 hl
    exact Or.inr (by simp [h])

/-- An answer has no say for other paths. -/
theorem ofAnswers_cons_of_ne {answers : List (Text × Except Failure Text)} {path other : Text}
    (h : path ≠ other) (a : Except Failure Text) :
    (ofAnswers ((other, a) :: answers)).answer path = (ofAnswers answers).answer path := by
  have hb : (path == other) = false := beq_eq_false_iff_ne.2 h
  show ((List.lookup path ((other, a) :: answers)).getD _) = (answers.lookup path).getD _
  rw [List.lookup_cons, hb]

end Resolver

end MarkdownWeave
