import MarkdownWeave.Proofs.Failures
import MarkdownWeave.Proofs.Metadata.Precedence
import MarkdownWeave.Proofs.Slots.Requests
import MarkdownWeave.Proofs.Stages
import MarkdownWeave.Proofs.Transclusion.Expansion

/-!
# Undefined names

A name without a value is found before anything is asked for on its behalf, or on behalf of any
other name.  So a compilation that fails because of one has asked for the parents of its source and
for nothing else, unless a resolver answers with such a failure itself.

## Main definitions

* `Failure.IsUndefined` — a failure because of a name without a value.
* `Document.parentPath?` — the path of the parent, if there is one.

## Main results

* `Inherits.exists_lineage` — what comes together from parents has asked for their paths.
* `Inherits.not_undefined`, `transclude_not_undefined`, `Answers.Asks.not_undefined` — names without
  a value are found nowhere else.
* `undefined_before_requests` — **names are validated before anything is asked for.**
-/

namespace MarkdownWeave

/-- A failure because of a name without a value. -/
def Failure.IsUndefined (f : Failure) : Prop := ∃ name similar, f = .undefinedVariable name similar

/-- The path of the parent, if there is one. -/
def Document.parentPath? (d : Document) : Option Text := d.parent?.toOption.join

/-! ### Failures of another kind -/

section Failures

theorem Document.not_undefined_of_parse {t : Text} {f : Failure} (h : Document.parse t = .error f) :
    ¬ f.IsUndefined := by
  obtain ⟨reason, rfl⟩ := Document.failure_of_parse h
  rintro ⟨name, similar, he⟩
  cases he

theorem Document.not_undefined_of_format {d : Document} {f : Failure} (h : d.format = .error f) :
    ¬ f.IsUndefined := by
  obtain ⟨reason, rfl⟩ := Document.failure_of_format h
  rintro ⟨name, similar, he⟩
  cases he

theorem merge_not_undefined {p c : Document} {f : Failure} (h : merge p c = .error f) :
    ¬ f.IsUndefined := by
  obtain ⟨count, rfl⟩ := Document.failure_of_merge h
  rintro ⟨name, similar, he⟩
  cases he

variable {r : Resolver} {g : Guard}

/-- Inheritance does not fail because of a name. -/
theorem Inherits.not_undefined (hr : ∀ p f, r.answer p = .error f → ¬ f.IsUndefined) {d : Document}
    {x : Traced Document} {calls : List Guard} (h : Inherits r g d x calls) {f : Failure}
    (hf : x.outcome = .error f) : ¬ f.IsUndefined := by
  induction h generalizing f with
  | top _ => cases hf
  | invalid hp =>
    obtain rfl := Except.error.inj hf
    obtain ⟨value, rfl⟩ := Document.failure_of_parent? hp
    rintro ⟨name, similar, he⟩
    cases he
  | circular _ _ =>
    rintro ⟨name, similar, rfl⟩
    cases hf
  | missing _ _ ha =>
    obtain rfl := Except.error.inj hf
    exact hr _ _ ha
  | malformed _ _ _ hd =>
    obtain rfl := Except.error.inj hf
    exact Document.not_undefined_of_parse hd
  | @parent g d e path x calls _ _ _ _ ih =>
    cases hx : x.outcome with
    | error f' =>
      rw [hx] at hf
      obtain rfl := Except.error.inj hf
      exact ih hx
    | ok complete =>
      rw [hx] at hf
      exact merge_not_undefined hf

/-- Transclusion does not fail because of a name, whatever the resolver answers. -/
theorem transclude_not_undefined {d : Document} {f : Failure}
    (hf : (transclude r d g).outcome = .error f) : ¬ f.IsUndefined := by
  rintro ⟨name, similar, rfl⟩
  rcases failure_of_transclude hf with ⟨path, chain, he⟩ | ⟨reason, he⟩
  · cases he
  · cases he

/-- The requests of a substitution do not fail because of a name. -/
theorem Answers.Asks.not_undefined {answers : Answers}
    (ha : ∀ p f, answers p = .error f → ¬ f.IsUndefined) {α : Type} {ps : List Text} {x : Traced α}
    (h : answers.Asks ps x) {f : Failure} (hf : x.outcome = .error f) : ¬ f.IsUndefined := by
  cases h with
  | all _ _ ho =>
    obtain ⟨a, ho⟩ := ho
    rw [ho] at hf
    cases hf
  | missing _ hm _ ho =>
    obtain rfl := Except.error.inj (ho.symm.trans hf)
    exact ha _ _ hm
  | malformed _ _ hd _ ho =>
    obtain rfl := Except.error.inj (ho.symm.trans hf)
    exact Document.not_undefined_of_parse hd

end Failures

/-! ### What has been asked for -/

section Asked

variable {r : Resolver} {d : Document}

/-- **What comes together from parents has asked for their paths**, the nearest first. -/
theorem Inherits.exists_lineage {g : Guard} {x : Traced Document} {calls : List Guard}
    (h : Inherits r g d x calls) {complete : Document} (hx : x.outcome = .ok complete) :
    ∃ chain, Lineage r d chain ∧ x.fetched = chain.filterMap Document.parentPath? := by
  induction h generalizing complete with
  | @top g d hp =>
    refine ⟨[d], .top hp, ?_⟩
    rw [List.filterMap_cons, Document.parentPath?, hp]
    rfl
  | invalid _ | circular _ _ | missing _ _ _ | malformed _ _ _ _ => cases hx
  | @parent g d e path x calls hp _ he _ ih =>
    cases hy : x.outcome with
    | error f => rw [hy] at hx; cases hx
    | ok above =>
      obtain ⟨chain, hchain, hf⟩ := ih hy
      refine ⟨d :: chain, .parent hp he hchain, ?_⟩
      rw [List.filterMap_cons, Document.parentPath?, hp, ← hf]
      rfl

/-- A substitution that fails because of a name has not asked for anything. -/
theorem Answers.substitute_fetched_of_undefined {answers : Answers}
    (ha : ∀ p f, answers p = .error f → ¬ f.IsUndefined) {f : Failure}
    (hf : (answers.substitute d).outcome = .error f) (hu : f.IsUndefined) :
    (answers.substitute d).fetched = [] := by
  cases hfind : (Slot.names d.body).find? fun name => !d.metadata.has name with
  | some name =>
    rw [Answers.substitute_of_undefined hfind]
    rfl
  | none =>
    have hhas : ∀ name ∈ Slot.names d.body, d.metadata.has name = true := by
      intro name hname
      simpa using List.find?_eq_none.1 hfind name hname
    exact absurd hu ((Answers.substitute_asks hhas).not_undefined ha hf)

theorem finish_fetched_of_undefined (hr : ∀ p f, r.answer p = .error f → ¬ f.IsUndefined)
    {f : Failure} (hf : (finish r d).outcome = .error f) (hu : f.IsUndefined) :
    (finish r d).fetched = [] := by
  rcases Traced.outcome_bind_eq_error.1 hf with ho | ⟨filled, -, ho⟩
  · rw [finish, Traced.fetched_bind_of_error ho]
    exact Answers.substitute_fetched_of_undefined hr ho hu
  · exact absurd hu (transclude_not_undefined ho)

/-- **A compilation that fails because of a name has only asked for the parents of its source.** -/
theorem compile_fetched_of_undefined (hr : ∀ p f, r.answer p = .error f → ¬ f.IsUndefined)
    {source : Text} {vars : Metadata} {f : Failure}
    (hf : (compile r source vars).outcome = .error f) (hu : f.IsUndefined) :
    ∃ d chain, Document.parse source = .ok d ∧ Lineage r d chain ∧
      (compile r source vars).fetched = chain.filterMap Document.parentPath? := by
  -- the text of a document is written without names
  have hdoc : (compileDocument r source vars).outcome = .error f := by
    rcases Traced.outcome_bind_eq_error.1 hf with ho | ⟨d, -, ho⟩
    · exact ho
    · exact absurd hu (Document.not_undefined_of_format ho)
  rw [compile_fetched]
  cases hd : Document.parse source with
  | error f' =>
    rw [compileDocument_of_malformed hd] at hdoc
    obtain rfl := Except.error.inj hdoc
    exact absurd hu (Document.not_undefined_of_parse hd)
  | ok d =>
    have halike := compileDocument_alike r vars hd
    obtain ⟨calls, h⟩ := inherits_inherit r .empty d
    rw [halike.outcome] at hdoc
    rcases Traced.outcome_bind_eq_error.1 hdoc with hi | ⟨complete, hi, hfinish⟩
    · exact absurd hu (h.not_undefined hr hi)
    · obtain ⟨chain, hchain, hasked⟩ := h.exists_lineage hi
      refine ⟨d, chain, rfl, hchain, ?_⟩
      rw [halike.fetched, Traced.fetched_bind_of_ok hi, finish_fetched_of_undefined hr hfinish hu,
        hasked, List.append_nil]

end Asked

/-! ### Validation before requests -/

/-- **Names are validated before anything is asked for, and nothing is asked for that is not
referred to.**  If a name in the body is missing, the substitution fails with the first such name,
and no request is made.  Otherwise there is one request for every name whose value refers to a
document, in the order in which the names first occur, up to the first that fails; its failure is
that of the substitution.  So, if the resolver has no such failures of its own, a compilation that
fails because of a name has asked for the parents of its source and for nothing else. -/
theorem undefined_before_requests (answers : Answers) (d : Document) (r : Resolver)
    (source : Text) (vars : Metadata) :
    ((∃ i s, Slot.OccursAt d.body i s ∧ d.metadata.has s.name = false) →
      ∃ i s, Slot.OccursAt d.body i s ∧ d.metadata.has s.name = false ∧
        (∀ j s', Slot.OccursAt d.body j s' → j < i → d.metadata.has s'.name = true) ∧
        answers.substitute d = .fail (undefinedName s.name d.metadata)) ∧
      ((∀ i s, Slot.OccursAt d.body i s → d.metadata.has s.name = true) →
        ∃ names, Slot.InOrder d.body names ∧
          answers.Asks (d.metadata.requests names) (answers.substitute d)) ∧
      ((∀ p f, r.answer p = .error f → ¬ f.IsUndefined) →
        ∀ f, f.IsUndefined → (compile r source vars).outcome = .error f →
          ∃ e chain, Document.parse source = .ok e ∧ Lineage r e chain ∧
            (compile r source vars).fetched = chain.filterMap Document.parentPath?) := by
  refine ⟨?_, ?_, ?_⟩
  · rintro ⟨i, s, hi, hs⟩
    have hname : s.name ∈ Slot.names d.body := Slot.mem_names.2 ⟨i, s, hi, rfl⟩
    cases hfind : (Slot.names d.body).find? fun name => !d.metadata.has name with
    | none =>
      have hhas := List.find?_eq_none.1 hfind s.name hname
      rw [hs] at hhas
      exact absurd rfl hhas
    | some name =>
      obtain ⟨j, s', hj, rfl, hmissing, hearlier⟩ := Slot.exists_of_find?_names hfind
      refine ⟨j, s', hj, by simpa using hmissing, ?_, Answers.substitute_of_undefined hfind⟩
      intro k s'' hk hlt
      simpa using hearlier k s'' hk hlt
  · intro h
    refine ⟨Slot.names d.body, Slot.names_inOrder d.body, Answers.substitute_asks ?_⟩
    intro name hname
    obtain ⟨i, s, hi, rfl⟩ := Slot.mem_names.1 hname
    exact h i s hi
  · intro hr f hu hf
    exact compile_fetched_of_undefined hr hf hu

/-- Answers for two paths, of which only the first is a document. -/
def loadedAnswers : Answers := fun p => if p = "z" then .ok "Z" else .error (.documentNotFound p)

/-- A document with three references, of which the first is asked for by its second slot only. -/
def loadedDocument : Document :=
  ⟨[(.text "a", .text "@x"), (.text "b", .text "@y"), (.text "c", .text "@z")],
    "{{ c }} {{ a }} {{c}} {{ b }}"⟩

/-- The text of a parent with two names in its body, of which it has only the first itself. -/
def orphanBase : Text := "---\nv: '@w'\n---\n{{ v }} {{ u }}"

/-- A resolver with that text alone. -/
def orphanResolver : Resolver := .ofAnswers [("base", .ok orphanBase)]

/-- The text of a child of that parent. -/
def orphanSource : Text := "---\nextends: base\n---\n"

/-- What the child and its parent come to. -/
def orphanComplete : Document := ⟨[(.text "v", .text "@w")], "{{ v }} {{ u }}"⟩

/-- The path without a document ends the substitution, one request after the first.  Without its
value the first name of the same body ends it before any.  And the name that the parent asks for in
vain keeps the other from being asked for. -/
theorem substitute_loadedDocument :
    ((∃ names, Slot.InOrder loadedDocument.body names ∧
        loadedAnswers.Asks (loadedDocument.metadata.requests names)
          (loadedAnswers.substitute loadedDocument)) ∧
      (loadedAnswers.substitute loadedDocument).fetched = ["z", "x"]) ∧
    (∃ i s, Slot.OccursAt loadedDocument.body i s ∧
      Metadata.has [(.text "b", .int 1)] s.name = false ∧
      loadedAnswers.substitute ⟨[(.text "b", .int 1)], loadedDocument.body⟩ =
        .fail (undefinedName s.name [(.text "b", .int 1)])) ∧
    ∃ e chain, Document.parse orphanSource = .ok e ∧ Lineage orphanResolver e chain ∧
      (compile orphanResolver orphanSource []).fetched = chain.filterMap Document.parentPath? := by
  refine ⟨⟨?_, by decide +kernel⟩, ?_, ?_⟩
  · have hnames : ∀ name ∈ Slot.names loadedDocument.body,
        loadedDocument.metadata.has name = true := List.all_eq_true.1 (by decide +kernel)
    have hhas : ∀ i s, Slot.OccursAt loadedDocument.body i s →
        loadedDocument.metadata.has s.name = true := by
      intro i s hi
      exact hnames s.name (Slot.mem_names.2 ⟨i, s, hi, rfl⟩)
    exact (undefined_before_requests loadedAnswers loadedDocument orphanResolver [] []).2.1 hhas
  · have hname : ("a" : Text) ∈ Slot.names loadedDocument.body := by decide +kernel
    obtain ⟨i, s, hi, hs⟩ := Slot.mem_names.1 hname
    have hmissing : Metadata.has [(.text "b", .int 1)] s.name = false := by
      rw [hs]
      decide
    obtain ⟨j, s', hj, hs', -, hfail⟩ :=
      (undefined_before_requests loadedAnswers ⟨[(.text "b", .int 1)], loadedDocument.body⟩
        orphanResolver [] []).1 ⟨i, s, hi, hmissing⟩
    exact ⟨j, s', hj, hs', hfail⟩
  · have hr : ∀ p f, orphanResolver.answer p = .error f → ¬ f.IsUndefined := by
      rintro p f hf ⟨name, similar, rfl⟩
      rcases Resolver.ofAnswers_error hf with he | hm
      · cases he
      · cases List.mem_singleton.1 hm
    have hsource : Document.parse orphanSource = .ok ⟨[(.text "extends", .text "base")], []⟩ := by
      decide +kernel
    have hi : (inherit orphanResolver ⟨[(.text "extends", .text "base")], []⟩ .empty).outcome =
        .ok orphanComplete := by
      have supplied : orphanResolver.Supplies "base" orphanComplete :=
        ⟨orphanBase, by decide +kernel, by decide +kernel⟩
      have below : Document.parent? ⟨[(.text "extends", .text "base")], []⟩ =
          .ok (some "base") := by
        decide +kernel
      have above : orphanComplete.parent? = .ok none := by decide +kernel
      rw [(Inherits.parent below (by simp [Guard.empty]) supplied (.top above)).eq_inherit]
      decide +kernel
    have hfinish : (finish orphanResolver orphanComplete).outcome =
        .error (undefinedName "u" orphanComplete.metadata) :=
      Traced.outcome_bind_eq_error.2 (Or.inl (by decide +kernel))
    have hcompile : (compile orphanResolver orphanSource []).outcome =
        .error (undefinedName "u" orphanComplete.metadata) := by
      refine Traced.outcome_bind_eq_error.2 (Or.inl ?_)
      rw [(compileDocument_alike orphanResolver [] hsource).outcome]
      exact Traced.outcome_bind_eq_error.2 (Or.inr ⟨orphanComplete, hi, hfinish⟩)
    exact (undefined_before_requests loadedAnswers loadedDocument orphanResolver orphanSource
      []).2.2 hr _ ⟨_, _, rfl⟩ hcompile

end MarkdownWeave
