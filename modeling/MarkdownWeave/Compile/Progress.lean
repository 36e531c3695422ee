import MarkdownWeave.Compile.Pipeline

/-!
# The progress of a compilation

The documents that a source text becomes on its way to the compiled one, up to the step that fails.

## Main definitions

* `Step` — the steps of a compilation.
* `Progress` — how far a compilation has come.
* `progress` — the steps that are taken with a source text.

`progress_latest` says that the last of these documents is the compiled one.
-/

namespace MarkdownWeave

/-- A step of a compilation, named for what it does to the document. -/
inductive Step
  /-- It is read. -/
  | parse
  /-- It is completed with what it inherits. -/
  | inherit
  /-- It is given the variables of the caller. -/
  | override
  /-- Its slots are filled. -/
  | substitute
  /-- Its references are replaced. -/
  | transclude
deriving DecidableEq

/-- How far a compilation has come. -/
structure Progress where
  /-- The steps that have succeeded, with the documents after them. -/
  documents : List (Step × Document)
  /-- The document at the end, or the failure of the step after the last one. -/
  latest : Except Failure Document
  /-- What happened on the way. -/
  events : List Event

namespace Progress

/-- A compilation of which the source has been read. -/
def start (x : Except Failure Document) : Progress :=
  ⟨(x.toOption.map (Step.parse, ·)).toList, x, []⟩

/-- Goes on with one more step, unless one has failed before. -/
def andThen (step : Step) (f : Document → Traced Document) (p : Progress) : Progress :=
  match p.latest with
  | .error _ => p
  | .ok d =>
    ⟨p.documents ++ ((f d).outcome.toOption.map (step, ·)).toList, (f d).outcome,
      p.events ++ (f d).events⟩

/-- The text of the compiled document. -/
def text (p : Progress) : Except Failure Text := p.latest.bind Document.format

@[simp] theorem start_latest (x : Except Failure Document) : (start x).latest = x := rfl

theorem andThen_latest (step : Step) (f : Document → Traced Document) (p : Progress) :
    (p.andThen step f).latest = p.latest.bind fun d => (f d).outcome := by
  unfold andThen
  cases h : p.latest with
  | error e => simp [h, Except.bind]
  | ok d => rfl

/-! ### Steps that succeed -/

variable {p : Progress} {step s : Step} {f : Document → Traced Document} {d : Document}

/-- A document after a step is one from before, or what the step makes of the latest one. -/
theorem mem_andThen : (s, d) ∈ (p.andThen step f).documents ↔
    (s, d) ∈ p.documents ∨ s = step ∧ ∃ e, p.latest = .ok e ∧ (f e).outcome = .ok d := by
  unfold andThen
  cases hp : p.latest with
  | error e => simp
  | ok e =>
    cases hf : (f e).outcome with
    | error _ => simp [hf, Except.toOption]
    | ok e' => simp [hf, Except.toOption, eq_comm]

theorem andThen_latest_eq_ok : (p.andThen step f).latest = .ok d ↔
    ∃ e, p.latest = .ok e ∧ (f e).outcome = .ok d := by
  rw [andThen_latest]
  cases p.latest <;> simp [Except.bind]

end Progress

/-- The steps that are taken with a source text. -/
def progress (r : Resolver) (source : Text) (vars : Metadata) : Progress :=
  (Progress.start (Document.parse source))
    |>.andThen .inherit (fun d => inherit r d .empty)
    |>.andThen .override (fun d => Traced.done (applyOverrides d vars))
    |>.andThen .substitute (substitute r)
    |>.andThen .transclude (fun d => transclude r d .empty)

theorem announceOverrides_outcome (vars : Metadata) : (announceOverrides vars).outcome = .ok () := by
  unfold announceOverrides
  split <;> rfl

/-- The steps one by one end with what the compilation gives. -/
theorem progress_latest (r : Resolver) (source : Text) (vars : Metadata) :
    (progress r source vars).latest = (compileDocument r source vars).outcome := by
  have debug_ok (t : Text) : (Traced.debug t).outcome = .ok () := rfl
  simp only [progress, compileDocument, Progress.andThen_latest, Progress.start_latest,
    Traced.outcome_bind, Traced.ofExcept, Traced.done, debug_ok, announceOverrides_outcome]
  cases Document.parse source with
  | error e => rfl
  | ok d =>
    simp only [Except.bind]
    cases (inherit r d .empty).outcome <;> rfl

end MarkdownWeave
