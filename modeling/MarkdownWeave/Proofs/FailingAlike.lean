import MarkdownWeave.Proofs.Failures
import MarkdownWeave.Proofs.TwoRuns

/-!
# Resolvers that fail for other reasons

Two resolvers have the same texts at the same paths, and where one of them has none the other has
none either, but may fail with another failure.  A compilation asks both for the same and comes to
the same result.  A reference whose path has no answer is left as it is, whatever the reason, so
that only for parents and values does the failure of the resolver become that of the compilation.

Notices tell the reason of a failure, and may differ; here they are left out of a computation, so
that the rules for two runs can be used for what is left.

## Main definitions

* `Failure.isOwn` — whether a compilation finds a failure itself.
* `Traced.silent` — a computation without its notices.
* `Resolver.FailAlike E r r' p` — two resolvers have the same text at a path, or fail with failures
  related by `E`.
* `Failure.Parallel r r' asked` — the same failure of a compilation itself, or the answers of two
  resolvers at a path that was asked for.
* `ParentsAndValues P r source vars` — a property holds of all paths that a compilation takes
  parents and values from.

## Main results

* `Expands.failAlike`, `Inherits.failAlike` — the derivations of two runs.
* `compile_parallel` — **two compilations differ in the answer that ends them at most.**
* `compile_outcome_eq_of_parentsAndValues` — **they come to the same, if parents and values have the
  same answers.**
-/

namespace MarkdownWeave

/-! ### Where failures come from -/

/-- Whether a compilation finds a failure itself, in the documents; all others are answers. -/
def Failure.isOwn : Failure → Bool
  | .circularReference _ _ => true
  | .multipleContentSlots _ => true
  | .undefinedVariable _ _ => true
  | .invalidExtends _ => true
  | .invalidHeader _ => true
  | .unwritable _ => true
  | _ => false

section Own

variable {d : Document} {f : Failure}

theorem Document.isOwn_of_parse {t : Text} (h : Document.parse t = .error f) : f.isOwn := by
  obtain ⟨reason, rfl⟩ := Document.failure_of_parse h
  rfl

theorem Document.isOwn_of_parent? (h : d.parent? = .error f) : f.isOwn := by
  obtain ⟨value, rfl⟩ := Document.failure_of_parent? h
  rfl

theorem Document.isOwn_of_merge {p : Document} (h : merge p d = .error f) : f.isOwn := by
  obtain ⟨count, rfl⟩ := Document.failure_of_merge h
  rfl

theorem Document.isOwn_of_format (h : d.format = .error f) : f.isOwn := by
  obtain ⟨reason, rfl⟩ := Document.failure_of_format h
  rfl

theorem isOwn_of_transclude {r : Resolver} {g : Guard}
    (hf : (transclude r d g).outcome = .error f) : f.isOwn := by
  rcases failure_of_transclude hf with ⟨path, chain, rfl⟩ | ⟨reason, rfl⟩
  · rfl
  · rfl

end Own

namespace Matched

variable {α : Type} {E : Failure → Failure → Prop}

/-- What is the same goes together with itself, if its failure does. -/
theorem same {x : Except Failure α} (h : ∀ f, x = .error f → E f f) : Matched E Eq x x := by
  cases x with
  | ok a => exact .ok rfl
  | error f => exact .error (h f rfl)

theorem eq_ok {y : Except Failure α} {a : α} (h : Matched E Eq (.ok a) y) : y = .ok a := by
  cases y with
  | error f => cases h
  | ok b =>
    cases h with | ok hab =>
    rw [hab]

theorem exists_error {R : α → α → Prop} {y : Except Failure α} {e : Failure}
    (h : Matched E R (.error e) y) : ∃ f, y = .error f ∧ E e f := by
  cases y with
  | ok b => cases h
  | error f =>
    cases h with | error hef =>
    exact ⟨f, rfl, hef⟩

end Matched

/-! ### Without notices -/

namespace Traced

variable {α β : Type} {P : Text → Prop} {E : Failure → Failure → Prop} {x y : Traced α}

/-- A computation without its notices. -/
def silent (x : Traced α) : Traced α := ⟨x.outcome, x.fetched.map .fetch⟩

theorem silent_fetched (x : Traced α) : x.silent.fetched = x.fetched := by
  show (x.fetched.map Event.fetch).filterMap Event.path? = x.fetched
  rw [List.filterMap_map]
  exact List.filterMap_some

theorem Alike.silent_eq (h : x.Alike y) : x.silent = y.silent := by
  rw [silent, silent, h.outcome, h.fetched]

/-- What is done without notices is done one thing after another. -/
theorem silent_bind (x : Traced α) (f : α → Traced β) :
    (x >>= f).silent = x.silent >>= fun a => (f a).silent := by
  cases hx : x.outcome with
  | error e =>
    rw [silent, fetched_bind_of_error hx, outcome_bind, hx]
    exact (bind_of_error (x := x.silent) hx fun a => (f a).silent).symm
  | ok a =>
    rw [silent, fetched_bind_of_ok hx, outcome_bind, hx, List.map_append]
    exact (bind_of_ok (x := x.silent) hx fun a => (f a).silent).symm

/-- Without notices a computation follows another one if it asks for the same and the outcomes go
together. -/
theorem follows_silent_iff : Follows P E Eq x.silent y.silent ↔
    ((∀ p ∈ x.fetched, P p) → y.fetched = x.fetched ∧ Matched E Eq x.outcome y.outcome) := by
  have hevents : y.silent.events = x.silent.events ↔ y.fetched = x.fetched := by
    constructor
    · intro h
      rw [← silent_fetched x, ← silent_fetched y, fetched, h, fetched]
    · intro h
      rw [silent, silent, h]
  rw [Follows, silent_fetched, hevents]
  rfl

/-- What is the same in both computations follows, if its failure goes together with itself. -/
theorem follows_silent_same (h : ∀ f, x.outcome = .error f → E f f) :
    Follows P E Eq x.silent x.silent :=
  fun _ => ⟨rfl, .same h⟩

end Traced

/-! ### Resolvers -/

/-- Two resolvers have the same text at a path, or fail with failures that are related. -/
def Resolver.FailAlike (E : Failure → Failure → Prop) (r r' : Resolver) (p : Text) : Prop :=
  Matched E Eq (r.answer p) (r'.answer p)

namespace Resolver.FailAlike

variable {E : Failure → Failure → Prop} {r r' : Resolver} {p : Text}

theorem error (h : FailAlike E r r' p) {f : Failure} (ha : r.answer p = .error f) :
    ∃ f', r'.answer p = .error f' ∧ E f f' := by
  rw [FailAlike, ha] at h
  exact h.exists_error

theorem ok (h : FailAlike E r r' p) {t : Text} (ha : r.answer p = .ok t) : r'.answer p = .ok t := by
  rw [FailAlike, ha] at h
  exact h.eq_ok

theorem supplies (h : FailAlike E r r' p) {d : Document} (hd : r.Supplies p d) :
    r'.Supplies p d := by
  obtain ⟨t, ha, hd⟩ := hd
  exact ⟨t, h.ok ha, hd⟩

end Resolver.FailAlike

section Runs

variable {E : Failure → Failure → Prop} {r r' : Resolver}

/-! ### Transclusion -/

/-- **What becomes of lines does not depend on why there is no answer.** -/
theorem Expands.failAlike {g : Guard} {lines : List Text} {x : Traced (List Text)}
    {calls : List Guard} (h : Expands r g lines x calls)
    (hr : ∀ p ∈ x.fetched, Resolver.FailAlike E r r' p) :
    ∃ x', Expands r' g lines x' calls ∧ x'.Alike x := by
  induction h with
  | nil => exact ⟨_, .nil, .refl _⟩
  | plain hl _ ih =>
    obtain ⟨x', hx', hout, hfetched⟩ := ih hr
    exact ⟨_, .plain hl hx', by rw [hout], hfetched⟩
  | circular hl hg => exact ⟨_, .circular hl hg, .refl _⟩
  | @missing g line lines ref f x calls hl hg ha _ ih =>
    obtain ⟨hpath, hrest⟩ := Traced.forall_fetched_append.1 hr
    obtain ⟨f', ha', -⟩ := (hpath ref.path List.mem_cons_self).error ha
    obtain ⟨x', hx', hout, hfetched⟩ := ih hrest
    refine ⟨_, .missing hl hg ha' hx', by rw [hout], ?_⟩
    -- the two warnings tell of different failures, and both come behind the request
    simp only [Traced.fetched, List.filterMap_append] at hfetched ⊢
    rw [hfetched]
    rfl
  | @malformed g line lines ref t f hl hg ha hd =>
    have ha' := (hr ref.path List.mem_cons_self).ok ha
    exact ⟨_, .malformed hl hg ha' hd, .refl _⟩
  | @broken g line lines ref d f y calls hl hg hd _ hy ih =>
    obtain ⟨hpath, hinner⟩ := Traced.forall_fetched_append.1 hr
    have hd' := (hpath ref.path List.mem_cons_self).supplies hd
    obtain ⟨y', hy', hout, hfetched⟩ := ih hinner
    refine ⟨_, .broken hl hg hd' hy' (hout.trans hy), rfl, ?_⟩
    simp only [Traced.fetched, List.filterMap_append] at hfetched ⊢
    rw [hfetched]
  | @included g line lines ref d inner x y calls later hl hg hd _ hy _ ihi ih =>
    obtain ⟨hfirst, hrest⟩ := Traced.forall_fetched_append.1 hr
    rw [List.filterMap_append, List.forall_mem_append] at hfirst
    obtain ⟨hpath, hinner⟩ := hfirst
    have hd' := (hpath ref.path List.mem_cons_self).supplies hd
    obtain ⟨y', hy', houti, hfetchedi⟩ := ihi hinner
    obtain ⟨x', hx', hout, hfetched⟩ := ih hrest
    refine ⟨_, .included hl hg hd' hy' (houti.trans hy) hx', by rw [hout], ?_⟩
    simp only [Traced.fetched, List.filterMap_append] at hfetchedi hfetched ⊢
    rw [hfetchedi, hfetched]

theorem transclude_alike (d : Document) (g : Guard)
    (hr : ∀ p ∈ (transclude r d g).fetched, Resolver.FailAlike E r r' p) :
    (transclude r' d g).Alike (transclude r d g) := by
  obtain ⟨calls, h⟩ := expands_transcludeLines r g (Text.lines d.body)
  rw [Traced.fetched, transclude_events] at hr
  obtain ⟨x', hx', halike⟩ := h.failAlike hr
  rw [transclude, transclude, hx'.eq_transcludeLines]
  exact halike.bind _

/-! ### Inheritance -/

/-- **What comes together from parents depends on why one of them is missing in its failure
alone.** -/
theorem Inherits.failAlike (hE : ∀ f, f.isOwn → E f f) {g : Guard} {d : Document}
    {x : Traced Document} {calls : List Guard} (h : Inherits r g d x calls)
    (hr : ∀ p ∈ x.fetched, Resolver.FailAlike E r r' p) :
    ∃ x', Inherits r' g d x' calls ∧ x'.fetched = x.fetched ∧
      Matched E Eq x.outcome x'.outcome := by
  induction h with
  | top hp => exact ⟨_, .top hp, rfl, .ok rfl⟩
  | invalid hp => exact ⟨_, .invalid hp, rfl, .error (hE _ (Document.isOwn_of_parent? hp))⟩
  | circular hp hg => exact ⟨_, .circular hp hg, rfl, .error (hE _ rfl)⟩
  | @missing g d path f hp hg ha =>
    obtain ⟨f', ha', hf⟩ := (hr path List.mem_cons_self).error ha
    exact ⟨_, .missing hp hg ha', rfl, .error hf⟩
  | @malformed g d path t f hp hg ha hd =>
    have ha' := (hr path List.mem_cons_self).ok ha
    exact ⟨_, .malformed hp hg ha' hd, rfl, .error (hE f (Document.isOwn_of_parse hd))⟩
  | @parent g d e path x calls hp hg he _ ih =>
    obtain ⟨hpath, habove⟩ := Traced.forall_fetched_append.1 hr
    have he' := (hpath path List.mem_cons_self).supplies he
    obtain ⟨x', hx', hfetched, hout⟩ := ih habove
    refine ⟨_, .parent hp hg he' hx', ?_, ?_⟩
    · simp only [Traced.fetched, List.filterMap_append] at hfetched ⊢
      rw [hfetched]
    · refine hout.bind ?_
      rintro complete _ rfl
      exact .same fun f hf => hE f (Document.isOwn_of_merge hf)

theorem inherit_follows_silent (hE : ∀ f, f.isOwn → E f f) (d : Document) (g : Guard) :
    Traced.Follows (Resolver.FailAlike E r r') E Eq (inherit r d g).silent
      (inherit r' d g).silent := by
  rw [Traced.follows_silent_iff]
  intro hr
  obtain ⟨calls, h⟩ := inherits_inherit r g d
  obtain ⟨x', hx', hfetched, hout⟩ := h.failAlike hE hr
  rw [hx'.eq_inherit]
  exact ⟨hfetched, hout⟩

/-! ### Substitution -/

theorem render_follows_silent (hE : ∀ f, f.isOwn → E f f) (v : Value) :
    Traced.Follows (Resolver.FailAlike E r r') E Eq (Answers.render r.answer v).silent
      (Answers.render r'.answer v).silent := by
  cases hv : v.path? with
  | none =>
    obtain ⟨t, ht⟩ := Answers.render_of_path?_eq_none r.answer hv
    rw [Answers.render_eq_of_path?_eq_none hv r.answer r'.answer, ht]
    exact .done rfl
  | some path =>
    rw [Traced.follows_silent_iff, Answers.render_of_path? _ hv, Answers.render_of_path? _ hv]
    intro hr
    have hpath : Resolver.FailAlike E r r' path := hr path List.mem_cons_self
    refine ⟨rfl, ?_⟩
    cases ha : r.answer path with
    | error f =>
      obtain ⟨f', ha', hf⟩ := hpath.error ha
      rw [ha']
      exact .error hf
    | ok t =>
      rw [hpath.ok ha]
      exact .same fun f hf => hE f (Document.isOwn_of_parse (Traced.error_of_map hf))

theorem renderAll_follows_silent (hE : ∀ f, f.isOwn → E f f) (m : Metadata) (names : List Text) :
    Traced.Follows (Resolver.FailAlike E r r') E Eq (Answers.renderAll r.answer m names).silent
      (Answers.renderAll r'.answer m names).silent := by
  induction names with
  | nil => exact .done rfl
  | cons name names ih =>
    rw [Answers.renderAll_cons, Answers.renderAll_cons, Traced.silent_bind, Traced.silent_bind]
    refine (render_follows_silent hE _).bind ?_
    rintro t _ - rfl
    rw [Traced.silent_bind, Traced.silent_bind]
    refine ih.bind ?_
    rintro values _ - rfl
    exact .done rfl

theorem substitute_follows_silent (hE : ∀ f, f.isOwn → E f f) (d : Document) :
    Traced.Follows (Resolver.FailAlike E r r') E Eq (substitute r d).silent
      (substitute r' d).silent := by
  unfold substitute Answers.substitute
  cases (Slot.names d.body).find? fun name => !d.metadata.has name with
  | some name => exact .ofExcept (.error (hE _ rfl))
  | none =>
    dsimp only
    rw [Traced.silent_bind, Traced.silent_bind]
    refine (renderAll_follows_silent hE _ _).bind ?_
    rintro values _ - rfl
    refine Traced.follows_silent_same fun f hf => ?_
    -- what is done with the texts does not fail
    rw [Traced.outcome_bind, Traced.outcome_bind, outputMetadata_outcome] at hf
    cases hf

/-! ### Compilations -/

theorem finish_follows_silent (hE : ∀ f, f.isOwn → E f f) (d : Document) :
    Traced.Follows (Resolver.FailAlike E r r') E Eq (finish r d).silent (finish r' d).silent := by
  rw [finish, finish, Traced.silent_bind, Traced.silent_bind]
  refine (substitute_follows_silent hE d).bind ?_
  rintro filled _ - rfl
  rw [Traced.follows_silent_iff]
  intro hr
  have halike := transclude_alike filled .empty hr
  rw [halike.outcome]
  exact ⟨halike.fetched, .same fun f hf => hE f (isOwn_of_transclude hf)⟩

theorem compileDocument_follows_silent (hE : ∀ f, f.isOwn → E f f) (source : Text)
    (vars : Metadata) :
    Traced.Follows (Resolver.FailAlike E r r') E Eq (compileDocument r source vars).silent
      (compileDocument r' source vars).silent := by
  cases hd : Document.parse source with
  | error f =>
    rw [compileDocument_of_malformed hd, compileDocument_of_malformed hd]
    exact .ofExcept (.error (hE f (Document.isOwn_of_parse hd)))
  | ok d =>
    rw [(compileDocument_alike r vars hd).silent_eq, (compileDocument_alike r' vars hd).silent_eq,
      Traced.silent_bind, Traced.silent_bind]
    refine (inherit_follows_silent hE d .empty).bind ?_
    rintro complete _ - rfl
    exact finish_follows_silent hE _

/-- The rule for two compilations: all that the first one asks for has the same text for both, or is
missing for reasons that go together. -/
theorem compile_follows_silent (hE : ∀ f, f.isOwn → E f f) (source : Text) (vars : Metadata) :
    Traced.Follows (Resolver.FailAlike E r r') E Eq (compile r source vars).silent
      (compile r' source vars).silent := by
  rw [compile, compile, Traced.silent_bind, Traced.silent_bind]
  refine (compileDocument_follows_silent hE source vars).bind ?_
  rintro d _ - rfl
  exact Traced.follows_silent_same fun f hf => hE f (Document.isOwn_of_format hf)

/-- The failures of two compilations that ask for the same: one that the documents are the cause of,
or what the two resolvers answer at a path that was asked for. -/
inductive Failure.Parallel (r r' : Resolver) (asked : List Text) : Failure → Failure → Prop
  /-- The same failure because of the documents. -/
  | own {f : Failure} (h : f.isOwn) : Parallel r r' asked f f
  /-- The two answers at a path. -/
  | answers {p : Text} {f f' : Failure} (hp : p ∈ asked) (h : r.answer p = .error f)
    (h' : r'.answer p = .error f') : Parallel r r' asked f f'

/-- **Two compilations differ in the answer that ends them at most**, if all that the first one asks
for has the same text for both, or is missing for both.  They ask for the same, and one comes to a
text if the other does, to the same one. -/
theorem compile_parallel {source : Text} {vars : Metadata}
    (hr : ∀ p ∈ (compile r source vars).fetched,
      Resolver.FailAlike (fun _ _ => True) r r' p) :
    (compile r' source vars).fetched = (compile r source vars).fetched ∧
      Matched (Failure.Parallel r r' (compile r source vars).fetched) Eq
        (compile r source vars).outcome (compile r' source vars).outcome := by
  have hrule : Traced.Follows (Resolver.FailAlike _ r r')
      (Failure.Parallel r r' (compile r source vars).fetched) Eq (compile r source vars).silent
      (compile r' source vars).silent :=
    compile_follows_silent (fun f hf => .own hf) source vars
  apply Traced.follows_silent_iff.1 hrule
  intro p hp
  unfold Resolver.FailAlike
  cases ha : r.answer p with
  | ok t =>
    rw [(hr p hp).ok ha]
    exact .ok rfl
  | error f =>
    obtain ⟨f', ha', -⟩ := (hr p hp).error ha
    rw [ha']
    exact .error (.answers hp ha ha')

/-- A property holds of all paths that a compilation asks for because a document names them as its
parent, or because they are the value of a slot. -/
structure ParentsAndValues (P : Text → Prop) (r : Resolver) (source : Text) (vars : Metadata) :
    Prop where
  /-- It holds of the parents. -/
  parents : ∀ d, Document.parse source = .ok d → ∀ p ∈ (inherit r d .empty).fetched, P p
  /-- It holds of the values. -/
  values : ∀ d, Document.parse source = .ok d → ∀ complete,
    (inherit r d .empty).outcome = .ok complete →
      ∀ p ∈ (substitute r (applyOverrides complete vars)).fetched, P p

/-- What is asked for first is asked for. -/
theorem Traced.fetched_subset_bind {α β : Type} (x : Traced α) (f : α → Traced β) :
    x.fetched ⊆ (x >>= f).fetched := by
  cases hx : x.outcome with
  | error e => rw [fetched_bind_of_error hx]; exact List.Subset.refl _
  | ok a => rw [fetched_bind_of_ok hx]; exact List.subset_append_left _ _

/-- Parents and values are among the paths that are asked for. -/
theorem ParentsAndValues.imp {P Q : Text → Prop} {source : Text} {vars : Metadata}
    (h : ParentsAndValues P r source vars)
    (hPQ : ∀ p ∈ (compile r source vars).fetched, P p → Q p) :
    ParentsAndValues Q r source vars := by
  rw [compile_fetched] at hPQ
  refine ⟨?_, ?_⟩
  · intro d hd p hp
    refine hPQ p ?_ (h.parents d hd p hp)
    rw [(compileDocument_alike r vars hd).fetched]
    exact Traced.fetched_subset_bind _ _ hp
  · intro d hd complete hcomplete p hp
    refine hPQ p ?_ (h.values d hd complete hcomplete p hp)
    rw [(compileDocument_alike r vars hd).fetched, Traced.fetched_bind_of_ok hcomplete]
    exact List.mem_append_right _ (Traced.fetched_subset_bind _ _ hp)

/-- **Two compilations come to the same, if parents and values have the same answers**: all other
documents take the place of references, where it does not matter why one is missing. -/
theorem compile_outcome_eq_of_parentsAndValues {source : Text} {vars : Metadata}
    (hr : ∀ p ∈ (compile r source vars).fetched, Resolver.FailAlike E r r' p)
    (hsame : ParentsAndValues (fun p => r.answer p = r'.answer p) r source vars) :
    (compile r' source vars).outcome = (compile r source vars).outcome := by
  have hrefl : ∀ f : Failure, f = f := fun _ => rfl
  suffices hdocument :
      (compileDocument r' source vars).outcome = (compileDocument r source vars).outcome by
    rw [compile, compile, Traced.outcome_bind, Traced.outcome_bind, hdocument]
  cases hd : Document.parse source with
  | error f => rw [compileDocument_of_malformed hd, compileDocument_of_malformed hd]
  | ok d =>
    have hinherit : inherit r' d .empty = inherit r d .empty := by
      apply (inherit_follows heritable_eq rfl .empty).eq
      intro p hp
      exact Resolver.alike_of_answer_eq (fun _ => rfl) (hsame.parents d hd p hp)
    rw [(compileDocument_alike r vars hd).outcome, (compileDocument_alike r' vars hd).outcome,
      hinherit, Traced.outcome_bind, Traced.outcome_bind]
    cases hcomplete : (inherit r d .empty).outcome with
    | error f => rfl
    | ok complete =>
      have hfill : substitute r' (applyOverrides complete vars) =
          substitute r (applyOverrides complete vars) := by
        apply (substitute_follows (Document.SameInUse.refl _) hrefl fun _ => rfl).eq
        intro p hp
        exact Resolver.alike_of_answer_eq (fun _ => rfl)
          (hsame.values d hd complete hcomplete p hp)
      show (finish r' _).outcome = (finish r _).outcome
      rw [finish, finish, hfill, Traced.outcome_bind, Traced.outcome_bind]
      cases hfilled : (substitute r (applyOverrides complete vars)).outcome with
      | error f => rfl
      | ok filled =>
        refine (transclude_alike filled .empty fun p hp => hr p ?_).outcome
        rw [compile_fetched_of_stages hd hcomplete hfilled]
        exact List.mem_append_right _ (List.mem_append_right _ hp)

end Runs

end MarkdownWeave
