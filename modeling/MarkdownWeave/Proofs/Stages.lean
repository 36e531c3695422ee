import Mathlib.Control.Monad.Basic
import MarkdownWeave.Compile.Progress

/-!
# The stages of a compilation

A compilation reads its source, completes it with what it inherits, and then, with the variables of
the caller, fills slots and replaces references.  What it comes to and what it asks for is put
together from these stages; the notices between them are left out here.

## Main definitions

* `finish` — the last two stages, filling slots and replacing references.
* `Traced.Alike` — two computations that differ in their notices at most.
* `Reaches r source vars step d` — a compilation has come to a document after a step.

## Main results

* `compileDocument_of_malformed`, `compileDocument_alike` — a compilation by its stages.
* `compile_fetched` — writing the result asks for nothing.
* `compile_fetched_of_stages` — what a compilation asks for by its stages.
* `reaches_of_mem`, `reaches_of_compileDocument` — the documents on the way, and the compiled one.
-/

namespace MarkdownWeave

/-- The last two stages of a compilation: slots are filled, and then references replaced. -/
def finish (r : Resolver) (d : Document) : Traced Document := do
  let filled ← substitute r d
  transclude r filled .empty

/-! ### Notices apart -/

namespace Traced

variable {α β : Type}

/-- Two computations come to the same and ask for the same; their notices may differ. -/
structure Alike (x y : Traced α) : Prop where
  /-- They come to the same. -/
  outcome : x.outcome = y.outcome
  /-- They ask for the same, in the same order. -/
  fetched : x.fetched = y.fetched

namespace Alike

theorem refl (x : Traced α) : x.Alike x := ⟨rfl, rfl⟩

theorem trans {x y z : Traced α} (h : x.Alike y) (h' : y.Alike z) : x.Alike z :=
  ⟨h.outcome.trans h'.outcome, h.fetched.trans h'.fetched⟩

theorem bind {x y : Traced α} (h : x.Alike y) (f : α → Traced β) : (x >>= f).Alike (y >>= f) := by
  refine ⟨by rw [outcome_bind, outcome_bind, h.outcome], ?_⟩
  cases hy : y.outcome with
  | error e =>
    rw [fetched_bind_of_error (h.outcome.trans hy), fetched_bind_of_error hy, h.fetched]
  | ok a => rw [fetched_bind_of_ok (h.outcome.trans hy), fetched_bind_of_ok hy, h.fetched]

theorem bind_congr {x : Traced α} {f g : α → Traced β} (h : ∀ a, (f a).Alike (g a)) :
    (x >>= f).Alike (x >>= g) := by
  cases hx : x.outcome with
  | error e =>
    rw [bind_of_error hx, bind_of_error hx]
    exact refl _
  | ok a =>
    refine ⟨?_, ?_⟩
    · rw [bind_of_ok hx, bind_of_ok hx, (h a).outcome]
    · rw [fetched_bind_of_ok hx, fetched_bind_of_ok hx, (h a).fetched]

/-- A notice makes no difference. -/
theorem debug_bind {t : Text} {f : Unit → Traced α} : (debug t >>= f).Alike (f ()) := ⟨rfl, rfl⟩

end Alike

end Traced

/-! ### Stages -/

section Stages

variable {r : Resolver} {source : Text} {vars : Metadata}

theorem compileDocument_of_malformed {f : Failure} (hd : Document.parse source = .error f) :
    compileDocument r source vars = .fail f := by
  rw [compileDocument, hd]
  rfl

theorem announceOverrides_alike (vars : Metadata) : (announceOverrides vars).Alike (.done ()) := by
  unfold announceOverrides
  split
  · exact .refl _
  · exact ⟨rfl, rfl⟩

/-- Apart from its notices a compilation goes on, from what the source inherits, with the last two
stages. -/
theorem compileDocument_alike (r : Resolver) (vars : Metadata) {d : Document}
    (hd : Document.parse source = .ok d) :
    (compileDocument r source vars).Alike
      (inherit r d .empty >>= fun complete => finish r (applyOverrides complete vars)) := by
  have hparsed : compileDocument r source vars =
      Traced.debug "Resolving extends chain" >>= fun _ => inherit r d .empty >>= fun complete =>
        announceOverrides vars >>= fun _ => Traced.debug "Substituting variables" >>= fun _ =>
          substitute r (applyOverrides complete vars) >>= fun filled =>
            Traced.debug "Resolving includes" >>= fun _ => transclude r filled .empty := by
    rw [compileDocument, hd]
    rfl
  rw [hparsed]
  refine Traced.Alike.debug_bind.trans (.bind_congr fun complete => ?_)
  refine ((announceOverrides_alike vars).bind _).trans ?_
  rw [Traced.done_bind]
  refine Traced.Alike.debug_bind.trans ?_
  exact .bind_congr fun filled => Traced.Alike.debug_bind

/-- Writing the compiled document asks for nothing. -/
theorem compile_fetched :
    (compile r source vars).fetched = (compileDocument r source vars).fetched := by
  rw [compile]
  cases ho : (compileDocument r source vars).outcome with
  | error f => exact Traced.fetched_bind_of_error ho _
  | ok d =>
    rw [Traced.fetched_bind_of_ok ho]
    exact List.append_nil _

/-- **A compilation that comes to its last stage has asked for parents, then for values, and then
for what is referred to.** -/
theorem compile_fetched_of_stages {d complete filled : Document}
    (hd : Document.parse source = .ok d) (hcomplete : (inherit r d .empty).outcome = .ok complete)
    (hfilled : (substitute r (applyOverrides complete vars)).outcome = .ok filled) :
    (compile r source vars).fetched =
      (inherit r d .empty).fetched ++ ((substitute r (applyOverrides complete vars)).fetched ++
        (transclude r filled .empty).fetched) := by
  rw [compile_fetched, (compileDocument_alike r vars hd).fetched,
    Traced.fetched_bind_of_ok hcomplete, finish, Traced.fetched_bind_of_ok hfilled]

end Stages

/-! ### Documents on the way -/

/-- A compilation of a source with some variables has come to a document after a step. -/
inductive Reaches (r : Resolver) (source : Text) (vars : Metadata) : Step → Document → Prop
  /-- The source is read. -/
  | parse {d : Document} (h : Document.parse source = .ok d) : Reaches r source vars .parse d
  /-- What it inherits comes together. -/
  | inherit {d e : Document} (h : Reaches r source vars .parse d)
      (he : (inherit r d .empty).outcome = .ok e) : Reaches r source vars .inherit e
  /-- The variables are put in. -/
  | override {d : Document} (h : Reaches r source vars .inherit d) :
      Reaches r source vars .override (applyOverrides d vars)
  /-- The slots are filled. -/
  | substitute {d e : Document} (h : Reaches r source vars .override d)
      (he : (substitute r d).outcome = .ok e) : Reaches r source vars .substitute e
  /-- The references are replaced. -/
  | transclude {d e : Document} (h : Reaches r source vars .substitute d)
      (he : (transclude r d .empty).outcome = .ok e) : Reaches r source vars .transclude e

section Reaches

variable {r : Resolver} {source : Text} {vars : Metadata} {step : Step} {d : Document}

/-- The documents of a compilation are those that it comes to. -/
theorem reaches_of_mem (h : (step, d) ∈ (progress r source vars).documents) :
    Reaches r source vars step d := by
  simp only [progress, Progress.mem_andThen, Progress.andThen_latest_eq_ok,
    Progress.start_latest] at h
  rcases h with (((h | ⟨rfl, p, hp, hd⟩) | ⟨rfl, c, ⟨p, hp, hc⟩, hd⟩) |
    ⟨rfl, o, ⟨c, ⟨p, hp, hc⟩, ho⟩, hd⟩) | ⟨rfl, f, ⟨o, ⟨c, ⟨p, hp, hc⟩, ho⟩, hf⟩, hd⟩
  · cases hp : Document.parse source with
    | error e => simp [Progress.start, hp, Except.toOption] at h
    | ok p =>
      simp only [Progress.start, hp, Except.toOption, Option.map_some, Option.toList_some,
        List.mem_singleton, Prod.mk.injEq] at h
      obtain ⟨rfl, rfl⟩ := h
      exact .parse hp
  · exact .inherit (.parse hp) hd
  · cases hd
    exact .override (.inherit (.parse hp) hc)
  · cases ho
    exact .substitute (.override (.inherit (.parse hp) hc)) hd
  · cases ho
    exact .transclude (.substitute (.override (.inherit (.parse hp) hc)) hf) hd

/-- The compiled document is the last one that a compilation comes to. -/
theorem reaches_of_compileDocument (h : (compileDocument r source vars).outcome = .ok d) :
    Reaches r source vars .transclude d := by
  rw [← progress_latest] at h
  simp only [progress, Progress.andThen_latest_eq_ok, Progress.start_latest] at h
  obtain ⟨f, ⟨o, ⟨c, ⟨p, hp, hc⟩, ho⟩, hf⟩, hd⟩ := h
  cases ho
  exact .transclude (.substitute (.override (.inherit (.parse hp) hc)) hf) hd

end Reaches

end MarkdownWeave
