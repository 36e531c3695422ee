import MarkdownWeave.Failure

/-!
# Traced computations

A computation that asks for documents and may fail.  What it asked for and what it had to say is
kept in order, also when it fails.

## Main definitions

* `Event` — a document that was asked for, or a notice.
* `Traced` — an outcome with the events before it.
* `Traced.fetched`, `Traced.notices` — the two kinds of events apart.
-/

namespace MarkdownWeave

/-- How important a notice is. -/
inductive Level
  /-- Of interest only to someone who looks for a mistake. -/
  | debug
  /-- Something that the author of a document should know. -/
  | warning
deriving DecidableEq

/-- Something that a computation did before it came to its outcome. -/
inductive Event
  /-- It asked for the document at a path. -/
  | fetch (path : Text)
  /-- It gave a notice. -/
  | notice (level : Level) (text : Text)
deriving DecidableEq

namespace Event

/-- The path that was asked for. -/
def path? : Event → Option Text
  | fetch p => some p
  | notice .. => none

/-- The notice that was given. -/
def notice? : Event → Option (Level × Text)
  | fetch _ => none
  | notice l t => some (l, t)

/-- The warning that was given. -/
def warning? : Event → Option Text
  | notice .warning t => some t
  | _ => none

end Event

/-- The outcome of a computation, with the events that came before it. -/
structure Traced (α : Type) where
  /-- The result or the failure. -/
  outcome : Except Failure α
  /-- What happened before, in order. -/
  events : List Event

namespace Traced

variable {α β : Type}

/-! ### Building blocks -/

/-- A result without any events. -/
def done (a : α) : Traced α := ⟨.ok a, []⟩

/-- A failure without any events. -/
def fail (f : Failure) : Traced α := ⟨.error f, []⟩

/-- An outcome without any events. -/
def ofExcept (x : Except Failure α) : Traced α := ⟨x, []⟩

/-- A single event. -/
def event (e : Event) : Traced Unit := ⟨.ok (), [e]⟩

/-- A notice for someone who looks for a mistake. -/
def debug (t : Text) : Traced Unit := event (.notice .debug t)

/-- A warning. -/
def warn (t : Text) : Traced Unit := event (.notice .warning t)

/-- One computation and then another, which depends on its result. -/
def andThen (x : Traced α) (f : α → Traced β) : Traced β :=
  match x.outcome with
  | .ok a => ⟨(f a).outcome, x.events ++ (f a).events⟩
  | .error e => ⟨.error e, x.events⟩

instance : Monad Traced where
  pure := done
  bind := andThen

/-! ### Views -/

/-- The paths that were asked for, in order. -/
def fetched (x : Traced α) : List Text := x.events.filterMap Event.path?

/-- The notices, in order. -/
def notices (x : Traced α) : List (Level × Text) := x.events.filterMap Event.notice?

/-- The warnings, in order. -/
def warnings (x : Traced α) : List Text := x.events.filterMap Event.warning?

@[simp] theorem pure_eq (a : α) : (pure a : Traced α) = done a := rfl

@[simp] theorem done_bind (a : α) (f : α → Traced β) : (done a >>= f) = f a := rfl

@[simp] theorem fail_bind (e : Failure) (f : α → Traced β) : (fail e >>= f) = fail e := rfl

theorem bind_of_ok {x : Traced α} {a : α} (h : x.outcome = .ok a) (f : α → Traced β) :
    (x >>= f) = ⟨(f a).outcome, x.events ++ (f a).events⟩ := by
  simp only [bind, andThen, h]

theorem bind_of_error {x : Traced α} {e : Failure} (h : x.outcome = .error e)
    (f : α → Traced β) : (x >>= f) = ⟨.error e, x.events⟩ := by
  simp only [bind, andThen, h]

/-- A computation after another asks when the other is done. -/
theorem fetched_bind_of_ok {x : Traced α} {a : α} (h : x.outcome = .ok a) (f : α → Traced β) :
    (x >>= f).fetched = x.fetched ++ (f a).fetched := by
  rw [bind_of_ok h]
  exact List.filterMap_append

theorem fetched_bind_of_error {x : Traced α} {e : Failure} (h : x.outcome = .error e)
    (f : α → Traced β) : (x >>= f).fetched = x.fetched := by
  rw [bind_of_error h]
  rfl

theorem outcome_bind (x : Traced α) (f : α → Traced β) :
    (x >>= f).outcome = x.outcome.bind fun a => (f a).outcome := by
  obtain ⟨o, es⟩ := x
  cases o <;> rfl

/-- A computation after another succeeds if both do. -/
theorem outcome_bind_eq_ok {x : Traced α} {f : α → Traced β} {b : β} :
    (x >>= f).outcome = .ok b ↔ ∃ a, x.outcome = .ok a ∧ (f a).outcome = .ok b := by
  rw [outcome_bind]
  cases x.outcome <;> simp [Except.bind]

/-- It fails with the first failure of the two. -/
theorem outcome_bind_eq_error {x : Traced α} {f : α → Traced β} {e : Failure} :
    (x >>= f).outcome = .error e ↔
      x.outcome = .error e ∨ ∃ a, x.outcome = .ok a ∧ (f a).outcome = .error e := by
  rw [outcome_bind]
  cases x.outcome <;> simp [Except.bind]

theorem event_bind (e : Event) (f : Unit → Traced β) :
    (event e >>= f) = ⟨(f ()).outcome, e :: (f ()).events⟩ := rfl

theorem bind_done (x : Traced α) : (x >>= fun a => done a) = x := by
  obtain ⟨o, es⟩ := x
  cases o <;> simp [bind, andThen, done]

theorem bind_assoc {γ : Type} (x : Traced α) (f : α → Traced β) (g : β → Traced γ) :
    (x >>= f) >>= g = x >>= fun a => f a >>= g := by
  obtain ⟨o, es⟩ := x
  cases o with
  | error e => rfl
  | ok a => cases h : (f a).outcome <;> simp [bind, andThen, h]

theorem ok_of_map {y : Except Failure α} {F : α → β} {b : β} (h : y.map F = .ok b) :
    ∃ a, y = .ok a ∧ F a = b := by
  cases y with
  | error e => cases h
  | ok a => exact ⟨a, rfl, Except.ok.inj h⟩

theorem error_of_map {y : Except Failure α} {F : α → β} {f : Failure} (h : y.map F = .error f) :
    y = .error f := by
  cases y with
  | error e => exact congrArg Except.error (Except.error.inj h)
  | ok a => cases h

instance : LawfulMonad Traced := LawfulMonad.mk' Traced bind_done done_bind bind_assoc

end Traced

end MarkdownWeave
