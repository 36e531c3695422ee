import Mathlib.Data.List.Find
import MarkdownWeave.Proofs.Inheritance.Ascent
import MarkdownWeave.Proofs.Slots.Requests
import MarkdownWeave.Proofs.Stages
import MarkdownWeave.Proofs.Transclusion.Expansion

/-!
# Two runs side by side

The same is done twice, with two resolvers, and maybe with documents that differ in something that
does not count.  The second run follows the first one: as long as the resolvers have the same to
offer at the paths that the first run asks for, the second asks for the same paths and says the
same, and comes to a result that goes together with that of the first.  Each step of a compilation
has its rule here, so that a law about two runs only has to say what may differ, and that merging
and filling do not see it.

## Main definitions

* `Matched E R x y` — two results related by `R`, or two failures related by `E`.
* `Traced.Follows P E R x y` — `y` does the same as `x`, as long as `P` holds of what `x` asks for.
* `Resolver.Alike R r r' p` — two resolvers have the same at a path, up to `R` between documents.
* `Heritable R` — merging does not see what may differ.
* `Document.Uses` — the names that count when a document is finished.
* `Document.SameInUse` — two documents with the same body, and the same values where they are used.

## Main results

* `Traced.Follows.bind` — the rule for one thing after another.
* `Expands.alike` — **what becomes of lines depends on the bodies of documents alone.**
* `inherit_follows` — the rule for inheritance.
* `substitute_follows`, `finish_follows` — the rules for the last two stages.
-/

namespace MarkdownWeave

/-! ### Results that go together -/

/-- Two outcomes go together: two results that are related, or two failures that are. -/
inductive Matched {α : Type} (E : Failure → Failure → Prop) (R : α → α → Prop) :
    Except Failure α → Except Failure α → Prop
  /-- Two results. -/
  | ok {a b : α} (h : R a b) : Matched E R (.ok a) (.ok b)
  /-- Two failures. -/
  | error {e f : Failure} (h : E e f) : Matched E R (.error e) (.error f)

namespace Matched

variable {α β : Type} {E : Failure → Failure → Prop} {R : α → α → Prop} {S : β → β → Prop}

theorem refl (hE : ∀ f, E f f) (hR : ∀ a, R a a) (x : Except Failure α) : Matched E R x x := by
  cases x with
  | ok a => exact .ok (hR a)
  | error f => exact .error (hE f)

theorem eq {x y : Except Failure α} (h : Matched Eq Eq x y) : x = y := by
  cases h with
  | ok h => rw [h]
  | error h => rw [h]

theorem imp {F : Failure → Failure → Prop} {x y : Except Failure α} (h : Matched E R x y)
    (hE : ∀ e f, E e f → F e f) : Matched F R x y := by
  cases h with
  | ok h => exact .ok h
  | error h => exact .error (hE _ _ h)

theorem bind {x y : Except Failure α} {f g : α → Except Failure β} (h : Matched E R x y)
    (hfg : ∀ a b, R a b → Matched E S (f a) (g b)) : Matched E S (x.bind f) (y.bind g) := by
  cases h with
  | ok h => exact hfg _ _ h
  | error h => exact .error h

end Matched

namespace Traced

variable {α β : Type} {P Q : Text → Prop} {E F : Failure → Failure → Prop}
variable {R : α → α → Prop} {S : β → β → Prop}

/-- As long as a property holds of the paths that the first computation asks for, the second asks
for the same paths and gives the same notices, and their outcomes go together. -/
def Follows (P : Text → Prop) (E : Failure → Failure → Prop) (R : α → α → Prop)
    (x y : Traced α) : Prop :=
  (∀ p ∈ x.fetched, P p) → y.events = x.events ∧ Matched E R x.outcome y.outcome

namespace Follows

theorem refl (hE : ∀ f, E f f) (hR : ∀ a, R a a) (x : Traced α) : Follows P E R x x :=
  fun _ => ⟨rfl, .refl hE hR x.outcome⟩

theorem of_eq {x y : Traced α} (hE : ∀ f, E f f) (hR : ∀ a, R a a)
    (h : (∀ p ∈ x.fetched, P p) → y = x) : Follows P E R x y := by
  intro hP
  rw [h hP]
  exact refl hE hR x hP

theorem ofExcept {x y : Except Failure α} (h : Matched E R x y) :
    Follows P E R (Traced.ofExcept x) (Traced.ofExcept y) :=
  fun _ => ⟨rfl, h⟩

theorem done {a b : α} (h : R a b) : Follows P E R (Traced.done a) (Traced.done b) :=
  ofExcept (.ok h)

/-- A computation that follows another one does so under a stronger condition, too, and so that
outcomes go together in a weaker sense. -/
theorem imp {x y : Traced α} (h : Follows P E R x y) (hP : ∀ p, Q p → P p)
    (hE : ∀ e f, E e f → F e f) : Follows Q F R x y := by
  intro hQ
  obtain ⟨hevents, hout⟩ := h fun p hp => hP p (hQ p hp)
  exact ⟨hevents, hout.imp hE⟩

/-- **One thing after another**: what comes second has to follow for all results of what comes
first that are related. -/
theorem bind {x y : Traced α} {f g : α → Traced β} (h : Follows P E R x y)
    (hfg : ∀ a b, x.outcome = .ok a → R a b → Follows P E S (f a) (g b)) :
    Follows P E S (x >>= f) (y >>= g) := by
  intro hP
  cases hx : x.outcome with
  | error e =>
    rw [fetched_bind_of_error hx] at hP
    obtain ⟨hevents, hout⟩ := h hP
    rw [hx] at hout
    cases hy : y.outcome with
    | ok b => rw [hy] at hout; cases hout
    | error e' =>
      rw [hy] at hout
      cases hout with | error he =>
      rw [bind_of_error hx, bind_of_error hy, hevents]
      exact ⟨rfl, .error he⟩
  | ok a =>
    rw [fetched_bind_of_ok hx, List.forall_mem_append] at hP
    obtain ⟨hevents, hout⟩ := h hP.1
    rw [hx] at hout
    cases hy : y.outcome with
    | error e => rw [hy] at hout; cases hout
    | ok b =>
      rw [hy] at hout
      cases hout with | ok hab =>
      obtain ⟨hevents', hout'⟩ := hfg a b hx hab hP.2
      rw [bind_of_ok hx, bind_of_ok hy, hevents, hevents']
      exact ⟨rfl, hout'⟩

/-- If the same comes first in both, only what comes second has to follow. -/
theorem bind_same (hE : ∀ f, E f f) {x : Traced α} {f g : α → Traced β}
    (hfg : ∀ a, Follows P E S (f a) (g a)) : Follows P E S (x >>= f) (x >>= g) := by
  refine (refl (R := Eq) hE (fun _ => rfl) x).bind ?_
  rintro a b - rfl
  exact hfg a

/-- What follows another computation up to nothing is the same. -/
theorem eq {x y : Traced α} (h : Follows P Eq Eq x y) (hP : ∀ p ∈ x.fetched, P p) : y = x := by
  obtain ⟨hevents, hout⟩ := h hP
  obtain ⟨o, es⟩ := x
  obtain ⟨o', es'⟩ := y
  obtain rfl : es' = es := hevents
  obtain rfl : o = o' := hout.eq
  rfl

end Follows

/-- What holds of all requests of one part of a computation and of another one. -/
theorem forall_fetched_append {o : Except Failure α} {es fs : List Event} :
    (∀ p ∈ (⟨o, es ++ fs⟩ : Traced α).fetched, P p) ↔
      (∀ p ∈ es.filterMap Event.path?, P p) ∧ ∀ p ∈ fs.filterMap Event.path?, P p := by
  rw [fetched, List.filterMap_append, List.forall_mem_append]

end Traced

/-! ### Resolvers that are alike -/

/-- Two documents with the same body. -/
def Document.SameBody (d d' : Document) : Prop := d.body = d'.body

namespace Resolver

/-- What the first resolver has at a path the second has, too: the same failure, a text that is no
document for the same reason, or a related document. -/
structure Alike (R : Document → Document → Prop) (r r' : Resolver) (p : Text) : Prop where
  /-- If the first fails, the second fails likewise. -/
  missing : ∀ f, r.answer p = .error f → r'.answer p = .error f
  /-- If the first has a text that is no document, so has the second. -/
  malformed : ∀ t f, r.answer p = .ok t → Document.parse t = .error f →
    ∃ t', r'.answer p = .ok t' ∧ Document.parse t' = .error f
  /-- If the first has a document, the second has a related one. -/
  supplied : ∀ d, r.Supplies p d → ∃ d', r'.Supplies p d' ∧ R d d'

variable {R S : Document → Document → Prop} {r r' : Resolver} {p : Text}

theorem Alike.imp (h : Alike R r r' p) (hRS : ∀ d d', R d d' → S d d') : Alike S r r' p := by
  refine ⟨h.missing, h.malformed, fun d hd => ?_⟩
  obtain ⟨d', hd', hR⟩ := h.supplied d hd
  exact ⟨d', hd', hRS d d' hR⟩

/-- Resolvers with the same answer are alike. -/
theorem alike_of_answer_eq (hR : ∀ d, R d d) (h : r.answer p = r'.answer p) : Alike R r r' p where
  missing f ha := h ▸ ha
  malformed t f ha hd := ⟨t, h ▸ ha, hd⟩
  supplied d hd := by
    obtain ⟨t, ha, hd⟩ := hd
    exact ⟨d, ⟨t, h ▸ ha, hd⟩, hR d⟩

/-- So are resolvers that have related documents at a path. -/
theorem Supplies.alike {d d' : Document} (h : r.Supplies p d) (h' : r'.Supplies p d')
    (hR : R d d') : Alike R r r' p where
  missing f ha := by
    obtain ⟨t, ht, -⟩ := h
    rw [ht] at ha
    cases ha
  malformed t f ha hd := by
    obtain ⟨u, hu, hud⟩ := h
    rw [hu] at ha
    cases ha
    rw [hud] at hd
    cases hd
  supplied e he := by
    obtain rfl := h.unique he
    exact ⟨d', h', hR⟩

end Resolver

section Runs

variable {r r' : Resolver} {R : Document → Document → Prop}

/-! ### Transclusion -/

/-- **What becomes of lines depends on the bodies of the documents that are asked for, and on
nothing else.** -/
theorem Expands.alike {g : Guard} {lines : List Text} {x : Traced (List Text)} {calls : List Guard}
    (h : Expands r g lines x calls)
    (hr : ∀ p ∈ x.fetched, Resolver.Alike Document.SameBody r r' p) :
    Expands r' g lines x calls := by
  induction h with
  | nil => exact .nil
  | plain hl _ ih => exact .plain hl (ih hr)
  | circular hl hg => exact .circular hl hg
  | @missing g line lines ref f x calls hl hg ha _ ih =>
    obtain ⟨hpath, hrest⟩ := Traced.forall_fetched_append.1 hr
    have ha' := (hpath ref.path List.mem_cons_self).missing f ha
    exact .missing hl hg ha' (ih hrest)
  | @malformed g line lines ref t f hl hg ha hd =>
    obtain ⟨t', ha', hd'⟩ := (hr ref.path List.mem_cons_self).malformed t f ha hd
    exact .malformed hl hg ha' hd'
  | @broken g line lines ref d f y calls hl hg hd _ hy ih =>
    obtain ⟨hpath, hinner⟩ := Traced.forall_fetched_append.1 hr
    obtain ⟨d', hd', hbody⟩ := (hpath ref.path List.mem_cons_self).supplied d hd
    have hi := ih hinner
    rw [hbody] at hi
    exact .broken hl hg hd' hi hy
  | @included g line lines ref d inner x y calls later hl hg hd _ hy _ ihi ih =>
    obtain ⟨hfirst, hrest⟩ := Traced.forall_fetched_append.1 hr
    rw [List.filterMap_append, List.forall_mem_append] at hfirst
    obtain ⟨hpath, hinner⟩ := hfirst
    obtain ⟨d', hd', hbody⟩ := (hpath ref.path List.mem_cons_self).supplied d hd
    have hi := ihi hinner
    rw [hbody] at hi
    exact .included hl hg hd' hi hy (ih hrest)

theorem transclude_follows (d : Document) (g : Guard) :
    Traced.Follows (Resolver.Alike Document.SameBody r r') Eq Eq (transclude r d g)
      (transclude r' d g) := by
  refine .of_eq (fun _ => rfl) (fun _ => rfl) fun hr => ?_
  obtain ⟨calls, h⟩ := expands_transcludeLines r g (Text.lines d.body)
  have hlines : ∀ p ∈ (transcludeLines r g (Text.lines d.body)).fetched,
      Resolver.Alike Document.SameBody r r' p := by
    rwa [Traced.fetched, ← transclude_events]
  rw [transclude, transclude, (h.alike hlines).eq_transcludeLines]

/-! ### Inheritance -/

/-- Documents that are related name the same parent, and merging related documents gives related
documents. -/
structure Heritable (R : Document → Document → Prop) : Prop where
  /-- They name the same parent. -/
  parent : ∀ {d d'}, R d d' → d.parent? = d'.parent?
  /-- They merge alike. -/
  merge : ∀ {p p' c c'}, R p p' → R c c' → Matched Eq R (merge p c) (merge p' c')

theorem heritable_eq : Heritable Eq where
  parent h := congrArg Document.parent? h
  merge hp hc := by
    rw [hp, hc]
    exact .refl (fun _ => rfl) (fun _ => rfl) _

/-- **What comes together from parents depends on the documents that are asked for alone**, and
only on what is related in related documents. -/
theorem Inherits.alike (hR : Heritable R) {g : Guard} {d d' : Document} {x : Traced Document}
    {calls : List Guard} (h : Inherits r g d x calls) (hd : R d d')
    (hr : ∀ p ∈ x.fetched, Resolver.Alike R r r' p) :
    ∃ x', Inherits r' g d' x' calls ∧ x'.events = x.events ∧ Matched Eq R x.outcome x'.outcome := by
  induction h generalizing d' with
  | top hp =>
    rw [hR.parent hd] at hp
    exact ⟨_, .top hp, rfl, .ok hd⟩
  | invalid hp =>
    rw [hR.parent hd] at hp
    exact ⟨_, .invalid hp, rfl, .error rfl⟩
  | circular hp hg =>
    rw [hR.parent hd] at hp
    exact ⟨_, .circular hp hg, rfl, .error rfl⟩
  | @missing g d path f hp hg ha =>
    rw [hR.parent hd] at hp
    have ha' := (hr path List.mem_cons_self).missing f ha
    exact ⟨_, .missing hp hg ha', rfl, .error rfl⟩
  | @malformed g d path t f hp hg ha ht =>
    rw [hR.parent hd] at hp
    obtain ⟨t', ha', ht'⟩ := (hr path List.mem_cons_self).malformed t f ha ht
    exact ⟨_, .malformed hp hg ha' ht', rfl, .error rfl⟩
  | @parent g d e path x calls hp hg he _ ih =>
    rw [hR.parent hd] at hp
    obtain ⟨hpath, habove⟩ := Traced.forall_fetched_append.1 hr
    obtain ⟨e', he', hee'⟩ := (hpath path List.mem_cons_self).supplied e he
    obtain ⟨x', hx', hevents, hout⟩ := ih hee' habove
    refine ⟨_, .parent hp hg he' hx', by rw [hevents], ?_⟩
    exact hout.bind fun complete complete' hc => hR.merge hc hd

theorem inherit_follows (hR : Heritable R) {d d' : Document} (hd : R d d') (g : Guard) :
    Traced.Follows (Resolver.Alike R r r') Eq R (inherit r d g) (inherit r' d' g) := by
  intro hr
  obtain ⟨calls, h⟩ := inherits_inherit r g d
  obtain ⟨x', hx', hevents, hout⟩ := h.alike hR hd hr
  rw [hx'.eq_inherit]
  exact ⟨hevents, hout⟩

/-! ### Substitution -/

/-- A value that is no reference has a text of its own. -/
theorem Answers.render_eq_of_path?_eq_none {v : Value} (h : v.path? = none)
    (answers answers' : Answers) : answers'.render v = answers.render v := by
  unfold render
  split
  · cases h
  · rfl
  · rfl

theorem render_follows (v : Value) :
    Traced.Follows (Resolver.Alike Document.SameBody r r') Eq Eq (render r v) (render r' v) := by
  refine .of_eq (fun _ => rfl) (fun _ => rfl) fun hr => ?_
  unfold MarkdownWeave.render at hr ⊢
  cases hv : v.path? with
  | none => exact Answers.render_eq_of_path?_eq_none hv _ _
  | some path =>
    rw [Answers.render_of_path? _ hv] at hr ⊢
    rw [Answers.render_of_path? _ hv]
    have hpath := hr path List.mem_cons_self
    congr 1
    cases ha : r.answer path with
    | error f => rw [hpath.missing f ha]
    | ok t =>
      cases hd : Document.parse t with
      | error f =>
        obtain ⟨t', ha', hd'⟩ := hpath.malformed t f ha hd
        rw [ha', Except.bind, Except.bind, hd, hd']
      | ok d =>
        obtain ⟨d', ⟨t', ha', hd'⟩, hbody⟩ := hpath.supplied d ⟨t, ha, hd⟩
        rw [ha', Except.bind, Except.bind, hd, hd', Except.map, Except.map, hbody]

theorem renderAll_follows {m m' : Metadata} {names : List Text}
    (h : ∀ name ∈ names, m.get? name = m'.get? name) :
    Traced.Follows (Resolver.Alike Document.SameBody r r') Eq Eq
      (Answers.renderAll r.answer m names) (Answers.renderAll r'.answer m' names) := by
  induction names with
  | nil => exact .done rfl
  | cons name names ih =>
    obtain ⟨hname, hnames⟩ := List.forall_mem_cons.1 h
    rw [Answers.renderAll_cons, Answers.renderAll_cons, hname]
    refine (render_follows _).bind ?_
    rintro t _ - rfl
    refine (ih hnames).bind ?_
    rintro values _ - rfl
    exact .done rfl

/-- A name is used by a document that is finished, if it is that of the output or of a slot. -/
def Document.Uses (d : Document) (name : Text) : Prop :=
  name = outputKey ∨ ∃ i s, Slot.OccursAt d.body i s ∧ s.name = name

/-- Two documents with the same body, and the same values under all names that are used. -/
structure Document.SameInUse (d d' : Document) : Prop where
  /-- The bodies are the same. -/
  body : d.body = d'.body
  /-- A name that is used has the same value in both, or none in either. -/
  values : ∀ name, d.Uses name → d.get? name = d'.get? name

theorem Document.SameInUse.refl (d : Document) : d.SameInUse d := ⟨rfl, fun _ _ => rfl⟩

variable {E : Failure → Failure → Prop} {d d' : Document}

/-- **Filling the slots of a body depends on their values, on the output, and on the bodies of the
documents that are asked for**; only the failure of a name may come from the rest of the
metadata. -/
theorem substitute_follows (hd : d.SameInUse d') (hE : ∀ f, E f f)
    (hundefined : ∀ name, E (undefinedName name d.metadata) (undefinedName name d'.metadata)) :
    Traced.Follows (Resolver.Alike Document.SameBody r r') E Eq (substitute r d)
      (substitute r' d') := by
  have hvalues : ∀ name ∈ Slot.names d.body, d.metadata.get? name = d'.metadata.get? name := by
    intro name hname
    apply hd.values
    exact Or.inr (Slot.mem_names.1 hname)
  have hfind : ((Slot.names d.body).find? fun name => !d'.metadata.has name) =
      (Slot.names d.body).find? fun name => !d.metadata.has name := by
    refine List.find?_congr fun name hname => ?_
    rw [Metadata.has, Metadata.has, hvalues name hname]
  have houtput : outputMetadata d'.metadata = outputMetadata d.metadata := by
    have h : d.metadata.get? outputKey = d'.metadata.get? outputKey :=
      hd.values outputKey (Or.inl rfl)
    rw [outputMetadata, outputMetadata, h]
  unfold substitute Answers.substitute
  rw [← hd.body, hfind, houtput]
  cases (Slot.names d.body).find? fun name => !d.metadata.has name with
  | some name => exact .ofExcept (.error (hundefined name))
  | none =>
    have hrender : Traced.Follows (Resolver.Alike Document.SameBody r r') E Eq
        (Answers.renderAll r.answer d.metadata (Slot.names d.body))
        (Answers.renderAll r'.answer d'.metadata (Slot.names d.body)) := by
      refine (renderAll_follows hvalues).imp (fun _ h => h) ?_
      rintro e _ rfl
      exact hE e
    refine hrender.bind ?_
    rintro values _ - rfl
    exact .refl hE (fun _ => rfl) _

theorem finish_follows (hd : d.SameInUse d') (hE : ∀ f, E f f)
    (hundefined : ∀ name, E (undefinedName name d.metadata) (undefinedName name d'.metadata)) :
    Traced.Follows (Resolver.Alike Document.SameBody r r') E Eq (finish r d) (finish r' d') := by
  refine (substitute_follows hd hE hundefined).bind ?_
  rintro filled _ - rfl
  refine (transclude_follows filled .empty).imp (fun _ h => h) ?_
  rintro e _ rfl
  exact hE e

end Runs

end MarkdownWeave
