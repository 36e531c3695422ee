import Mathlib.Control.Monad.Basic
import MarkdownWeave.Proofs.Doubles.Shortest
import MarkdownWeave.Yaml.Reading

/-!
# What is true of values that are read

A value that is read has been put together from scalars, one item or entry after another.  So what
is true of scalars, and of a value if it is true of its parts, is true of every value that is read.
Every floating-point number among the scalars is a double, as a decimal is rounded to one.

## Main definitions

* `Yaml.Gives x P` — all results of a computation that may fail have a property.
* `Yaml.IsScalar` — what scalars are read as.
* `Yaml.LoadClosed P` — a property that values have if their parts do.

## Main results

* `Yaml.isScalar_of_scalarValue?` — **a scalar is read as null, a truth value, an integer, a double
  or a text.**
* `Yaml.LoadClosed.of_read?` — **values that are read have every property that they have if their
  parts do.**
-/

namespace MarkdownWeave

namespace Yaml

/-! ### Computations that may fail -/

/-- All results that a computation comes to have a property. -/
def Gives {α : Type} (x : Loading α) (P : α → Prop) : Prop :=
  ∀ n a n', x.run n = some (a, n') → P a

section Gives

variable {α β : Type} {P : α → Prop} {Q : β → Prop}

theorem Gives.pure {a : α} (h : P a) : Gives (pure a) P := by
  rintro n a' n' ⟨⟩
  exact h

theorem Gives.failure : Gives failure P := by
  rintro n a n' ⟨⟩

theorem Gives.lift {x : Option α} (h : ∀ a, x = some a → P a) : Gives (StateT.lift x) P := by
  intro n a n' hx
  rw [StateT.run_lift] at hx
  obtain ⟨b, hb, he⟩ := Option.bind_eq_some_iff.1 hx
  cases he
  exact h a hb

theorem Gives.bind {x : Loading α} {f : α → Loading β} (hx : Gives x P)
    (hf : ∀ a, P a → Gives (f a) Q) : Gives (x >>= f) Q := by
  intro n b n' h
  rw [StateT.run_bind] at h
  obtain ⟨⟨a, k⟩, ha, hb⟩ := Option.bind_eq_some_iff.1 h
  exact hf a (hx n a k ha) k b n' hb

theorem Gives.map {x : Loading α} {f : α → β} (hx : Gives x P) (hf : ∀ a, P a → Q (f a)) :
    Gives (f <$> x) Q := by
  rw [map_eq_pure_bind]
  exact hx.bind fun a ha => .pure (hf a ha)

theorem Gives.trivial {x : Loading α} : Gives x fun _ => True := fun _ _ _ _ => True.intro

theorem Gives.mapM {f : β → Loading α} (hf : ∀ b, Gives (f b) P) (bs : List β) :
    Gives (bs.mapM f) fun as => ∀ a ∈ as, P a := by
  induction bs with
  | nil =>
    rw [List.mapM_nil]
    exact .pure (by simp)
  | cons b bs ih =>
    rw [List.mapM_cons]
    refine (hf b).bind fun a ha => ih.bind fun as has => .pure ?_
    exact List.forall_mem_cons.2 ⟨ha, has⟩

theorem Gives.foldlM {f : α → β → Loading α} (hf : ∀ a b, P a → Gives (f a b) P) (bs : List β)
    {a : α} (ha : P a) : Gives (bs.foldlM f a) P := by
  induction bs generalizing a with
  | nil => exact .pure ha
  | cons b bs ih =>
    rw [List.foldlM_cons]
    exact (hf a b ha).bind fun a' ha' => ih ha'

end Gives

/-! ### Scalars -/

/-- What scalars are read as. -/
inductive IsScalar : Value → Prop
  /-- The null value. -/
  | null : IsScalar .null
  /-- A truth value. -/
  | bool (b : Bool) : IsScalar (.bool b)
  /-- An integer. -/
  | int (n : Int) : IsScalar (.int n)
  /-- A double. -/
  | float {x : Binary64} (h : x.IsDouble) : IsScalar (.float x)
  /-- A text. -/
  | text (t : Text) : IsScalar (.text t)

section Scalar

variable {t : Text} {v : Value}

theorem isDouble_of_finite {x : Binary64} (h : float?.finite t = some x) : x.IsDouble :=
  Binary64.isDouble_of_ofText? (Option.filter_eq_some_iff.1 h).1

/-- What a scalar spells is a double: one that a decimal rounds to, or one that is not finite. -/
theorem isDouble_of_float? {x : Binary64} (h : float? t = some x) : x.IsDouble := by
  unfold float? at h
  dsimp only at h
  split at h
  · cases h
    trivial
  split at h
  · split at h
    · cases h
      trivial
    · exact isDouble_of_finite h
  · split at h
    · cases h
      trivial
    split at h
    · cases h
    · exact isDouble_of_finite h
  · split at h
    · cases h
      trivial
    · exact isDouble_of_finite h

theorem isDouble_of_resolveNumber {x : Binary64} (h : resolveNumber t = .float x) :
    x.IsDouble := by
  unfold resolveNumber at h
  split_ifs at h
  split at h
  · next hx =>
    cases h
    exact isDouble_of_float? hx
  · cases h

theorem isDouble_of_resolve {x : Binary64} (h : resolve t = .float x) : x.IsDouble := by
  unfold resolve at h
  split_ifs at h
  split at h
  · cases h
  · split at h
    · split_ifs at h
      exact isDouble_of_resolveNumber h
    · exact isDouble_of_resolveNumber h

theorem isScalar_of_plainValue? (h : plainValue? t = some v) : IsScalar v := by
  unfold plainValue? at h
  cases hr : resolve t with
  | null => rw [hr] at h; cases h; exact .null
  | bool b => rw [hr] at h; cases h; exact .bool b
  | int n => rw [hr] at h; cases h; exact .int n
  | wide => rw [hr] at h; cases h
  | float x => rw [hr] at h; cases h; exact .float (isDouble_of_resolve hr)
  | text => rw [hr] at h; cases h; exact .text t

theorem isScalar_of_untaggedValue? {plain : Bool} (h : untaggedValue? plain t = some v) :
    IsScalar v := by
  unfold untaggedValue? at h
  split at h
  · exact isScalar_of_plainValue? h
  · cases h
    exact .text t

theorem isScalar_of_coreValue? {kind : Text} (h : coreValue? kind t = some v) : IsScalar v := by
  unfold coreValue? at h
  split at h
  · obtain ⟨b, -, rfl⟩ := Option.map_eq_some_iff.1 h
    exact .bool b
  · split at h
    · obtain ⟨n, -, h⟩ := Option.bind_eq_some_iff.1 h
      split at h
      · cases h
        exact .int n
      · cases h
    · split at h
      · obtain ⟨x, hx, rfl⟩ := Option.map_eq_some_iff.1 h
        exact .float (isDouble_of_float? hx)
      · split at h
        · split at h
          · cases h
            exact .null
          · cases h
        · cases h
          exact .text t

/-- **A scalar is read as null, a truth value, an integer, a double or a text.** -/
theorem isScalar_of_scalarValue? {ps : Properties} {plain : Bool}
    (h : scalarValue? ps plain t = some v) : IsScalar v := by
  unfold scalarValue? at h
  split at h
  · exact isScalar_of_untaggedValue? h
  · split at h
    · exact isScalar_of_untaggedValue? h
    · split at h
      · split at h
        · exact isScalar_of_coreValue? h
        · cases h
          exact .text t
      · cases h
        exact .text t

end Scalar

/-! ### Values -/

/-- A property that scalars have, and that values have if their parts do. -/
structure LoadClosed (P : Value → Prop) : Prop where
  /-- Scalars have it. -/
  scalar : ∀ {v}, IsScalar v → P v
  /-- A sequence has it if its items do. -/
  sequence : ∀ {vs}, (∀ v ∈ vs, P v) → P (.sequence vs)
  /-- The empty mapping has it. -/
  empty : P (.mapping [])
  /-- A mapping keeps it when an entry with a new key is put in. -/
  entry : ∀ {m m' k v}, P (.mapping m) → P k → P v → addNew? m k v = some m' → P (.mapping m')
  /-- A tagged value has it if its content does. -/
  tagged : ∀ {t v}, P v → P (.tagged t v)

section LoadClosed

variable {P : Value → Prop}

/-- A tag of an application that is put around a value keeps the property. -/
theorem LoadClosed.gives_tagged (h : LoadClosed P) (tag : Option Text) (content : Value)
    (hcontent : P content) :
    Gives (match tag with
      | some name => pure (.tagged name content)
      | none => pure content) P := by
  cases tag with
  | some name => exact .pure (h.tagged hcontent)
  | none => exact .pure hcontent

variable {anchors : Anchors} {limit depth : Nat}

/-- The entries of a mapping are put in one after the other. -/
theorem LoadClosed.gives_entries (h : LoadClosed P)
    (hload : ∀ node, Gives (load? anchors limit depth node) P)
    (entries : List (Node Nat × Node Nat)) :
    Gives (entries.foldlM (fun m e => do
      let k ← load? anchors limit depth e.1
      let v ← load? anchors limit depth e.2
      StateT.lift (addNew? m k v)) []) fun m => P (.mapping m) := by
  refine Gives.foldlM ?_ entries h.empty
  intro m e hm
  refine (hload e.1).bind fun k hk => (hload e.2).bind fun v hv => .lift fun m' hm' => ?_
  exact h.entry hm hk hv hm'

/-- A value has the property if all values that are less deep have it. -/
theorem LoadClosed.gives_load?_of_below (h : LoadClosed P)
    (hbelow : ∀ below, depth = below + 1 → ∀ node, Gives (load? anchors limit below node) P)
    (node : Node Nat) : Gives (load? anchors limit depth node) P := by
  unfold load?
  refine Gives.trivial.bind fun target _ => ?_
  have htagged := h.gives_tagged (target.properties.tag.bind ownTag?)
  cases target with
  | scalar ps plain t =>
    have hscalar : Gives (StateT.lift (scalarValue? ps plain t)) P :=
      .lift fun v hv => h.scalar (isScalar_of_scalarValue? hv)
    exact hscalar.bind htagged
  | sequence ps items =>
    cases depth with
    | zero => exact Gives.failure.bind htagged
    | succ below =>
      have hitems := Gives.mapM (hbelow below rfl) items
      exact (hitems.map fun vs hvs => h.sequence hvs).bind htagged
  | mapping ps entries =>
    cases depth with
    | zero => exact Gives.failure.bind htagged
    | succ below =>
      have hentries := h.gives_entries (hbelow below rfl) entries
      exact (hentries.map fun m hm => hm).bind htagged
  | «alias» number => exact Gives.failure.bind htagged

theorem LoadClosed.gives_load? (h : LoadClosed P) (anchors : Anchors) (limit depth : Nat)
    (node : Node Nat) : Gives (load? anchors limit depth node) P := by
  induction depth generalizing node with
  | zero =>
    apply h.gives_load?_of_below
    intro below he
    cases he
  | succ depth ih =>
    apply h.gives_load?_of_below
    intro below he
    cases he
    exact ih

/-- **Values that are read have every property that they have if their parts do.** -/
theorem LoadClosed.of_read? (h : LoadClosed P) {t : Text} {v : Value} (hv : read? t = some v) :
    P v := by
  unfold read? at hv
  obtain ⟨o, -, hv⟩ := Option.bind_eq_some_iff.1 hv
  cases o with
  | none => cases hv; exact h.scalar .null
  | some node =>
    obtain ⟨l, -, hv⟩ := Option.bind_eq_some_iff.1 hv
    obtain ⟨⟨w, n⟩, hrun, hv⟩ := Option.bind_eq_some_iff.1 hv
    cases hv
    exact h.gives_load? _ _ _ _ _ _ _ hrun

end LoadClosed

end Yaml

end MarkdownWeave
