import Mathlib.Data.Set.Card
import Mathlib.Logic.Relation
import MarkdownWeave.Proofs.Inheritance.Ascent
import MarkdownWeave.Proofs.Transclusion.Expansion

/-!
# Guards and termination

Both recursions follow paths that are read from documents on the way, so nothing in their arguments
gets smaller.  What bounds them is the guard: a path is put on it only if it is not there already,
and only if it is written in a document.  Paths are compared as they are written, so two spellings
of one place count as two.

## Main definitions

* `Guard.Along paths g` — the guard has only paths of a set on it, and none of them twice.
* `Resolver.parentPaths`, `Resolver.referencePaths` — the paths written in a document and in those
  that a resolver supplies.
* `Resolver.Endless` — the way up from a document never comes to an end.

## Main results

* `Inherits.calls_along`, `Expands.calls_along` — every guard that is handed down keeps to the
  paths that are written.
* `Inherits.circular_of_endless` — an endless way up is found out.
* `recursions_terminate` — **both recursions come to an end, with guards that never repeat a path
  and are no longer than there are paths.**
-/

namespace MarkdownWeave

open Relation

/-! ### Guards along paths -/

/-- A guard with only paths of a set on it, and none of them twice. -/
structure Guard.Along (paths : Set Text) (g : Guard) : Prop where
  /-- No path is on the guard twice. -/
  nodup : g.chain.Nodup
  /-- All paths on it are in the set. -/
  mem : ∀ p ∈ g.chain, p ∈ paths

section Along

variable {paths : Set Text} {g : Guard}

theorem Guard.along_empty : Guard.empty.Along paths := ⟨List.nodup_nil, by simp [Guard.empty]⟩

theorem Guard.Along.extend (h : g.Along paths) {path : Text} (hp : path ∈ paths)
    (hg : path ∉ g.chain) : (g.extend path).Along paths := by
  refine ⟨Guard.nodup_extend h.nodup hg, ?_⟩
  intro q hq
  rcases Guard.mem_extend.1 hq with hq | rfl
  · exact h.mem q hq
  · exact hp

/-- A guard that does not repeat itself is no longer than there are paths. -/
theorem Guard.Along.depth_le (h : g.Along paths) (hf : paths.Finite) : g.depth ≤ paths.ncard := by
  have hsub : (g.chain.toFinset : Set Text) ⊆ paths := by
    intro p hp
    exact h.mem p (List.mem_toFinset.1 (Finset.mem_coe.1 hp))
  calc g.depth = g.chain.toFinset.card := (List.toFinset_card_of_nodup h.nodup).symm
    _ = (g.chain.toFinset : Set Text).ncard := (Set.ncard_coe_finset _).symm
    _ ≤ paths.ncard := Set.ncard_le_ncard hsub hf

end Along

/-! ### The paths that are written -/

/-- The paths that a document, or one that the resolver supplies, names as its parent. -/
def Resolver.parentPaths (r : Resolver) (d : Document) : Set Text :=
  {p | d.parent? = .ok (some p) ∨ ∃ q e, r.Supplies q e ∧ e.parent? = .ok (some p)}

/-- The paths that a document, or one that the resolver supplies, refers to. -/
def Resolver.referencePaths (r : Resolver) (d : Document) : Set Text :=
  {p | p ∈ d.references ∨ ∃ q e, r.Supplies q e ∧ p ∈ e.references}

theorem Resolver.finite_parentPaths (r : Resolver) (d : Document) : (r.parentPaths d).Finite := by
  refine (List.finite_toSet (d.parent?.toOption.join.toList ++ r.parents)).subset ?_
  rintro p (hp | ⟨q, e, he, hp⟩)
  · exact List.mem_append_left _ (by rw [hp]; exact List.mem_singleton_self p)
  · exact List.mem_append_right _ (Resolver.mem_parents he.mem_documents hp)

theorem Resolver.finite_referencePaths (r : Resolver) (d : Document) :
    (r.referencePaths d).Finite := by
  refine (List.finite_toSet (d.references ++ r.references)).subset ?_
  rintro p (hp | ⟨q, e, he, hp⟩)
  · exact List.mem_append_left _ hp
  · exact List.mem_append_right _ (List.mem_flatMap.2 ⟨e, he.mem_documents, hp⟩)

/-! ### What is handed down -/

/-- **Every guard that inheritance hands down keeps to the paths that are written.** -/
theorem Inherits.calls_along {r : Resolver} {paths : Set Text} {g : Guard} {d : Document}
    {x : Traced Document} {calls : List Guard} (h : Inherits r g d x calls)
    (hr : ∀ q e p, r.Supplies q e → e.parent? = .ok (some p) → p ∈ paths)
    (hd : ∀ p, d.parent? = .ok (some p) → p ∈ paths) (hg : g.Along paths) :
    ∀ c ∈ calls, c.Along paths := by
  induction h with
  | top _ | invalid _ | circular _ _ | missing _ _ _ | malformed _ _ _ _ => simp
  | parent hp hm he _ ih =>
    have hext := hg.extend (hd _ hp) hm
    exact List.forall_mem_cons.2 ⟨hext, ih (fun p => hr _ _ p he) hext⟩

/-- **Every guard that transclusion hands down keeps to the paths that are written.** -/
theorem Expands.calls_along {r : Resolver} {paths : Set Text} {g : Guard} {lines : List Text}
    {x : Traced (List Text)} {calls : List Guard} (h : Expands r g lines x calls)
    (hr : ∀ q e, r.Supplies q e → ∀ p ∈ e.references, p ∈ paths)
    (hl : ∀ p ∈ referencedPaths lines, p ∈ paths) (hg : g.Along paths) :
    ∀ c ∈ calls, c.Along paths := by
  induction h with
  | nil => simp
  | plain hline _ ih =>
    rw [referencedPaths_plain hline] at hl
    exact ih hl hg
  | circular _ _ => simp
  | missing hline _ _ _ ih =>
    rw [referencedPaths_reference hline, List.forall_mem_cons] at hl
    exact ih hl.2 hg
  | malformed _ _ _ _ => simp
  | broken hline hm hd _ _ ih =>
    rw [referencedPaths_reference hline, List.forall_mem_cons] at hl
    have hext := hg.extend hl.1 hm
    exact List.forall_mem_cons.2 ⟨hext, ih (hr _ _ hd) hext⟩
  | included hline hm hd _ _ _ ihi ih =>
    rw [referencedPaths_reference hline, List.forall_mem_cons] at hl
    have hext := hg.extend hl.1 hm
    -- the lines below the reference are expanded under the guard as it was
    rw [List.cons_append, List.forall_mem_cons, List.forall_mem_append]
    exact ⟨hext, ihi (hr _ _ hd) hext, ih hl.2 hg⟩

/-! ### Ways up that do not end -/

/-- The second document is supplied at the path that the first one names as its parent. -/
def Resolver.Above (r : Resolver) (d e : Document) : Prop :=
  ∃ p, d.parent? = .ok (some p) ∧ r.Supplies p e

/-- Every document on the way up names a parent that is there and can be read. -/
def Resolver.Endless (r : Resolver) (d : Document) : Prop :=
  ∀ e, ReflTransGen r.Above d e → ∃ e', r.Above e e'

theorem Resolver.Endless.above {r : Resolver} {d e : Document} (h : r.Endless d)
    (he : r.Above d e) : r.Endless e :=
  fun e' he' => h e' (he'.head he)

/-- A document whose way up does not end has a parent, and that is there and can be read. -/
theorem Resolver.Endless.exists_parent {r : Resolver} {d : Document} (h : r.Endless d) :
    ∃ p e, d.parent? = .ok (some p) ∧ r.Supplies p e := by
  obtain ⟨e, p, hp, he⟩ := h d .refl
  exact ⟨p, e, hp, he⟩

theorem Resolver.Endless.supplies {r : Resolver} {d : Document} {p : Text} (h : r.Endless d)
    (hp : d.parent? = .ok (some p)) : ∃ e, r.Supplies p e := by
  obtain ⟨q, e, hq, he⟩ := h.exists_parent
  rw [hp] at hq
  cases hq
  exact ⟨e, he⟩

/-- **An endless way up is found out**: nothing else can go wrong on it. -/
theorem Inherits.circular_of_endless {r : Resolver} {g : Guard} {d : Document}
    {x : Traced Document} {calls : List Guard} (h : Inherits r g d x calls) (hd : r.Endless d) :
    ∃ path chain, x.outcome = .error (.circularReference path chain) ∧ path ∈ chain := by
  induction h with
  | top hp | invalid hp =>
    obtain ⟨p, e, hp', -⟩ := hd.exists_parent
    rw [hp] at hp'
    cases hp'
  | @circular g d path hp hg => exact ⟨path, g.chain, rfl, hg⟩
  | missing hp _ ha =>
    obtain ⟨e, t, ht, -⟩ := hd.supplies hp
    rw [ha] at ht
    cases ht
  | malformed hp _ ha hm =>
    obtain ⟨e, t, ht, he⟩ := hd.supplies hp
    obtain rfl := Except.ok.inj (ha.symm.trans ht)
    rw [hm] at he
    cases he
  | parent hp _ he _ ih =>
    -- a failure above the document is what it fails with itself: nothing is merged
    obtain ⟨path, chain, hx, hm⟩ := ih (hd.above ⟨_, hp, he⟩)
    exact ⟨path, chain, by rw [hx]; rfl, hm⟩

/-! ### Termination -/

/-- **Both recursions come to an end** on every document, whatever cycles there are: each run is a
finite derivation, in which no guard that is handed down has a path on it twice or is longer than
there are different paths written.  A way up that never comes to a document without a parent ends
with the failure for cycles.  The document is any, so it may have had variables put over it. -/
theorem recursions_terminate (r : Resolver) (d : Document) :
    (∃ calls, Inherits r .empty d (inherit r d .empty) calls ∧
        ∀ g ∈ calls, g.chain.Nodup ∧ g.depth ≤ (r.parentPaths d).ncard) ∧
      (∃ x calls, Expands r .empty (Text.lines d.body) x calls ∧
        transclude r d .empty = (x >>= fun ls => pure ⟨d.metadata, Text.unlines ls⟩) ∧
        ∀ g ∈ calls, g.chain.Nodup ∧ g.depth ≤ (r.referencePaths d).ncard) ∧
      (r.Endless d → ∃ path chain,
        (inherit r d .empty).outcome = .error (.circularReference path chain)) := by
  obtain ⟨calls, hi⟩ := inherits_inherit r .empty d
  obtain ⟨inner, ht⟩ := expands_transcludeLines r .empty (Text.lines d.body)
  have hup : ∀ g ∈ calls, g.Along (r.parentPaths d) :=
    hi.calls_along (fun q e p he hp => Or.inr ⟨q, e, he, hp⟩) (fun p hp => Or.inl hp)
      Guard.along_empty
  have hin : ∀ g ∈ inner, g.Along (r.referencePaths d) :=
    ht.calls_along (fun q e he p hp => Or.inr ⟨q, e, he, hp⟩) (fun p hp => Or.inl hp)
      Guard.along_empty
  refine ⟨⟨calls, hi, ?_⟩, ⟨_, inner, ht, rfl, ?_⟩, ?_⟩
  · intro g hg
    exact ⟨(hup g hg).nodup, (hup g hg).depth_le (r.finite_parentPaths d)⟩
  · intro g hg
    exact ⟨(hin g hg).nodup, (hin g hg).depth_le (r.finite_referencePaths d)⟩
  · intro hend
    obtain ⟨path, chain, hx, -⟩ := hi.circular_of_endless hend
    exact ⟨path, chain, hx⟩

/-- Two documents that name each other as their parents. -/
def twinResolver : Resolver :=
  .ofAnswers [("a", .ok "---\nextends: b\n---\nA"), ("b", .ok "---\nextends: a\n---\nB")]

/-- The way up from a child of the first of them does not end, and fails. -/
theorem inherit_twin_circular :
    twinResolver.Endless ⟨[(.text extendsKey, .text "a")], "x"⟩ ∧ ∃ path chain,
      (inherit twinResolver ⟨[(.text extendsKey, .text "a")], "x"⟩ .empty).outcome =
        .error (.circularReference path chain) := by
  have hread : ∀ t p : Text,
      (Document.parse t).toOption.bind (fun e => e.parent?.toOption.join) = some p →
        ∃ e, Document.parse t = .ok e ∧ e.parent? = .ok (some p) := by
    intro t p h
    cases hd : Document.parse t with
    | error f => rw [hd] at h; cases h
    | ok e =>
      rw [hd] at h
      cases hp : e.parent? with
      | error f => simp [Except.toOption, hp] at h
      | ok o =>
        have ho : o = some p := by simpa [Except.toOption, hp] using h
        exact ⟨e, rfl, by rw [hp, ho]⟩
  obtain ⟨a, hda, hpa⟩ := hread "---\nextends: b\n---\nA" "b" (by decide +kernel)
  obtain ⟨b, hdb, hpb⟩ := hread "---\nextends: a\n---\nB" "a" (by decide +kernel)
  have ha : twinResolver.Supplies "a" a := ⟨_, rfl, hda⟩
  have hb : twinResolver.Supplies "b" b := ⟨_, rfl, hdb⟩
  have hend : twinResolver.Endless ⟨[(.text extendsKey, .text "a")], "x"⟩ := by
    intro e he
    -- the parent of every document on the way is one of the two
    have hparent : e.parent? = .ok (some "a".toList) ∨ e.parent? = .ok (some "b".toList) := by
      induction he with
      | refl => exact Or.inl rfl
      | tail _ hstep ih =>
        obtain ⟨p, hp, hs⟩ := hstep
        rcases ih with h | h
        · cases h.symm.trans hp
          exact Or.inr (ha.unique hs ▸ hpa)
        · cases h.symm.trans hp
          exact Or.inl (hb.unique hs ▸ hpb)
    rcases hparent with h | h
    · exact ⟨a, _, h, ha⟩
    · exact ⟨b, _, h, hb⟩
  exact ⟨hend, (recursions_terminate twinResolver _).2.2 hend⟩

end MarkdownWeave
