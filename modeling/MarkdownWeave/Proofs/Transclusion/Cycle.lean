import Mathlib.Data.List.Chain
import Mathlib.Logic.Relation
import MarkdownWeave.Proofs.Transclusion.Expansion

/-!
# Cycles of references

The documents of a resolver are the vertices of a graph, with an edge for every line that refers to
a document.  The guard that transclusion carries is the path in this graph that it has come along,
so it refuses exactly the documents that would close a cycle.

## Main definitions

* `Resolver.Refers` — the edges of the graph.
* `Resolver.Reachable` — the paths that can be come to from a document.
* `ClosedTrail` — a walk from a document that ends where it has been before.

## Main results

* `Expands.trail` — **soundness**: what a failure reports is a walk along references.
* `not_cycle_of_succeeds` — **completeness**: below a success there is no cycle.
* `transclude_fails_iff_cycle` — transclusion fails exactly if a cycle can be reached, and what it
  reports then is a closed trail.
-/

namespace MarkdownWeave

open Relation

/-! ### The graph of references -/

/-- The document at one path refers to another path. -/
def Resolver.Refers (r : Resolver) (p q : Text) : Prop := ∃ d, r.Supplies p d ∧ q ∈ d.references

/-- A path that a document refers to, or that can be come to from there. -/
def Resolver.Reachable (r : Resolver) (d : Document) (q : Text) : Prop :=
  ∃ p ∈ d.references, ReflTransGen r.Refers p q

/-- Every answer reads as a document. -/
def Resolver.Readable (r : Resolver) : Prop :=
  ∀ path t, r.answer path = .ok t → ∃ d, Document.parse t = .ok d

/-- The paths of a list follow one another along references, and the first is among `starts`. -/
structure Trail (r : Resolver) (starts : List Text) (ps : List Text) : Prop where
  /-- Where it begins. -/
  head : ∃ p ∈ starts, ps.head? = some p
  /-- Each path is referred to by the document at the one before. -/
  links : ps.IsChain r.Refers

/-- The report of a cycle: a walk from a document along `chain`, without repeats, and a reference
back to a path on it. -/
structure ClosedTrail (r : Resolver) (d : Document) (path : Text) (chain : List Text) : Prop where
  /-- No path occurs twice. -/
  nodup : chain.Nodup
  /-- The document refers to the first path. -/
  head : ∃ p ∈ d.references, chain.head? = some p
  /-- Each path is referred to by the document at the one before. -/
  links : chain.IsChain r.Refers
  /-- The document at the last path refers to `path`. -/
  last : ∃ p, chain.getLast? = some p ∧ r.Refers p path
  /-- That is where the walk has been before. -/
  closed : path ∈ chain

/-! ### Walks -/

section Walks

variable {r : Resolver} {starts : List Text}

/-- More places to start from. -/
theorem Trail.mono {starts' ps : List Text} (h : Trail r starts ps) (hs : starts ⊆ starts') :
    Trail r starts' ps := by
  obtain ⟨p, hp, hhead⟩ := h.head
  exact ⟨⟨p, hs hp, hhead⟩, h.links⟩

/-- A walk from a document, with the path of that document before it. -/
theorem Trail.cons {p : Text} {d : Document} {ps : List Text} (hp : p ∈ starts)
    (hd : r.Supplies p d) (h : Trail r d.references ps) : Trail r starts (p :: ps) := by
  refine ⟨⟨p, hp, rfl⟩, h.links.cons ?_⟩
  intro q hq
  obtain ⟨q', hq', hhead⟩ := h.head
  rw [hhead, Option.mem_some_iff] at hq
  exact ⟨d, hd, hq ▸ hq'⟩

/-- A walk that comes back to a place where it has been goes round a cycle. -/
theorem Trail.cycle {more : List Text} {path : Text} (h : Trail r starts (more ++ [path]))
    (hm : path ∈ more) :
    ∃ p ∈ starts, ReflTransGen r.Refers p path ∧ TransGen r.Refers path path := by
  have hpair : (more ++ [path]).Pairwise (TransGen r.Refers) :=
    List.isChain_iff_pairwise.1 (h.links.imp fun _ _ => TransGen.single)
  have hall : ∀ q ∈ more, TransGen r.Refers q path := by
    intro q hq
    exact (List.pairwise_append.1 hpair).2.2 q hq path (List.mem_singleton_self path)
  obtain ⟨p, hp, hhead⟩ := h.head
  refine ⟨p, hp, ?_, hall path hm⟩
  -- the walk begins on the trail itself, since it has at least the one path it comes back to
  have hpm : p ∈ more := by
    cases more with
    | nil => cases hm
    | cons q more => simp_all
  exact (hall p hpm).to_reflTransGen

end Walks

/-! ### Soundness -/

section Soundness

variable {r : Resolver} {g : Guard} {lines : List Text} {x : Traced (List Text)}
variable {calls : List Guard}

/-- **What a failure reports is a walk along references.**  It goes on from the guard, without
repeats, up to a document that refers back to a path that is on the guard or on the walk. -/
theorem Expands.trail (hr : r.Readable) (h : Expands r g lines x calls) {f : Failure}
    (hf : x.outcome = .error f) :
    ∃ path more, f = .circularReference path (g.chain ++ more) ∧ path ∈ g.chain ++ more ∧
      (g.chain.Nodup → (g.chain ++ more).Nodup) ∧
      Trail r (referencedPaths lines) (more ++ [path]) := by
  -- the walk gets longer on the way out of the recursion, one path for every document
  induction h generalizing f with
  | nil => cases hf
  | plain hl _ ih =>
    rw [referencedPaths_plain hl]
    exact ih (Traced.error_of_map hf)
  | @circular g line lines ref hl hg =>
    refine ⟨ref.path, [], ?_, by simpa using hg, by simp, ?_⟩
    · rw [List.append_nil]
      exact (Except.error.inj hf).symm
    · rw [referencedPaths_reference hl]
      exact ⟨⟨ref.path, List.mem_cons_self, rfl⟩, List.isChain_singleton _⟩
  | missing hl _ _ _ ih =>
    obtain ⟨path, more, he, hm, hn, ht⟩ := ih (Traced.error_of_map hf)
    rw [referencedPaths_reference hl]
    exact ⟨path, more, he, hm, hn, ht.mono (List.subset_cons_self _ _)⟩
  | malformed _ _ ha hd =>
    obtain ⟨d, hd'⟩ := hr _ _ ha
    rw [hd] at hd'
    cases hd'
  | @broken g line lines ref d f' y calls hl hg hd _ hy ih =>
    obtain ⟨path, more, he, hm, hn, ht⟩ := ih hy
    -- the walk that the document reports begins behind its own path, which is on the guard by then
    have happ : (g.extend ref.path).chain ++ more = g.chain ++ ref.path :: more := by
      simp [Guard.extend]
    rw [happ] at he hm hn
    refine ⟨path, ref.path :: more, ?_, hm, fun hgn => hn (Guard.nodup_extend hgn hg), ?_⟩
    · rw [← he]
      exact (Except.error.inj hf).symm
    · rw [referencedPaths_reference hl, List.cons_append]
      exact ht.cons List.mem_cons_self hd
  | included hl _ _ _ _ _ _ ih =>
    obtain ⟨path, more, he, hm, hn, ht⟩ := ih (Traced.error_of_map hf)
    rw [referencedPaths_reference hl]
    exact ⟨path, more, he, hm, hn, ht.mono (List.subset_cons_self _ _)⟩

end Soundness

/-! ### Completeness -/

/-- The lines expand without an error. -/
def Succeeds (r : Resolver) (g : Guard) (lines : List Text) : Prop :=
  ∃ ls, (transcludeLines r g lines).outcome = .ok ls

section Completeness

variable {r : Resolver} {g : Guard} {lines : List Text}

/-- Lines that expand refer to no path on the guard, and only to documents that expand under the
guard with their own path. -/
theorem Expands.succeeds_of_mem {x : Traced (List Text)} {calls : List Guard}
    (h : Expands r g lines x calls) {ls : List Text} (hx : x.outcome = .ok ls) :
    ∀ p ∈ referencedPaths lines, p ∉ g.chain ∧
      ∀ d, r.Supplies p d → Succeeds r (g.extend p) (Text.lines d.body) := by
  induction h generalizing ls with
  | nil => simp [referencedPaths]
  | plain hl _ ih =>
    obtain ⟨rest, hrest, -⟩ := Traced.ok_of_map hx
    rw [referencedPaths_plain hl]
    exact ih hrest
  | circular _ _ => cases hx
  | missing hl hg ha _ ih =>
    obtain ⟨rest, hrest, -⟩ := Traced.ok_of_map hx
    rw [referencedPaths_reference hl, List.forall_mem_cons]
    refine ⟨⟨hg, ?_⟩, ih hrest⟩
    rintro d ⟨t, ht, -⟩
    rw [ha] at ht
    cases ht
  | malformed _ _ _ _ => cases hx
  | broken _ _ _ _ _ _ => cases hx
  | included hl hg hd hinner hy _ _ ih =>
    obtain ⟨rest, hrest, -⟩ := Traced.ok_of_map hx
    rw [referencedPaths_reference hl, List.forall_mem_cons]
    refine ⟨⟨hg, ?_⟩, ih hrest⟩
    intro d hd'
    obtain rfl := hd.unique hd'
    exact ⟨_, hinner.eq_transcludeLines.symm ▸ hy⟩

theorem Succeeds.of_mem (h : Succeeds r g lines) {p : Text} (hp : p ∈ referencedPaths lines) :
    p ∉ g.chain ∧ ∀ d, r.Supplies p d → Succeeds r (g.extend p) (Text.lines d.body) := by
  obtain ⟨ls, hls⟩ := h
  obtain ⟨calls, he⟩ := expands_transcludeLines r g lines
  exact he.succeeds_of_mem hls p hp

/-- Every path that can be come to is referred to by lines that expand under a longer guard. -/
theorem Succeeds.reach {p q : Text} (h : Succeeds r g lines) (hp : p ∈ referencedPaths lines)
    (hpq : ReflTransGen r.Refers p q) :
    ∃ g' lines', g.chain ⊆ g'.chain ∧ Succeeds r g' lines' ∧ q ∈ referencedPaths lines' := by
  induction hpq using ReflTransGen.head_induction_on generalizing g lines with
  | refl => exact ⟨g, lines, List.Subset.refl _, h, hp⟩
  | @head p c hpc _ ih =>
    obtain ⟨d, hd, hc⟩ := hpc
    obtain ⟨g', lines', hsub, hs, hq⟩ := ih ((h.of_mem hp).2 d hd) hc
    refine ⟨g', lines', fun a ha => hsub ?_, hs, hq⟩
    exact Guard.mem_extend.2 (Or.inl ha)

/-- **Below a success there is no cycle.** -/
theorem not_cycle_of_succeeds {p : Text} (h : Succeeds r g lines) (hp : p ∈ referencedPaths lines) :
    ¬ TransGen r.Refers p p := by
  intro hcycle
  obtain ⟨c, ⟨d, hd, hc⟩, hback⟩ := TransGen.head'_iff.1 hcycle
  obtain ⟨g', lines', hsub, hs, hp'⟩ := ((h.of_mem hp).2 d hd).reach hc hback
  -- back at `p`, the guard has had `p` on it since it was first followed
  exact (hs.of_mem hp').1 (hsub (Guard.mem_extend.2 (Or.inr rfl)))

end Completeness

/-! ### Cycles and failures -/

/-- A trail from a document that comes back to a place where it has been is the report of a
cycle. -/
theorem Trail.closedTrail {r : Resolver} {d : Document} {path : Text} {chain : List Text}
    (h : Trail r d.references (chain ++ [path])) (hn : chain.Nodup) (hm : path ∈ chain) :
    ClosedTrail r d path chain := by
  have hne : chain ≠ [] := List.ne_nil_of_mem hm
  refine ⟨hn, ?_, h.links.left_of_append, ?_, hm⟩
  · obtain ⟨p, hp, hhead⟩ := h.head
    rw [List.head?_append_of_ne_nil _ hne] at hhead
    exact ⟨p, hp, hhead⟩
  · refine ⟨chain.getLast hne, List.getLast?_eq_some_getLast hne, ?_⟩
    exact (List.isChain_append.1 h.links).2.2 _ (List.getLast?_eq_some_getLast hne) _ rfl

/-- **Transclusion fails exactly if a cycle of references can be reached**, and what it reports
then is a closed trail.  So a document that is referred to more than once, or a reference without
an answer, is never the cause of a failure. -/
theorem transclude_fails_iff_cycle (r : Resolver) (hr : r.Readable) (d : Document) :
    ((∃ f, (transclude r d .empty).outcome = .error f) ↔
      ∃ q, r.Reachable d q ∧ TransGen r.Refers q q) ∧
    ∀ f, (transclude r d .empty).outcome = .error f →
      ∃ path chain, f = .circularReference path chain ∧ ClosedTrail r d path chain := by
  obtain ⟨calls, he⟩ := expands_transcludeLines r .empty (Text.lines d.body)
  have hreport : ∀ f, (transclude r d .empty).outcome = .error f → ∃ path chain,
      f = .circularReference path chain ∧ chain.Nodup ∧ path ∈ chain ∧
        Trail r d.references (chain ++ [path]) := by
    intro f hf
    rw [transclude_outcome] at hf
    obtain ⟨path, chain, hfe, hm, hn, ht⟩ := he.trail hr (Traced.error_of_map hf)
    exact ⟨path, chain, hfe, hn List.nodup_nil, hm, ht⟩
  refine ⟨⟨?_, ?_⟩, ?_⟩
  · rintro ⟨f, hf⟩
    obtain ⟨path, chain, -, -, hm, ht⟩ := hreport f hf
    obtain ⟨p, hp, hreach, hcycle⟩ := ht.cycle hm
    exact ⟨path, ⟨p, hp, hreach⟩, hcycle⟩
  · rintro ⟨q, ⟨p, hp, hpq⟩, hcycle⟩
    cases ho : (transclude r d .empty).outcome with
    | error f => exact ⟨f, rfl⟩
    | ok d' =>
      rw [transclude_outcome] at ho
      obtain ⟨ls, hls, -⟩ := Traced.ok_of_map ho
      have hs : Succeeds r .empty (Text.lines d.body) := ⟨ls, hls⟩
      obtain ⟨g', lines', -, hs', hq⟩ := hs.reach hp hpq
      exact absurd hcycle (not_cycle_of_succeeds hs' hq)
  · intro f hf
    obtain ⟨path, chain, hfe, hn, hm, ht⟩ := hreport f hf
    exact ⟨path, chain, hfe, ht.closedTrail hn hm⟩

/-- Three documents, of which the last two refer to each other; there is none at `gone`. -/
def ringResolver : Resolver :=
  .ofAnswers [("a", .ok "A\n@gone\n@b"), ("b", .ok "@c\n@c"), ("c", .ok "  @b\r")]

/-- A document that refers to the first of them comes to the ring. -/
theorem transclude_ring_closedTrail :
    ringResolver.Readable ∧ ∃ path chain,
      (transclude ringResolver ⟨[], "x\n@gone\n @a"⟩ .empty).outcome =
        .error (.circularReference path chain) ∧
      ClosedTrail ringResolver ⟨[], "x\n@gone\n @a"⟩ path chain := by
  have hr : ringResolver.Readable := by
    intro path t ht
    have hm : t ∈ ringResolver.texts := ringResolver.answer_mem ht
    have hcases : t = "A\n@gone\n@b".toList ∨ t = "@c\n@c".toList ∨ t = "  @b\r".toList := by
      simpa [ringResolver, Resolver.ofAnswers, Except.toOption] using hm
    rcases hcases with rfl | rfl | rfl
    · exact ⟨_, rfl⟩
    · exact ⟨_, rfl⟩
    · exact ⟨_, rfl⟩
  have hab : ringResolver.Refers "a" "b" := ⟨⟨[], "A\n@gone\n@b"⟩, ⟨_, rfl, rfl⟩, by decide⟩
  have hbc : ringResolver.Refers "b" "c" := ⟨⟨[], "@c\n@c"⟩, ⟨_, rfl, rfl⟩, by decide⟩
  have hcb : ringResolver.Refers "c" "b" := ⟨⟨[], "  @b\r"⟩, ⟨_, rfl, rfl⟩, by decide⟩
  obtain ⟨hiff, hreport⟩ := transclude_fails_iff_cycle ringResolver hr ⟨[], "x\n@gone\n @a"⟩
  obtain ⟨f, hf⟩ := hiff.2 ⟨"b", ⟨"a", by decide, .single hab⟩, .tail (.single hbc) hcb⟩
  obtain ⟨path, chain, rfl, ht⟩ := hreport f hf
  exact ⟨hr, path, chain, hf, ht⟩

end MarkdownWeave
