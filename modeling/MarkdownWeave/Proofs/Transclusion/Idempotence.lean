import MarkdownWeave.Proofs.Transclusion.Expansion
import MarkdownWeave.Proofs.Transclusion.Splicing

/-!
# Transclusion is closed and idempotent

After transclusion the only references that are left are those without an answer, and a second
transclusion leaves everything as it is.  The lines of a document that is included have been
settled under a longer guard; splicing them does not change what they refer to, so they are settled
under the guard of the line that they replace.

## Main definitions

* `Settled r g line` — transclusion under the guard `g` has nothing to do at a line.

## Main results

* `Expands.settled` — every line that comes out of an expansion is settled.
* `transcludeLines_of_settled` — settled lines come to themselves.
* `transclude_closed_idempotent` — **transclusion is closed and idempotent.**
-/

namespace MarkdownWeave

/-- Transclusion has nothing to do at a line: if it refers to a path, then to one that may be
followed but has no answer. -/
def Settled (r : Resolver) (g : Guard) (line : Text) : Prop :=
  ∀ p, Reference.pathOf? line = some p → p ∉ g.chain ∧ ∃ f, r.answer p = .error f

section Settled

variable {r : Resolver} {g : Guard}

theorem Settled.of_plain {line : Text} (hl : Reference.ofLine? line = none) : Settled r g line := by
  intro p hp
  rw [Reference.pathOf?_eq_none.2 hl] at hp
  cases hp

theorem Settled.of_missing {line : Text} {ref : Reference} {f : Failure}
    (hl : Reference.ofLine? line = some ref) (hg : ref.path ∉ g.chain)
    (ha : r.answer ref.path = .error f) : Settled r g line := by
  intro p hp
  rw [Reference.pathOf?_of_ofLine? hl] at hp
  obtain rfl := Option.some.inj hp
  exact ⟨hg, f, ha⟩

/-- What is settled under a longer guard is settled under a shorter one. -/
theorem Settled.of_extend {path line : Text} (h : Settled r (g.extend path) line) :
    Settled r g line := by
  intro p hp
  obtain ⟨hg, ha⟩ := h p hp
  exact ⟨fun hm => hg (Guard.mem_extend.2 (Or.inl hm)), ha⟩

/-- A settled line is settled wherever it is spliced in. -/
theorem Settled.spliceLine {indent line : Text} (h : Settled r g line)
    (hi : ∀ c ∈ indent, Text.isBlank c = true) (cr : Bool) :
    Settled r g (spliceLine indent cr line) := by
  intro p hp
  rw [pathOf?_spliceLine hi] at hp
  exact h p hp

/-! ### What comes out of an expansion -/

/-- An expansion of lines, if there are any, has lines. -/
theorem Expands.ne_nil {lines : List Text} {x : Traced (List Text)} {calls : List Guard}
    (h : Expands r g lines x calls) {ls : List Text} (hx : x.outcome = .ok ls)
    (hne : lines ≠ []) : ls ≠ [] := by
  cases h with
  | nil => exact absurd rfl hne
  | plain _ _ | missing _ _ _ _ =>
    obtain ⟨rest, -, rfl⟩ := Traced.ok_of_map hx
    simp
  | circular _ _ | malformed _ _ _ _ | broken _ _ _ _ _ => cases hx
  | included _ _ _ _ _ _ =>
    obtain ⟨rest, -, rfl⟩ := Traced.ok_of_map hx
    simp [Reference.splice, splice, Text.lines_ne_nil]

/-- **Every line that comes out of an expansion is a settled line.** -/
theorem Expands.settled {lines : List Text} {x : Traced (List Text)} {calls : List Guard}
    (h : Expands r g lines x calls) (hlf : ∀ line ∈ lines, '\n' ∉ line) {ls : List Text}
    (hx : x.outcome = .ok ls) : ∀ line ∈ ls, '\n' ∉ line ∧ Settled r g line := by
  induction h generalizing ls with
  | nil => cases hx; simp
  | plain hl _ ih =>
    obtain ⟨rest, hrest, rfl⟩ := Traced.ok_of_map hx
    obtain ⟨hline, hlines⟩ := List.forall_mem_cons.1 hlf
    exact List.forall_mem_cons.2 ⟨⟨hline, .of_plain hl⟩, ih hlines hrest⟩
  | circular _ _ => cases hx
  | missing hl hg ha _ ih =>
    obtain ⟨rest, hrest, rfl⟩ := Traced.ok_of_map hx
    obtain ⟨hline, hlines⟩ := List.forall_mem_cons.1 hlf
    exact List.forall_mem_cons.2 ⟨⟨hline, .of_missing hl hg ha⟩, ih hlines hrest⟩
  | malformed _ _ _ _ => cases hx
  | broken _ _ _ _ _ _ => cases hx
  | @included g line lines ref d inner x y calls later hl hg hd hinner hy _ ihi ih =>
    obtain ⟨rest, hrest, rfl⟩ := Traced.ok_of_map hx
    obtain ⟨hline, hlines⟩ := List.forall_mem_cons.1 hlf
    have hin : ∀ l ∈ inner, '\n' ∉ l ∧ Settled r (g.extend ref.path) l :=
      ihi (fun l hl => Text.not_mem_of_mem_lines hl) hy
    -- what is spliced in is the text of the inner lines, and that has the same lines again
    have hcut : Text.lines (Text.unlines inner) = inner :=
      Text.lines_unlines (hinner.ne_nil hy (Text.lines_ne_nil _)) fun l hl => (hin l hl).1
    intro l hl'
    rcases List.mem_append.1 hl' with hl' | hl'
    · -- a line of the document that is put in
      rw [Reference.splice, splice, hcut] at hl'
      obtain ⟨k, hk, rfl⟩ := List.mem_map.1 hl'
      refine ⟨not_mem_spliceLine ?_ (hin k hk).1 _, ?_⟩
      · exact fun hm => hline (Reference.mem_of_mem_indent hl hm)
      · exact (hin k hk).2.of_extend.spliceLine (Reference.isBlank_of_mem_indent hl) _
    · exact ih hlines hrest l hl'

/-- What lines come to is lines again: a text of them is cut into the same lines. -/
theorem Expands.lines_unlines {lines : List Text} {x : Traced (List Text)} {calls : List Guard}
    (h : Expands r g lines x calls) (hne : lines ≠ []) (hlf : ∀ line ∈ lines, '\n' ∉ line)
    {ls : List Text} (hx : x.outcome = .ok ls) : Text.lines (Text.unlines ls) = ls := by
  have hset := h.settled hlf hx
  exact Text.lines_unlines (h.ne_nil hx hne) fun line hl => (hset line hl).1

/-- **Settled lines come to themselves.** -/
theorem transcludeLines_of_settled : ∀ ls : List Text, (∀ line ∈ ls, Settled r g line) →
    (transcludeLines r g ls).outcome = .ok ls := by
  intro ls
  induction ls with
  | nil => intro _; rw [transcludeLines_nil]; rfl
  | cons line ls ih =>
    intro h
    obtain ⟨hline, hls⟩ := List.forall_mem_cons.1 h
    cases hl : Reference.ofLine? line with
    | none => rw [transcludeLines_plain hl, ih hls]; rfl
    | some ref =>
      obtain ⟨hg, f, ha⟩ := hline ref.path (Reference.pathOf?_of_ofLine? hl)
      rw [transcludeLines_reference hl hg, expandReference_of_missing ha, prepend_bind, ih hls]
      rfl

end Settled

/-- **Transclusion is closed and idempotent**: the references that are left have no answer, and a
second transclusion under the same guard gives the same document. -/
theorem transclude_closed_idempotent (r : Resolver) (d d' : Document) (g : Guard)
    (h : (transclude r d g).outcome = .ok d') :
    (∀ line ∈ Text.lines d'.body, ∀ ref, Reference.ofLine? line = some ref →
        ∃ f, r.answer ref.path = .error f) ∧
      (transclude r d' g).outcome = .ok d' := by
  rw [transclude_outcome] at h
  obtain ⟨ls, hls, rfl⟩ := Traced.ok_of_map h
  obtain ⟨calls, he⟩ := expands_transcludeLines r g (Text.lines d.body)
  have hset : ∀ line ∈ ls, '\n' ∉ line ∧ Settled r g line :=
    he.settled (fun line hl => Text.not_mem_of_mem_lines hl) hls
  have hcut : Text.lines (Text.unlines ls) = ls :=
    Text.lines_unlines (he.ne_nil hls (Text.lines_ne_nil _)) fun line hl => (hset line hl).1
  refine ⟨?_, ?_⟩
  · intro line hm ref hl
    rw [hcut] at hm
    exact ((hset line hm).2 ref.path (Reference.pathOf?_of_ofLine? hl)).2
  · rw [transclude_outcome, hcut, transcludeLines_of_settled ls fun line hl => (hset line hl).2]
    rfl

/-- Documents that refer to one another and to a path without an answer. -/
def nestedResolver : Resolver :=
  .ofAnswers [("a", .ok "x\n @b\r\n@gone \t\n"), ("b", .ok "b1\n\n\t@gone\n"), ("c", .ok [])]

/-- What becomes of references to them, one of them with a carriage return at its end. -/
def nestedExpanded : Document :=
  ⟨[], "  x\r\n   b1\r\n\r\n   \t@gone\r\n\r\n  @gone \t\r\n\r\n\nfoo"⟩

/-- The references to `gone` are left, one of them two documents deep, and a second transclusion
changes nothing. -/
theorem transclude_nestedExpanded :
    (transclude nestedResolver ⟨[], "  @a\r\n@c\nfoo"⟩ .empty).outcome = .ok nestedExpanded ∧
      (∀ line ∈ Text.lines nestedExpanded.body, ∀ ref, Reference.ofLine? line = some ref →
        ∃ f, nestedResolver.answer ref.path = .error f) ∧
      (transclude nestedResolver nestedExpanded .empty).outcome = .ok nestedExpanded := by
  have h : (transclude nestedResolver ⟨[], "  @a\r\n@c\nfoo"⟩ .empty).outcome =
      .ok nestedExpanded := by
    rw [transclude_outcome, outcome_of_expandWithin 12 (o := .ok (Text.lines nestedExpanded.body))
      (by rfl)]
    rfl
  exact ⟨h, transclude_closed_idempotent _ _ _ _ h⟩

end MarkdownWeave
