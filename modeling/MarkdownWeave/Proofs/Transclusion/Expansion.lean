import MarkdownWeave.Compile.Transclusion

/-!
# Expansions

`transcludeLines` goes through lines from top to bottom, and into every document that a line refers
to.  Here each of its runs is a derivation: what happens at the first line, followed by the
expansions that this leads to, of the document that was fetched and of the lines that are left.
The derivation keeps a record of the guards that are handed down, so that a law about all calls of
the recursion is a law about that record.

## Main definitions

* `Expands r g lines x calls` — under the guard `g`, the lines come to `x`, and `calls` are the
  guards that are handed down on the way.
* `expandWithin` — derivations computed, up to a given depth.

## Main results

* `expands_transcludeLines` — every run of `transcludeLines` is a finite derivation.
* `Expands.eq_transcludeLines` — a derivation ends with what `transcludeLines` gives.
-/

namespace MarkdownWeave

/-! ### What becomes of one reference -/

/-- The events at a reference whose path has an answer: the request, and the notice. -/
def includingEvents (path : Text) (depth : Nat) : List Event :=
  [.fetch path, .notice .debug (includingNotice path depth)]

/-- The events at a reference whose path has no answer: the request, and the warning. -/
def unresolvedEvents (path : Text) (f : Failure) : List Event :=
  [.fetch path, .notice .warning (unresolvedWarning path f)]

/-- The lines that a document becomes in place of the line that refers to it. -/
def Reference.splice (ref : Reference) (line : Text) (inner : List Text) : List Text :=
  MarkdownWeave.splice ref.indent (Text.endsWith '\r' line) (Text.unlines inner)

section Reference

variable {r : Resolver} {line : Text} {ref : Reference} {depth : Nat}
variable {expand : r.Stored → Traced (List Text)}

theorem expandReference_of_missing {f : Failure} (ha : r.answer ref.path = .error f) :
    expandReference r line ref depth expand = ⟨.ok [line], unresolvedEvents ref.path f⟩ := by
  unfold expandReference Resolver.tryFetch
  rw [Resolver.supply_of_error ha]
  rfl

theorem expandReference_of_malformed {t : Text} {f : Failure} (ha : r.answer ref.path = .ok t)
    (hd : Document.parse t = .error f) :
    expandReference r line ref depth expand = ⟨.error f, includingEvents ref.path depth⟩ := by
  unfold expandReference Resolver.tryFetch
  rw [Resolver.supply_of_ok ha, Traced.bind_of_ok rfl]
  simp only [Traced.debug, Traced.event_bind, Resolver.document_of_error hd (r.answer_mem ha)]
  rfl

theorem expandReference_of_supplies {d : Document} (h : r.Supplies ref.path d) :
    expandReference r line ref depth expand =
      ⟨(expand ⟨d, h.mem_documents⟩).outcome.map (ref.splice line),
        includingEvents ref.path depth ++ (expand ⟨d, h.mem_documents⟩).events⟩ := by
  have hm : d ∈ r.documents := h.mem_documents
  obtain ⟨t, ha, hd⟩ := h
  unfold expandReference Resolver.tryFetch
  rw [Resolver.supply_of_ok ha, Traced.bind_of_ok rfl]
  simp only [Traced.debug, Traced.event_bind, Resolver.document_of_ok hd (r.answer_mem ha) hm]
  change (⟨(expand ⟨d, hm⟩ >>= _).outcome, [.fetch ref.path] ++ _ :: (expand ⟨d, hm⟩ >>= _).events⟩ :
    Traced (List Text)) = _
  cases hx : (expand ⟨d, hm⟩).outcome with
  | error f =>
    rw [Traced.bind_of_error hx]
    rfl
  | ok inner =>
    rw [Traced.bind_of_ok hx, Traced.pure_eq]
    simp [Traced.done, includingEvents, Except.map, Reference.splice]

end Reference

/-! ### Derivations -/

/-- Under the guard, the lines come to a result, and the guards of the last argument are handed down
on the way, in order.  A failure is final: the lines below it are not looked at. -/
inductive Expands (r : Resolver) : Guard → List Text → Traced (List Text) → List Guard → Prop
  /-- Without lines there is nothing to do. -/
  | nil {g : Guard} : Expands r g [] (.done []) []
  /-- A line that is no reference stays. -/
  | plain {g : Guard} {line : Text} {lines : List Text} {x : Traced (List Text)}
      {calls : List Guard} (hl : Reference.ofLine? line = none) (rest : Expands r g lines x calls) :
      Expands r g (line :: lines) ⟨x.outcome.map ([line] ++ ·), x.events⟩ calls
  /-- A path on the guard must not be followed, and is not even asked for. -/
  | circular {g : Guard} {line : Text} {lines : List Text} {ref : Reference}
      (hl : Reference.ofLine? line = some ref) (hg : ref.path ∈ g.chain) :
      Expands r g (line :: lines) (.fail (.circularReference ref.path g.chain)) []
  /-- A reference whose path has no answer stays. -/
  | missing {g : Guard} {line : Text} {lines : List Text} {ref : Reference} {f : Failure}
      {x : Traced (List Text)} {calls : List Guard} (hl : Reference.ofLine? line = some ref)
      (hg : ref.path ∉ g.chain) (ha : r.answer ref.path = .error f)
      (rest : Expands r g lines x calls) :
      Expands r g (line :: lines)
        ⟨x.outcome.map ([line] ++ ·), unresolvedEvents ref.path f ++ x.events⟩ calls
  /-- An answer that is no document is an error. -/
  | malformed {g : Guard} {line : Text} {lines : List Text} {ref : Reference} {t : Text}
      {f : Failure} (hl : Reference.ofLine? line = some ref) (hg : ref.path ∉ g.chain)
      (ha : r.answer ref.path = .ok t) (hd : Document.parse t = .error f) :
      Expands r g (line :: lines) ⟨.error f, includingEvents ref.path g.depth⟩ []
  /-- An error in a document that is referred to is an error. -/
  | broken {g : Guard} {line : Text} {lines : List Text} {ref : Reference} {d : Document}
      {f : Failure} {y : Traced (List Text)} {calls : List Guard}
      (hl : Reference.ofLine? line = some ref) (hg : ref.path ∉ g.chain)
      (hd : r.Supplies ref.path d)
      (inner : Expands r (g.extend ref.path) (Text.lines d.body) y calls)
      (hy : y.outcome = .error f) :
      Expands r g (line :: lines) ⟨.error f, includingEvents ref.path g.depth ++ y.events⟩
        (g.extend ref.path :: calls)
  /-- A document that expands takes the place of the line that refers to it. -/
  | included {g : Guard} {line : Text} {lines : List Text} {ref : Reference} {d : Document}
      {ls : List Text} {x y : Traced (List Text)} {calls later : List Guard}
      (hl : Reference.ofLine? line = some ref) (hg : ref.path ∉ g.chain)
      (hd : r.Supplies ref.path d)
      (inner : Expands r (g.extend ref.path) (Text.lines d.body) y calls)
      (hy : y.outcome = .ok ls) (rest : Expands r g lines x later) :
      Expands r g (line :: lines)
        ⟨x.outcome.map (ref.splice line ls ++ ·),
          includingEvents ref.path g.depth ++ y.events ++ x.events⟩
        (g.extend ref.path :: calls ++ later)

section Agreement

variable {r : Resolver} {g : Guard} {line : Text} {ref : Reference}

theorem transcludeLines_nil : transcludeLines r g [] = .done [] := by
  rw [transcludeLines]

theorem transcludeLines_plain (hl : Reference.ofLine? line = none) (lines : List Text) :
    transcludeLines r g (line :: lines) =
      ⟨(transcludeLines r g lines).outcome.map ([line] ++ ·), (transcludeLines r g lines).events⟩ := by
  rw [transcludeLines]
  split
  · cases hx : (transcludeLines r g lines).outcome with
    | error f => rw [Traced.bind_of_error hx]; rfl
    | ok rest => rw [Traced.bind_of_ok hx]; simp [Traced.done, Except.map]
  · next hl' => rw [hl] at hl'; cases hl'

theorem transcludeLines_circular (hl : Reference.ofLine? line = some ref) (hg : ref.path ∈ g.chain)
    (lines : List Text) :
    transcludeLines r g (line :: lines) = .fail (.circularReference ref.path g.chain) := by
  rw [transcludeLines]
  split
  · next hl' => rw [hl] at hl'; cases hl'
  · next ref' hl' =>
    obtain rfl := Option.some.inj (hl.symm.trans hl')
    split
    · next f hf =>
      rw [Guard.check_of_mem hg] at hf
      cases hf
      rfl
    · next hf => exact absurd hg (Guard.check_eq_ok.1 hf)

/-- At a reference that may be followed, what the reference becomes is put before the rest. -/
theorem transcludeLines_reference (hl : Reference.ofLine? line = some ref)
    (hg : ref.path ∉ g.chain) (lines : List Text) :
    transcludeLines r g (line :: lines) =
      (expandReference r line ref g.depth fun d =>
          transcludeLines r (g.extend ref.path) (Text.lines d.1.body)) >>= fun first =>
        transcludeLines r g lines >>= fun rest => pure (first ++ rest) := by
  rw [transcludeLines]
  split
  · next hl' => rw [hl] at hl'; cases hl'
  · next ref' hl' =>
    obtain rfl := Option.some.inj (hl.symm.trans hl')
    split
    · next f hf => exact absurd (Guard.mem_of_check hf) hg
    · rfl

/-- Putting lines that are known before the outcome of the rest. -/
theorem prepend_bind {first : List Text} {events : List Event} (x : Traced (List Text)) :
    ((⟨.ok first, events⟩ : Traced (List Text)) >>= fun first =>
        x >>= fun rest => pure (first ++ rest)) =
      ⟨x.outcome.map (first ++ ·), events ++ x.events⟩ := by
  rw [Traced.bind_of_ok rfl]
  cases hx : x.outcome with
  | error f => rw [Traced.bind_of_error hx]; rfl
  | ok rest => rw [Traced.bind_of_ok hx]; simp [Traced.done, Except.map]

/-- A derivation ends with what `transcludeLines` gives. -/
theorem Expands.eq_transcludeLines {lines : List Text} {x : Traced (List Text)}
    {calls : List Guard} (h : Expands r g lines x calls) : transcludeLines r g lines = x := by
  induction h with
  | nil => exact transcludeLines_nil
  | plain hl _ ih => rw [transcludeLines_plain hl, ih]
  | circular hl hg => rw [transcludeLines_circular hl hg]
  | missing hl hg ha _ ih =>
    rw [transcludeLines_reference hl hg, expandReference_of_missing ha, prepend_bind, ih]
  | malformed hl hg ha hd =>
    rw [transcludeLines_reference hl hg, expandReference_of_malformed ha hd]
    rfl
  | broken hl hg hd _ hy ih =>
    rw [transcludeLines_reference hl hg, expandReference_of_supplies hd, ih, hy]
    rfl
  | included hl hg hd _ hy _ ih ihr =>
    rw [transcludeLines_reference hl hg, expandReference_of_supplies hd, ih, hy, Except.map,
      prepend_bind, ihr]

/-- **Every run of `transcludeLines` is a finite derivation.** -/
theorem expands_transcludeLines (r : Resolver) : ∀ (g : Guard) (lines : List Text),
    ∃ calls, Expands r g lines (transcludeLines r g lines) calls := by
  -- the result is left open here, so that the rules of the derivation can fill it in
  have key : ∀ (g : Guard) (lines : List Text), ∃ x calls, Expands r g lines x calls := by
    intro g lines
    induction g, lines using transcludeLines.induct r with
    | case1 g => exact ⟨_, _, .nil⟩
    | case2 g line lines hl ih =>
      obtain ⟨x, calls, h⟩ := ih
      exact ⟨_, _, .plain hl h⟩
    | case3 g line lines ref hl f hg => exact ⟨_, _, .circular hl (Guard.mem_of_check hg)⟩
    | case4 g line lines ref hl hg ihd ih =>
      have hg' : ref.path ∉ g.chain := Guard.check_eq_ok.1 hg
      -- `ih` is about the lines that are left, though a failure here stops the run before them
      obtain ⟨x, later, h⟩ := ih
      cases ha : r.answer ref.path with
      | error f => exact ⟨_, _, .missing hl hg' ha h⟩
      | ok t =>
        cases hd : Document.parse t with
        | error f => exact ⟨_, _, .malformed hl hg' ha hd⟩
        | ok d =>
          have hs : r.Supplies ref.path d := ⟨t, ha, hd⟩
          obtain ⟨y, calls, hi⟩ := ihd ⟨d, hs.mem_documents⟩
          cases hy : y.outcome with
          | error f => exact ⟨_, _, .broken hl hg' hs hi hy⟩
          | ok ls => exact ⟨_, _, .included hl hg' hs hi hy h⟩
  intro g lines
  obtain ⟨x, calls, h⟩ := key g lines
  exact ⟨calls, h.eq_transcludeLines.symm ▸ h⟩

theorem transclude_outcome (r : Resolver) (d : Document) (g : Guard) :
    (transclude r d g).outcome =
      (transcludeLines r g (Text.lines d.body)).outcome.map fun ls => ⟨d.metadata, Text.unlines ls⟩ := by
  rw [transclude, Traced.outcome_bind]
  cases (transcludeLines r g (Text.lines d.body)).outcome <;> rfl

theorem transclude_events (r : Resolver) (d : Document) (g : Guard) :
    (transclude r d g).events = (transcludeLines r g (Text.lines d.body)).events := by
  rw [transclude]
  cases hx : (transcludeLines r g (Text.lines d.body)).outcome with
  | error f => rw [Traced.bind_of_error hx]
  | ok ls =>
    rw [Traced.bind_of_ok hx]
    exact List.append_nil _

end Agreement

/-! ### Computing derivations -/

/-- The derivation for some lines, if `n` steps are enough for each way down into it. -/
def expandWithin (r : Resolver) :
    Nat → Guard → List Text → Option (Traced (List Text) × List Guard)
  | 0, _, _ => none
  | _ + 1, _, [] => some (.done [], [])
  | n + 1, g, line :: lines =>
    match Reference.ofLine? line with
    | none =>
      (expandWithin r n g lines).map fun (x, calls) =>
        (⟨x.outcome.map ([line] ++ ·), x.events⟩, calls)
    | some ref =>
      if ref.path ∈ g.chain then some (.fail (.circularReference ref.path g.chain), [])
      else
        match r.answer ref.path with
        | .error f =>
          (expandWithin r n g lines).map fun (x, calls) =>
            (⟨x.outcome.map ([line] ++ ·), unresolvedEvents ref.path f ++ x.events⟩, calls)
        | .ok t =>
          match Document.parse t with
          | .error f => some (⟨.error f, includingEvents ref.path g.depth⟩, [])
          | .ok d =>
            (expandWithin r n (g.extend ref.path) (Text.lines d.body)).bind fun (y, calls) =>
              match y.outcome with
              | .error f =>
                some (⟨.error f, includingEvents ref.path g.depth ++ y.events⟩,
                  g.extend ref.path :: calls)
              | .ok ls =>
                (expandWithin r n g lines).map fun (x, later) =>
                  (⟨x.outcome.map (ref.splice line ls ++ ·),
                    includingEvents ref.path g.depth ++ y.events ++ x.events⟩,
                    g.extend ref.path :: calls ++ later)

/-- What is computed is a derivation. -/
theorem expands_of_expandWithin {r : Resolver} : ∀ (n : Nat) (g : Guard) (lines : List Text)
    (x : Traced (List Text)) (calls : List Guard),
    expandWithin r n g lines = some (x, calls) → Expands r g lines x calls := by
  intro n
  induction n with
  | zero => intro g lines x calls h; cases h
  | succ n ih =>
    intro g lines x calls h
    cases lines with
    | nil => cases h; exact .nil
    | cons line lines =>
      rw [expandWithin] at h
      split at h
      · next hl =>
        obtain ⟨⟨y, later⟩, hy, he⟩ := Option.map_eq_some_iff.1 h
        cases he
        exact .plain hl (ih _ _ _ _ hy)
      · next ref hl =>
        split at h
        · next hg => cases h; exact .circular hl hg
        · next hg =>
          split at h
          · next f ha =>
            obtain ⟨⟨y, later⟩, hy, he⟩ := Option.map_eq_some_iff.1 h
            cases he
            exact .missing hl hg ha (ih _ _ _ _ hy)
          · next t ha =>
            split at h
            · next f hd => cases h; exact .malformed hl hg ha hd
            · next d hd =>
              obtain ⟨⟨y, inner⟩, hy, h⟩ := Option.bind_eq_some_iff.1 h
              dsimp only at h
              split at h
              · next f hf => cases h; exact .broken hl hg ⟨t, ha, hd⟩ (ih _ _ _ _ hy) hf
              · next ls hls =>
                obtain ⟨⟨z, later⟩, hz, he⟩ := Option.map_eq_some_iff.1 h
                cases he
                exact .included hl hg ⟨t, ha, hd⟩ (ih _ _ _ _ hy) hls (ih _ _ _ _ hz)

/-- What lines come to can be computed. -/
theorem outcome_of_expandWithin {r : Resolver} {g : Guard} {lines : List Text} (n : Nat)
    {o : Except Failure (List Text)}
    (h : (expandWithin r n g lines).map (fun p => p.1.outcome) = some o) :
    (transcludeLines r g lines).outcome = o := by
  obtain ⟨⟨x, calls⟩, hx, rfl⟩ := Option.map_eq_some_iff.1 h
  rw [(expands_of_expandWithin n g lines x calls hx).eq_transcludeLines]

/-! ### The paths that lines refer to -/

/-- The paths that a document refers to. -/
def Document.references (d : Document) : List Text := referencedPaths (Text.lines d.body)

theorem referencedPaths_plain {line : Text} (hl : Reference.ofLine? line = none)
    (lines : List Text) : referencedPaths (line :: lines) = referencedPaths lines := by
  simp [referencedPaths, hl]

theorem referencedPaths_reference {line : Text} {ref : Reference}
    (hl : Reference.ofLine? line = some ref) (lines : List Text) :
    referencedPaths (line :: lines) = ref.path :: referencedPaths lines := by
  simp [referencedPaths, hl]

end MarkdownWeave
