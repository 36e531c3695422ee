import MarkdownWeave.Proofs.Transclusion.Cycle
import MarkdownWeave.Proofs.Transclusion.Idempotence

/-!
# What an expansion depends on

Each line expands by itself, whatever stands above and below it.  The guard decides whether an
expansion fails, but not what it comes to if it does not; and only those paths of the guard count
that the lines lead to.

From this a line that refers to a document comes to the same as the lines of that document in its
place: inside of the document its own path is on the guard, but if the lines led back to it, they
would go round a cycle in either case.

## Main definitions

* `Resolver.LeadsTo` — the paths that are met below some lines.
* `Reference.IsPath` — the paths that a line can refer to.

## Main results

* `transcludeLines_append` — lines expand one by one.
* `Expands.under` — **the guard does not change what lines come to.**
* `transcludeLines_at_ok_iff` — **a reference comes to what the document comes to.**
-/

namespace MarkdownWeave

open Relation

/-! ### One line after the other -/

section Lines

variable {r : Resolver} {g : Guard}

theorem transcludeLines_cons (line : Text) (lines : List Text) :
    transcludeLines r g (line :: lines) =
      transcludeLines r g [line] >>= fun first =>
        transcludeLines r g lines >>= fun rest => pure (first ++ rest) := by
  cases hl : Reference.ofLine? line with
  | none =>
    have halone : transcludeLines r g [line] = ⟨.ok [line], []⟩ := by
      rw [transcludeLines_plain hl, transcludeLines_nil]
      rfl
    rw [halone, prepend_bind, transcludeLines_plain hl]
    rfl
  | some ref =>
    by_cases hg : ref.path ∈ g.chain
    · rw [transcludeLines_circular hl hg, transcludeLines_circular hl hg, Traced.fail_bind]
    · have halone : transcludeLines r g [line] = expandReference r line ref g.depth fun d =>
          transcludeLines r (g.extend ref.path) (Text.lines d.1.body) := by
        rw [transcludeLines_reference hl hg, transcludeLines_nil]
        simp [Traced.bind_done]
      rw [halone, transcludeLines_reference hl hg]

/-- **Lines expand one by one**, those above before those below. -/
theorem transcludeLines_append (above below : List Text) :
    transcludeLines r g (above ++ below) =
      transcludeLines r g above >>= fun first =>
        transcludeLines r g below >>= fun rest => pure (first ++ rest) := by
  induction above with
  | nil =>
    rw [transcludeLines_nil]
    simp [Traced.bind_done]
  | cons line above ih =>
    rw [List.cons_append, transcludeLines_cons, transcludeLines_cons line above, ih]
    simp [bind_assoc]

theorem transcludeLines_append_ok_iff {above below ls : List Text} :
    (transcludeLines r g (above ++ below)).outcome = .ok ls ↔
      ∃ first rest, (transcludeLines r g above).outcome = .ok first ∧
        (transcludeLines r g below).outcome = .ok rest ∧ ls = first ++ rest := by
  rw [transcludeLines_append, Traced.outcome_bind_eq_ok]
  constructor
  · rintro ⟨first, hfirst, h⟩
    obtain ⟨rest, hrest, h⟩ := Traced.outcome_bind_eq_ok.1 h
    exact ⟨first, rest, hfirst, hrest, (Except.ok.inj h).symm⟩
  · rintro ⟨first, rest, hfirst, hrest, rfl⟩
    exact ⟨first, hfirst, Traced.outcome_bind_eq_ok.2 ⟨rest, hrest, rfl⟩⟩

end Lines

/-! ### Another guard -/

/-- A path that the lines refer to, or that can be come to from there. -/
def Resolver.LeadsTo (r : Resolver) (lines : List Text) (q : Text) : Prop :=
  ∃ p ∈ referencedPaths lines, ReflTransGen r.Refers p q

section Guard

variable {r : Resolver} {line : Text} {lines : List Text} {q : Text}

theorem Resolver.LeadsTo.cons (h : r.LeadsTo lines q) : r.LeadsTo (line :: lines) q := by
  obtain ⟨p, hp, hpq⟩ := h
  cases hl : Reference.ofLine? line with
  | none => exact ⟨p, by rwa [referencedPaths_plain hl], hpq⟩
  | some ref =>
    exact ⟨p, by rw [referencedPaths_reference hl]; exact List.mem_cons_of_mem _ hp, hpq⟩

theorem Resolver.leadsTo_path {ref : Reference} (hl : Reference.ofLine? line = some ref) :
    r.LeadsTo (line :: lines) ref.path := by
  refine ⟨ref.path, ?_, .refl⟩
  rw [referencedPaths_reference hl]
  exact List.mem_cons_self

/-- What the document leads to, the line leads to that refers to it. -/
theorem Resolver.LeadsTo.of_document {ref : Reference} {d : Document}
    (hl : Reference.ofLine? line = some ref) (hd : r.Supplies ref.path d)
    (h : r.LeadsTo (Text.lines d.body) q) : r.LeadsTo (line :: lines) q := by
  obtain ⟨p, hp, hpq⟩ := h
  refine ⟨ref.path, ?_, .head ⟨d, hd, hp⟩ hpq⟩
  rw [referencedPaths_reference hl]
  exact List.mem_cons_self

/-- **The guard does not change what lines come to**, nor what is asked for and what is warned of.
Under another guard they come to the same, if it holds no more of the paths that they lead to. -/
theorem Expands.under {g g' : Guard} {x : Traced (List Text)} {calls : List Guard}
    (h : Expands r g lines x calls) {ls : List Text} (hx : x.outcome = .ok ls)
    (hsub : ∀ q, r.LeadsTo lines q → q ∈ g'.chain → q ∈ g.chain) :
    ∃ x' calls', Expands r g' lines x' calls' ∧ x'.outcome = .ok ls ∧ x'.fetched = x.fetched ∧
      x'.warnings = x.warnings := by
  induction h generalizing g' ls with
  | nil => exact ⟨_, _, .nil, hx, rfl, rfl⟩
  | plain hl _ ih =>
    obtain ⟨rest, hrest, rfl⟩ := Traced.ok_of_map hx
    obtain ⟨x', calls', h', hx', hf, hw⟩ := ih hrest fun q hq => hsub q hq.cons
    exact ⟨_, _, .plain hl h', by rw [hx']; rfl, hf, hw⟩
  | circular _ _ => cases hx
  | missing hl hg ha _ ih =>
    obtain ⟨rest, hrest, rfl⟩ := Traced.ok_of_map hx
    obtain ⟨x', calls', h', hx', hf, hw⟩ := ih hrest fun q hq => hsub q hq.cons
    have hg' : _ ∉ g'.chain := fun hm => hg (hsub _ (Resolver.leadsTo_path hl) hm)
    refine ⟨_, _, .missing hl hg' ha h', by rw [hx']; rfl, ?_, ?_⟩
    · simp only [Traced.fetched, List.filterMap_append] at hf ⊢
      rw [hf]
    · simp only [Traced.warnings, List.filterMap_append] at hw ⊢
      rw [hw]
  | malformed _ _ _ _ => cases hx
  | broken _ _ _ _ _ _ => cases hx
  | @included g line lines ref d inner x y calls later hl hg hd _ hy _ ihi ih =>
    obtain ⟨rest, hrest, rfl⟩ := Traced.ok_of_map hx
    obtain ⟨x', later', h', hx', hf, hw⟩ := ih hrest fun q hq => hsub q hq.cons
    have hg' : ref.path ∉ g'.chain := fun hm => hg (hsub _ (Resolver.leadsTo_path hl) hm)
    -- the guards of the document differ as these do, since both get the same path
    have hsubi : ∀ q, r.LeadsTo (Text.lines d.body) q → q ∈ (g'.extend ref.path).chain →
        q ∈ (g.extend ref.path).chain := by
      intro q hq hm
      rw [Guard.mem_extend] at hm ⊢
      exact hm.imp_left (hsub q (hq.of_document hl hd))
    obtain ⟨y', calls', hi', hy', hfi, hwi⟩ := ihi hy hsubi
    refine ⟨_, _, .included hl hg' hd hi' hy' h', by rw [hx']; rfl, ?_, ?_⟩
    · simp only [Traced.fetched, List.filterMap_append] at hf hfi ⊢
      rw [hf, hfi]
      rfl
    · simp only [Traced.warnings, List.filterMap_append] at hw hwi ⊢
      rw [hw, hwi]
      rfl

theorem transcludeLines_ok_under {g g' : Guard} {ls : List Text}
    (h : (transcludeLines r g lines).outcome = .ok ls)
    (hsub : ∀ q, r.LeadsTo lines q → q ∈ g'.chain → q ∈ g.chain) :
    (transcludeLines r g' lines).outcome = .ok ls := by
  obtain ⟨calls, he⟩ := expands_transcludeLines r g lines
  obtain ⟨x', calls', he', hx', -, -⟩ := he.under h hsub
  rw [he'.eq_transcludeLines, hx']

/-- A document whose lines expand does not lead back to its own path. -/
theorem not_leadsTo_of_succeeds {g : Guard} {p : Text} {d : Document} (hd : r.Supplies p d)
    (h : Succeeds r g (Text.lines d.body)) : ¬ r.LeadsTo (Text.lines d.body) p := by
  rintro ⟨q, hq, hqp⟩
  have hpq : r.Refers p q := ⟨d, hd, hq⟩
  exact not_cycle_of_succeeds h hq (.tail' hqp hpq)

end Guard

/-! ### A document in place of the reference to it -/

/-- A path that a line can refer to. -/
structure Reference.IsPath (p : Text) : Prop where
  /-- There is at least one character. -/
  ne_nil : p ≠ []
  /-- All characters may stand in a path. -/
  chars : ∀ c ∈ p, isPathChar c = true

section Reference

variable {p : Text}

theorem Reference.IsPath.not_mem_lf (h : IsPath p) : '\n' ∉ '@' :: p := by
  intro hm
  rcases List.mem_cons.1 hm with hm | hm
  · exact absurd hm (by decide)
  · exact absurd (h.chars _ hm) (by decide)

theorem Reference.IsPath.endsWith_cr (h : IsPath p) : Text.endsWith '\r' ('@' :: p) = false := by
  have hne : ('@' :: p).getLast? ≠ some '\r' := by
    intro hlast
    rcases List.mem_cons.1 (List.mem_of_getLast? hlast) with hm | hm
    · exact absurd hm (by decide)
    · exact absurd (h.chars _ hm) (by decide)
  simpa [Text.endsWith] using hne

/-- An at sign and a path are a reference, at the margin. -/
theorem Reference.IsPath.ofLine? (h : IsPath p) : Reference.ofLine? ('@' :: p) = some ⟨[], p⟩ := by
  have hat : Text.isBlank '@' = false := rfl
  have htake : p.takeWhile isPathChar = p := List.takeWhile_eq_self_iff.2 h.chars
  have hdrop : p.dropWhile isPathChar = [] := List.dropWhile_eq_nil_iff.2 h.chars
  simp [Reference.ofLine?, hat, htake, hdrop, h.ne_nil]

variable {r : Resolver} {g : Guard}

theorem transcludeLines_at_of_malformed (hp : Reference.IsPath p) (hg : p ∉ g.chain) {t : Text}
    {f : Failure} (ha : r.answer p = .ok t) (hd : Document.parse t = .error f) :
    (transcludeLines r g ['@' :: p]).outcome = .error f := by
  have he : Expands r g ['@' :: p] _ _ := .malformed hp.ofLine? hg ha hd
  rw [he.eq_transcludeLines]

/-- At the margin the lines of a document come in the place of a reference as they are. -/
theorem transcludeLines_at_outcome (hp : Reference.IsPath p) (hg : p ∉ g.chain) {d : Document}
    (hd : r.Supplies p d) :
    (transcludeLines r g ['@' :: p]).outcome =
      (transcludeLines r (g.extend p) (Text.lines d.body)).outcome := by
  obtain ⟨calls, h⟩ := expands_transcludeLines r (g.extend p) (Text.lines d.body)
  cases hx : (transcludeLines r (g.extend p) (Text.lines d.body)).outcome with
  | error f =>
    have he : Expands r g ['@' :: p] _ _ := .broken hp.ofLine? hg hd h hx
    rw [he.eq_transcludeLines]
  | ok ls =>
    have he : Expands r g ['@' :: p] _ _ := .included hp.ofLine? hg hd h hx .nil
    have hlf : ∀ line ∈ Text.lines d.body, '\n' ∉ line :=
      fun line hl => Text.not_mem_of_mem_lines hl
    have hcut : Text.lines (Text.unlines ls) = ls := h.lines_unlines (Text.lines_ne_nil _) hlf hx
    have hsplice : Reference.splice ⟨[], p⟩ ('@' :: p) ls = ls := by
      rw [Reference.splice, hp.endsWith_cr, splice_margin, hcut]
    rw [he.eq_transcludeLines, hsplice]
    show Except.ok (ls ++ []) = Except.ok ls
    rw [List.append_nil]

/-- **A reference at the margin comes to what the lines of the document come to in its place.** -/
theorem transcludeLines_at_ok_iff (hp : Reference.IsPath p) (hg : p ∉ g.chain) {d : Document}
    (hd : r.Supplies p d) {ls : List Text} :
    (transcludeLines r g ['@' :: p]).outcome = .ok ls ↔
      (transcludeLines r g (Text.lines d.body)).outcome = .ok ls := by
  rw [transcludeLines_at_outcome hp hg hd]
  constructor
  · intro h
    exact transcludeLines_ok_under h fun q _ hq => Guard.mem_extend.2 (Or.inl hq)
  · intro h
    refine transcludeLines_ok_under h fun q hq hm => ?_
    rcases Guard.mem_extend.1 hm with hm | rfl
    · exact hm
    · exact absurd hq (not_leadsTo_of_succeeds hd ⟨ls, h⟩)

end Reference

end MarkdownWeave
