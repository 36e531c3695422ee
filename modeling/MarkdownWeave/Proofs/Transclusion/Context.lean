import MarkdownWeave.Proofs.Lines
import MarkdownWeave.Proofs.Stages
import MarkdownWeave.Proofs.Transclusion.Independence

/-!
# What stands around

A document is expanded below a guard, and each of its lines between others.  Neither has a say in
what comes of it.  The guard can stop a run, but every run that it lets pass is the one that there
would be without a guard, and so are the runs inside of it, one for each document that is put in.
The lines above and below do not even stop a run, but for the failure that comes first: a text is
expanded in two parts, wherever it is cut between two lines.

## Main definitions

* `Traced.Agree` — two computations that differ at most in what is of interest to someone who looks
  for a mistake.

## Main results

* `Expands.calls_succeed` — **a run that succeeds is made of runs that do.**
* `transclude_guard_inert` — the guard only ever refuses.
* `transclude_lf` — **a text is expanded in two parts.**
* `transclude_cut` — the same, told by what becomes of the parts.
-/

namespace MarkdownWeave

/-! ### The guard -/

namespace Traced

variable {α : Type} {x y z : Traced α}

/-- Two computations come to the same, ask for the same and warn of the same. -/
structure Agree (x y : Traced α) : Prop extends x.Alike y where
  /-- They warn of the same, in the same order. -/
  warnings : x.warnings = y.warnings

theorem Agree.symm (h : x.Agree y) : y.Agree x :=
  ⟨⟨h.outcome.symm, h.fetched.symm⟩, h.warnings.symm⟩

theorem Agree.trans (h : x.Agree y) (h' : y.Agree z) : x.Agree z :=
  ⟨h.toAlike.trans h'.toAlike, h.warnings.trans h'.warnings⟩

end Traced

section Guard

variable {r : Resolver} {d d' : Document} {g g' : Guard}

/-- A run that succeeds is the same under a guard without paths that are not on the first one. -/
theorem transclude_agree_of_subset (h : (transclude r d g).outcome = .ok d')
    (hsub : g'.chain ⊆ g.chain) : (transclude r d g').Agree (transclude r d g) := by
  rw [transclude_outcome] at h
  obtain ⟨ls, hls, rfl⟩ := Traced.ok_of_map h
  obtain ⟨calls, he⟩ := expands_transcludeLines r g (Text.lines d.body)
  obtain ⟨x', calls', he', hx', hfetched, hwarnings⟩ := he.under hls fun q _ hq => hsub hq
  refine ⟨⟨?_, ?_⟩, ?_⟩
  · rw [transclude_outcome, transclude_outcome, he'.eq_transcludeLines, hx', hls]
  · rw [Traced.fetched, Traced.fetched, transclude_events, transclude_events,
      he'.eq_transcludeLines]
    exact hfetched
  · rw [Traced.warnings, Traced.warnings, transclude_events, transclude_events,
      he'.eq_transcludeLines]
    exact hwarnings

/-- Without a guard it is the same. -/
theorem transclude_agree_empty (h : (transclude r d g).outcome = .ok d') :
    (transclude r d g).Agree (transclude r d .empty) :=
  (transclude_agree_of_subset h (List.nil_subset g.chain)).symm

/-- A result, or the refusal to follow a path. -/
def OkOrRefused {α : Type} (y : Except Failure α) : Prop :=
  (∃ a, y = .ok a) ∨ ∃ p chain, y = .error (.circularReference p chain)

theorem OkOrRefused.map {α β : Type} {y : Except Failure α} (h : OkOrRefused y) (F : α → β) :
    OkOrRefused (y.map F) := by
  rcases h with ⟨a, rfl⟩ | ⟨p, chain, rfl⟩
  · exact Or.inl ⟨F a, rfl⟩
  · exact Or.inr ⟨p, chain, rfl⟩

/-- **Another guard can only refuse what succeeds under one**: the lines come to something there,
too, or the run ends at a path that must not be followed. -/
theorem Expands.ok_or_refused {lines : List Text} {x : Traced (List Text)} {calls : List Guard}
    (h : Expands r g lines x calls) {ls : List Text} (hx : x.outcome = .ok ls) (g' : Guard) :
    ∃ x' calls', Expands r g' lines x' calls' ∧ OkOrRefused x'.outcome := by
  induction h generalizing g' ls with
  | nil => exact ⟨_, _, .nil, Or.inl ⟨_, rfl⟩⟩
  | plain hl _ ih =>
    obtain ⟨rest, hrest, -⟩ := Traced.ok_of_map hx
    obtain ⟨x', calls', h', hend⟩ := ih hrest g'
    exact ⟨_, _, .plain hl h', hend.map _⟩
  | circular _ _ | malformed _ _ _ _ | broken _ _ _ _ _ => cases hx
  | @missing g line lines ref _ _ _ hl _ ha _ ih =>
    obtain ⟨rest, hrest, -⟩ := Traced.ok_of_map hx
    by_cases hg' : ref.path ∈ g'.chain
    · exact ⟨_, _, .circular hl hg', Or.inr ⟨_, _, rfl⟩⟩
    · obtain ⟨x', calls', h', hend⟩ := ih hrest g'
      exact ⟨_, _, .missing hl hg' ha h', hend.map _⟩
  | @included g line lines ref d _ _ _ _ _ hl _ hd _ hy _ ihi ih =>
    obtain ⟨rest, hrest, -⟩ := Traced.ok_of_map hx
    by_cases hg' : ref.path ∈ g'.chain
    · exact ⟨_, _, .circular hl hg', Or.inr ⟨_, _, rfl⟩⟩
    · obtain ⟨y', inner, hi, hendi⟩ := ihi hy (g'.extend ref.path)
      rcases hendi with ⟨ls', hls⟩ | ⟨p, chain, hy'⟩
      · obtain ⟨x', later, h', hend⟩ := ih hrest g'
        exact ⟨_, _, .included hl hg' hd hi hls h', hend.map _⟩
      · exact ⟨_, _, .broken hl hg' hd hi hy', Or.inr ⟨p, chain, rfl⟩⟩

/-- Each guard in the record of a run that succeeds is that of a run that does, for the document at
the last path on it. -/
theorem Expands.calls_succeed {lines : List Text} {x : Traced (List Text)} {calls : List Guard}
    (h : Expands r g lines x calls) {ls : List Text} (hx : x.outcome = .ok ls) :
    ∀ c ∈ calls, ∃ p e, c.chain.getLast? = some p ∧ r.Supplies p e ∧
      Succeeds r c (Text.lines e.body) := by
  induction h generalizing ls with
  | nil =>
    intro c hc
    cases hc
  | plain _ _ ih | missing _ _ _ _ ih =>
    obtain ⟨rest, hrest, -⟩ := Traced.ok_of_map hx
    exact ih hrest
  | circular _ _ | malformed _ _ _ _ | broken _ _ _ _ _ => cases hx
  | @included g line lines ref d inner x y calls later hl hg hd hi hy _ ihi ih =>
    obtain ⟨rest, hrest, -⟩ := Traced.ok_of_map hx
    intro c hc
    rcases List.mem_append.1 hc with hc | hc
    · rcases List.mem_cons.1 hc with rfl | hc
      · have hlast : (g.extend ref.path).chain.getLast? = some ref.path := List.getLast?_concat
        refine ⟨ref.path, d, hlast, hd, inner, ?_⟩
        rw [hi.eq_transcludeLines, hy]
      · exact ihi hy c hc
    · exact ih hrest c hc

/-- A run that succeeds under one guard is the same under each other guard, or is refused there. -/
theorem transclude_agree_or_refused (h : (transclude r d g).outcome = .ok d') (g' : Guard) :
    (transclude r d g').Agree (transclude r d g) ∨
      ∃ p chain, (transclude r d g').outcome = .error (.circularReference p chain) := by
  have hagree := transclude_agree_empty h
  rw [transclude_outcome] at h
  obtain ⟨ls, hls, -⟩ := Traced.ok_of_map h
  obtain ⟨calls, he⟩ := expands_transcludeLines r g (Text.lines d.body)
  obtain ⟨x', calls', he', hend⟩ := he.ok_or_refused hls g'
  have hx' : (transclude r d g').outcome = x'.outcome.map fun ls => ⟨d.metadata, Text.unlines ls⟩ := by
    rw [transclude_outcome, he'.eq_transcludeLines]
  rcases hend with ⟨ls', hok⟩ | ⟨p, chain, hcircular⟩
  · rw [hok] at hx'
    exact Or.inl ((transclude_agree_empty hx').trans hagree.symm)
  · rw [hcircular] at hx'
    exact Or.inr ⟨p, chain, hx'⟩

/-- **The guard only ever refuses; it never changes anything.**  A run that succeeds under one guard
succeeds under every guard with none but its paths, with the same document, the same requests and
the same warnings.  Under every other guard it is the same, too, unless it ends at a path that must
not be followed.  And all the runs that are nested in it come to what their documents come to
without a guard, wherever and however deep they stand. -/
theorem transclude_guard_inert (r : Resolver) (d d' : Document) (g : Guard)
    (h : (transclude r d g).outcome = .ok d') :
    (∀ g' : Guard, g'.chain ⊆ g.chain → (transclude r d g').Agree (transclude r d g)) ∧
      (∀ g' : Guard, (transclude r d g').Agree (transclude r d g) ∨
        ∃ p chain, (transclude r d g').outcome = .error (.circularReference p chain)) ∧
      ∀ calls, Expands r g (Text.lines d.body) (transcludeLines r g (Text.lines d.body)) calls →
        ∀ c ∈ calls, ∃ p e e', c.chain.getLast? = some p ∧ r.Supplies p e ∧
          (transclude r e c).outcome = .ok e' ∧
          (transclude r e c).Agree (transclude r e .empty) := by
  refine ⟨fun g' hsub => transclude_agree_of_subset h hsub, transclude_agree_or_refused h, ?_⟩
  intro calls he c hc
  rw [transclude_outcome] at h
  obtain ⟨ls, hls, -⟩ := Traced.ok_of_map h
  obtain ⟨p, e, hlast, hd, inner, hinner⟩ := he.calls_succeed hls c hc
  have hok : (transclude r e c).outcome = .ok ⟨e.metadata, Text.unlines inner⟩ := by
    rw [transclude_outcome, hinner]
    rfl
  exact ⟨p, e, _, hlast, hd, hok, transclude_agree_empty hok⟩

/-- Two documents that both refer to a third one. -/
def diamondResolver : Resolver :=
  .ofAnswers [("a", .ok "A\n @c"), ("b", .ok "@c\n@gone"), ("c", .ok "C\n")]

/-- A document that refers to all of them. -/
def diamond : Document := ⟨[], "@a\n\t@b\n@c"⟩

/-- The shared document comes to the same in all three places; a guard with its path refuses it. -/
theorem transclude_diamond_inert :
    (transclude diamondResolver diamond ⟨["x", "y"]⟩).outcome =
        .ok ⟨[], "A\n C\n\n\tC\n\n\t@gone\nC\n"⟩ ∧
      (transclude diamondResolver diamond ⟨["y", "y"]⟩).Agree
        (transclude diamondResolver diamond ⟨["x", "y"]⟩) ∧
      (transclude diamondResolver diamond ⟨["c"]⟩).outcome =
        .error (.circularReference "c" ["c", "a"]) ∧
      ∀ c ∈ ([⟨["x", "y", "a", "c"]⟩, ⟨["x", "y", "b", "c"]⟩, ⟨["x", "y", "c"]⟩] : List Guard),
        ∃ p e e', c.chain.getLast? = some p ∧ diamondResolver.Supplies p e ∧
          (transclude diamondResolver e c).outcome = .ok e' ∧
          (transclude diamondResolver e c).Agree (transclude diamondResolver e .empty) := by
  have hok : (transclude diamondResolver diamond ⟨["x", "y"]⟩).outcome =
      .ok ⟨[], "A\n C\n\n\tC\n\n\t@gone\nC\n"⟩ := by
    rw [transclude_outcome, outcome_of_expandWithin 8
      (o := .ok ["A", " C", "", "\tC", "", "\t@gone", "C", ""]) (by rfl)]
    rfl
  have hrefused : (transclude diamondResolver diamond ⟨["c"]⟩).outcome =
      .error (.circularReference "c" ["c", "a"]) := by
    rw [transclude_outcome, outcome_of_expandWithin 8
      (o := .error (.circularReference "c" ["c", "a"])) (by rfl)]
    rfl
  obtain ⟨hsub, -, hcalls⟩ := transclude_guard_inert diamondResolver diamond _ ⟨["x", "y"]⟩ hok
  have hrecord : (expandWithin diamondResolver 8 ⟨["x", "y"]⟩ (Text.lines diamond.body)).map
      Prod.snd = some [⟨["x", "y", "a"]⟩, ⟨["x", "y", "a", "c"]⟩, ⟨["x", "y", "b"]⟩,
        ⟨["x", "y", "b", "c"]⟩, ⟨["x", "y", "c"]⟩] := by
    rfl
  obtain ⟨⟨x, calls⟩, hx, rfl⟩ := Option.map_eq_some_iff.1 hrecord
  have he := expands_of_expandWithin 8 _ _ _ _ hx
  rw [← he.eq_transcludeLines] at he
  have hincluded : (⟨["y", "y"]⟩ : Guard).chain ⊆ (⟨["x", "y"]⟩ : Guard).chain := by decide
  have hshared : ∀ c ∈ ([⟨["x", "y", "a", "c"]⟩, ⟨["x", "y", "b", "c"]⟩, ⟨["x", "y", "c"]⟩] :
      List Guard), c ∈ ([⟨["x", "y", "a"]⟩, ⟨["x", "y", "a", "c"]⟩, ⟨["x", "y", "b"]⟩,
        ⟨["x", "y", "b", "c"]⟩, ⟨["x", "y", "c"]⟩] : List Guard) := by
    decide
  exact ⟨hok, hsub _ hincluded, hrefused, fun c hc => hcalls _ he c (hshared c hc)⟩

end Guard

/-! ### The lines above and below -/

section Cut

variable {r : Resolver} {g : Guard}

/-- The lines that a text comes to are at least one. -/
theorem transcludeLines_ne_nil {t : Text} {ls : List Text}
    (h : (transcludeLines r g (Text.lines t)).outcome = .ok ls) : ls ≠ [] := by
  obtain ⟨calls, he⟩ := expands_transcludeLines r g (Text.lines t)
  exact he.ne_nil h (Text.lines_ne_nil t)

/-- **A text is expanded in two parts**, wherever it is cut between two lines. -/
theorem transclude_lf (d e : Document) (m : Metadata) :
    transclude r ⟨m, d.body ++ '\n' :: e.body⟩ g =
      transclude r d g >>= fun d' => transclude r e g >>= fun e' =>
        pure ⟨m, d'.body ++ '\n' :: e'.body⟩ := by
  simp only [transclude, Text.lines_append_lf, transcludeLines_append, Traced.bind_assoc,
    Traced.pure_eq, Traced.done_bind]
  cases ha : (transcludeLines r g (Text.lines d.body)).outcome with
  | error f => rw [Traced.bind_of_error ha, Traced.bind_of_error ha]
  | ok above =>
    rw [Traced.bind_of_ok ha, Traced.bind_of_ok ha]
    cases hb : (transcludeLines r g (Text.lines e.body)).outcome with
    | error f => rw [Traced.bind_of_error hb, Traced.bind_of_error hb]
    | ok below =>
      rw [Traced.bind_of_ok hb, Traced.bind_of_ok hb,
        Text.unlines_append (transcludeLines_ne_nil ha) (transcludeLines_ne_nil hb)]

/-- The metadata stays as it is. -/
theorem transclude_metadata {d d' : Document} (h : (transclude r d g).outcome = .ok d') :
    d'.metadata = d.metadata := by
  rw [transclude_outcome] at h
  obtain ⟨ls, -, rfl⟩ := Traced.ok_of_map h
  rfl

/-- **Transclusion takes each line by itself.**  A text that is cut in two between two lines comes
to what its parts come to, with what happens in the first part before what happens in the second.
It fails as the first part does, and then nothing happens in the second, or as the second does.  The
metadata stays as it is, and does not matter. -/
theorem transclude_cut (r : Resolver) (d e : Document) (m : Metadata) (g : Guard) :
    (∀ d' e', (transclude r d g).outcome = .ok d' → (transclude r e g).outcome = .ok e' →
        transclude r ⟨m, d.body ++ '\n' :: e.body⟩ g =
          ⟨.ok ⟨m, d'.body ++ '\n' :: e'.body⟩,
            (transclude r d g).events ++ (transclude r e g).events⟩) ∧
      (∀ f, (transclude r d g).outcome = .error f →
        transclude r ⟨m, d.body ++ '\n' :: e.body⟩ g = ⟨.error f, (transclude r d g).events⟩) ∧
      (∀ d' f, (transclude r d g).outcome = .ok d' → (transclude r e g).outcome = .error f →
        transclude r ⟨m, d.body ++ '\n' :: e.body⟩ g =
          ⟨.error f, (transclude r d g).events ++ (transclude r e g).events⟩) ∧
      ∀ d', (transclude r d g).outcome = .ok d' → d'.metadata = d.metadata := by
  refine ⟨?_, ?_, ?_, fun d' h => transclude_metadata h⟩
  · intro d' e' hd he
    rw [transclude_lf, Traced.bind_of_ok hd, Traced.bind_of_ok he]
    simp [Traced.done]
  · intro f hd
    rw [transclude_lf, Traced.bind_of_error hd]
  · intro d' f hd he
    rw [transclude_lf, Traced.bind_of_ok hd, Traced.bind_of_error he]

/-- The line at the cut is a reference with a carriage return, and behind it stands nothing, or a
path that must not be followed. -/
theorem transclude_cut_ragged :
    transclude diamondResolver ⟨[(.text "k", .bool true)], "x\r\n@c\r\n"⟩ ⟨["b"]⟩ =
        ⟨.ok ⟨[(.text "k", .bool true)], "x\r\nC\r\n\r\n"⟩,
          (transclude diamondResolver ⟨[], "x\r\n@c\r"⟩ ⟨["b"]⟩).events ++
            (transclude diamondResolver ⟨[], []⟩ ⟨["b"]⟩).events⟩ ∧
      transclude diamondResolver ⟨[], "x\r\n@c\r\n@b\n@a"⟩ ⟨["b"]⟩ =
        ⟨.error (.circularReference "b" ["b"]),
          (transclude diamondResolver ⟨[], "x\r\n@c\r"⟩ ⟨["b"]⟩).events ++
            (transclude diamondResolver ⟨[], "@b\n@a"⟩ ⟨["b"]⟩).events⟩ ∧
      transclude diamondResolver ⟨[], "@b\n@a\n"⟩ ⟨["b"]⟩ =
        ⟨.error (.circularReference "b" ["b"]),
          (transclude diamondResolver ⟨[], "@b\n@a"⟩ ⟨["b"]⟩).events⟩ := by
  have habove : (transclude diamondResolver ⟨[], "x\r\n@c\r"⟩ ⟨["b"]⟩).outcome =
      .ok ⟨[], "x\r\nC\r\n\r"⟩ := by
    rw [transclude_outcome, outcome_of_expandWithin 8 (o := .ok ["x\r", "C\r", "\r"]) (by rfl)]
    rfl
  have hempty : (transclude diamondResolver ⟨[], []⟩ ⟨["b"]⟩).outcome = .ok ⟨[], []⟩ := by
    rw [transclude_outcome, outcome_of_expandWithin 8 (o := .ok [[]]) (by rfl)]
    rfl
  have hrefused : (transclude diamondResolver ⟨[], "@b\n@a"⟩ ⟨["b"]⟩).outcome =
      .error (.circularReference "b" ["b"]) := by
    rw [transclude_outcome, outcome_of_expandWithin 8
      (o := .error (.circularReference "b" ["b"])) (by rfl)]
    rfl
  obtain ⟨hok, -, -, -⟩ := transclude_cut diamondResolver ⟨[], "x\r\n@c\r"⟩ ⟨[], []⟩
    [(.text "k", .bool true)] ⟨["b"]⟩
  obtain ⟨-, -, hsecond, -⟩ := transclude_cut diamondResolver ⟨[], "x\r\n@c\r"⟩
    ⟨[], "@b\n@a"⟩ [] ⟨["b"]⟩
  obtain ⟨-, hfirst, -, -⟩ := transclude_cut diamondResolver ⟨[], "@b\n@a"⟩ ⟨[], []⟩ [] ⟨["b"]⟩
  exact ⟨hok _ _ habove hempty, hsecond _ _ habove hrefused, hfirst _ hrefused⟩

end Cut

end MarkdownWeave
