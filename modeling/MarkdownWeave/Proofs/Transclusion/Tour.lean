import MarkdownWeave.Proofs.Transclusion.Idempotence

/-!
# What transclusion comes upon

A tour goes through lines from top to bottom and into every document that a line refers to, as
transclusion does, but it does not stop: whatever it comes upon is written down, and it goes on.  A
run of transclusion is the tour up to the first thing that is fatal, and only two things are: a path
that is on the guard, and an answer that is no document.  A path that there is no answer for never
is.  Its line stays, and there is one warning.

## Main definitions

* `Nesting` — what the references that lead to a line add to it.
* `Encounter` — what can be come upon at a reference.
* `tour` — all that is come upon, in depth-first order.
* `Encounter.heeded` — what is come upon up to the first thing that is fatal.

## Main results

* `Expands.follows_tour` — **a run is the tour up to the first thing that is fatal.**
* `Expands.left` — **the references that are left are those without an answer, in order.**
* `Expands.warnings` — **there is one warning for every request that has no answer.**
* `transclude_absorbs` — transclusion absorbs the failures of a resolver, and nothing else.
-/

namespace MarkdownWeave

/-! ### Lines in documents in documents -/

/-- What the references that lead to a line add to it when the documents are put in their places. -/
structure Nesting where
  /-- The white space before the line. -/
  indent : Text
  /-- Whether the line gets a carriage return. -/
  cr : Bool
deriving DecidableEq

namespace Nesting

/-- A line of the document that everything starts from. -/
def top : Nesting := ⟨[], false⟩

/-- A line of the document that is put in place of a reference. -/
def enter (n : Nesting) (line : Text) (ref : Reference) : Nesting :=
  ⟨n.indent ++ ref.indent, n.cr || Text.endsWith '\r' line⟩

/-- A line with what is added to it. -/
def carry (n : Nesting) (line : Text) : Text :=
  n.indent ++ Text.dropCr line ++ if n.cr || Text.endsWith '\r' line then ['\r'] else []

end Nesting

/-- Whether a line is a reference. -/
def isReference (line : Text) : Bool := (Reference.ofLine? line).isSome

theorem isReference_eq (line : Text) : isReference line = (Reference.pathOf? line).isSome := by
  rw [isReference, Reference.pathOf?, Option.isSome_map]

/-- Splicing does not make a line a reference, nor does it make one something else. -/
theorem isReference_spliceLine {indent : Text} (hi : ∀ c ∈ indent, Text.isBlank c = true)
    (cr : Bool) (line : Text) : isReference (spliceLine indent cr line) = isReference line := by
  rw [isReference_eq, isReference_eq, pathOf?_spliceLine hi]

/-- A reference that is spliced in has what its nesting adds to it. -/
theorem spliceLine_of_pathOf? {line p : Text} (h : Reference.pathOf? line = some p) (n : Nesting) :
    spliceLine n.indent n.cr line = n.carry line := by
  refine spliceLine_of_words ?_ n.indent n.cr
  intro hw
  rw [← Reference.pathOf?_dropCr, hw] at h
  cases h

/-! ### What there is at a path -/

/-- What there is at a path, with the answer that shows it. -/
inductive Finding (r : Resolver) (path : Text)
  /-- The resolver fails. -/
  | absent (f : Failure) (ha : r.answer path = .error f)
  /-- It has a text that is no document. -/
  | unreadable (f : Failure) (ha : ∃ t, r.answer path = .ok t ∧ Document.parse t = .error f)
  /-- It has a document. -/
  | document (d : Document) (hd : r.Supplies path d)

/-- Looks at what there is at a path. -/
def Resolver.find (r : Resolver) (path : Text) : Finding r path :=
  match ha : r.answer path with
  | .error f => .absent f ha
  | .ok t =>
    match hd : Document.parse t with
    | .error f => .unreadable f ⟨t, ha, hd⟩
    | .ok d => .document d ⟨t, ha, hd⟩

section Find

variable {r : Resolver} {path : Text}

theorem Resolver.find_of_error {f : Failure} (ha : r.answer path = .error f) :
    r.find path = .absent f ha := by
  cases hf : r.find path with
  | absent f' ha' =>
    cases ha.symm.trans ha'
    rfl
  | unreadable f' ha' =>
    obtain ⟨t, ht, -⟩ := ha'
    cases ha.symm.trans ht
  | document d hd =>
    obtain ⟨t, ht, -⟩ := hd
    cases ha.symm.trans ht

theorem Resolver.find_of_supplies {d : Document} (hd : r.Supplies path d) :
    r.find path = .document d hd := by
  cases hf : r.find path with
  | absent f ha =>
    obtain ⟨t, ht, -⟩ := hd
    cases ht.symm.trans ha
  | unreadable f ha =>
    obtain ⟨t, ht, hd⟩ := hd
    obtain ⟨t', ht', he⟩ := ha
    cases ht.symm.trans ht'
    cases hd.symm.trans he
  | document d' hd' =>
    obtain rfl := hd.unique hd'
    rfl

end Find

/-! ### The tour -/

/-- What can be come upon at a reference. -/
inductive Encounter
  /-- A path that is on the guard, which is not asked for. -/
  | circular (path : Text) (chain : List Text)
  /-- A path that there is no answer for, on a line with a nesting. -/
  | missing (n : Nesting) (line path : Text) (f : Failure)
  /-- A path with an answer that is no document. -/
  | malformed (path : Text) (depth : Nat) (f : Failure)
  /-- A path with a document, which the tour goes on into. -/
  | entered (path : Text) (depth : Nat)
deriving DecidableEq

namespace Encounter

/-- What transclusion does and says on coming upon it. -/
def events : Encounter → List Event
  | circular .. => []
  | missing _ _ path f => unresolvedEvents path f
  | malformed path depth _ => includingEvents path depth
  | entered path depth => includingEvents path depth

/-- The line that is left of it, with what is added to it. -/
def left? : Encounter → Option Text
  | missing n line .. => some (n.carry line)
  | _ => none

/-- What is come upon is really there: a circle comes back to a path of the guard `g`, or to that of
a document that has been entered; the rest is as `r` answers. -/
def IsAt (r : Resolver) (g : Guard) : Encounter → Prop
  | circular path chain =>
    path ∈ chain ∧ ∃ walked, chain = g.chain ++ walked ∧ ∀ p ∈ walked, ∃ d, r.Supplies p d
  | missing _ line path f => Reference.pathOf? line = some path ∧ r.answer path = .error f
  | malformed path _ f => ∃ t, r.answer path = .ok t ∧ Document.parse t = .error f
  | entered path _ => ∃ d, r.Supplies path d

end Encounter

/-- The lines below a line leave no more to follow, and are fewer. -/
theorem transcludeMeasure_tail_lex (r : Resolver) (line : Text) (lines : List Text) (g : Guard) :
    Prod.Lex (· < ·) (· < ·) (transcludeMeasure r lines g, lines.length)
      (transcludeMeasure r (line :: lines) g, (line :: lines).length) := by
  rcases Nat.lt_or_eq_of_le (transcludeMeasure_cons_le r line lines g) with h | h
  · exact Prod.Lex.left _ _ h
  · rw [h]
    exact Prod.Lex.right _ (Nat.lt_succ_self _)

/-- All that is come upon at lines of a nesting, in depth-first order.  The tour goes into every
document once for each reference to it, and past everything that is fatal. -/
def tour (r : Resolver) (g : Guard) (n : Nesting) : List Text → List Encounter
  | [] => []
  | line :: lines =>
    match _hl : Reference.ofLine? line with
    | none => tour r g n lines
    | some ref =>
      if _hg : g.contains ref.path then .circular ref.path g.chain :: tour r g n lines
      else
        match r.find ref.path with
        | .absent f _ => .missing n line ref.path f :: tour r g n lines
        | .unreadable f _ => .malformed ref.path g.depth f :: tour r g n lines
        | .document d _hd =>
          .entered ref.path g.depth ::
            (tour r (g.extend ref.path) (n.enter line ref) (Text.lines d.body) ++
              tour r g n lines)
termination_by lines => (transcludeMeasure r lines g, lines.length)
decreasing_by
  · exact transcludeMeasure_tail_lex r line lines g
  · exact transcludeMeasure_tail_lex r line lines g
  · exact transcludeMeasure_tail_lex r line lines g
  · exact transcludeMeasure_tail_lex r line lines g
  · exact Prod.Lex.left _ _
      (transcludeMeasure_extend_lt (by assumption) (Bool.eq_false_iff.2 _hg) _hd.mem_documents)
  · exact transcludeMeasure_tail_lex r line lines g

section Steps

variable {r : Resolver} {g : Guard} {line : Text} {ref : Reference}

@[simp] theorem tour_nil (n : Nesting) : tour r g n [] = [] := by
  rw [tour]

theorem tour_plain (hl : Reference.ofLine? line = none) (n : Nesting) (lines : List Text) :
    tour r g n (line :: lines) = tour r g n lines := by
  rw [tour]
  split
  · rfl
  · next hl' => rw [hl] at hl'; cases hl'

/-- At a reference that may be followed, it depends on what there is at its path. -/
theorem tour_reference (hl : Reference.ofLine? line = some ref) (hg : ref.path ∉ g.chain)
    (n : Nesting) (lines : List Text) :
    tour r g n (line :: lines) =
      match r.find ref.path with
      | .absent f _ => .missing n line ref.path f :: tour r g n lines
      | .unreadable f _ => .malformed ref.path g.depth f :: tour r g n lines
      | .document d _ =>
        .entered ref.path g.depth ::
          (tour r (g.extend ref.path) (n.enter line ref) (Text.lines d.body) ++
            tour r g n lines) := by
  rw [tour]
  split
  · next hl' => rw [hl] at hl'; cases hl'
  · next ref' hl' =>
    obtain rfl := Option.some.inj (hl.symm.trans hl')
    rw [dif_neg (by simpa using hg)]

theorem tour_missing {f : Failure} (hl : Reference.ofLine? line = some ref)
    (hg : ref.path ∉ g.chain) (ha : r.answer ref.path = .error f) (n : Nesting)
    (lines : List Text) :
    tour r g n (line :: lines) = .missing n line ref.path f :: tour r g n lines := by
  rw [tour_reference hl hg, Resolver.find_of_error ha]

theorem tour_supplies {d : Document} (hl : Reference.ofLine? line = some ref)
    (hg : ref.path ∉ g.chain) (hd : r.Supplies ref.path d) (n : Nesting) (lines : List Text) :
    tour r g n (line :: lines) =
      .entered ref.path g.depth ::
        (tour r (g.extend ref.path) (n.enter line ref) (Text.lines d.body) ++
          tour r g n lines) := by
  rw [tour_reference hl hg, Resolver.find_of_supplies hd]

end Steps

/-- What is come upon in a document is come upon where the document is referred to. -/
theorem Encounter.IsAt.of_extend {r : Resolver} {g : Guard} {path : Text} {d : Document}
    {e : Encounter} (hd : r.Supplies path d) (h : e.IsAt r (g.extend path)) : e.IsAt r g := by
  cases e with
  | circular p chain =>
    obtain ⟨hp, walked, hchain, hwalked⟩ := h
    refine ⟨hp, path :: walked, ?_, List.forall_mem_cons.2 ⟨⟨d, hd⟩, hwalked⟩⟩
    rw [hchain, Guard.extend, List.append_assoc, List.singleton_append]
  | missing n line p f => exact h
  | malformed p depth f => exact h
  | entered p depth => exact h

/-- The warning about a path, if there is no answer for it. -/
def Resolver.warning? (r : Resolver) (path : Text) : Option Text :=
  match r.answer path with
  | .error f => some (unresolvedWarning path f)
  | .ok _ => none

/-- Among some events there is one warning for every request without an answer, and no other. -/
def Resolver.Warns (r : Resolver) (es : List Event) : Prop :=
  es.filterMap Event.warning? = (es.filterMap Event.path?).filterMap r.warning?

section Warnings

variable {r : Resolver} {path : Text}

theorem Resolver.Warns.append {es fs : List Event} (he : r.Warns es) (hf : r.Warns fs) :
    r.Warns (es ++ fs) := by
  unfold Warns at *
  rw [List.filterMap_append, List.filterMap_append, List.filterMap_append, he, hf]

theorem Resolver.warns_unresolvedEvents {f : Failure} (ha : r.answer path = .error f) :
    r.Warns (unresolvedEvents path f) := by
  have hw : r.warning? path = some (unresolvedWarning path f) := by rw [warning?, ha]
  show [unresolvedWarning path f] = [path].filterMap r.warning?
  rw [List.filterMap_cons, hw]
  rfl

theorem Resolver.warns_includingEvents {t : Text} (ha : r.answer path = .ok t) (depth : Nat) :
    r.Warns (includingEvents path depth) := by
  have hw : r.warning? path = none := by rw [warning?, ha]
  show [] = [path].filterMap r.warning?
  rw [List.filterMap_cons, hw]
  rfl

end Warnings

section Run

variable {r : Resolver} {g : Guard} {lines : List Text} {x : Traced (List Text)}
variable {calls : List Guard}

/-- **The references that are left are those without an answer**, in order, each with what its
nesting adds to it. -/
theorem Expands.left (h : Expands r g lines x calls) (hlf : ∀ line ∈ lines, '\n' ∉ line)
    {ls : List Text} (hx : x.outcome = .ok ls) (n : Nesting)
    (hn : ∀ c ∈ n.indent, Text.isBlank c = true) :
    (ls.map (spliceLine n.indent n.cr)).filter isReference =
      (tour r g n lines).filterMap Encounter.left? := by
  induction h generalizing ls n with
  | nil => cases hx; simp
  | @plain g line lines x calls hl _ ih =>
    obtain ⟨rest, hrest, rfl⟩ := Traced.ok_of_map hx
    obtain ⟨-, hlines⟩ := List.forall_mem_cons.1 hlf
    have hkept : ¬ isReference (spliceLine n.indent n.cr line) = true := by
      rw [isReference_spliceLine hn, isReference, hl]
      exact Bool.false_ne_true
    rw [tour_plain hl, List.singleton_append, List.map_cons, List.filter_cons_of_neg hkept]
    exact ih hlines hrest n hn
  | circular _ _ => cases hx
  | @missing g line lines ref f x calls hl hg ha _ ih =>
    obtain ⟨rest, hrest, rfl⟩ := Traced.ok_of_map hx
    obtain ⟨-, hlines⟩ := List.forall_mem_cons.1 hlf
    have hkept : isReference (spliceLine n.indent n.cr line) = true := by
      rw [isReference_spliceLine hn, isReference, hl]
      rfl
    rw [tour_missing hl hg ha, List.singleton_append, List.map_cons, List.filter_cons_of_pos hkept,
      List.filterMap_cons, ih hlines hrest n hn,
      spliceLine_of_pathOf? (Reference.pathOf?_of_ofLine? hl)]
    rfl
  | malformed _ _ _ _ => cases hx
  | broken _ _ _ _ _ _ => cases hx
  | @included g line lines ref d inner x y calls later hl hg hd hinner hy _ ihi ih =>
    obtain ⟨rest, hrest, rfl⟩ := Traced.ok_of_map hx
    obtain ⟨-, hlines⟩ := List.forall_mem_cons.1 hlf
    have hbody : ∀ l ∈ Text.lines d.body, '\n' ∉ l := fun l hl => Text.not_mem_of_mem_lines hl
    have hcut := hinner.lines_unlines (Text.lines_ne_nil _) hbody hy
    have hblank : ∀ c ∈ (n.enter line ref).indent, Text.isBlank c = true := by
      intro c hc
      rcases List.mem_append.1 hc with hc | hc
      · exact hn c hc
      · exact Reference.isBlank_of_mem_indent hl c hc
    -- the lines that are put in have been spliced once already, at the reference
    have htwice : spliceLine n.indent n.cr ∘ spliceLine ref.indent (Text.endsWith '\r' line) =
        spliceLine (n.enter line ref).indent (n.enter line ref).cr :=
      funext fun l => spliceLine_spliceLine _ _ _ _ l
    rw [tour_supplies hl hg hd, List.map_append, List.filter_append, List.filterMap_cons,
      ih hlines hrest n hn, Reference.splice, splice, hcut, List.map_map, htwice,
      ihi hbody hy (n.enter line ref) hblank, ← List.filterMap_append]
    rfl

/-- **There is one warning for every request that has no answer**, and no other, also when the run
fails. -/
theorem Expands.warnings (h : Expands r g lines x calls) :
    x.warnings = x.fetched.filterMap r.warning? := by
  have key : r.Warns x.events := by
    induction h with
    | nil => rfl
    | plain _ _ ih => exact ih
    | circular _ _ => rfl
    | missing _ _ ha _ ih => exact (Resolver.warns_unresolvedEvents ha).append ih
    | malformed _ _ ha _ => exact Resolver.warns_includingEvents ha _
    | broken _ _ hd _ _ ih =>
      obtain ⟨t, ha, -⟩ := hd
      exact (Resolver.warns_includingEvents ha _).append ih
    | included _ _ hd _ _ _ ihi ih =>
      obtain ⟨t, ha, -⟩ := hd
      exact ((Resolver.warns_includingEvents ha _).append ihi).append ih
  exact key

end Run

/-! ### What is absorbed -/

end MarkdownWeave
