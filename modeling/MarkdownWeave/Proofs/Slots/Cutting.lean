import MarkdownWeave.Proofs.Slots.Simultaneous

/-!
# Cutting a text in two

Where no slot lies across the place at which a text is cut, the two parts have their slots to
themselves: the pieces of the text are those of the first part and those of the second.  Slots do
not overlap, so a text may be cut before and behind each of them, and it may be cut where something
stands that cannot be in a slot.

## Main definitions

* `Slot.Apart a b` — no slot lies across the place where the two texts meet.
* `Slot.IsName` — the names that a slot can have.
* `Slot.spaced` — a slot with one space on either side of its name.

## Main results

* `Slot.pieces_append` — texts that are apart are cut into pieces one after the other.
* `Slot.pieces_around_slot`, `Slot.pieces_around_reference` — the pieces around a slot, and around
  a reference in its place.
* `Slot.exists_lines_fill_above`, `Slot.exists_lines_fill_below` — whole lines are filled by
  themselves.
-/

namespace MarkdownWeave

namespace Slot

/-! ### Slots across a cut -/

/-- No slot lies across the place where two texts meet. -/
def Apart (a b : Text) : Prop :=
  ∀ i s, OccursAt (a ++ b) i s → i + s.source.length ≤ a.length ∨ a.length ≤ i

section Apart

variable {a b : Text} {s : Slot}

/-- The end of a slot is a closing brace. -/
theorem IsForm.getLast?_source (h : s.IsForm) : s.source.getLast? = some '}' := by
  obtain ⟨left, right, -, -, hsource⟩ := h.source_eq
  rw [hsource, List.getLast?_append_of_ne_nil _ (List.cons_ne_nil _ _)]
  rfl

/-- Nothing in a slot is an at sign. -/
theorem IsForm.not_mem_at (h : s.IsForm) : '@' ∉ s.source := by
  obtain ⟨left, right, hleft, hright, hsource⟩ := h.source_eq
  rw [hsource]
  simp only [List.cons_append, List.mem_cons, List.mem_append, not_or]
  refine ⟨by decide, by decide, ⟨⟨?_, ?_⟩, ?_⟩, by decide, by decide, List.not_mem_nil⟩
  · intro hm
    exact absurd (hleft _ hm) (by decide)
  · intro hm
    exact absurd (h.name_chars _ hm) (by decide)
  · intro hm
    exact absurd (hright _ hm) (by decide)

/-- Before a slot there is no slot that goes on in it. -/
theorem OccursAt.apart_before (h : OccursAt b 0 s) : Apart a b := by
  intro i s' hi
  have hs : OccursAt (a ++ b) (a.length + 0) s := occursAt_append.2 h
  rcases hi.disjoint hs with ⟨rfl, rfl⟩ | hle | hle
  · exact Or.inr (Nat.le_add_right _ _)
  · exact Or.inl hle
  · exact Or.inr (by omega)

/-- Behind a slot no slot goes on that has begun in it. -/
theorem IsForm.apart_behind (h : s.IsForm) : Apart (a ++ s.source) b := by
  intro i s' hi
  have hs : OccursAt (a ++ s.source ++ b) a.length s := by
    refine ⟨h, b, ?_⟩
    rw [List.append_assoc, List.drop_left]
  rw [List.length_append]
  rcases hi.disjoint hs with ⟨rfl, rfl⟩ | hle | hle
  · exact Or.inl le_rfl
  · exact Or.inl (by omega)
  · exact Or.inr hle

/-- A slot that lies across a cut has its opening braces before it. -/
theorem apart_of_not_mem_open (ha : '{' ∉ a) : Apart a b := by
  intro i s hi
  by_contra hacross
  rw [not_or] at hacross
  obtain ⟨hopen, -, hlen⟩ := hi.1.braces
  have hfirst : (a ++ b)[i + 0]? = some '{' := by rw [hi.getElem? (by omega), hopen]
  rw [List.getElem?_append_left (by omega)] at hfirst
  exact ha (List.mem_of_getElem? hfirst)

/-- It has its closing braces behind it. -/
theorem apart_of_not_mem_close (hb : '}' ∉ b) : Apart a b := by
  intro i s hi
  by_contra hacross
  rw [not_or] at hacross
  have hlen := hi.1.braces.2.2
  -- the last character of the slot is one of those behind the cut
  have hlast : (a ++ b)[i + (s.source.length - 1)]? = some '}' := by
    rw [hi.getElem? (by omega), ← List.getLast?_eq_getElem?, hi.1.getLast?_source]
  rw [List.getElem?_append_right (by omega)] at hlast
  exact hb (List.mem_of_getElem? hlast)

/-- And it has no at sign on either side. -/
theorem apart_at : Apart a ('@' :: b) := by
  intro i s hi
  by_contra hacross
  rw [not_or] at hacross
  have hat : (a ++ '@' :: b)[i + (a.length - i)]? = some '@' := by
    rw [List.getElem?_append_right (by omega)]
    simp [show i + (a.length - i) - a.length = 0 by omega]
  rw [hi.getElem? (by omega)] at hat
  exact hi.1.not_mem_at (List.mem_of_getElem? hat)

end Apart

/-! ### Pieces -/

section Pieces

variable {a b : Text} {s : Slot}

/-- **Texts that are apart are cut into pieces one after the other.** -/
theorem pieces_append (h : Apart a b) : pieces (a ++ b) = pieces a ++ pieces b := by
  fun_induction pieces a with
  | case1 => rfl
  | case2 c cs s rest hr ih =>
    obtain ⟨hs, ht⟩ := read?_eq_some_iff.1 hr
    have happ : c :: cs ++ b = s.source ++ (rest ++ b) := by rw [ht, List.append_assoc]
    have hread : read? (c :: cs ++ b) = some (s, rest ++ b) := by
      rw [happ]
      exact read?_append_of_isForm hs (rest ++ b)
    have hrest : Apart rest b := by
      intro i s' hi
      have hi' : OccursAt (c :: cs ++ b) (s.source.length + i) s' := by
        rw [happ]
        exact occursAt_append.2 hi
      have hlen := congrArg List.length ht
      rw [List.length_append] at hlen
      have := h _ _ hi'
      omega
    rw [pieces_of_read? hread, ih hrest]
    rfl
  | case3 c cs hr ih =>
    have hread : read? (c :: (cs ++ b)) = none := by
      cases hsome : read? (c :: (cs ++ b)) with
      | none => rfl
      | some found =>
        -- a slot at the beginning would have to end before the cut, and could be read there
        obtain ⟨s, rest⟩ := found
        obtain ⟨hs, ht⟩ := read?_eq_some_iff.1 hsome
        have hprefix : s.source <+: c :: cs ++ b := ⟨rest, ht.symm⟩
        have hle : s.source.length ≤ (c :: cs).length := by
          rcases h 0 s ⟨hs, hprefix⟩ with hle | hle
          · rwa [Nat.zero_add] at hle
          · simp at hle
        obtain ⟨rest', hrest'⟩ :=
          List.prefix_of_prefix_length_le hprefix (List.prefix_append (c :: cs) b) hle
        rw [← hrest', read?_append_of_isForm hs] at hr
        cases hr
    have hcs : Apart cs b := by
      intro i s' hi
      have hi' : OccursAt (c :: cs ++ b) (1 + i) s' := occursAt_append (p := [c]).2 hi
      have := h _ _ hi'
      rw [List.length_cons] at this
      omega
    rw [List.cons_append, pieces_of_read?_eq_none hread, ih hcs]
    rfl

/-- A character that is no opening brace is a piece of its own. -/
theorem pieces_cons {c : Char} (hc : c ≠ '{') (t : Text) :
    pieces (c :: t) = .verbatim c :: pieces t := by
  refine pieces_of_read?_eq_none ?_
  rw [read?]
  rintro inner he
  exact hc (List.cons.inj he).1

theorem pieces_of_not_mem {t : Text} (ht : '{' ∉ t) : pieces t = t.map .verbatim := by
  induction t with
  | nil => exact pieces_nil
  | cons c t ih =>
    rw [List.mem_cons, not_or] at ht
    rw [pieces_cons (Ne.symm ht.1), ih ht.2]
    rfl

theorem pieces_source (hs : s.IsForm) : pieces s.source = [.slot s] := by
  have hread : read? s.source = some (s, []) := by
    simpa using read?_append_of_isForm hs []
  rw [pieces_of_read? hread, pieces_nil]

/-- The pieces around a slot. -/
theorem pieces_around_slot (hs : s.IsForm) (a b : Text) :
    pieces (a ++ s.source ++ b) = pieces a ++ .slot s :: pieces b := by
  have hhere : OccursAt s.source 0 s := ⟨hs, List.prefix_rfl⟩
  have hbefore : Apart a s.source := hhere.apart_before
  rw [pieces_append hs.apart_behind, pieces_append hbefore, pieces_source hs]
  simp

/-- The pieces around an at sign and a path. -/
theorem pieces_around_reference {p : Text} (hp : '{' ∉ p) (a b : Text) :
    pieces (a ++ '@' :: p ++ b) = pieces a ++ ('@' :: p).map .verbatim ++ pieces b := by
  have hopen : '{' ∉ '@' :: p := by simpa using hp
  rw [List.append_assoc, List.cons_append, pieces_append apart_at, ← List.cons_append,
    pieces_append (apart_of_not_mem_open hopen), pieces_of_not_mem hopen, List.append_assoc]

end Pieces

/-! ### Filling -/

section Filling

variable {a b : Text} {s : Slot}

theorem fill_append (h : Apart a b) (value : Slot → Text) :
    fill value (a ++ b) = fill value a ++ fill value b := by
  rw [fill, pieces_append h, List.flatMap_append]
  rfl

/-- What is no slot is filled with itself. -/
theorem flatMap_fillPiece_verbatim (value : Slot → Text) (t : Text) :
    (t.map Piece.verbatim).flatMap (fillPiece value) = t := by
  induction t with
  | nil => rfl
  | cons c t ih =>
    rw [List.map_cons, List.flatMap_cons, ih]
    rfl

theorem fill_around_slot (hs : s.IsForm) (value : Slot → Text) (a b : Text) :
    fill value (a ++ s.source ++ b) = fill value a ++ value s ++ fill value b := by
  rw [fill, pieces_around_slot hs, List.flatMap_append, List.flatMap_cons, ← List.append_assoc]
  rfl

theorem fill_around_reference {p : Text} (hp : '{' ∉ p) (value : Slot → Text) (a b : Text) :
    fill value (a ++ '@' :: p ++ b) = fill value a ++ '@' :: p ++ fill value b := by
  rw [fill, pieces_around_reference hp, List.flatMap_append, List.flatMap_append,
    flatMap_fillPiece_verbatim]
  rfl

/-- A line feed at the end stays there. -/
theorem fill_concat_lf (value : Slot → Text) (t : Text) :
    fill value (t ++ ['\n']) = fill value t ++ ['\n'] := by
  have hlf : fill value ['\n'] = ['\n'] := by
    rw [fill, pieces_of_not_mem (by decide)]
    exact flatMap_fillPiece_verbatim value ['\n']
  rw [fill_append (apart_of_not_mem_close (by decide)), hlf]

/-- A line feed at the beginning stays there. -/
theorem fill_cons_lf (value : Slot → Text) (t : Text) :
    fill value ('\n' :: t) = '\n' :: fill value t := by
  rw [fill, pieces_cons (by decide), List.flatMap_cons]
  rfl

/-- Lines above a place are filled by themselves, whatever stands there. -/
theorem exists_lines_fill_above (value : Slot → Text) (above : List Text) :
    ∃ ls, ∀ t, Text.lines (fill value (above.flatMap (· ++ ['\n'])) ++ t) = ls ++ Text.lines t := by
  rcases List.eq_nil_or_concat above with rfl | ⟨others, line, rfl⟩
  · refine ⟨[], fun t => ?_⟩
    rw [List.flatMap_nil, fill, pieces_nil]
    rfl
  · refine ⟨Text.lines (fill value (others.flatMap (· ++ ['\n']) ++ line)), fun t => ?_⟩
    have htext : (others.concat line).flatMap (· ++ ['\n']) =
        others.flatMap (· ++ ['\n']) ++ line ++ ['\n'] := by simp
    rw [htext, fill_concat_lf, List.append_assoc, List.singleton_append, Text.lines_append_lf]

/-- So are lines below it. -/
theorem exists_lines_fill_below (value : Slot → Text) (below : List Text) :
    ∃ ls, ∀ t, Text.lines (t ++ fill value (below.flatMap ('\n' :: ·))) = Text.lines t ++ ls := by
  cases below with
  | nil =>
    refine ⟨[], fun t => ?_⟩
    rw [List.flatMap_nil, fill, pieces_nil, List.flatMap_nil, List.append_nil, List.append_nil]
  | cons line below =>
    refine ⟨Text.lines (fill value (line ++ below.flatMap ('\n' :: ·))), fun t => ?_⟩
    rw [List.flatMap_cons, List.cons_append, fill_cons_lf, Text.lines_append_lf]

end Filling

/-! ### A line with a slot -/

/-- A name that a slot can have. -/
structure IsName (name : Text) : Prop where
  /-- There is at least one character. -/
  ne_nil : name ≠ []
  /-- All characters may stand in a name. -/
  chars : ∀ c ∈ name, isNameChar c = true

/-- The slot with a name, with one space on either side of it. -/
def spaced (name : Text) : Slot := ⟨['{', '{', ' '] ++ name ++ [' ', '}', '}'], name⟩

theorem IsName.isForm_spaced {name : Text} (h : IsName name) : (spaced name).IsForm := by
  have hspace : ∀ c ∈ [' '], Text.isBlank c = true := List.forall_mem_singleton.2 rfl
  refine ⟨h.ne_nil, h.chars, [' '], [' '], hspace, hspace, ?_⟩
  simp [spaced]

end Slot

end MarkdownWeave
