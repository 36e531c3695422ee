import Mathlib.Data.List.TakeWhile
import Mathlib.Tactic.ByContra
import MarkdownWeave.Compile.Slot
import MarkdownWeave.Proofs.Lists

/-!
# Occurrences of slots

A slot occurs at a place of a text if the text goes on there with two braces, white space, a name,
white space and two braces.  Nothing is said here about how a text is read.  Two occurrences never
overlap, because a slot has its opening braces at its beginning and nowhere else; so reading from
left to right finds all of them.

## Main definitions

* `Slot.IsForm s` — the slot `s` has the form of one.
* `Slot.OccursAt t i s` — the slot `s` occurs in `t` behind the first `i` characters.
* `Slot.located` — the slots among pieces, each with its place.
* `Slot.CutsAt t ps` — the pieces `ps` are the text `t`, cut at all its slots.

## Main results

* `Slot.read?_eq_some_iff` — a text begins with a slot if it goes on with something in its form.
* `Slot.OccursAt.disjoint` — **occurrences do not overlap.**
* `Slot.cutsAt_pieces` — **reading from left to right finds every occurrence.**
-/

namespace MarkdownWeave

namespace Slot

/-! ### The form of a slot -/

/-- A slot in the form of one: a name between double braces, with or without white space around. -/
structure IsForm (s : Slot) : Prop where
  /-- There is a name. -/
  name_ne_nil : s.name ≠ []
  /-- The name has only characters that may stand in one. -/
  name_chars : ∀ c ∈ s.name, isNameChar c = true
  /-- Around it there is only white space up to the braces. -/
  source_eq : ∃ left right : Text, (∀ c ∈ left, Text.isBlank c = true) ∧
    (∀ c ∈ right, Text.isBlank c = true) ∧
      s.source = '{' :: '{' :: left ++ s.name ++ right ++ ['}', '}']

/-- No character of a name is white space. -/
theorem isBlank_eq_false_of_isNameChar {c : Char} (h : isNameChar c = true) :
    Text.isBlank c = false := by
  simp only [isNameChar, Bool.or_eq_true, beq_iff_eq] at h
  rcases h with ((h | h) | rfl) | rfl
  · exact Text.isBlank_eq_false_of_isLetter h
  · exact Text.isBlank_eq_false_of_isDigit h
  · rfl
  · rfl

theorem isNameChar_eq_false_of_isBlank {c : Char} (h : Text.isBlank c = true) :
    isNameChar c = false := by
  rw [← Bool.not_eq_true]
  intro hn
  rw [isBlank_eq_false_of_isNameChar hn] at h
  exact Bool.false_ne_true h

/-- What is in the form of a slot is read as one. -/
theorem read?_append_of_isForm {s : Slot} (h : s.IsForm) (rest : Text) :
    read? (s.source ++ rest) = some (s, rest) := by
  obtain ⟨source, name⟩ := s
  obtain ⟨hne, hname, left, right, hleft, hright, hsource⟩ := h
  dsimp only at hne hname hsource
  obtain ⟨n, ns, rfl⟩ := List.exists_cons_of_ne_nil hne
  have hlr : ∀ c, ((right ++ '}' :: '}' :: rest)).head? = some c → isNameChar c = false := by
    intro c hc
    cases right with
    | nil => cases hc; rfl
    | cons r rs =>
      obtain rfl : r = c := Option.some.inj hc
      exact isNameChar_eq_false_of_isBlank (hright r List.mem_cons_self)
  obtain ⟨htl, hdl⟩ := takeWhile_dropWhile_append (b := (n :: ns) ++ (right ++ '}' :: '}' :: rest))
    hleft (by rintro c ⟨⟩; exact isBlank_eq_false_of_isNameChar (hname n List.mem_cons_self))
  obtain ⟨htn, hdn⟩ := takeWhile_dropWhile_append hname hlr
  obtain ⟨htr, hdr⟩ := takeWhile_dropWhile_append (b := '}' :: '}' :: rest) hright
    (by rintro c ⟨⟩; rfl)
  have hinner : source ++ rest =
      '{' :: '{' :: (left ++ ((n :: ns) ++ (right ++ '}' :: '}' :: rest))) := by
    rw [hsource]
    simp
  rw [hinner, read?, htl, hdl, htn, hdn, htr, hdr, hsource]
  rfl

/-- **A text begins with a slot exactly if it goes on with something in the form of one.** -/
theorem read?_eq_some_iff {t rest : Text} {s : Slot} :
    read? t = some (s, rest) ↔ s.IsForm ∧ t = s.source ++ rest := by
  constructor
  · intro h
    refine ⟨?_, eq_append_of_read? h⟩
    unfold read? at h
    split at h
    · next inner =>
      dsimp only at h
      split at h
      · next n ns rest' hn hr =>
        obtain ⟨rfl, rfl⟩ := Prod.mk.inj (Option.some.inj h)
        refine ⟨?_, fun c hc => List.mem_takeWhile_imp hc,
          _, _, fun c hc => List.mem_takeWhile_imp hc, fun c hc => List.mem_takeWhile_imp hc, rfl⟩
        exact fun he => List.cons_ne_nil _ _ (hn.symm.trans he)
      · cases h
    · cases h
  · rintro ⟨hs, rfl⟩
    exact read?_append_of_isForm hs rest

/-! ### Places -/

/-- The slot `s` occurs in the text `t` behind its first `i` characters. -/
def OccursAt (t : Text) (i : Nat) (s : Slot) : Prop := s.IsForm ∧ s.source <+: t.drop i

/-- Behind its first two characters a slot has no opening brace. -/
theorem IsForm.ne_brace {s : Slot} (h : s.IsForm) {k : Nat} (hk : 2 ≤ k) :
    s.source[k]? ≠ some '{' := by
  obtain ⟨left, right, hleft, hright, hsource⟩ := h.source_eq
  obtain ⟨j, rfl⟩ : ∃ j, k = j + 2 := ⟨k - 2, by omega⟩
  intro hb
  have hmem : '{' ∈ left ++ s.name ++ right ++ ['}', '}'] := by
    rw [hsource] at hb
    exact List.mem_of_getElem? hb
  simp only [List.mem_append, List.mem_cons, List.not_mem_nil, or_false] at hmem
  rcases hmem with ((hm | hm) | hm) | hm
  · exact absurd (hleft _ hm) (by decide)
  · exact absurd (h.name_chars _ hm) (by decide)
  · exact absurd (hright _ hm) (by decide)
  · revert hm; decide

/-- It has two of them at its beginning. -/
theorem IsForm.braces {s : Slot} (h : s.IsForm) :
    s.source[0]? = some '{' ∧ s.source[1]? = some '{' ∧ 3 ≤ s.source.length := by
  obtain ⟨left, right, -, -, hsource⟩ := h.source_eq
  rw [hsource]
  exact ⟨rfl, rfl, by simp only [List.cons_append, List.length_cons, List.length_append]; omega⟩

/-- An occurrence is read where it is. -/
theorem OccursAt.read? {t : Text} {i : Nat} {s : Slot} (h : OccursAt t i s) :
    ∃ rest, Slot.read? (t.drop i) = some (s, rest) := by
  obtain ⟨hs, rest, hrest⟩ := h
  exact ⟨rest, read?_eq_some_iff.2 ⟨hs, hrest.symm⟩⟩

/-- An occurrence has its characters in the text. -/
theorem OccursAt.getElem? {t : Text} {i k : Nat} {s : Slot} (h : OccursAt t i s)
    (hk : k < s.source.length) : t[i + k]? = s.source[k]? := by
  obtain ⟨rest, hrest⟩ := h.2
  rw [← List.getElem?_drop, ← hrest, List.getElem?_append_left hk]

/-- At one place there is at most one occurrence. -/
theorem OccursAt.unique {t : Text} {i : Nat} {s s' : Slot} (h : OccursAt t i s)
    (h' : OccursAt t i s') : s = s' := by
  obtain ⟨rest, hr⟩ := h.read?
  obtain ⟨rest', hr'⟩ := h'.read?
  rw [hr] at hr'
  exact congrArg Prod.fst (Option.some.inj hr')

/-- An occurrence that begins later than another begins behind it. -/
theorem OccursAt.le_of_lt {t : Text} {i j : Nat} {s s' : Slot} (h : OccursAt t i s)
    (h' : OccursAt t j s') (hij : i < j) : i + s.source.length ≤ j := by
  by_contra hlt
  obtain ⟨h0, h1, hlen⟩ := h'.1.braces
  obtain ⟨k, rfl⟩ : ∃ k, j = i + k := ⟨j - i, by omega⟩
  have hk : k < s.source.length := by omega
  by_cases hk2 : 2 ≤ k
  · -- the first brace of the later one would be inside of the earlier one
    have hat := h'.getElem? (k := 0) (by omega)
    rw [Nat.add_zero, h.getElem? hk, h0] at hat
    exact h.1.ne_brace hk2 hat
  · -- it would be the second brace of the earlier one, and then its own second one is inside
    obtain rfl : k = 1 := by omega
    have hat := h'.getElem? (k := 1) (by omega)
    rw [Nat.add_assoc, h.getElem? (k := 2) (by have := h.1.braces; omega), h1] at hat
    exact h.1.ne_brace le_rfl hat

/-- **Occurrences do not overlap**: of two that are not the same, one ends before the other. -/
theorem OccursAt.disjoint {t : Text} {i j : Nat} {s s' : Slot} (h : OccursAt t i s)
    (h' : OccursAt t j s') :
    (i = j ∧ s = s') ∨ i + s.source.length ≤ j ∨ j + s'.source.length ≤ i := by
  rcases Nat.lt_trichotomy i j with hij | rfl | hij
  · exact Or.inr (Or.inl (h.le_of_lt h' hij))
  · exact Or.inl ⟨rfl, h.unique h'⟩
  · exact Or.inr (Or.inr (h'.le_of_lt h hij))

/-! ### Cutting -/

/-- The slots among pieces, each with the number of characters before it; `i` characters stand
before the first piece. -/
def located (i : Nat) : List Piece → List (Nat × Slot)
  | [] => []
  | p :: ps => (p.slot?.map fun s => (i, s)).toList ++ located (i + p.source.length) ps

/-- Pieces that are a text, cut at all its slots: put together again they are the text, and the
slots among them are its occurrences. -/
structure CutsAt (t : Text) (ps : List Piece) : Prop where
  /-- Nothing is lost or moved. -/
  source_eq : ps.flatMap Piece.source = t
  /-- The slots are the occurrences, at their places. -/
  mem_located : ∀ i s, (i, s) ∈ located 0 ps ↔ OccursAt t i s

@[simp] theorem located_nil (i : Nat) : located i [] = [] := rfl

@[simp] theorem located_verbatim (i : Nat) (c : Char) (ps : List Piece) :
    located i (.verbatim c :: ps) = located (i + 1) ps := rfl

@[simp] theorem located_slot (i : Nat) (s : Slot) (ps : List Piece) :
    located i (.slot s :: ps) = (i, s) :: located (i + s.source.length) ps := rfl

/-- The places of slots count from the number of characters before the first piece. -/
theorem mem_located {i k : Nat} {s : Slot} {ps : List Piece} :
    (i, s) ∈ located k ps ↔ ∃ j, i = k + j ∧ (j, s) ∈ located 0 ps := by
  induction ps generalizing i k with
  | nil => simp
  | cons p ps ih =>
    cases p with
    | verbatim c =>
      rw [located_verbatim, located_verbatim, ih]
      constructor
      · rintro ⟨j, rfl, hj⟩
        exact ⟨1 + j, by omega, ih.2 ⟨j, by omega, hj⟩⟩
      · rintro ⟨l, rfl, hl⟩
        obtain ⟨j, rfl, hj⟩ := ih.1 hl
        exact ⟨j, by omega, hj⟩
    | slot r =>
      rw [located_slot, located_slot, List.mem_cons, ih]
      constructor
      · rintro (he | ⟨j, rfl, hj⟩)
        · cases he
          exact ⟨0, rfl, List.mem_cons_self⟩
        · exact ⟨r.source.length + j, by omega, List.mem_cons_of_mem _ (ih.2 ⟨j, by omega, hj⟩)⟩
      · rintro ⟨l, rfl, hl⟩
        rcases List.mem_cons.1 hl with he | hl
        · cases he
          exact Or.inl rfl
        · obtain ⟨j, rfl, hj⟩ := ih.1 hl
          exact Or.inr ⟨j, by omega, hj⟩

theorem occursAt_append {p t : Text} {i : Nat} {s : Slot} :
    OccursAt (p ++ t) (p.length + i) s ↔ OccursAt t i s := by
  rw [OccursAt, OccursAt, List.drop_append, List.drop_of_length_le (by omega), List.nil_append,
    Nat.add_sub_cancel_left]

/-- In an empty text there is no slot. -/
theorem not_occursAt_nil {i : Nat} {s : Slot} : ¬ OccursAt [] i s := by
  rintro ⟨hs, hp⟩
  obtain ⟨-, -, hlen⟩ := hs.braces
  have hle := hp.length_le
  rw [List.drop_nil, List.length_nil] at hle
  omega

/-- A text that begins with a slot has this one, and those behind it. -/
theorem occursAt_source_append {s : Slot} (hs : s.IsForm) (rest : Text) {i : Nat} {s' : Slot} :
    OccursAt (s.source ++ rest) i s' ↔
      (i = 0 ∧ s' = s) ∨ ∃ j, i = s.source.length + j ∧ OccursAt rest j s' := by
  have hhere : OccursAt (s.source ++ rest) 0 s := ⟨hs, List.prefix_append _ _⟩
  constructor
  · intro hi
    -- every other occurrence begins behind the one at the beginning
    rcases hhere.disjoint hi with ⟨rfl, rfl⟩ | hle | hle
    · exact Or.inl ⟨rfl, rfl⟩
    · obtain ⟨j, rfl⟩ := Nat.exists_eq_add_of_le hle
      rw [Nat.zero_add, occursAt_append] at hi
      exact Or.inr ⟨j, by omega, hi⟩
    · obtain ⟨-, -, hlen⟩ := hi.1.braces
      omega
  · rintro (⟨rfl, rfl⟩ | ⟨j, rfl, hj⟩)
    · exact hhere
    · exact occursAt_append.2 hj

/-- **Reading a text from left to right finds every occurrence of a slot, and nothing else.** -/
theorem cutsAt_pieces (t : Text) : CutsAt t (pieces t) := by
  refine ⟨source_pieces t, ?_⟩
  fun_induction pieces t with
  | case1 =>
    intro i s
    simp only [located_nil, List.not_mem_nil, false_iff]
    exact not_occursAt_nil
  | case2 c cs s rest h ih =>
    intro i s'
    obtain ⟨hs, ht⟩ := read?_eq_some_iff.1 h
    rw [located_slot, List.mem_cons, mem_located, ht, occursAt_source_append hs, Prod.mk.injEq,
      Nat.zero_add]
    exact or_congr_right (exists_congr fun j => and_congr_right fun _ => ih j s')
  | case3 c cs h ih =>
    intro i s
    rw [located_verbatim, mem_located]
    constructor
    · rintro ⟨j, rfl, hj⟩
      exact occursAt_append (p := [c]).2 ((ih j s).1 hj)
    · intro hi
      cases i with
      | zero =>
        obtain ⟨rest, hr⟩ := hi.read?
        rw [List.drop_zero, h] at hr
        cases hr
      | succ j =>
        rw [Nat.add_comm] at hi
        exact ⟨j, by omega, (ih j s).2 (occursAt_append (p := [c]).1 hi)⟩

end Slot

end MarkdownWeave
