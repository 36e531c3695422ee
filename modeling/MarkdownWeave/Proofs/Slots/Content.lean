import Mathlib.Data.Set.Card
import MarkdownWeave.Compile.Inheritance
import MarkdownWeave.Proofs.Slots.Cutting
import MarkdownWeave.Proofs.Slots.Requests

/-!
# The slot for a child is a slot

A merge looks for the place of the child with a pattern of its own, and a substitution looks for
slots with another one.  All the same they see one language: what the first pattern finds are the
slots with the name `content`, at the same places, and each pattern finds all that there is.  So the
number of marks that a merge counts is a number of substrings, and a mark that is left after all
merges is a slot to be filled.

## Main definitions

* `ContentSlot.IsForm` — the form of a mark.
* `ContentSlot.places` — where a text has something in this form.

## Main results

* `ContentSlot.mem_spans` — **looking from left to right finds every mark.**
* `ContentSlot.spans_eq_located` — **the marks are the slots with the name `content`.**
* `ContentSlot.length_spans` — what a merge counts.
* `mergeBodies_of_mark` — the child takes the place of the one mark, as it is.
* `contentSlot_agrees` — merges and substitutions agree on what a slot is.
-/

namespace MarkdownWeave

namespace ContentSlot

open Slot (OccursAt)

/-! ### The form of a mark -/

/-- A mark in its form: the word between double braces, with or without white space around. -/
def IsForm (mark : Text) : Prop :=
  ∃ left right : Text, (∀ c ∈ left, Text.isBlank c = true) ∧ (∀ c ∈ right, Text.isBlank c = true) ∧
    mark = '{' :: '{' :: left ++ contentName ++ right ++ ['}', '}']

/-- A mark is a slot with the name for it. -/
theorem isForm_iff {mark : Text} : IsForm mark ↔ (⟨mark, contentName⟩ : Slot).IsForm := by
  constructor
  · intro h
    have hne : contentName ≠ [] := by decide
    have hchars : ∀ c ∈ contentName, Slot.isNameChar c = true := List.all_eq_true.1 (by decide)
    exact ⟨hne, hchars, h⟩
  · intro h
    exact h.source_eq

/-- **A text begins with a mark exactly if it goes on with something in the form of one.** -/
theorem behind?_eq_some_iff {t rest : Text} :
    behind? t = some rest ↔ ∃ mark, IsForm mark ∧ t = mark ++ rest := by
  simp only [behind?, Option.bind_eq_bind, Option.bind_eq_some_iff,
    List.isPrefixOf?_eq_some_iff_append_eq]
  constructor
  · rintro ⟨inner, rfl, padded, hword, hclose⟩
    refine ⟨_, ⟨inner.takeWhile Text.isBlank, padded.takeWhile Text.isBlank,
      fun c hc => List.mem_takeWhile_imp hc, fun c hc => List.mem_takeWhile_imp hc, rfl⟩, ?_⟩
    change '}' :: '}' :: rest = _ at hclose
    simp only [List.cons_append, List.append_assoc, List.nil_append]
    rw [hclose, List.takeWhile_append_dropWhile, hword, List.takeWhile_append_dropWhile]
  · rintro ⟨mark, ⟨left, right, hleft, hright, rfl⟩, rfl⟩
    obtain ⟨-, hpadded⟩ := takeWhile_dropWhile_append (b := '}' :: '}' :: rest) hright
      (by rintro c ⟨⟩; rfl)
    obtain ⟨-, hinner⟩ := takeWhile_dropWhile_append
      (b := contentName ++ (right ++ '}' :: '}' :: rest)) hleft (by rintro c ⟨⟩; rfl)
    refine ⟨left ++ (contentName ++ (right ++ '}' :: '}' :: rest)), by simp,
      right ++ '}' :: '}' :: rest, hinner.symm, hpadded.symm⟩

/-! ### Places -/

/-- Where a text has something in the form of a mark: how many characters stand before it, and how
many before what stands behind it. -/
def places (t : Text) : Set (Nat × Nat) :=
  {p | ∃ before mark behind, t = before ++ mark ++ behind ∧ IsForm mark ∧
    p = (before.length, before.length + mark.length)}

variable {t : Text} {i j k : Nat}

/-- The places of marks are those of the slots with the name for it. -/
theorem mem_places_iff :
    (i, j) ∈ places t ↔
      ∃ s, OccursAt t i s ∧ s.name = contentName ∧ j = i + s.source.length := by
  constructor
  · rintro ⟨before, mark, behind, rfl, hmark, he⟩
    obtain ⟨rfl, rfl⟩ := Prod.mk.inj he
    refine ⟨⟨mark, contentName⟩, ⟨isForm_iff.1 hmark, behind, ?_⟩, rfl, rfl⟩
    rw [List.append_assoc, List.drop_left]
  · rintro ⟨⟨mark, name⟩, ⟨hs, behind, hbehind⟩, rfl, rfl⟩
    have hlen := congrArg List.length hbehind
    have hpos := hs.braces.2.2
    rw [List.length_append, List.length_drop] at hlen
    refine ⟨t.take i, mark, behind, ?_, isForm_iff.2 hs, ?_⟩
    · rw [List.append_assoc, hbehind, List.take_append_drop]
    · rw [List.length_take, Nat.min_eq_left (by omega)]

/-- **Looking from left to right finds every mark**, with `k` characters before the text. -/
theorem mem_spansFrom :
    (i, j) ∈ spansFrom k t ↔ ∃ l, i = k + l ∧
      ∃ s, OccursAt t l s ∧ s.name = contentName ∧ j = i + s.source.length := by
  fun_induction spansFrom k t with
  | case1 k =>
    simp only [List.not_mem_nil, false_iff]
    rintro ⟨l, -, s, hs, -⟩
    exact Slot.not_occursAt_nil hs
  | case2 k c cs rest h ih =>
    obtain ⟨mark, hmark, ht⟩ := behind?_eq_some_iff.1 h
    have hs : (⟨mark, contentName⟩ : Slot).IsForm := isForm_iff.1 hmark
    have hskip : (c :: cs).length - rest.length = mark.length := by
      rw [ht, List.length_append, Nat.add_sub_cancel]
    rw [hskip] at ih ⊢
    rw [List.mem_cons, ih, ht]
    constructor
    · rintro (he | ⟨l, rfl, s, hl, hname, rfl⟩)
      · obtain ⟨rfl, rfl⟩ := Prod.mk.inj he
        exact ⟨0, rfl, _, (Slot.occursAt_source_append hs rest).2 (Or.inl ⟨rfl, rfl⟩), rfl, rfl⟩
      · refine ⟨mark.length + l, by omega, s, ?_, hname, by omega⟩
        exact (Slot.occursAt_source_append hs rest).2 (Or.inr ⟨l, rfl, hl⟩)
    · rintro ⟨l, rfl, s, hl, hname, rfl⟩
      rcases (Slot.occursAt_source_append hs rest).1 hl with ⟨rfl, rfl⟩ | ⟨m, rfl, hm⟩
      · exact Or.inl rfl
      · exact Or.inr ⟨m, (Nat.add_assoc k mark.length m).symm, s, hm, hname, rfl⟩
  | case3 k c cs h ih =>
    rw [ih]
    constructor
    · rintro ⟨l, rfl, s, hl, hname, rfl⟩
      exact ⟨1 + l, by omega, s, Slot.occursAt_append (p := [c]).2 hl, hname, rfl⟩
    · rintro ⟨l, rfl, s, hl, hname, rfl⟩
      cases l with
      | zero =>
        -- a slot at the beginning has another name, since there is no mark
        obtain ⟨hs, rest, hrest⟩ := hl
        obtain ⟨mark, name⟩ := s
        obtain rfl : name = contentName := hname
        rw [List.drop_zero] at hrest
        rw [behind?_eq_some_iff.2 ⟨mark, isForm_iff.2 hs, hrest.symm⟩] at h
        cases h
      | succ l =>
        rw [Nat.add_comm l 1] at hl
        exact ⟨l, by omega, s, Slot.occursAt_append (p := [c]).1 hl, hname, by omega⟩

theorem mem_spans {p : Nat × Nat} : p ∈ spans t ↔ p ∈ places t := by
  obtain ⟨i, j⟩ := p
  rw [spans, mem_spansFrom, mem_places_iff]
  constructor
  · rintro ⟨l, rfl, h⟩
    rwa [Nat.zero_add] at h ⊢
  · intro h
    exact ⟨i, (Nat.zero_add i).symm, h⟩

/-- **Marks do not overlap.** -/
theorem disjoint_of_mem_places {p q : Nat × Nat} (hp : p ∈ places t) (hq : q ∈ places t) :
    p = q ∨ p.2 ≤ q.1 ∨ q.2 ≤ p.1 := by
  obtain ⟨i, j⟩ := p
  obtain ⟨k, l⟩ := q
  obtain ⟨s, hs, -, rfl⟩ := mem_places_iff.1 hp
  obtain ⟨s', hs', -, rfl⟩ := mem_places_iff.1 hq
  rcases hs.disjoint hs' with ⟨rfl, rfl⟩ | h
  · exact Or.inl rfl
  · exact Or.inr h

/-- They are found in the order in which they stand. -/
theorem pairwise_spansFrom (k : Nat) (t : Text) :
    (spansFrom k t).Pairwise fun p q => p.1 < q.1 := by
  fun_induction spansFrom k t with
  | case1 => exact List.Pairwise.nil
  | case2 k c cs rest h ih =>
    refine List.pairwise_cons.2 ⟨?_, ih⟩
    rintro ⟨i, j⟩ hi
    obtain ⟨l, rfl, -⟩ := mem_spansFrom.1 hi
    have hlt := length_lt_of_behind? h
    show k < k + ((c :: cs).length - rest.length) + l
    omega
  | case3 k c cs h ih => exact ih

/-- What stands in the order of its places is there only once. -/
theorem nodup_of_increasing {L : List (Nat × Nat)} (h : L.Pairwise fun p q => p.1 < q.1) :
    L.Nodup := by
  refine h.imp ?_
  rintro p q hlt rfl
  exact Nat.lt_irrefl _ hlt

/-! ### One language -/

/-- **The marks that a merge finds are the slots with the name for them**, in the same order and at
the same places. -/
theorem spans_eq_located (t : Text) :
    spans t = ((Slot.located 0 (Slot.pieces t)).filter fun l => l.2.name == contentName).map
      fun l => (l.1, l.1 + l.2.source.length) := by
  have hspans := pairwise_spansFrom 0 t
  have hslots : (((Slot.located 0 (Slot.pieces t)).filter fun l => l.2.name == contentName).map
      fun l => (l.1, l.1 + l.2.source.length)).Pairwise fun p q => p.1 < q.1 :=
    List.pairwise_map.2 ((Slot.pairwise_located_pieces t).filter _)
  -- both lists are in order, so that it is enough that they have the same members
  refine List.Perm.eq_of_pairwise (fun p q _ _ hpq hqp => absurd hpq (Nat.lt_asymm hqp)) hspans
    hslots ((List.perm_ext_iff_of_nodup (nodup_of_increasing hspans)
      (nodup_of_increasing hslots)).2 ?_)
  · rintro ⟨i, j⟩
    rw [← spans, mem_spans, mem_places_iff, List.mem_map]
    constructor
    · rintro ⟨s, hs, hname, rfl⟩
      have hmem := ((Slot.cutsAt_pieces t).mem_located i s).2 hs
      exact ⟨(i, s), List.mem_filter.2 ⟨hmem, beq_iff_eq.2 hname⟩, rfl⟩
    · rintro ⟨⟨l, s⟩, hl, he⟩
      obtain ⟨rfl, rfl⟩ := Prod.mk.inj he
      obtain ⟨hmem, hname⟩ := List.mem_filter.1 hl
      exact ⟨s, ((Slot.cutsAt_pieces t).mem_located l s).1 hmem, eq_of_beq hname, rfl⟩

/-- **What a merge counts is the number of marks in the parent.** -/
theorem length_spans (t : Text) : (spans t).length = (places t).ncard := by
  have hplaces : places t = (spans t).toFinset := by
    ext p
    rw [Finset.mem_coe, List.mem_toFinset, mem_spans]
  have hnodup : (spans t).Nodup := nodup_of_increasing (pairwise_spansFrom 0 t)
  rw [hplaces, Set.ncard_coe_finset, List.toFinset_card_of_nodup hnodup]

/-- What takes the place of the one mark comes between what stands before it and behind it. -/
theorem replace_of_mark {before mark behind : Text} (hmark : IsForm mark)
    (h : (spans (before ++ mark ++ behind)).length = 1) (new : Text) :
    replace (before ++ mark ++ behind) new = before ++ new ++ behind := by
  obtain ⟨p, hp⟩ := List.length_eq_one_iff.1 h
  have hmem : (before.length, before.length + mark.length) ∈ spans (before ++ mark ++ behind) :=
    mem_spans.2 ⟨before, mark, behind, rfl, hmark, rfl⟩
  rw [hp, List.mem_singleton] at hmem
  rw [replace, hp, ← hmem]
  show (before ++ mark ++ behind).take _ ++ new ++ (before ++ mark ++ behind).drop _ = _
  rw [← List.length_append, List.drop_left, List.append_assoc before, List.take_left]

end ContentSlot

/-! ### Merges -/

section Merges

variable {parent child : Text}

open ContentSlot (IsForm places)

/-- Without a mark the child comes behind the parent. -/
theorem mergeBodies_of_no_mark (h : (places parent).ncard = 0) (child : Text) :
    mergeBodies parent child =
      .ok (if parent = [] ∨ child = [] then parent ++ child
        else parent ++ ['\n', '\n'] ++ child) := by
  rw [← ContentSlot.length_spans] at h
  rw [mergeBodies, h]
  simp only [Bool.or_eq_true, List.isEmpty_iff]

/-- **The child takes the place of the one mark, as it is.** -/
theorem mergeBodies_of_mark {before mark behind : Text} (hmark : IsForm mark)
    (h : (places (before ++ mark ++ behind)).ncard = 1) (child : Text) :
    mergeBodies (before ++ mark ++ behind) child = .ok (before ++ child ++ behind) := by
  rw [← ContentSlot.length_spans] at h
  rw [mergeBodies, h]
  exact congrArg Except.ok (ContentSlot.replace_of_mark hmark h child)

/-- With more than one mark there is no place for the child. -/
theorem mergeBodies_of_marks (h : 2 ≤ (places parent).ncard) (child : Text) :
    mergeBodies parent child = .error (.multipleContentSlots (places parent).ncard) := by
  rw [← ContentSlot.length_spans] at h ⊢
  unfold mergeBodies
  split
  · omega
  · omega
  · rfl

end Merges

/-! ### A mark that is left -/

section Left

variable {answers : Answers} {d : Document} {before mark behind : Text}

open ContentSlot (IsForm)

/-- A mark in a body asks for the name for it. -/
theorem contentName_mem_names (hd : d.body = before ++ mark ++ behind) (hmark : IsForm mark) :
    contentName ∈ Slot.names d.body := by
  refine Slot.mem_names.2 ⟨before.length, ⟨mark, contentName⟩, ⟨ContentSlot.isForm_iff.1 hmark, ?_⟩,
    rfl⟩
  rw [hd, List.append_assoc, List.drop_left]
  exact List.prefix_append mark behind

/-- Where the name has no value, a mark that is left ends a substitution. -/
theorem Answers.substitute_mark_undefined (hd : d.body = before ++ mark ++ behind)
    (hmark : IsForm mark) (h : d.metadata.has contentName = false) :
    ∃ name ∈ Slot.names d.body, d.metadata.has name = false ∧
      answers.substitute d = .fail (undefinedName name d.metadata) := by
  have hsome : ((Slot.names d.body).find? fun name => !d.metadata.has name).isSome = true := by
    rw [List.find?_isSome]
    exact ⟨contentName, contentName_mem_names hd hmark, by rw [h]; rfl⟩
  obtain ⟨name, hfind⟩ := Option.isSome_iff_exists.1 hsome
  have hundefined := List.find?_some (p := fun name => !d.metadata.has name) hfind
  exact ⟨name, List.mem_of_find?_eq_some hfind, by simpa using hundefined,
    Answers.substitute_of_undefined hfind⟩

/-- Otherwise it is filled with the text of the value, like every other slot. -/
theorem Answers.substitute_mark (hd : d.body = before ++ mark ++ behind) (hmark : IsForm mark)
    {d' : Document} (h : (answers.substitute d).outcome = .ok d') :
    ∃ v t, d.get? contentName = some v ∧ (answers.render v).outcome = .ok t ∧
      d'.body =
        Slot.fill (fun s => (answers.textOf? d.metadata s.name).getD s.source) before ++ t ++
          Slot.fill (fun s => (answers.textOf? d.metadata s.name).getD s.source) behind := by
  obtain ⟨hprovides, -, hbody⟩ := Answers.substitute_ok_iff.1 h
  obtain ⟨t, ht⟩ := hprovides contentName (contentName_mem_names hd hmark)
  obtain ⟨v, hv, hr⟩ := Answers.textOf?_eq_some_iff.1 ht
  have hslot : (⟨mark, contentName⟩ : Slot).IsForm := ContentSlot.isForm_iff.1 hmark
  refine ⟨v, t, hv, hr, ?_⟩
  rw [hbody, hd, Slot.fill_around_slot hslot, ht]
  rfl

end Left

/-! ### The whole of it -/

/-- **Merges and substitutions agree on what a slot is.**  In every text the marks that a merge finds
are the slots with the name `content`, in the same order and at the same places; they are all the
substrings in the form of a mark, and these do not overlap.  So a merge puts the child behind a
parent without such a substring, in the place of the one that there is, as it is, and fails with
their number if there are more.  One that is left in a body is a slot for the variable `content`: a
substitution fails if there is no value for it, and otherwise puts the text of the value there. -/
theorem contentSlot_agrees (parent child : Text) (answers : Answers) (d : Document) :
    (∀ t, ContentSlot.spans t =
        ((Slot.located 0 (Slot.pieces t)).filter fun l => l.2.name == contentName).map
          fun l => (l.1, l.1 + l.2.source.length)) ∧
      (∀ t p, p ∈ ContentSlot.spans t ↔ p ∈ ContentSlot.places t) ∧
      (∀ t, ∀ p ∈ ContentSlot.places t, ∀ q ∈ ContentSlot.places t,
        p = q ∨ p.2 ≤ q.1 ∨ q.2 ≤ p.1) ∧
      ((ContentSlot.places parent).ncard = 0 →
        mergeBodies parent child =
          .ok (if parent = [] ∨ child = [] then parent ++ child
            else parent ++ ['\n', '\n'] ++ child)) ∧
      ((ContentSlot.places parent).ncard = 1 →
        ∃ before mark behind, parent = before ++ mark ++ behind ∧ ContentSlot.IsForm mark ∧
          mergeBodies parent child = .ok (before ++ child ++ behind)) ∧
      (2 ≤ (ContentSlot.places parent).ncard →
        mergeBodies parent child =
          .error (.multipleContentSlots (ContentSlot.places parent).ncard)) ∧
      ∀ before mark behind, d.body = before ++ mark ++ behind → ContentSlot.IsForm mark →
        (d.metadata.has contentName = false → ∃ name ∈ Slot.names d.body,
          d.metadata.has name = false ∧
            answers.substitute d = .fail (undefinedName name d.metadata)) ∧
        ∀ d', (answers.substitute d).outcome = .ok d' →
          ∃ v t, d.get? contentName = some v ∧ (answers.render v).outcome = .ok t ∧
            d'.body =
              Slot.fill (fun s => (answers.textOf? d.metadata s.name).getD s.source) before ++ t ++
                Slot.fill (fun s => (answers.textOf? d.metadata s.name).getD s.source) behind := by
  refine ⟨ContentSlot.spans_eq_located, fun t p => ContentSlot.mem_spans,
    fun t p hp q hq => ContentSlot.disjoint_of_mem_places hp hq,
    fun h => mergeBodies_of_no_mark h child, ?_, fun h => mergeBodies_of_marks h child, ?_⟩
  · intro h
    obtain ⟨p, hp⟩ := Set.ncard_eq_one.1 h
    obtain ⟨before, mark, behind, rfl, hmark, -⟩ : p ∈ ContentSlot.places parent := by simp [hp]
    exact ⟨before, mark, behind, rfl, hmark, mergeBodies_of_mark hmark h child⟩
  · intro before mark behind hd hmark
    exact ⟨Answers.substitute_mark_undefined hd hmark, fun d' h => Answers.substitute_mark hd hmark h⟩

/-- A body with one mark, which goes over two lines and stands between more braces, and with slots
and braces that look like one. -/
def markedBody : Text :=
  "\x7b\x7b\x7b\x7b\u2003content\n\x7d\x7d\x7d\x7d{{contents}}{{Content}}{ {content}}"

/-- A child that looks like a replacement, and like a mark. -/
def markedChild : Text := "$0 ${1} {{ content }}."

/-- The child comes into the one mark as it is, and behind a body without one; two marks are too
many.  The mark in the child is filled later on, if there is a value for it. -/
theorem contentSlot_markedBody :
    (∃ before mark behind, markedBody = before ++ mark ++ behind ∧ ContentSlot.IsForm mark ∧
        mergeBodies markedBody markedChild = .ok (before ++ markedChild ++ behind)) ∧
      mergeBodies markedBody markedChild =
        .ok "{{$0 ${1} {{ content }}.}}{{contents}}{{Content}}{ {content}}" ∧
      mergeBodies "{{contents}}" markedChild =
        .ok "{{contents}}\n\n$0 ${1} {{ content }}." ∧
      mergeBodies "{{content}}{{ content}}" markedChild = .error (.multipleContentSlots 2) ∧
      (∃ name ∈ Slot.names markedChild,
        Answers.substitute (fun p => .error (.documentNotFound p)) ⟨[], markedChild⟩ =
          .fail (undefinedName name [])) ∧
      ∃ v t, Document.get? ⟨[(.text "content", .text "{{x}}")], markedChild⟩ contentName = some v ∧
        (Answers.render (fun p => .error (.documentNotFound p)) v).outcome = .ok t ∧
        ("$0 ${1} {{x}}." : Text) = "$0 ${1} " ++ t ++ "." := by
  let answers : Answers := fun p => .error (.documentNotFound p)
  let filled : Document := ⟨[(.text "content", .text "{{x}}")], markedChild⟩
  obtain ⟨-, -, -, -, hone, -, -⟩ := contentSlot_agrees markedBody markedChild answers filled
  obtain ⟨-, -, -, hnone, -, -, hundefined⟩ :=
    contentSlot_agrees "{{contents}}" markedChild answers ⟨[], markedChild⟩
  obtain ⟨-, -, -, -, -, hmany, hdefined⟩ :=
    contentSlot_agrees "{{content}}{{ content}}" markedChild answers filled
  have htwo : (ContentSlot.places "{{content}}{{ content}}").ncard = 2 := by
    rw [← ContentSlot.length_spans]
    decide +kernel
  have hblank : ∀ c ∈ (" " : Text), Text.isBlank c = true := List.all_eq_true.1 (by decide)
  have hmark : ContentSlot.IsForm "{{ content }}" := ⟨" ", " ", hblank, hblank, rfl⟩
  rw [htwo] at hmany
  refine ⟨hone ?_, by decide +kernel, hnone ?_, hmany (Nat.le_refl 2), ?_, ?_⟩
  · rw [← ContentSlot.length_spans]
    decide +kernel
  · rw [← ContentSlot.length_spans]
    decide +kernel
  · obtain ⟨name, hname, -, hfail⟩ :=
      (hundefined "$0 ${1} " "{{ content }}" "." rfl hmark).1 rfl
    exact ⟨name, hname, hfail⟩
  · obtain ⟨v, t, hv, ht, hbody⟩ := (hdefined "$0 ${1} " "{{ content }}" "." rfl hmark).2
      ⟨[], "$0 ${1} {{x}}."⟩ (by decide +kernel)
    have hbefore : Slot.fill (fun s => (answers.textOf? filled.metadata s.name).getD s.source)
        "$0 ${1} " = "$0 ${1} " := by decide +kernel
    have hbehind : Slot.fill (fun s => (answers.textOf? filled.metadata s.name).getD s.source)
        "." = "." := by decide +kernel
    rw [hbefore, hbehind] at hbody
    exact ⟨v, t, hv, ht, hbody⟩

end MarkdownWeave
