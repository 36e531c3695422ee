import Mathlib.Order.Nat
import MarkdownWeave.Yaml.Token.Property
import MarkdownWeave.Yaml.Token.Scalar

/-!
# What is left of a YAML text

Whatever reads a part of a YAML text takes characters from its front and leaves the rest.  Here it
is said of each part how much it leaves at most: all but its first character, if it begins with one
of its own, and otherwise no more than there was.

## Main definitions

* `Yaml.Yields o P` — what is read, if it can be read, has a property.
* `Yaml.Place.left` — how many characters are left.
* `Yaml.Takes` — a reader takes a character.

## Main results

* `Yaml.takes_anchorName?`, `Yaml.takes_tag?`, `Yaml.takes_directive?` — **what is said about nodes
  and documents takes a character.**
* `Yaml.yields_plainScalar?`, `Yaml.takes_singleQuoted?`, `Yaml.takes_doubleQuoted?`,
  `Yaml.takes_blockScalar?` — **so do scalars of all kinds.**
-/

namespace MarkdownWeave

namespace Yaml

/-! ### What is read -/

/-- What is read, if it can be read, has a property. -/
def Yields {α : Type} (o : Option α) (P : α → Prop) : Prop := ∀ a, o = some a → P a

section Yields

variable {α β : Type} {P : α → Prop} {Q : β → Prop}

theorem Yields.pure {a : α} (h : P a) : Yields (some a) P := by
  rintro a' ⟨⟩
  exact h

theorem Yields.none : Yields none P := by
  rintro a ⟨⟩

theorem Yields.imp {o : Option α} {P' : α → Prop} (h : Yields o P) (hp : ∀ a, P a → P' a) :
    Yields o P' := fun a ha => hp a (h a ha)

theorem Yields.bind {o : Option α} {f : α → Option β} (ho : Yields o P)
    (hf : ∀ a, P a → Yields (f a) Q) : Yields (o >>= f) Q := by
  intro b hb
  obtain ⟨a, ha, hb⟩ := Option.bind_eq_some_iff.1 hb
  exact hf a (ho a ha) b hb

theorem Yields.map {o : Option α} {f : α → β} (ho : Yields o P) (hf : ∀ a, P a → Q (f a)) :
    Yields (o.map f) Q := by
  intro b hb
  obtain ⟨a, ha, rfl⟩ := Option.map_eq_some_iff.1 hb
  exact hf a (ho a ha)

theorem Yields.trivial {o : Option α} : Yields o fun _ => True := fun _ _ => True.intro

theorem Yields.ite {c : Prop} [Decidable c] {x y : Option α} (hx : c → Yields x P)
    (hy : ¬ c → Yields y P) : Yields (if c then x else y) P := by
  split
  · next h => exact hx h
  · next h => exact hy h

/-- Where a condition is an error, it is none of what is read behind it. -/
theorem Yields.guard {c : Prop} [Decidable c] {f : β → Option α} {y : Option α}
    (hy : ¬ c → Yields y P) : Yields (if c then Option.none >>= f else y) P :=
  .ite (fun _ => .none) hy

end Yields

/-! ### Places -/

namespace Place

/-- How many characters are left. -/
def left (p : Place) : Nat := p.rest.length

@[simp] theorem left_skip (p : Place) (n : Nat) : (p.skip n).left = p.left - n :=
  List.length_drop

@[simp] theorem left_step (p : Place) : p.step.left = p.left - 1 := left_skip p 1

@[simp] theorem left_newLine (p : Place) : p.newLine.left = p.left - 1 := by
  unfold newLine
  split
  · next h => simp [left, h]
  · next h => simp [left, h]

theorem left_skip_le (p : Place) (n : Nat) : (p.skip n).left ≤ p.left := by
  rw [left_skip]
  exact Nat.sub_le _ n

theorem left_step_le (p : Place) : p.step.left ≤ p.left := left_skip_le p 1

theorem left_newLine_le (p : Place) : p.newLine.left ≤ p.left := by
  rw [left_newLine]
  exact Nat.sub_le _ 1

theorem left_skipWhile_le (f : Char → Bool) (p : Place) : (p.skipWhile f).left ≤ p.left :=
  left_skip_le p _

theorem left_step_skipWhile_le (f : Char → Bool) (p : Place) :
    (p.step.skipWhile f).left ≤ p.left - 1 := by
  rw [← left_step]
  exact left_skipWhile_le f p.step

theorem left_skipComment_le (p : Place) : p.skipComment.left ≤ p.left := by
  unfold skipComment
  split
  · exact left_skipWhile_le _ p
  · exact le_rfl

theorem left_pos_of_rest {p : Place} {c : Char} {cs : Text} (h : p.rest = c :: cs) : 0 < p.left := by
  simp [left, h]

end Place

open Place

/-- A reader takes at least one character, if there is one. -/
def Takes {α : Type} (read : Place → Option (α × Place)) : Prop :=
  ∀ p, Yields (read p) fun r => r.2.left ≤ p.left - 1

section Takes

variable {α β : Type} {read : Place → Option (α × Place)}

theorem Takes.map {f : α × Place → β × Place} (h : Takes read) (hf : ∀ r, (f r).2 = r.2) :
    Takes fun p => (read p).map f := by
  intro p
  refine (h p).map fun r hr => ?_
  rw [hf]
  exact hr

theorem takes_skip (a : α) {n : Nat} (hn : 1 ≤ n) : Takes fun p => some (a, p.skip n) := by
  intro p
  refine .pure ?_
  rw [left_skip]
  exact Nat.sub_le_sub_left hn _

end Takes

/-! ### Anchors, tags and directives -/

theorem takes_anchorName? : Takes anchorName? := fun p =>
  .ite (fun _ => .none) fun _ => .pure (left_step_skipWhile_le isWord p)

theorem yields_tagBytes? (wide : Bool) (fuel : Nat) (p : Place) :
    Yields (tagBytes? wide fuel p) fun r => r.2.left ≤ p.left := by
  induction fuel generalizing p with
  | zero => exact .none
  | succ fuel ih =>
    rw [tagBytes?]
    split
    · exact .pure le_rfl
    · refine .ite (fun _ => ?_) fun _ => .ite (fun _ => ?_) fun _ => .pure le_rfl
      · refine Yields.trivial.bind fun bytes _ => (ih _).bind fun r hr => .pure ?_
        exact hr.trans (left_skip_le p _)
      · exact (ih _).bind fun r hr => .pure (hr.trans (left_step_le p))

theorem yields_tagSuffix? (wide : Bool) (before : Text) (p : Place) :
    Yields (tagSuffix? wide before p) fun r => r.2.left ≤ p.left :=
  (yields_tagBytes? wide _ p).bind fun _ hr => .guard fun _ => .pure hr

theorem takes_tagHandle? : Takes tagHandle? := by
  intro p
  have hname := left_step_skipWhile_le isWord p
  rw [tagHandle?]
  split
  · dsimp only [span]
    split
    · exact .pure ((left_step_le _).trans hname)
    · exact .pure hname
  · exact .none

theorem takes_tagToken? : Takes tagToken? := by
  intro p
  refine .ite (fun _ => ?_) fun _ => ?_
  · refine (yields_tagSuffix? true [] (p.skip 2)).bind fun r hr => .guard fun _ => .pure ?_
    rw [left_skip] at hr
    rw [left_step]
    omega
  · refine (takes_tagHandle? p).bind fun h hh => .ite (fun _ => ?_) fun _ => ?_
    · exact (yields_tagSuffix? false [] h.2).bind fun r hr => .pure (hr.trans hh)
    · exact (yields_tagSuffix? false h.1 h.2).bind fun r hr => .pure (hr.trans hh)

theorem takes_tag? (flow : Bool) : Takes (tag? flow) := fun p =>
  (takes_tagToken? p).bind fun _ hr => .ite (fun _ => .pure hr) fun _ => .none

theorem yields_versionNumber? (p : Place) :
    Yields (versionNumber? p) fun r => r.2.left ≤ p.left :=
  .ite (fun _ => .none) fun _ => .pure (left_skipWhile_le _ p)

theorem yields_versionDirective? (p : Place) :
    Yields (versionDirective? p) fun r => r.2.left ≤ p.left := by
  refine (yields_versionNumber? _).bind fun major hmajor => .guard fun _ => ?_
  refine (yields_versionNumber? _).bind fun minor hminor => .pure ?_
  calc minor.2.left
    _ ≤ major.2.step.left := hminor
    _ ≤ major.2.left := left_step_le _
    _ ≤ (p.skipWhile isSpacing).left := hmajor
    _ ≤ p.left := left_skipWhile_le isSpacing p

theorem yields_tagDirective? (p : Place) :
    Yields (tagDirective? p) fun r => r.2.left ≤ p.left := by
  refine (takes_tagHandle? _).bind fun handle hhandle => .guard fun _ => .guard fun _ => ?_
  refine (yields_tagSuffix? _ _ _).bind fun start hstart => .guard fun _ => .pure ?_
  calc start.2.left
    _ ≤ (handle.2.skipWhile isSpacing).left := hstart
    _ ≤ handle.2.left := left_skipWhile_le isSpacing _
    _ ≤ (p.skipWhile isSpacing).left - 1 := hhandle
    _ ≤ (p.skipWhile isSpacing).left := Nat.sub_le _ 1
    _ ≤ p.left := left_skipWhile_le isSpacing p

theorem takes_directive? : Takes directive? := by
  intro p
  have hline : ∀ r : Token × Place, r.2.left ≤ (p.step.skipWhile isWord).left →
      Yields (if atBreak (r.2.skipWhile isSpacing).skipComment.rest then
        some (r.1, (r.2.skipWhile isSpacing).skipComment.newLine) else none)
        fun r => r.2.left ≤ p.left - 1 := by
    intro r hr
    refine .ite (fun _ => .pure ?_) fun _ => .none
    calc (r.2.skipWhile isSpacing).skipComment.newLine.left
      _ ≤ (r.2.skipWhile isSpacing).skipComment.left := left_newLine_le _
      _ ≤ (r.2.skipWhile isSpacing).left := left_skipComment_le _
      _ ≤ r.2.left := left_skipWhile_le isSpacing _
      _ ≤ (p.step.skipWhile isWord).left := hr
      _ ≤ p.left - 1 := left_step_skipWhile_le isWord p
  refine .guard fun _ => .ite (fun _ => ?_) fun _ => .ite (fun _ => ?_) fun _ => .none
  · exact (yields_versionDirective? _).bind hline
  · exact (yields_tagDirective? _).bind hline

/-! ### Scalars -/

theorem yields_readGap (noTab : Nat) (after : Bool) (line column offset : Nat) (t : Text) :
    Yields (readGap noTab after line column offset t) fun r => r.2.left ≤ t.length := by
  induction t generalizing after line column offset with
  | nil => exact .pure le_rfl
  | cons c cs ih =>
    rw [readGap]
    refine .ite (fun _ => ?_) fun _ => .ite (fun _ => .ite (fun _ => .none) fun _ => ?_) fun _ =>
      .pure le_rfl
    · exact (ih _ _ _ _).map fun r hr => Nat.le_succ_of_le hr
    · exact (ih _ _ _ _).map fun r hr => Nat.le_succ_of_le hr

theorem yields_gap? (noTab : Nat) (after : Bool) (p : Place) :
    Yields (gap? noTab after p) fun r => r.2.left ≤ p.left :=
  yields_readGap noTab after _ _ _ p.rest

/-- A gap that begins with a line break takes it. -/
theorem yields_gap?_of_isBreak {p : Place} {c : Char} {cs : Text} (hp : p.rest = c :: cs)
    (hc : isBreak c = true) (noTab : Nat) (after : Bool) :
    Yields (gap? noTab after p) fun r => r.2.left < p.left := by
  rw [gap?, left, hp, readGap, if_pos hc]
  exact (yields_readGap _ _ _ _ _ cs).map fun r hr => Nat.lt_succ_of_le hr

theorem yields_plainWords? (flow : Bool) (indent fuel : Nat) (gap : Text) (broken : Bool)
    (p : Place) :
    Yields (plainWords? flow indent fuel gap broken p) fun r => r.2.2.left ≤ p.left := by
  induction fuel generalizing gap broken p with
  | zero => exact .none
  | succ fuel ih =>
    rw [plainWords?]
    refine .ite (fun _ => .pure le_rfl) fun _ => Yields.trivial.bind fun n _ => ?_
    have hq : (p.skip n).left ≤ p.left := left_skip_le p n
    refine .ite (fun _ => .pure hq) fun _ => (yields_gap? _ _ _).bind fun g hg => ?_
    refine .ite (fun _ => .pure (hg.trans hq)) fun _ => (ih _ _ _).bind fun r hr => .pure ?_
    exact hr.trans (hg.trans hq)

/-- A plain scalar that begins with something that it may begin with takes at least that. -/
theorem yields_plainScalar? (flow : Bool) (indent : Nat) {p : Place} {c : Char} {cs : Text}
    (hp : p.rest = c :: cs) (hm : p.isDocumentMarker = false) (hc : c ≠ '#')
    (hw : plainWord? flow (c :: cs) = some 0 → isBreak c = true) :
    Yields (plainScalar? flow indent p) fun r => r.2.2.left < p.left := by
  have hpos : 0 < p.left := left_pos_of_rest hp
  have hbegin : ¬ (p.isDocumentMarker || p.rest.head? == some '#') = true := by
    simp [hm, hp, hc]
  rw [plainScalar?, plainWords?, if_neg hbegin, hp]
  have hword : Yields (plainWord? flow (c :: cs)) fun n => n = 0 → isBreak c = true := by
    rintro n hn rfl
    exact hw hn
  refine hword.bind fun n hn => ?_
  have hskip : n ≠ 0 → (p.skip n).left < p.left := by
    intro h0
    rw [left_skip]
    omega
  -- without a first word there is a line break, and then the gap takes that
  have hgap : ∀ noTab after,
      Yields (gap? noTab after (p.skip n)) fun g => g.2.left < p.left := by
    intro noTab after
    by_cases h0 : n = 0
    · subst h0
      exact yields_gap?_of_isBreak (p := p.skip 0) hp (hn rfl) noTab after
    · exact (yields_gap? _ _ _).imp fun g hg => hg.trans_lt (hskip h0)
  refine .ite (fun hend => .pure (hskip ?_)) fun _ => (hgap _ _).bind fun g hg => ?_
  · rintro rfl
    simp [skip, hp, atGap, hn rfl] at hend
  · refine .ite (fun _ => .pure hg) fun _ => (yields_plainWords? _ _ _ _ _ _).bind fun r hr => ?_
    exact .pure (hr.trans_lt hg)

theorem yields_singleWords? (fuel : Nat) (p : Place) :
    Yields (singleWords? fuel p) fun r => r.2.left ≤ p.left := by
  induction fuel generalizing p with
  | zero => exact .none
  | succ fuel ih =>
    rw [singleWords?]
    refine .guard fun _ => ?_
    dsimp only
    split
    · exact .none
    · exact (ih _).bind fun r hr => .pure (hr.trans (left_skip_le p 2))
    · exact .pure (left_step_le p)
    · refine .ite (fun _ => ?_) fun _ => ?_
      · exact (yields_gap? _ _ _).bind fun g hg => (ih _).bind fun r hr => .pure (hr.trans hg)
      · exact (ih _).bind fun r hr => .pure (hr.trans (left_step_le p))

theorem takes_singleQuoted? : Takes singleQuoted? := by
  intro p
  rw [← left_step]
  exact yields_singleWords? _ p.step

theorem yields_doubleWords? (fuel : Nat) (p : Place) :
    Yields (doubleWords? fuel p) fun r => r.2.left ≤ p.left := by
  induction fuel generalizing p with
  | zero => exact .none
  | succ fuel ih =>
    rw [doubleWords?]
    refine .guard fun _ => ?_
    dsimp only
    split
    · exact .none
    · exact .pure (left_step_le p)
    · refine .ite (fun _ => ?_) fun _ => ?_
      · refine (yields_gap? _ _ _).bind fun g hg => (ih _).bind fun r hr => .pure ?_
        exact hr.trans (hg.trans ((left_newLine_le _).trans (left_step_le p)))
      · refine Yields.trivial.bind fun e _ => (ih _).bind fun r hr => .pure ?_
        exact hr.trans (left_skip_le p _)
    · refine .ite (fun _ => ?_) fun _ => ?_
      · exact (yields_gap? _ _ _).bind fun g hg => (ih _).bind fun r hr => .pure (hr.trans hg)
      · exact (ih _).bind fun r hr => .pure (hr.trans (left_step_le p))

theorem takes_doubleQuoted? : Takes doubleQuoted? := by
  intro p
  rw [← left_step]
  exact yields_doubleWords? _ p.step

theorem yields_blockHeader? (p : Place) :
    Yields (blockHeader? p) fun r => r.2.left ≤ p.left := by
  have hskip : ∀ n, (p.skip n).left ≤ p.left := left_skip_le p
  rw [blockHeader?]
  split
  · exact .pure le_rfl
  · split
    · split
      · exact .ite (fun _ => .ite (fun _ => .none) fun _ => .pure (hskip 2)) fun _ =>
          .pure (hskip 1)
      · exact .pure (hskip 1)
    · refine .ite (fun _ => .ite (fun _ => .none) fun _ => ?_) fun _ => .pure le_rfl
      split
      · exact .pure (hskip 2)
      · exact .pure (hskip 1)

theorem yields_readBlockBreaks (indent : Option Nat) (widest line column offset : Nat) (t : Text) :
    Yields (readBlockBreaks indent widest line column offset t) fun r =>
      r.2.2.left ≤ t.length := by
  induction t generalizing widest line column offset with
  | nil => exact .pure le_rfl
  | cons c cs ih =>
    rw [readBlockBreaks]
    refine .ite (fun _ => ?_) fun _ => .ite (fun _ => .none) fun _ => .ite (fun _ => ?_) fun _ =>
      .pure le_rfl
    · exact (ih _ _ _ _).imp fun r hr => Nat.le_succ_of_le hr
    · exact (ih _ _ _ _).map fun r hr => Nat.le_succ_of_le hr

theorem yields_blockBreaks? (indent : Option Nat) (p : Place) :
    Yields (blockBreaks? indent p) fun r => r.2.2.left ≤ p.left :=
  yields_readBlockBreaks indent 0 _ _ _ p.rest

theorem yields_blockLines? (folded : Bool) (indent fuel : Nat) (pending breaks : Text)
    (indented : Bool) (p : Place) :
    Yields (blockLines? folded indent fuel pending breaks indented p) fun r =>
      r.2.2.2.left ≤ p.left := by
  induction fuel generalizing pending breaks indented p with
  | zero => exact .none
  | succ fuel ih =>
    rw [blockLines?]
    refine .ite (fun _ => .pure le_rfl) fun _ => ?_
    refine (yields_blockBreaks? _ _).bind fun b hb => (ih _ _ _ _).bind fun r hr => .pure ?_
    exact hr.trans (hb.trans ((left_newLine_le _).trans (left_skipWhile_le _ p)))

theorem takes_blockScalar? (folded : Bool) (outer : Int) : Takes (blockScalar? folded outer) := by
  intro p
  refine (yields_blockHeader? p.step).bind fun header hheader => .guard fun _ => ?_
  refine (yields_blockBreaks? _ _).bind fun b hb => ?_
  refine (yields_blockLines? _ _ _ _ _ _ _).bind fun r hr => .pure ?_
  calc r.2.2.2.left
    _ ≤ b.2.2.left := hr
    _ ≤ (header.2.skipWhile isSpacing).skipComment.newLine.left := hb
    _ ≤ (header.2.skipWhile isSpacing).skipComment.left := left_newLine_le _
    _ ≤ (header.2.skipWhile isSpacing).left := left_skipComment_le _
    _ ≤ header.2.left := left_skipWhile_le isSpacing header.2
    _ ≤ p.step.left := hheader
    _ = p.left - 1 := left_step p

end Yaml

end MarkdownWeave
