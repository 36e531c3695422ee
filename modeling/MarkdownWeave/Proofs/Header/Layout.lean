import MarkdownWeave.Proofs.Header.Inline
import MarkdownWeave.Proofs.Header.Margin

/-!
# Lines of a layout

The YAML text of metadata has no line that would close a header, whatever the keys and the values
are: a line of it begins with indentation, with an indicator and a space, or with a key that a colon
follows.  The only thing that can go wrong is its end.  A block whose text ends with a line
separator or a paragraph separator has no line feed at its end, and none is put behind it.

## Main definitions

* `Yaml.Ensures P s Q` — a stroke that completes no closing line and leads from `P` to `Q`.
* `Yaml.Ready`, `Yaml.Rests`, `Yaml.Begun`, `Yaml.Fresh` — where content, lines and values begin and
  end.
* `Yaml.endsOpen` — whether the last thing that a value is written with is such a block.

## Main results

* `Yaml.ensures_node` — **no value is laid out with a closing line.**
* `Yaml.after?_layout` — the text of metadata has no closing line, and ends with a line feed unless
  a separator stands there.
-/

namespace MarkdownWeave

namespace Yaml

open Header (Margin)
open Header.Margin

/-! ### Values that leave their last line open -/

/-- Whether a character ends a line for YAML alone, and is written as it is. -/
def isSeparator (c : Char) : Bool := c == lineSeparator || c == paragraphSeparator

/-- Whether a text is written as a block that ends with a separator. -/
def textEndsOpen (t : Text) : Bool := Style.of false t = .block && t.getLast?.any isSeparator

mutual

/-- Whether the last text that a value is written with is a block that ends with a separator. -/
def endsOpen : Value → Bool
  | .text t => textEndsOpen t
  | .tagged _ v => endsOpen v
  | .sequence vs => itemsEndOpen false vs
  | .mapping m => entriesEndOpen false m
  | _ => false
termination_by structural v => v

/-- Whether the last of some items ends that way; `last` tells it of what stands before them. -/
def itemsEndOpen (last : Bool) : List Value → Bool
  | [] => last
  | v :: vs => itemsEndOpen (endsOpen v) vs
termination_by structural vs => vs

/-- Whether the last of some entries ends that way; `last` tells it of what stands before them. -/
def entriesEndOpen (last : Bool) : List (Value × Value) → Bool
  | [] => last
  | e :: m => entriesEndOpen (entryEndsOpen e) m
termination_by structural m => m

/-- Whether the value of an entry ends that way. -/
def entryEndsOpen : Value × Value → Bool
  | (_, v) => endsOpen v
termination_by structural e => e

end

/-! ### Places -/

/-- The pen stands at the beginning of a line, which may be indented. -/
def Fresh (p : Pen) (m : Margin) : Prop := p = .lineStart ∧ m ≠ .hyphens

/-- Content may follow on the line, behind a space. -/
inductive Ready : Pen → Margin → Prop
  /-- Behind an indicator. -/
  | indicator (m : Margin) : Ready .indicator m
  /-- Behind content. -/
  | content : Ready .content .marked

/-- A value is complete; `broken` tells that its last line ends with a separator. -/
inductive Rests : Bool → Pen → Margin → Prop
  /-- The line can go on. -/
  | inside : Rests false .content .marked
  /-- The line is complete. -/
  | behind : Rests false .lineStart .clear
  /-- For YAML the line is complete. -/
  | broken : Rests true .lineStart .marked

/-- A line can begin: behind an indicator, or behind a complete value. -/
def Begun (p : Pen) (m : Margin) : Prop := p = .indicator ∨ ∃ broken, Rests broken p m

theorem Rests.begun {broken : Bool} {p : Pen} {m : Margin} (h : Rests broken p m) : Begun p m :=
  .inr ⟨broken, h⟩

theorem Ready.begun {p : Pen} {m : Margin} (h : Ready p m) : Begun p m := by
  cases h with
  | indicator => exact .inl rfl
  | content => exact Rests.inside.begun

/-! ### Strokes between places -/

/-- A stroke that completes no closing line: begun where `P` holds it ends where `Q` does. -/
def Ensures (P : Pen → Margin → Prop) (s : Stroke) (Q : Pen → Margin → Prop) : Prop :=
  ∀ p m, P p m → ∃ n, m.after? (s p).1 = some n ∧ Q (s p).2 n

section Strokes

variable {P P' Q R : Pen → Margin → Prop} {s t : Stroke}

theorem Ensures.andThen (hs : Ensures P s Q) (ht : Ensures Q t R) : Ensures P (s.andThen t) R := by
  intro p m hp
  obtain ⟨n, hn, hq⟩ := hs p m hp
  obtain ⟨k, hk, hr⟩ := ht _ n hq
  refine ⟨k, ?_, hr⟩
  rw [Stroke.andThen_apply, after?_append, hn, Option.bind_some, hk]

theorem Ensures.of_imp (h : Ensures P s Q) (hP : ∀ p m, P' p m → P p m) : Ensures P' s Q :=
  fun p m hp => h p m (hP p m hp)

theorem ensures_nothing (h : ∀ p m, P p m → Q p m) : Ensures P .nothing Q := fun p m hp =>
  ⟨m, rfl, h p m hp⟩

theorem Ensures.andThen_nothing (h : Ensures P s Q) : Ensures P (s.andThen .nothing) Q :=
  h.andThen (ensures_nothing fun _ _ hq => hq)

/-- Spaces keep a line from being a closing one, if there are any. -/
theorem after?_spaces (m : Margin) (n : Nat) :
    m.after? (List.replicate (n + 1) ' ') = some .marked :=
  after?_cons_of_marks (by decide) (by simp) m

/-- Wherever a line can begin, no closing line ends. -/
theorem ensures_indent (n : Nat) : Ensures Begun (.indent n) Fresh := by
  have hspaces {m : Margin} (hm : m ≠ .hyphens) :
      ∃ k, m.after? (List.replicate n ' ') = some k ∧ Fresh .lineStart k := by
    cases n with
    | zero => exact ⟨m, rfl, rfl, hm⟩
    | succ n => exact ⟨.marked, after?_spaces m n, rfl, by decide⟩
  rintro p m (rfl | ⟨broken, hr⟩)
  · exact ⟨.marked, after?_spaces m 0, rfl, by decide⟩
  · cases hr with
    | inside =>
      -- the line feed completes a line that has content on it
      obtain ⟨k, hk, hf⟩ := hspaces (m := .clear) (by decide)
      refine ⟨k, ?_, hf⟩
      rw [Stroke.indent, after?_cons]
      exact hk
    | behind => exact hspaces (by decide)
    | broken => exact hspaces (by decide)

/-- Behind an indicator content may follow. -/
theorem ensures_mark {c : Char} (hc : c ≠ '\n') : Ensures P (.mark c) Ready := by
  intro p m _
  exact ⟨m.onLine c, by simp [Stroke.mark, after?_cons, next?, hc], .indicator _⟩

theorem Inline.after?_eq (h : Inline s) {p : Pen} {m : Margin} (hr : Ready p m) :
    m.after? (s p).1 = some .marked := by
  -- the space in front of the stroke keeps its line from being a closing one
  have hp : p ≠ .lineStart := by cases hr <;> decide
  obtain ⟨u, hu⟩ := h.gap p hp
  have hn : '\n' ∉ u := fun hm => h.noFeed p (hu ▸ List.mem_cons_of_mem _ hm)
  rw [hu, after?_cons_of_marks (by decide) hn]

theorem Inline.ensures_rests (h : Inline s) : Ensures Ready s (Rests false) := fun p _ hr =>
  ⟨.marked, h.after?_eq hr, h.content p ▸ .inside⟩

theorem Inline.ensures_ready (h : Inline s) : Ensures Ready s Ready := fun p _ hr =>
  ⟨.marked, h.after?_eq hr, h.content p ▸ .content⟩

/-- A colon keeps the line of a key from being a closing one, whatever the key is. -/
theorem Inline.ensures_colon (h : Inline s) : Ensures Fresh (s.andThen (.joined [':'])) Ready := by
  intro p m _
  refine ⟨.marked, ?_, .content⟩
  rw [Stroke.andThen_apply, after?_append, after?_of_not_mem (h.noFeed p), Option.bind_some]
  exact after?_cons_of_marks (by decide) (by simp) _

end Strokes

/-! ### Blocks -/

/-- One character of a block. -/
def blockChar (n : Nat) (c : Char) : Stroke :=
  if isBreak c then .breakChar c
  else fun p => ((if p = .lineStart then Stroke.indent n else .nothing).andThen (.joined [c])) p

theorem blockRest_cons (n : Nat) (c : Char) (cs : Text) :
    blockRest n (c :: cs) = (blockChar n c).andThen (blockRest n cs) := by
  rw [blockRest, blockChar]
  split
  · rfl
  · funext p
    simp [Stroke.andThen_apply, Stroke.joined]

theorem ensures_blockChar (n : Nat) (c : Char) (broken : Bool) :
    Ensures (Rests broken) (blockChar (n + 1) c) (Rests (isBreak c && c != '\n')) := by
  unfold blockChar
  split
  · next hc =>
    -- of the line breaks only the line feed ends the line; the others mark it, as they may begin it
    intro p m hr
    have hm : m ≠ .hyphens := by cases hr <;> decide
    by_cases hn : c = '\n'
    · subst hn
      exact ⟨.clear, after?_lineFeed hm, .behind⟩
    · have hd : c ≠ '-' := by
        rintro rfl
        exact absurd hc (by decide)
      have hb : (isBreak c && c != '\n') = true := by simp [hc, hn]
      refine ⟨.marked, ?_, hb ▸ .broken⟩
      rw [Stroke.breakChar, after?_cons, next?, if_neg hn, onLine_of_ne hm hd]
      rfl
  · next hc =>
    -- any other character stands behind content or behind indentation
    have hn : '\n' ∉ [c] := by
      rw [List.mem_singleton]
      rintro rfl
      exact absurd rfl hc
    rw [Bool.eq_false_iff.2 hc, Bool.false_and]
    intro p m hr
    have hline : ∀ {m : Margin}, m.after? (List.replicate (n + 1) ' ' ++ [c]) = some .marked := by
      intro m
      rw [after?_append, after?_spaces, Option.bind_some, after?_marked hn]
    cases hr with
    | inside => exact ⟨.marked, after?_marked hn, .inside⟩
    | behind | broken => exact ⟨.marked, hline, .inside⟩

/-- Whether the last of some characters is a line break other than a line feed; `last` tells it of
what stands before them. -/
def lastBroken (last : Bool) (t : Text) : Bool := t.foldl (fun _ c => isBreak c && c != '\n') last

theorem ensures_blockRest (n : Nat) (t : Text) (broken : Bool) :
    Ensures (Rests broken) (blockRest (n + 1) t) (Rests (lastBroken broken t)) := by
  induction t generalizing broken with
  | nil => exact ensures_nothing fun _ _ h => h
  | cons c t ih =>
    rw [blockRest_cons]
    exact (ensures_blockChar n c broken).andThen (ih _)

theorem ensures_newLine (broken : Bool) : Ensures (Rests broken) .newLine (Rests false) :=
  fun _ _ hr => ⟨.clear, after?_lineFeed (by cases hr <;> decide), .behind⟩

theorem ensures_block (n : Nat) (t : Text) :
    Ensures Ready (block (n + 1) t) (Rests (lastBroken false t)) := by
  have hbar : Inline (.word ('|' :: blockSigns t)) := .word (by simp [not_mem_blockSigns])
  rw [block, Stroke.all_cons, Stroke.all_cons, Stroke.all_cons, Stroke.all_nil]
  exact hbar.ensures_rests.andThen
    ((ensures_newLine false).andThen (ensures_blockRest n t false).andThen_nothing)

/-- Of the line breaks other than line feeds only the separators are written as they are. -/
theorem lastBroken_eq_textEndsOpen {t : Text} (h : Style.of false t = .block) :
    lastBroken false t = textEndsOpen t := by
  have hplain : t.all isPlainly = true := by
    have hblock := block_of_style h
    simp only [Traits.of, Bool.and_eq_true, Bool.not_eq_true', Bool.or_eq_false_iff,
      Bool.not_eq_false'] at hblock
    exact hblock.1.1.1
  rw [textEndsOpen, h, decide_eq_true rfl, Bool.true_and]
  rcases List.eq_nil_or_concat t with rfl | ⟨s, c, rfl⟩
  · rfl
  · have hc : isPlainly c = true := by simp_all
    rw [List.concat_eq_append, lastBroken, List.foldl_concat, List.getLast?_concat, Option.any_some]
    have hr : c ≠ '\r' := by
      rintro rfl
      exact absurd hc (by decide)
    have hl : c ≠ nextLine := by
      rintro rfl
      exact absurd hc (by decide)
    by_cases hn : c = '\n'
    · subst hn
      decide
    · rw [Bool.eq_iff_iff]
      simp [isBreak, isSeparator, hr, hl, hn]

theorem ensures_scalar (n : Nat) (t : Text) :
    Ensures Ready (scalar false n t) (Rests (textEndsOpen t)) := by
  by_cases h : Style.of false t = .block
  · rw [scalar, h, ← lastBroken_eq_textEndsOpen h]
    exact ensures_block (n + 1) t
  · have ht : textEndsOpen t = false := by simp [textEndsOpen, h]
    rw [ht]
    exact (inline_scalar h n).ensures_rests

/-! ### Values -/

mutual

/-- **No value is laid out with a closing line.** -/
theorem ensures_node (inMapping : Bool) (n : Nat) :
    (v : Value) → Ensures Ready (node false inMapping n v) (Rests (endsOpen v))
  | .tagged t v =>
    (Inline.word (not_mem_tagForm t)).ensures_ready.andThen (ensures_node inMapping n v)
  | .sequence [] => (Inline.word (by decide)).ensures_rests
  | .mapping [] => (Inline.word (by decide)).ensures_rests
  | .sequence (v :: vs) => fun p m hr =>
    ensures_items (itemColumn inMapping n p) (v :: vs) false p m ⟨hr.begun, nofun⟩
  | .mapping (e :: m) => fun p k hr => ensures_entries (n + 2) (e :: m) false p k ⟨hr.begun, nofun⟩
  | .text t => ensures_scalar n t
  | .null | .bool _ | .int _ | .float _ =>
    (Inline.word (not_mem_scalarText (by simp))).ensures_rests

theorem ensures_items (n : Nat) : (vs : List Value) → (last : Bool) →
    Ensures (fun p m => Begun p m ∧ (vs = [] → Rests last p m)) (items n vs)
      (Rests (itemsEndOpen last vs))
  | [], last => ensures_nothing fun _ _ h => h.2 rfl
  | v :: vs, last => by
    -- an item ends as its value does, and so do the items if no other one follows
    have hrest : Ensures (Rests (endsOpen v)) (items n vs) (Rests (itemsEndOpen (endsOpen v) vs)) :=
      (ensures_items n vs (endsOpen v)).of_imp fun _ _ h => ⟨h.begun, fun _ => h⟩
    have hitem : Ensures Begun (items n (v :: vs)) (Rests (itemsEndOpen last (v :: vs))) :=
      (ensures_indent n).andThen ((ensures_mark (by decide)).andThen
        ((ensures_node false n v).andThen hrest.andThen_nothing))
    exact hitem.of_imp fun _ _ h => h.1

theorem ensures_entries (n : Nat) : (m : List (Value × Value)) → (last : Bool) →
    Ensures (fun p k => Begun p k ∧ (m = [] → Rests last p k)) (entries n m)
      (Rests (entriesEndOpen last m))
  | [], last => ensures_nothing fun _ _ h => h.2 rfl
  | e :: m, last => by
    have hrest : Ensures (Rests (entryEndsOpen e)) (entries n m)
        (Rests (entriesEndOpen (entryEndsOpen e) m)) :=
      (ensures_entries n m (entryEndsOpen e)).of_imp fun _ _ h => ⟨h.begun, fun _ => h⟩
    exact ((ensures_entry n e).andThen hrest).of_imp fun _ _ h => h.1

theorem ensures_entry (n : Nat) :
    (e : Value × Value) → Ensures Begun (entry n e) (Rests (entryEndsOpen e))
  | (k, v) => by
    have hv : Ensures Ready (node false true n v) (Rests (endsOpen v)) := ensures_node true n v
    rw [entry]
    split
    · next hsimple =>
      have hkey := (inline_key true n k hsimple).ensures_colon.andThen hv.andThen_nothing
      rw [Stroke.andThen_assoc] at hkey
      exact (ensures_indent n).andThen hkey
    · have hk : Ensures Ready (node false true n k) (Rests (endsOpen k)) := ensures_node true n k
      have hindent : Ensures (Rests (endsOpen k)) (.indent n) Fresh :=
        (ensures_indent n).of_imp fun _ _ h => h.begun
      exact (ensures_indent n).andThen ((ensures_mark (by decide)).andThen (hk.andThen
        (hindent.andThen ((ensures_mark (by decide)).andThen hv.andThen_nothing))))

end

/-- Metadata is laid out without a closing line.  A line feed ends it, unless a separator does. -/
theorem after?_layout {m : Metadata} (hm : m ≠ []) :
    clear.after? (layout m) = some (if endsOpen (.mapping m) then .marked else .clear) := by
  obtain ⟨k, hk, hr⟩ := ensures_entries 0 m false .lineStart .clear
    ⟨Rests.behind.begun, fun h => absurd h hm⟩
  have hopen : entriesEndOpen false m = endsOpen (.mapping m) := rfl
  rw [hopen] at hr
  rw [layout, Stroke.andThen_apply, after?_append, hk, Option.bind_some]
  generalize (entries 0 m .lineStart).2 = p at hr ⊢
  generalize endsOpen (.mapping m) = broken at hr ⊢
  cases hr with
  | inside => decide
  | behind => decide
  | broken => decide

end Yaml

end MarkdownWeave
