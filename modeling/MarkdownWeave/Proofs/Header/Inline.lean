import Mathlib.Tactic.SplitIfs
import MarkdownWeave.Proofs.Numerals
import MarkdownWeave.Yaml.Layout

/-!
# What is written on one line

Only the lines of a block have line feeds of their own.  Every other scalar, a tag, and a key in
front of a colon stay on the line on which they begin.

## Main definitions

* `Yaml.Inline` — a stroke that stays on its line.

## Main results

* `Yaml.inline_scalar` — a text that is not written as a block stays on its line.
* `Yaml.inline_key` — **so does a key in front of a colon.**
-/

namespace MarkdownWeave

namespace Yaml

/-! ### Characters that are never written -/

theorem not_mem_hexUpper (width n : Nat) : '\n' ∉ Text.hexUpper width n := by
  have hdigit : ∀ d < 16, (Nat.digitChar d).toUpper ≠ '\n' := by decide
  induction width generalizing n with
  | zero => simp [Text.hexUpper]
  | succ width ih =>
    simp [Text.hexUpper, ih, (hdigit _ (Nat.mod_lt n (by decide))).symm]

/-- What is not a text is written on one line. -/
theorem not_mem_scalarText {v : Value} (h : ∀ t, v ≠ .text t) : '\n' ∉ scalarText v := by
  have htext : scalarText v = v.scalarText?.getD [] := by
    cases v with
    | text t => exact absurd rfl (h t)
    | _ => rfl
  rw [htext]
  cases hs : v.scalarText? with
  | none => exact List.not_mem_nil
  | some t => exact fun hm => absurd (Value.isScalarChar_of_mem hs _ hm) (by decide)

theorem not_mem_tagChar (c : Char) : '\n' ∉ tagChar c := by
  unfold tagChar
  split
  · next h =>
    rw [List.mem_singleton]
    rintro rfl
    exact absurd h (by decide)
  · simp [not_mem_hexUpper]

theorem not_mem_tagForm (name : Text) : '\n' ∉ tagForm name := by
  unfold tagForm
  split
  · decide
  · simp [not_mem_tagChar]

theorem escapeLetter?_ne (c : Char) : escapeLetter? c ≠ some '\n' := by
  have step {p : Prop} [Decidable p] {d : Char} {x : Option Char} (hd : d ≠ '\n')
      (hx : x ≠ some '\n') : (if p then some d else x) ≠ some '\n' := by
    split
    · simpa using hd
    · exact hx
  unfold escapeLetter?
  iterate 14 refine step (by decide) ?_
  simp

theorem not_mem_escape (c : Char) : '\n' ∉ escape c := by
  unfold escape
  split
  · next h =>
    -- a line feed is a break, and so it is not written as it is
    rw [List.mem_singleton]
    rintro rfl
    exact absurd h (by decide)
  · split
    · next d h =>
      have hd : '\n' ≠ d := fun hd => escapeLetter?_ne c (hd ▸ h)
      simpa using hd
    · dsimp only
      split_ifs <;> simp [not_mem_hexUpper]

theorem not_mem_doubleQuoted (t : Text) : '\n' ∉ doubleQuoted t := by
  simp [doubleQuoted, not_mem_escape]

theorem not_mem_blockSigns (t : Text) : '\n' ∉ blockSigns t := by
  unfold blockSigns
  dsimp only
  rw [List.mem_append, not_or]
  constructor
  · split <;> simp
  · split
    · simp
    · split <;> simp
    · split
      · split <;> simp
      · simp

/-! ### Strokes that stay on their line -/

/-- A stroke that stays on its line, and begins with a space where something stands before it. -/
structure Inline (s : Stroke) : Prop where
  /-- There is no line feed in it. -/
  noFeed : ∀ p, '\n' ∉ (s p).1
  /-- The pen stands behind content after it. -/
  content : ∀ p, (s p).2 = .content
  /-- There is a space in front of it. -/
  gap : ∀ p, p ≠ .lineStart → ∃ u, (s p).1 = ' ' :: u

namespace Inline

theorem word {t : Text} (h : '\n' ∉ t) : Inline (.word t) where
  noFeed p := by cases p <;> simp [Stroke.word, h]
  content p := by cases p <;> rfl
  gap p hp := by
    cases p with
    | lineStart => exact absurd rfl hp
    | _ => exact ⟨t, rfl⟩

theorem andThen {a b : Stroke} (ha : Inline a) (hb : ∀ p, '\n' ∉ (b p).1)
    (hb' : ∀ p, (b p).2 = .content) : Inline (a.andThen b) where
  noFeed p := by simp [Stroke.andThen_apply, ha.noFeed, hb]
  content p := by simp [Stroke.andThen_apply, hb']
  gap p hp := by
    obtain ⟨u, hu⟩ := ha.gap p hp
    exact ⟨_, by rw [Stroke.andThen_apply, hu, List.cons_append]⟩

theorem singleQuoted {t : Text} (h : '\n' ∉ t) (n : Nat) : Inline (singleQuoted n t) := by
  -- indentation follows a break only where the pen is at the beginning of a line already
  have hafter (p : Pen) : '\n' ∉ (singleRest.afterBreak n p p).1 := by
    cases p <;> simp [singleRest.afterBreak, Stroke.indent]
  have hrest : ∀ p, '\n' ∉ (singleRest n t p).1 ∧ (singleRest n t p).2 = .content := by
    induction t with
    | nil =>
      intro p
      simp [singleRest, Stroke.andThen_apply, Stroke.joined, hafter]
    | cons c t ih =>
      rw [List.mem_cons, not_or] at h
      intro p
      rw [singleRest]
      split
      · simpa [Stroke.andThen_apply, Stroke.breakChar, h.1] using ih h.2 _
      · have hc : '\n' ∉ (if c = '\'' then ['\'', '\''] else [c]) := by
          split <;> simp [h.1]
        simpa [Stroke.andThen_apply, Stroke.joined, hafter, hc] using ih h.2 _
  exact (word (by simp)).andThen (fun p => (hrest p).1) fun p => (hrest p).2

end Inline

/-- Line feeds are only written as such in blocks. -/
theorem not_mem_of_style {key : Bool} {t : Text}
    (h : Style.of key t = .plain ∨ Style.of key t = .single) : '\n' ∉ t := by
  -- with a line feed a block is wanted, and double quotes are what is used if there can be none
  intro hm
  have hw : Style.wanted t = .block := by simp [Style.wanted, hm]
  rw [Style.of, hw, Style.allowed] at h
  split_ifs at h <;> simp at h

/-- What is written as a block can be written as one. -/
theorem block_of_style {key : Bool} {t : Text} (h : Style.of key t = .block) :
    (Traits.of t).block = true := by
  simp only [Style.of, Style.allowed] at h
  split at h
  · cases h
  · split at h
    · split_ifs at h
    · split_ifs at h
    · split_ifs at h with hb
      exact (Bool.and_eq_true_iff.1 hb).1
    · cases h

/-- A text is written on one line, or as a block. -/
theorem inline_scalar {key : Bool} {t : Text} (h : Style.of key t ≠ .block) (n : Nat) :
    Inline (scalar key n t) := by
  unfold scalar
  cases hs : Style.of key t with
  | plain => exact .word (not_mem_of_style (.inl hs))
  | single => exact .singleQuoted (not_mem_of_style (.inr hs)) _
  | double => exact .word (not_mem_doubleQuoted t)
  | block => exact absurd hs h

theorem style_key_ne_block (t : Text) : Style.of true t ≠ .block := by
  simp only [Style.of, Style.allowed, Bool.true_and, Bool.not_true, Bool.and_false]
  split
  · simp
  · split
    · split_ifs <;> simp
    · split_ifs <;> simp
    · simp
    · simp

/-- A key in front of a colon is written on one line. -/
theorem inline_key (inMapping : Bool) (n : Nat) :
    (k : Value) → isSimpleKey k = true → Inline (node true inMapping n k)
  | .tagged t k, h => by
    have hk : isSimpleKey k = true := by
      simp only [isSimpleKey, keySize?, Option.any_eq_true, Option.map_eq_some_iff] at h ⊢
      obtain ⟨_, ⟨m, hm, rfl⟩, hs⟩ := h
      exact ⟨m, hm, by simp only [decide_eq_true_eq] at hs ⊢; omega⟩
    have ih := inline_key inMapping n k hk
    rw [node]
    exact (Inline.word (not_mem_tagForm t)).andThen ih.noFeed ih.content
  | .sequence [], _ => .word (by decide)
  | .mapping [], _ => .word (by decide)
  | .sequence (_ :: _), h => by simp [isSimpleKey, keySize?] at h
  | .mapping (_ :: _), h => by simp [isSimpleKey, keySize?] at h
  | .text t, _ => inline_scalar (style_key_ne_block t) n
  | .null, _ | .bool _, _ | .int _, _ | .float _, _ => .word (not_mem_scalarText (by simp))

end Yaml

end MarkdownWeave
