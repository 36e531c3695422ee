import Mathlib.Data.List.Basic
import MarkdownWeave.Text.Basic

/-!
# Texts line by line

A text is one line, or a line with a line feed and another text behind it.  Laws about what is cut
into lines and put together again are proved along this, by an induction on the line feeds.

## Main definitions

* `Text.CrLf` — in front of every line feed stands a carriage return.

## Main results

* `Text.induction_on_lines` — the induction.
* `Text.trimEndBy_append` — an ending that is to be taken away does not count.
* `Text.crLf_iff` — **the line ends of a text, told from its lines.**
-/

namespace MarkdownWeave

namespace Text

/-! ### One line after the other -/

/-- What holds of every line, and of a line with a text behind it of which it holds, holds of every
text. -/
theorem induction_on_lines {P : Text → Prop} (t : Text) (last : ∀ line, '\n' ∉ line → P line)
    (above : ∀ line rest, '\n' ∉ line → P rest → P (line ++ '\n' :: rest)) : P t := by
  by_cases h : '\n' ∈ t
  · obtain ⟨line, rest, he, hline⟩ := List.eq_append_cons_of_mem h
    rw [he]
    exact above line rest hline (induction_on_lines rest last above)
  · exact last t h
termination_by t.length
decreasing_by
  rw [he, List.length_append, List.length_cons]
  omega

theorem lines_of_not_mem {line : Text} (h : '\n' ∉ line) : lines line = [line] :=
  splitOn_of_not_mem h

theorem lines_cons {line : Text} (h : '\n' ∉ line) (rest : Text) :
    lines (line ++ '\n' :: rest) = line :: lines rest :=
  splitOn_append h rest

/-- There is one line more than there are line feeds. -/
theorem length_lines (t : Text) : (lines t).length = t.count '\n' + 1 := by
  induction t using induction_on_lines with
  | last line h => rw [lines_of_not_mem h, List.count_eq_zero_of_not_mem h]; rfl
  | above line rest h ih =>
    rw [lines_cons h, List.length_cons, ih, List.count_append, List.count_cons_self,
      List.count_eq_zero_of_not_mem h]
    omega

/-- Lines put together with others below them are two texts with a line feed between them. -/
theorem unlines_append {above below : List Text} (ha : above ≠ []) (hb : below ≠ []) :
    unlines (above ++ below) = unlines above ++ '\n' :: unlines below := by
  obtain ⟨first, rest, rfl⟩ := List.exists_cons_of_ne_nil hb
  induction above with
  | nil => exact absurd rfl ha
  | cons line above ih =>
    cases above with
    | nil => simp [unlines]
    | cons next above =>
      have h := ih (List.cons_ne_nil next above)
      simp only [unlines, List.cons_append, joinWith_cons_cons] at h ⊢
      rw [h]
      simp

/-! ### Endings -/

theorem trimEndBy_of_all {p : Char → Bool} {t : Text} (h : ∀ c ∈ t, p c = true) :
    trimEndBy p t = [] := by
  induction t with
  | nil => rfl
  | cons c t ih =>
    obtain ⟨hc, ht⟩ := List.forall_mem_cons.1 h
    rw [trimEndBy, ih ht]
    exact if_pos hc

/-- What is to be taken away from the end of a text can stand behind it. -/
theorem trimEndBy_append {p : Char → Bool} {ending : Text} (h : ∀ c ∈ ending, p c = true)
    (t : Text) : trimEndBy p (t ++ ending) = trimEndBy p t := by
  induction t with
  | nil => exact trimEndBy_of_all h
  | cons c t ih => rw [List.cons_append, trimEndBy, trimEndBy, ih]

/-- The last character behind a line feed is that of what stands there, or it is the line feed. -/
theorem getLast?_append_lf (line rest : Text) :
    (line ++ '\n' :: rest).getLast? = if rest = [] then some '\n' else rest.getLast? := by
  rw [List.getLast?_append_of_ne_nil line (List.cons_ne_nil '\n' rest)]
  cases rest with
  | nil => rfl
  | cons c rest => rw [List.getLast?_cons_cons, if_neg (List.cons_ne_nil c rest)]

/-! ### Carriage returns -/

/-- In front of every line feed of a text stands a carriage return. -/
def CrLf (t : Text) : Prop :=
  ∀ before after, t = before ++ '\n' :: after → endsWith '\r' before = true

theorem crLf_of_not_mem {line : Text} (h : '\n' ∉ line) : CrLf line := by
  rintro before after rfl
  exact absurd (List.mem_append_right before List.mem_cons_self) h

/-- The first line has its carriage return, and so have the others. -/
theorem crLf_cons {line : Text} (h : '\n' ∉ line) (rest : Text) :
    CrLf (line ++ '\n' :: rest) ↔ endsWith '\r' line = true ∧ CrLf rest := by
  constructor
  · intro hall
    refine ⟨hall line rest rfl, ?_⟩
    intro before after he
    have hend := hall (line ++ '\n' :: before) after (by rw [he, List.append_assoc]; rfl)
    -- between the two line feeds there has to be something
    rw [endsWith, getLast?_append_lf] at hend
    split at hend
    · cases hend
    · exact hend
  · rintro ⟨hline, hrest⟩ before after he
    -- the line feed is the first one, or it stands behind it
    rcases List.append_eq_append_iff.1 he with ⟨gap, rfl, hgap⟩ | ⟨gap, rfl, hgap⟩
    · cases gap with
      | nil => simpa using hline
      | cons c gap =>
        obtain ⟨rfl, hbehind⟩ := List.cons.inj hgap
        have hend := hrest gap after hbehind
        have hne : gap ≠ [] := by
          rintro rfl
          cases hend
        rw [endsWith, getLast?_append_lf, if_neg hne]
        exact hend
    · cases gap with
      | nil => simpa using hline
      | cons c gap =>
        obtain ⟨rfl, -⟩ := List.cons.inj hgap
        exact absurd (List.mem_append_right before List.mem_cons_self) h

/-- **In front of every line feed stands a carriage return, if all lines but the last one end with
one.** -/
theorem crLf_iff (t : Text) : CrLf t ↔ ∀ line ∈ (lines t).dropLast, endsWith '\r' line = true := by
  induction t using induction_on_lines with
  | last line h =>
    rw [lines_of_not_mem h]
    constructor
    · intro _ line hline
      cases hline
    · intro _
      exact crLf_of_not_mem h
  | above line rest h ih =>
    rw [crLf_cons h, lines_cons h, List.dropLast_cons_of_ne_nil (lines_ne_nil rest),
      List.forall_mem_cons, ih]

end Text

end MarkdownWeave
