import Mathlib.Data.List.Basic
import MarkdownWeave.Document.Header
import MarkdownWeave.Proofs.Lines

/-!
# Lines that end a header

The header of a text goes on until the first closing line.  That a text has no such line can often
be told by reading it once, character by character: all that is remembered of the line at hand is
whether it begins with a hyphen, and whether something on it keeps it from being a closing one.

## Main definitions

* `Header.Margin` — what is known of a line that is not complete.
* `Header.Margin.after?` — what is known behind a text without closing lines.

## Main results

* `Header.after?_eq_none_of_isClosing` — no closing line is read over.
* `Header.splitLines?_append` — complete lines without a closing one belong to the header.
* `Header.split?_join` — **a header made of such lines is found again.**
* `Header.split?_join_of_marked` — the lines of a header that is not made of complete lines go on
  into the body.
-/

namespace MarkdownWeave

namespace Header

/-- What is known of a line that is not complete. -/
inductive Margin
  /-- Nothing is written on it. -/
  | clear
  /-- It begins with a hyphen, and may still become a closing line. -/
  | hyphens
  /-- It is no closing line, however it goes on. -/
  | marked
deriving DecidableEq

namespace Margin

/-- What is known of a line with one more character on it. -/
def onLine (m : Margin) (c : Char) : Margin :=
  match m with
  | .clear => if c = '-' then .hyphens else .marked
  | .hyphens => if c = '-' ∨ c = '\r' then .hyphens else .marked
  | .marked => .marked

/-- What is known behind one more character, unless that completes what may be a closing line. -/
def next? (m : Margin) (c : Char) : Option Margin :=
  if c = '\n' then (if m = .hyphens then none else some .clear) else some (m.onLine c)

/-- What is known behind a text, unless it completes what may be a closing line. -/
def after? (m : Margin) : Text → Option Margin
  | [] => some m
  | c :: cs => (m.next? c).bind fun n => n.after? cs

@[simp] theorem after?_nil (m : Margin) : m.after? [] = some m := rfl

theorem after?_cons (m : Margin) (c : Char) (cs : Text) :
    m.after? (c :: cs) = (m.next? c).bind fun n => n.after? cs := rfl

theorem after?_append (m : Margin) (s t : Text) :
    m.after? (s ++ t) = (m.after? s).bind fun n => n.after? t := by
  induction s generalizing m with
  | nil => rfl
  | cons c s ih =>
    rw [List.cons_append, after?_cons, after?_cons, Option.bind_assoc]
    exact congrArg _ (funext ih)

theorem after?_lineFeed {m : Margin} (h : m ≠ .hyphens) : m.after? ['\n'] = some .clear := by
  simp [after?_cons, next?, h]

theorem onLine_ne_clear (m : Margin) (c : Char) : m.onLine c ≠ .clear := by
  cases m with
  | clear => simp only [onLine]; split <;> simp
  | hyphens => simp only [onLine]; split <;> simp
  | marked => simp [onLine]

theorem onLine_of_ne {m : Margin} {c : Char} (hm : m ≠ .hyphens) (hc : c ≠ '-') :
    m.onLine c = .marked := by
  cases m with
  | clear => exact if_neg hc
  | hyphens => exact absurd rfl hm
  | marked => rfl

/-- On one line nothing is ever completed. -/
theorem after?_of_not_mem {t : Text} (h : '\n' ∉ t) (m : Margin) :
    m.after? t = some (t.foldl onLine m) := by
  induction t generalizing m with
  | nil => rfl
  | cons c t ih =>
    rw [List.mem_cons, not_or] at h
    rw [after?_cons, next?, if_neg (Ne.symm h.1), Option.bind_some, ih h.2, List.foldl_cons]

theorem after?_marked {t : Text} (h : '\n' ∉ t) : marked.after? t = some .marked := by
  rw [after?_of_not_mem h]
  congr 1
  exact List.foldl_fixed' (fun _ => rfl) t

/-- A character that is neither a hyphen nor a line end keeps a line from being a closing one. -/
theorem after?_cons_of_marks {c : Char} {t : Text} (hc : c ≠ '-' ∧ c ≠ '\r' ∧ c ≠ '\n')
    (ht : '\n' ∉ t) (m : Margin) : m.after? (c :: t) = some .marked := by
  have hm : m.next? c = some .marked := by
    cases m <;> simp [next?, onLine, hc]
  rw [after?_cons, hm, Option.bind_some, after?_marked ht]

/-- Line ends, of which one is a line feed, complete a line that may be a closing one. -/
theorem after?_hyphens_of_lineEnds {t : Text} (h : ∀ c ∈ t, isLineEnd c = true) (hn : '\n' ∈ t) :
    hyphens.after? t = none := by
  induction t with
  | nil => simp at hn
  | cons c t ih =>
    rw [after?_cons]
    by_cases hc : c = '\n'
    · simp [next?, hc]
    · have hr : c = '\r' := by simpa [isLineEnd, hc] using h c (by simp)
      have hm : hyphens.next? c = some .hyphens := by simp [next?, onLine, hr]
      rw [hm, Option.bind_some]
      exact ih (fun d hd => h d (by simp [hd])) (by simpa [Ne.symm hc] using hn)

end Margin

open Margin

/-- **No closing line is read over.** -/
theorem after?_eq_none_of_isClosing {line : Text} (h : isClosing line = true) (hn : '\n' ∈ line) :
    clear.after? line = none := by
  -- a closing line is the delimiter with line ends behind it, and one of these is a line feed
  obtain ⟨ending, he, hp⟩ := Text.exists_trimEndBy_append isLineEnd line
  have hdelimiter : Text.trimEndBy isLineEnd line = delimiter := eq_of_beq h
  rw [hdelimiter] at he
  have hd : clear.after? delimiter = some .hyphens := by decide
  have hm : '\n' ∈ ending := by simpa [he, delimiter] using hn
  rw [he, after?_append, hd, Option.bind_some, after?_hyphens_of_lineEnds hp hm]

/-! ### Lines in front of others -/

theorem fullLines_append {line : Text} (h : '\n' ∉ line) (t : Text) :
    fullLines (line ++ '\n' :: t) = (line ++ ['\n']) :: fullLines t := by
  induction line with
  | nil => simp [fullLines]
  | cons c line ih =>
    rw [List.mem_cons, not_or] at h
    rw [List.cons_append, fullLines, if_neg (Ne.symm h.1), ih h.2]
    rfl

theorem eq_nil_of_after?_clear {t : Text} (hn : '\n' ∉ t) {m : Margin}
    (h : m.after? t = some .clear) : t = [] := by
  rcases List.eq_nil_or_concat t with rfl | ⟨s, c, rfl⟩
  · rfl
  · rw [after?_of_not_mem hn, List.concat_eq_append, List.foldl_concat] at h
    exact absurd (Option.some.inj h) (onLine_ne_clear _ c)

/-- Complete lines without a closing one belong to the header. -/
theorem splitLines?_append {y : Text} (h : clear.after? y = some .clear) (t : Text) :
    splitLines? (fullLines (y ++ t)) =
      (splitLines? (fullLines t)).map fun (yaml, body) => (y ++ yaml, body) := by
  induction y using Text.induction_on_lines with
  | last line hl =>
    rw [eq_nil_of_after?_clear hl h]
    simp
  | above line rest hl ih =>
    -- the first line is no closing one, and nothing is written yet on the line behind it
    rw [List.append_cons, after?_append] at h
    obtain ⟨m, hm, hrest⟩ := Option.bind_eq_some_iff.1 h
    have hopen : isClosing (line ++ ['\n']) = false := by
      by_contra hc
      rw [after?_eq_none_of_isClosing (by simpa using hc) (by simp)] at hm
      cases hm
    obtain rfl : m = .clear := by
      rw [after?_append, after?_of_not_mem hl, Option.bind_some, after?_cons, next?,
        if_pos rfl] at hm
      split at hm
      · cases hm
      · exact (Option.some.inj hm).symm
    rw [List.append_assoc, List.cons_append, fullLines_append hl, splitLines?, hopen, ih hrest]
    simp [Function.comp_def]

/-! ### Headers with their bodies -/

theorem splitLines?_delimiter (t : Text) :
    splitLines? (fullLines (delimiter ++ '\n' :: t)) = some ([], t) := by
  have hclosing : isClosing (delimiter ++ ['\n']) = true := by decide
  rw [fullLines_append (by decide), splitLines?, if_pos hclosing, flatten_fullLines]

theorem split?_join_eq (y body : Text) :
    split? (join y body) = splitLines? (fullLines (y ++ (delimiter ++ '\n' :: endLine body))) := by
  simp [split?, join, delimiter, afterOpening?]

/-- **A header made of complete lines, none of them a closing one, is found again.** -/
theorem split?_join {y : Text} (h : clear.after? y = some .clear) (body : Text) :
    split? (join y body) = some (y, endLine body) := by
  rw [split?_join_eq, splitLines?_append h, splitLines?_delimiter]
  simp

/-- A header whose last line is not complete does not end before the body: what should have closed
it stands on that line, and a line of the body closes it, if there is one that does. -/
theorem split?_join_of_marked {y : Text} (h : clear.after? y = some .marked) (body : Text) :
    split? (join y body) = (splitLines? (fullLines (endLine body))).map fun (yaml, rest) =>
      (y ++ (delimiter ++ '\n' :: yaml), rest) := by
  -- the delimiter completes the last line of the header, which is no closing one even so
  have hline : clear.after? (y ++ (delimiter ++ ['\n'])) = some .clear := by
    rw [after?_append, h]
    decide
  have happend := splitLines?_append hline (endLine body)
  rw [split?_join_eq]
  simpa using happend

/-- What stands behind a closing line is shorter than all lines together. -/
theorem length_lt_of_splitLines? {ls : List Text} {yaml body : Text}
    (h : splitLines? ls = some (yaml, body)) : body.length < ls.flatten.length := by
  induction ls generalizing yaml with
  | nil => cases h
  | cons l ls ih =>
    rw [splitLines?] at h
    rw [List.flatten_cons, List.length_append]
    split at h
    · next hl =>
      cases h
      have hne : l ≠ [] := by
        rintro rfl
        exact absurd hl (by decide)
      have hpos : 0 < l.length := List.length_pos_iff.2 hne
      omega
    · obtain ⟨⟨y, b⟩, hs, he⟩ := Option.map_eq_some_iff.1 h
      cases he
      have hlt : body.length < ls.flatten.length := ih hs
      omega

/-- The body of a text with a header is shorter than the text. -/
theorem length_lt_of_split? {t yaml body : Text} (h : split? t = some (yaml, body)) :
    body.length < t.length := by
  obtain ⟨rest, hrest, hlines⟩ := Option.bind_eq_some_iff.1 h
  have hlt := length_lt_of_splitLines? hlines
  rw [flatten_fullLines] at hlt
  have hle : rest.length ≤ t.length := by
    unfold afterOpening? at hrest
    split at hrest
    · cases hrest
      simp only [List.length_cons]
      omega
    · cases hrest
      simp only [List.length_cons]
      omega
    · cases hrest
  omega

end Header

end MarkdownWeave
