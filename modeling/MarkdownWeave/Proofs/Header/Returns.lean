import MarkdownWeave.Proofs.Header.Grammar
import MarkdownWeave.Proofs.Yaml.Progress

/-!
# Documents with carriage returns

A text may end its lines with a carriage return and a line feed, and not with a line feed alone.
Nothing that is read depends on it: the header is found in the same place, YAML takes the one for
the other, and the body keeps the line ends that it has.

## Main definitions

* `Text.withReturns` — a text with a carriage return in front of every line feed.

## Main results

* `Yaml.read?_withReturns` — YAML reads the same value.
* `Header.split?_withReturns` — the header is found in the same place.
* `Document.parse_withReturns` — **the document is the same, up to the line ends of its body.**
-/

namespace MarkdownWeave

/-! ### Carriage returns -/

namespace Text

/-- A text with a carriage return in front of every line feed. -/
def withReturns : Text → Text
  | [] => []
  | c :: cs => if c = '\n' then '\r' :: '\n' :: withReturns cs else c :: withReturns cs

@[simp] theorem withReturns_nil : withReturns [] = [] := rfl

@[simp] theorem withReturns_lf (cs : Text) :
    withReturns ('\n' :: cs) = '\r' :: '\n' :: withReturns cs := rfl

theorem withReturns_cons {c : Char} (hc : c ≠ '\n') (cs : Text) :
    withReturns (c :: cs) = c :: withReturns cs := if_neg hc

theorem withReturns_append (s t : Text) : withReturns (s ++ t) = withReturns s ++ withReturns t := by
  induction s with
  | nil => rfl
  | cons c s ih =>
    by_cases hc : c = '\n'
    · subst hc
      simp [ih]
    · rw [List.cons_append, withReturns_cons hc, withReturns_cons hc, ih, List.cons_append]

/-- There is nothing to do on one line. -/
theorem withReturns_of_not_mem {line : Text} (h : '\n' ∉ line) : withReturns line = line := by
  induction line with
  | nil => rfl
  | cons c line ih =>
    rw [List.mem_cons, not_or] at h
    rw [withReturns_cons (Ne.symm h.1), ih h.2]

theorem withReturns_line {line : Text} (h : '\n' ∉ line) (rest : Text) :
    withReturns (line ++ '\n' :: rest) = (line ++ ['\r']) ++ '\n' :: withReturns rest := by
  rw [withReturns_append, withReturns_of_not_mem h, withReturns_lf, List.append_assoc]
  rfl

/-- What holds of carriage returns holds throughout if it did before. -/
theorem all_withReturns {p : Char → Bool} (hp : p '\r' = true) (t : Text) :
    (withReturns t).all p = t.all p := by
  induction t with
  | nil => rfl
  | cons c t ih =>
    by_cases hc : c = '\n'
    · subst hc
      simp [hp, ih]
    · rw [withReturns_cons hc, List.all_cons, List.all_cons, ih]

end Text

open Text (withReturns)

/-! ### YAML -/

namespace Yaml

theorem unifyBreaks_cons {c : Char} (hc : c ≠ '\r') (cs : Text) :
    unifyBreaks (c :: cs) = (if c = nextLine then '\n' else c) :: unifyBreaks cs := by
  rw [unifyBreaks]
  · simp [hc]
  · rintro cs' rfl
    exact absurd rfl hc

/-- A carriage return and a line feed are one line break. -/
theorem unifyBreaks_withReturns {t : Text} (h : '\r' ∉ t) :
    unifyBreaks (withReturns t) = unifyBreaks t := by
  induction t with
  | nil => rfl
  | cons c t ih =>
    rw [List.mem_cons, not_or] at h
    rw [unifyBreaks_cons (Ne.symm h.1)]
    by_cases hc : c = '\n'
    · subst hc
      rw [Text.withReturns_lf, unifyBreaks, ih h.2]
      rfl
    · rw [Text.withReturns_cons hc, unifyBreaks_cons (Ne.symm h.1), ih h.2]

/-- **YAML reads the same value.** -/
theorem read?_withReturns {t : Text} (h : '\r' ∉ t) : read? (withReturns t) = read? t := by
  rw [read?, read?, document?, document?,
    tokens?_congr (unifyBreaks_withReturns h) (Text.all_withReturns rfl t)]

end Yaml

/-! ### Headers -/

namespace Header

/-- The first line of a text is the only one with which it begins. -/
theorem eq_of_line_eq {line line' rest rest' : Text} (h : '\n' ∉ line) (h' : '\n' ∉ line')
    (he : line ++ '\n' :: rest = line' ++ '\n' :: rest') : line = line' := by
  have hlines := congrArg Text.lines he
  rw [Text.lines_cons h, Text.lines_cons h'] at hlines
  exact (List.cons.inj hlines).1

/-- What is behind the opening line, told from the first line. -/
theorem afterOpening?_line {line : Text} (h : '\n' ∉ line) (rest : Text) :
    afterOpening? (line ++ '\n' :: rest) =
      if line = delimiter ∨ line = delimiter ++ ['\r'] then some rest else none := by
  split
  · next ho =>
    rw [afterOpening?_eq_some_iff]
    rcases ho with rfl | rfl
    · exact Or.inl (by simp)
    · exact Or.inr (by simp)
  · next ho =>
    cases hrest : afterOpening? (line ++ '\n' :: rest) with
    | none => rfl
    | some rest' =>
      refine absurd ?_ ho
      rcases afterOpening?_eq_some_iff.1 hrest with he | he
      · rw [List.append_assoc, List.singleton_append] at he
        exact Or.inl (eq_of_line_eq h (by decide) he)
      · have hcr : line ++ '\n' :: rest = (delimiter ++ ['\r']) ++ '\n' :: rest' := by simp [he]
        exact Or.inr (eq_of_line_eq h (by decide) hcr)

theorem afterOpening?_of_not_mem {line : Text} (h : '\n' ∉ line) : afterOpening? line = none := by
  cases hrest : afterOpening? line with
  | none => rfl
  | some rest =>
    refine absurd ?_ h
    rcases afterOpening?_eq_some_iff.1 hrest with rfl | rfl <;> simp

theorem afterOpening?_withReturns {t : Text} (h : '\r' ∉ t) :
    afterOpening? (withReturns t) = (afterOpening? t).map withReturns := by
  induction t using Text.induction_on_lines with
  | last line hline =>
    rw [Text.withReturns_of_not_mem hline, afterOpening?_of_not_mem hline]
    rfl
  | above line rest hline _ =>
    have hcr : '\r' ∉ line := fun hm => h (List.mem_append_left _ hm)
    rw [Text.withReturns_line hline, afterOpening?_line (by simpa using hline),
      afterOpening?_line hline]
    by_cases hd : line = delimiter
    · rw [if_pos (Or.inr (by rw [hd])), if_pos (Or.inl hd)]
      rfl
    · -- the carriage return at its end is the only one on the line
      have hopen : ¬ (line = delimiter ∨ line = delimiter ++ ['\r']) := by
        rintro (he | rfl)
        · exact hd he
        · simp at hcr
      have hopen' : ¬ (line ++ ['\r'] = delimiter ∨ line ++ ['\r'] = delimiter ++ ['\r']) := by
        rintro (he | he)
        · have hm : '\r' ∈ delimiter := by
            rw [← he]
            simp
          exact absurd hm (by decide)
        · exact hd (List.append_cancel_right he)
      rw [if_neg hopen, if_neg hopen']
      rfl

/-- A carriage return at its end makes no line a closing one, and keeps none from it. -/
theorem isClosing_append_cr (line : Text) : isClosing (line ++ ['\r']) = isClosing line := by
  have hcr : ∀ c ∈ ['\r'], isLineEnd c = true := by
    intro c hc
    rw [List.mem_singleton.1 hc]
    rfl
  rw [isClosing, isClosing, Text.trimEndBy_append hcr]

/-- Behind the opening line the header ends in the same place. -/
theorem splitLines?_withReturns (t : Text) :
    splitLines? (fullLines (withReturns t)) =
      (splitLines? (fullLines t)).map (Prod.map withReturns withReturns) := by
  induction t using Text.induction_on_lines with
  | last line hline =>
    rw [Text.withReturns_of_not_mem hline]
    by_cases hne : line = []
    · subst hne
      rfl
    · rw [fullLines_of_not_mem hline hne, splitLines?]
      split <;> rfl
  | above line rest hline ih =>
    have hline' : '\n' ∉ line ++ ['\r'] := by simpa using hline
    rw [Text.withReturns_line hline, fullLines_append hline', fullLines_append hline, splitLines?,
      splitLines?, isClosing_concat, isClosing_append_cr, isClosing_concat, flatten_fullLines,
      flatten_fullLines, ih]
    split
    · rfl
    · cases splitLines? (fullLines rest) with
      | none => rfl
      | some parts =>
        obtain ⟨yaml, body⟩ := parts
        simp [Text.withReturns_line hline]

/-- **The header is found in the same place.** -/
theorem split?_withReturns {t : Text} (h : '\r' ∉ t) :
    split? (withReturns t) = (split? t).map (Prod.map withReturns withReturns) := by
  rw [split?, split?, afterOpening?_withReturns h]
  cases afterOpening? t with
  | none => rfl
  | some rest => exact splitLines?_withReturns rest

theorem read_withReturns {yaml : Text} (h : '\r' ∉ yaml) : read (withReturns yaml) = read yaml := by
  rw [read, read, Text.all_withReturns rfl, Yaml.read?_withReturns h]

/-- The parts of a text have only characters of the text. -/
theorem mem_of_mem_yaml {t yaml body : Text} (h : split? t = some (yaml, body)) {c : Char}
    (hc : c ∈ yaml) : c ∈ t := by
  obtain ⟨f, rfl, rfl, rfl⟩ := split?_eq_some_iff.1 h
  simp [Framed.text, hc]

end Header

/-! ### Documents -/

namespace Document

/-- A document with a carriage return in front of every line feed of its body. -/
def withReturns (d : Document) : Document := ⟨d.metadata, d.body.withReturns⟩

theorem parse_withReturns_eq {t : Text} (h : '\r' ∉ t) :
    parse t.withReturns = (parse t).map withReturns := by
  rw [parse, parse, Header.split?_withReturns h]
  cases hs : Header.split? t with
  | none => rfl
  | some parts =>
    obtain ⟨yaml, body⟩ := parts
    have hyaml : '\r' ∉ yaml := fun hm => h (Header.mem_of_mem_yaml hs hm)
    show (Header.read yaml.withReturns).map _ = ((Header.read yaml).map _).map _
    rw [Header.read_withReturns hyaml]
    cases Header.read yaml <;> rfl

/-- **Carriage returns at the ends of all lines make no difference but to the body.**  A text without
them has a header exactly if it has one with them, and its parts are the same then, each with its
own carriage returns.  YAML reads the same from its header.  So the text is a document exactly if it
is one with them, with the same metadata. -/
theorem parse_withReturns {t : Text} (h : '\r' ∉ t) :
    (Header.split? t.withReturns = none ↔ Header.split? t = none) ∧
      (∀ yaml body, Header.split? t = some (yaml, body) →
        Header.split? t.withReturns = some (yaml.withReturns, body.withReturns) ∧
          Yaml.read? yaml.withReturns = Yaml.read? yaml) ∧
      (∀ d, parse t.withReturns = .ok d ↔
        ∃ e, parse t = .ok e ∧ d = ⟨e.metadata, e.body.withReturns⟩) := by
  refine ⟨?_, ?_, ?_⟩
  · rw [Header.split?_withReturns h, Option.map_eq_none_iff]
  · intro yaml body hs
    rw [Header.split?_withReturns h, hs]
    exact ⟨rfl, Yaml.read?_withReturns fun hm => h (Header.mem_of_mem_yaml hs hm)⟩
  · intro d
    rw [parse_withReturns_eq h]
    cases parse t with
    | error f => simp [Except.map]
    | ok e => simp [Except.map, withReturns, eq_comm]

/-- YAML with a comment, and with scalars of all kinds over several lines. -/
def foldedYaml : Text :=
  "# c\nk: |+\n  a\n\n  b\n\nq: 'x\n\n  y'\ne: \"c\\\n  d\"\ns: [1,\n  f\n  g]\n"

/-- A text with this header, and with a body that begins with hyphens. -/
def foldedText : Text := "---\n" ++ foldedYaml ++ "---\n---\n\nend"

/-- With carriage returns it is a document with the same metadata. -/
theorem parse_foldedText :
    '\r' ∉ foldedText ∧
      Header.split? foldedText.withReturns =
        some (foldedYaml.withReturns, ("---\r\n\r\nend" : Text)) ∧
      parse foldedText.withReturns = .ok ⟨[(.text "k", .text "a\n\nb\n\n"),
        (.text "q", .text "x\ny"), (.text "e", .text "cd"),
        (.text "s", .sequence [.int 1, .text "f g"])], "---\r\n\r\nend"⟩ := by
  have hcr : '\r' ∉ foldedText := by decide +kernel
  have hsplit : Header.split? foldedText = some (foldedYaml, ("---\n\nend" : Text)) := by
    decide +kernel
  have hparse : parse foldedText = .ok ⟨[(.text "k", .text "a\n\nb\n\n"),
      (.text "q", .text "x\ny"), (.text "e", .text "cd"),
      (.text "s", .sequence [.int 1, .text "f g"])], "---\n\nend"⟩ := by
    decide +kernel
  obtain ⟨-, hparts, hdocument⟩ := parse_withReturns hcr
  exact ⟨hcr, (hparts _ _ hsplit).1, (hdocument _).2 ⟨_, hparse, rfl⟩⟩

end Document

end MarkdownWeave
