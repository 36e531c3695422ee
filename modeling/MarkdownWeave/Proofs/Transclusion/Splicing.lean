import Mathlib.Data.List.Basic
import Mathlib.Data.List.TakeWhile
import Mathlib.Tactic.ByContra
import Mathlib.Tactic.Conv
import MarkdownWeave.Compile.Transclusion
import MarkdownWeave.Proofs.Lines

/-!
# Splicing and references

A line of a document that is put in place of another line is indented, and its carriage return can
change.  Neither makes it a reference, or another reference than it was: white space before the at
sign and behind the path does not count.

## Main definitions

* `Reference.pathOf?` — the path that a line refers to.

## Main results

* `Reference.pathOf?_append_blank`, `Reference.pathOf?_blank_append` — white space at the ends of a
  line does not change what it refers to.
* `pathOf?_spliceLine` — neither does splicing.
* `spliceLine_spliceLine`, `splice_splice` — splicing twice is splicing once, with both
  indentations.
* `splice_margin` — splicing at the margin changes nothing.
* `foldr_splice` — so at any depth splicing is splicing once.
* `splice_composes` — **how bodies are spliced into bodies.**
-/

namespace MarkdownWeave

namespace Reference

/-- The path that a line refers to. -/
def pathOf? (line : Text) : Option Text := (ofLine? line).map path

/-- The path that is referred to by a line without the white space before it. -/
def read? : Text → Option Text
  | '@' :: rest =>
    if !(rest.takeWhile isPathChar).isEmpty && (rest.dropWhile isPathChar).all Text.isBlank then
      some (rest.takeWhile isPathChar)
    else none
  | _ => none

theorem pathOf?_eq_read? (line : Text) : pathOf? line = read? (line.dropWhile Text.isBlank) := by
  unfold pathOf? ofLine?
  cases line.dropWhile Text.isBlank with
  | nil => rfl
  | cons c rest =>
    by_cases hc : c = '@'
    · subst hc
      rw [read?]
      simp only
      split <;> rfl
    · simp [read?, hc]

theorem pathOf?_eq_none {line : Text} : pathOf? line = none ↔ ofLine? line = none :=
  Option.map_eq_none_iff

theorem pathOf?_of_ofLine? {line : Text} {ref : Reference} (h : ofLine? line = some ref) :
    pathOf? line = some ref.path := by
  rw [pathOf?, h, Option.map_some]

/-! ### White space around a reference -/

/-- No white space may stand in a path. -/
theorem isPathChar_eq_false_of_isBlank {c : Char} (h : Text.isBlank c = true) :
    isPathChar c = false := by
  by_contra hp
  rw [Bool.not_eq_false] at hp
  simp only [isPathChar, Bool.or_eq_true, beq_iff_eq] at hp
  -- letters, digits, and four characters by themselves
  rcases hp with ((((hp | hp) | rfl) | rfl) | rfl) | rfl
  · exact absurd h (by simp [Text.isBlank_eq_false_of_isLetter hp])
  · exact absurd h (by simp [Text.isBlank_eq_false_of_isDigit hp])
  all_goals exact absurd h (by decide)

theorem takeWhile_isPathChar_append {rest e : Text} (he : ∀ c ∈ e, Text.isBlank c = true) :
    (rest ++ e).takeWhile isPathChar = rest.takeWhile isPathChar := by
  induction rest with
  | nil =>
    cases e with
    | nil => rfl
    | cons c e => simp [isPathChar_eq_false_of_isBlank (he c List.mem_cons_self)]
  | cons c rest ih =>
    rw [List.cons_append, List.takeWhile_cons, List.takeWhile_cons, ih]

theorem dropWhile_isPathChar_append {rest e : Text} (he : ∀ c ∈ e, Text.isBlank c = true) :
    (rest ++ e).dropWhile isPathChar = rest.dropWhile isPathChar ++ e := by
  induction rest with
  | nil =>
    cases e with
    | nil => rfl
    | cons c e => simp [isPathChar_eq_false_of_isBlank (he c List.mem_cons_self)]
  | cons c rest ih =>
    rw [List.cons_append, List.dropWhile_cons, List.dropWhile_cons]
    split
    · exact ih
    · rfl

/-- White space at the end of a line does not change what it refers to. -/
theorem pathOf?_append_blank {line e : Text} (he : ∀ c ∈ e, Text.isBlank c = true) :
    pathOf? (line ++ e) = pathOf? line := by
  have hall : e.all Text.isBlank = true := List.all_eq_true.2 he
  rw [pathOf?_eq_read?, pathOf?_eq_read?, List.dropWhile_append]
  cases hd : line.dropWhile Text.isBlank with
  | nil =>
    -- a blank line is no reference, whatever blank follows
    have hnil : e.dropWhile Text.isBlank = [] := by simpa [List.dropWhile_eq_nil_iff] using he
    rw [List.isEmpty_nil, if_pos rfl, hnil]
  | cons c rest =>
    rw [List.isEmpty_cons, if_neg Bool.false_ne_true, List.cons_append]
    by_cases hc : c = '@'
    · subst hc
      rw [read?, read?, takeWhile_isPathChar_append he, dropWhile_isPathChar_append he,
        List.all_append, hall, Bool.and_true]
    · simp [read?, hc]

/-- White space at the beginning of a line does not change what it refers to. -/
theorem pathOf?_blank_append {line indent : Text} (hi : ∀ c ∈ indent, Text.isBlank c = true) :
    pathOf? (indent ++ line) = pathOf? line := by
  rw [pathOf?_eq_read?, pathOf?_eq_read?, List.dropWhile_append_of_pos hi]

/-- The indentation of a reference is the white space that its line begins with. -/
theorem indent_of_ofLine? {line : Text} {ref : Reference} (h : ofLine? line = some ref) :
    ref.indent = line.takeWhile Text.isBlank := by
  unfold ofLine? at h
  split at h
  · dsimp only at h
    split at h
    · exact (congrArg indent (Option.some.inj h)).symm
    · cases h
  · cases h

theorem isBlank_of_mem_indent {line : Text} {ref : Reference} (h : ofLine? line = some ref) :
    ∀ c ∈ ref.indent, Text.isBlank c = true := by
  intro c hc
  rw [indent_of_ofLine? h] at hc
  exact List.mem_takeWhile_imp hc

theorem mem_of_mem_indent {line : Text} {ref : Reference} (h : ofLine? line = some ref) {c : Char}
    (hc : c ∈ ref.indent) : c ∈ line := by
  rw [indent_of_ofLine? h] at hc
  exact (List.takeWhile_sublist _).mem hc

end Reference

/-! ### Spliced lines -/

theorem isBlank_of_mem_ending (b : Bool) :
    ∀ c ∈ (if b then ['\r'] else [] : Text), Text.isBlank c = true := by
  intro c hc
  cases b with
  | false => cases hc
  | true => rw [List.mem_singleton.1 hc]; exact Text.isBlank_cr

/-- A carriage return at the end of a line does not change what it refers to. -/
theorem Reference.pathOf?_dropCr (line : Text) :
    Reference.pathOf? (Text.dropCr line) = Reference.pathOf? line := by
  conv_rhs => rw [← Text.dropCr_append line]
  exact (Reference.pathOf?_append_blank (isBlank_of_mem_ending _)).symm

/-- **Splicing does not change what a line refers to.** -/
theorem pathOf?_spliceLine {indent : Text} (hi : ∀ c ∈ indent, Text.isBlank c = true) (cr : Bool)
    (line : Text) :
    Reference.pathOf? (spliceLine indent cr line) = Reference.pathOf? line := by
  -- the spliced line is the words of the line with blanks at both ends, or none if it has no words
  rw [← Reference.pathOf?_dropCr line, spliceLine]
  cases hw : Text.dropCr line with
  | nil =>
    rw [List.isEmpty_nil, if_pos rfl, ← List.nil_append (ite _ _ _)]
    exact Reference.pathOf?_append_blank (isBlank_of_mem_ending _)
  | cons c words =>
    rw [List.isEmpty_cons, if_neg Bool.false_ne_true, List.append_assoc,
      Reference.pathOf?_blank_append hi]
    exact Reference.pathOf?_append_blank (isBlank_of_mem_ending _)

/-- A spliced line is a line. -/
theorem not_mem_spliceLine {indent line : Text} (hi : '\n' ∉ indent) (hl : '\n' ∉ line)
    (cr : Bool) : '\n' ∉ spliceLine indent cr line := by
  have hw : '\n' ∉ Text.dropCr line := by
    intro hm
    refine hl ?_
    rw [← Text.dropCr_append line]
    exact List.mem_append_left _ hm
  have he : ∀ b : Bool, '\n' ∉ (if b then ['\r'] else []) := by decide
  unfold spliceLine
  dsimp only
  split
  · exact he _
  · simp only [List.mem_append, not_or]
    exact ⟨⟨hi, hw⟩, he _⟩

/-! ### Splicing twice -/

/-- A line that has no words but maybe a carriage return gets no indentation. -/
theorem spliceLine_of_blank {line : Text} (h : Text.dropCr line = []) (indent : Text) (cr : Bool) :
    spliceLine indent cr line = if cr || Text.endsWith '\r' line then ['\r'] else [] := by
  rw [spliceLine, h]
  rfl

theorem spliceLine_of_words {line : Text} (h : Text.dropCr line ≠ []) (indent : Text) (cr : Bool) :
    spliceLine indent cr line =
      indent ++ Text.dropCr line ++ if cr || Text.endsWith '\r' line then ['\r'] else [] := by
  rw [spliceLine, if_neg (by simpa using h)]

/-- A spliced line has a carriage return if it had one before or was to get one. -/
theorem endsWith_spliceLine (indent : Text) (cr : Bool) (line : Text) :
    Text.endsWith '\r' (spliceLine indent cr line) = (cr || Text.endsWith '\r' line) := by
  by_cases hw : Text.dropCr line = []
  · rw [spliceLine_of_blank hw]
    cases cr || Text.endsWith '\r' line <;> rfl
  · rw [spliceLine_of_words hw]
    cases hc : cr || Text.endsWith '\r' line with
    | true => simp [Text.endsWith]
    | false =>
      -- without a carriage return the line is its words, and they stand at the end
      rw [Bool.or_eq_false_iff] at hc
      have hline : Text.dropCr line = line := by simp [Text.dropCr, hc.2]
      rw [hline] at hw ⊢
      simpa [Text.endsWith, List.getLast?_append_of_ne_nil indent hw] using hc.2

/-- Apart from that it is its words, behind the indentation if there are any. -/
theorem dropCr_spliceLine (indent : Text) (cr : Bool) (line : Text) :
    Text.dropCr (spliceLine indent cr line) =
      if Text.dropCr line = [] then [] else indent ++ Text.dropCr line := by
  rw [Text.dropCr, endsWith_spliceLine]
  by_cases hw : Text.dropCr line = []
  · rw [if_pos hw, spliceLine_of_blank hw]
    cases cr || Text.endsWith '\r' line <;> rfl
  · rw [if_neg hw, spliceLine_of_words hw]
    cases cr || Text.endsWith '\r' line <;> simp

/-- **Splicing twice is splicing once**, with the outer indentation before the inner one, and with a
carriage return if either asks for one. -/
theorem spliceLine_spliceLine (outer inner : Text) (c c' : Bool) (line : Text) :
    spliceLine outer c (spliceLine inner c' line) = spliceLine (outer ++ inner) (c || c') line := by
  by_cases hw : Text.dropCr line = []
  · have hw' : Text.dropCr (spliceLine inner c' line) = [] := by rw [dropCr_spliceLine, if_pos hw]
    rw [spliceLine_of_blank hw', endsWith_spliceLine, spliceLine_of_blank hw, Bool.or_assoc]
  · have hw' : Text.dropCr (spliceLine inner c' line) = inner ++ Text.dropCr line := by
      rw [dropCr_spliceLine, if_neg hw]
    rw [spliceLine_of_words (by simp [hw', hw]), hw', endsWith_spliceLine, spliceLine_of_words hw,
      Bool.or_assoc, ← List.append_assoc outer]

/-- **Splicing at the margin changes nothing.** -/
theorem spliceLine_margin (line : Text) : spliceLine [] false line = line := by
  by_cases hw : Text.dropCr line = []
  · rw [spliceLine_of_blank hw, Bool.false_or]
    conv_rhs => rw [← Text.dropCr_append line, hw, List.nil_append]
  · rw [spliceLine_of_words hw, List.nil_append, Bool.false_or, Text.dropCr_append]

theorem splice_margin (body : Text) : splice [] false body = Text.lines body := by
  rw [splice, funext spliceLine_margin, List.map_id']

/-! ### Bodies in bodies -/

section Bodies

variable {indent : Text}

/-- A spliced body is made of lines. -/
theorem not_mem_of_mem_splice (hi : '\n' ∉ indent) (cr : Bool) (body : Text) :
    ∀ line ∈ splice indent cr body, '\n' ∉ line := by
  intro line hline
  obtain ⟨words, hwords, rfl⟩ := List.mem_map.1 hline
  exact not_mem_spliceLine hi (Text.not_mem_of_mem_lines hwords) cr

/-- There is one for every line of the body; a body without characters has one line. -/
theorem length_splice (indent : Text) (cr : Bool) (body : Text) :
    (splice indent cr body).length = body.count '\n' + 1 := by
  rw [splice, List.length_map, Text.length_lines]

theorem splice_ne_nil (indent : Text) (cr : Bool) (body : Text) : splice indent cr body ≠ [] := by
  apply List.ne_nil_of_length_pos
  rw [length_splice]
  exact Nat.succ_pos _

/-- Put together and cut again they are the same lines. -/
theorem lines_unlines_splice (hi : '\n' ∉ indent) (cr : Bool) (body : Text) :
    Text.lines (Text.unlines (splice indent cr body)) = splice indent cr body :=
  Text.lines_unlines (splice_ne_nil indent cr body) (not_mem_of_mem_splice hi cr body)

/-- **Splicing a spliced body is splicing the body once.** -/
theorem splice_splice {inner : Text} (hi : '\n' ∉ inner) (outer : Text) (c c' : Bool)
    (body : Text) :
    splice outer c (Text.unlines (splice inner c' body)) =
      splice (outer ++ inner) (c || c') body := by
  rw [splice, lines_unlines_splice hi, splice, splice, List.map_map]
  apply List.map_congr_left
  intro line _
  exact spliceLine_spliceLine outer inner c c' line

theorem unlines_splice_margin (body : Text) : Text.unlines (splice [] false body) = body := by
  rw [splice_margin, Text.unlines_lines]

/-- **At any depth splicing is splicing once**, with the indentations of all levels one behind the
other, the outermost first, and with carriage returns if one of the levels asks for them. -/
theorem foldr_splice (levels : List (Text × Bool)) (h : ∀ l ∈ levels, '\n' ∉ l.1) (body : Text) :
    levels.foldr (fun l b => Text.unlines (splice l.1 l.2 b)) body =
      Text.unlines (splice (levels.flatMap Prod.fst) (levels.any Prod.snd) body) := by
  induction levels with
  | nil => exact (unlines_splice_margin body).symm
  | cons l levels ih =>
    obtain ⟨-, hlevels⟩ := List.forall_mem_cons.1 h
    have hinner : '\n' ∉ levels.flatMap Prod.fst := by
      intro hm
      obtain ⟨k, hk, hm⟩ := List.mem_flatMap.1 hm
      exact hlevels k hk hm
    rw [List.foldr_cons, ih hlevels, splice_splice hinner]
    rfl

/-- A line with nothing on it but maybe a carriage return stays such a line. -/
theorem spliceLine_of_bare {line : Text} (h : line = [] ∨ line = ['\r']) (indent : Text)
    (cr : Bool) :
    spliceLine indent cr line = [] ∨ spliceLine indent cr line = ['\r'] := by
  have hwords : Text.dropCr line = [] := by rcases h with rfl | rfl <;> rfl
  rw [spliceLine_of_blank hwords]
  split
  · exact Or.inr rfl
  · exact Or.inl rfl

/-- **How bodies are spliced into bodies.**  Splicing with one indentation what has been spliced
with another is splicing once with both, and with a carriage return if either asks for one, so that
a body at any depth is spliced once with all indentations on the way.  Splicing gives a line for
each line of the body, does not indent a line that is empty or a carriage return alone, and at the
margin changes nothing. -/
theorem splice_composes (outer : Text) {inner : Text} (hinner : '\n' ∉ inner) (c c' : Bool)
    (body : Text) :
    splice outer c (Text.unlines (splice inner c' body)) =
        splice (outer ++ inner) (c || c') body ∧
      (splice outer c body).length = body.count '\n' + 1 ∧
      (∀ (i : Nat) line, (Text.lines body)[i]? = some line → line = [] ∨ line = ['\r'] →
        (splice outer c body)[i]? = some [] ∨ (splice outer c body)[i]? = some ['\r']) ∧
      Text.unlines (splice [] false body) = body ∧
      ∀ levels : List (Text × Bool), (∀ l ∈ levels, '\n' ∉ l.1) →
        levels.foldr (fun l b => Text.unlines (splice l.1 l.2 b)) body =
          Text.unlines (splice (levels.flatMap Prod.fst) (levels.any Prod.snd) body) := by
  refine ⟨splice_splice hinner outer c c' body, length_splice outer c body, ?_,
    unlines_splice_margin body, fun levels hlevels => foldr_splice levels hlevels body⟩
  intro i line hline hbare
  have hspliced : (splice outer c body)[i]? = some (spliceLine outer c line) := by
    rw [splice, List.getElem?_map, hline, Option.map_some]
  rw [hspliced, Option.some.injEq, Option.some.injEq]
  exact spliceLine_of_bare hbare outer c

/-- Lines of all kinds, two of them with two carriage returns, are spliced into a line of a document
with carriage returns, and with that into another one. -/
theorem splice_raggedBody :
    splice "> " false (Text.unlines (splice "\t" true "a\r\r\n\r\n\n b\n\r\r")) =
        (["> \ta\r\r", "\r", "\r", "> \t b\r", "> \t\r\r"] : List Text) ∧
      (splice "> " false "a\r\r\n\r\n\n b\n\r\r").length = 5 := by
  have htab : '\n' ∉ ("\t" : Text) := by decide
  obtain ⟨htwice, hlength, -⟩ := splice_composes "> " htab false true "a\r\r\n\r\n\n b\n\r\r"
  refine ⟨?_, hlength.trans (by decide +kernel)⟩
  rw [htwice]
  decide +kernel

end Bodies

end MarkdownWeave
