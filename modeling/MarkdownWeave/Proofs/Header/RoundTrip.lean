import Mathlib.Control.Monad.Basic
import MarkdownWeave.Proofs.Header.Layout
import MarkdownWeave.Proofs.Metadata.Canonical

/-!
# Writing documents and reading them again

A document with metadata is written as a header and its body, and a document without metadata as its
body alone.  What is written reads back as the same document, up to a line feed that the body gets
at its end, with two exceptions: a body that begins with a header of its own is taken apart if
nothing stands in front of it, and a header that ends with a separator instead of a line feed is not
closed.

## Main results

* `Header.split?_format` — **a header is found again, as it was written, if and only if its last
  line is complete.**
* `Document.parse_format` — **what is written reads back, and is written the same again.**
-/

namespace MarkdownWeave

/-! ### Headers that are written -/

/-- Every entry is written with a colon. -/
theorem Yaml.colon_mem_layout {m : Metadata} (hm : m ≠ []) : ':' ∈ Yaml.layout m := by
  cases m with
  | nil => exact absurd rfl hm
  | cons e m =>
    obtain ⟨k, v⟩ := e
    have hentry (p : Pen) : ':' ∈ (entry 0 (k, v) p).1 := by
      rw [entry]
      split <;> simp [Stroke.andThen_apply, Stroke.joined, Stroke.mark]
    simp [layout, entries, Stroke.andThen_apply, hentry]

namespace Header

theorem endLine_endLine (t : Text) : endLine (endLine t) = endLine t := by
  unfold endLine
  split
  · rfl
  · simp [Text.endsWith]

/-- Metadata that can be written, with a body, is written as a header and the body. -/
theorem format_of_write? {m : Metadata} (hm : m ≠ []) {y : Text} (hy : Yaml.write? m = some y)
    (body : Text) : format m body = .ok (join y body) := by
  have hempty : m.isEmpty = false := by simpa using hm
  rw [format, hempty, hy]
  rfl

theorem eq_layout_of_write? {m : Metadata} {y : Text} (hy : Yaml.write? m = some y) :
    y = Yaml.layout m := by
  rw [Yaml.write?] at hy
  split at hy
  · exact (Option.some.inj hy).symm
  · cases hy

section Written

variable {m : Metadata} (hm : m ≠ []) {y : Text} (hy : Yaml.write? m = some y)
include hm hy

/-- A header whose last line is complete is found again. -/
theorem split?_join_of_closed (ho : Yaml.endsOpen (.mapping m) = false) (body : Text) :
    split? (join y body) = some (y, endLine body) := by
  have h := Yaml.after?_layout hm
  rw [← eq_layout_of_write? hy, ho] at h
  exact split?_join h body

/-- A header whose last line is not complete goes on into the body. -/
theorem split?_join_of_open (ho : Yaml.endsOpen (.mapping m) = true) (body : Text) :
    split? (join y body) = (splitLines? (fullLines (endLine body))).map fun (yaml, rest) =>
      (y ++ (delimiter ++ '\n' :: yaml), rest) := by
  have h := Yaml.after?_layout hm
  rw [← eq_layout_of_write? hy, ho] at h
  exact split?_join_of_marked h body

/-- Behind a header whose last line is not complete the body is never found as a whole. -/
theorem ne_endLine_of_open (ho : Yaml.endsOpen (.mapping m) = true) {body yaml rest : Text}
    (h : split? (join y body) = some (yaml, rest)) : rest ≠ endLine body := by
  rw [split?_join_of_open hm hy ho] at h
  obtain ⟨⟨yaml', rest'⟩, hlines, he⟩ := Option.map_eq_some_iff.1 h
  cases he
  have hlt := length_lt_of_splitLines? hlines
  rw [flatten_fullLines] at hlt
  rintro rfl
  omega

/-- **A header is found again, as it was written, if and only if its last line is complete.**  It is
not complete if the last text of the metadata is written as a block and ends with a line separator
or a paragraph separator; then the line that should close the header is a part of it, and it goes on
until a line of the body closes it. -/
theorem split?_format (body : Text) :
    ∃ s, format m body = .ok s ∧
      (split? s = some (y, endLine body) ↔ Yaml.endsOpen (.mapping m) = false) ∧
      (Yaml.endsOpen (.mapping m) = true →
        split? s = (splitLines? (fullLines (endLine body))).map fun (yaml, rest) =>
          (y ++ (delimiter ++ '\n' :: yaml), rest)) := by
  refine ⟨join y body, format_of_write? hm hy body, ⟨?_, ?_⟩, ?_⟩
  · intro h
    by_contra ho
    exact ne_endLine_of_open hm hy (by simpa using ho) h rfl
  · exact fun ho => split?_join_of_closed hm hy ho body
  · exact fun ho => split?_join_of_open hm hy ho body

end Written

/-- Metadata whose texts look like the lines around a header. -/
def hyphenated : Metadata :=
  [(.text "---", .sequence [.text "---\n...\n---\r\n", .tagged "---" (.text "a\n---\n")])]

/-- The hyphens in it do not close its header, and those in the body do not open one. -/
theorem split?_hyphenated :
    ∃ s y, Yaml.write? hyphenated = some y ∧ format hyphenated "---\nb" = .ok s ∧
      split? s = some (y, ("---\nb\n" : Text)) := by
  have hy : Yaml.write? hyphenated = some (Yaml.layout hyphenated) := by decide +kernel
  obtain ⟨s, hs, hiff, -⟩ := split?_format (by decide) hy "---\nb"
  exact ⟨s, _, hy, hs, hiff.2 (by decide +kernel)⟩

/-- Metadata whose last text is written as a block and ends with a paragraph separator. -/
def separated : Metadata := [(.text "list", .sequence [.text "one\ntwo\u2029"])]

/-- Its header is not closed. -/
theorem split?_separated :
    ∃ s y, Yaml.write? separated = some y ∧ format separated [] = .ok s ∧ split? s = none := by
  refine ⟨"---\nlist:\n- |\n  one\n  two\u2029---\n", "list:\n- |\n  one\n  two\u2029", ?_, ?_, ?_⟩
  · decide +kernel
  · decide +kernel
  · decide +kernel

end Header

/-! ### Documents that are written -/

namespace Document

open Header

/-- Metadata that reads back is read back from a header whose last line is complete. -/
theorem parse_join {m : Metadata} (hm : m ≠ []) {y : Text} (hy : Yaml.write? m = some y)
    (hread : Yaml.read? y = some (.mapping m)) (hc : m.Canonical) (body : Text) :
    Document.parse (join y body) = .ok ⟨m, endLine body⟩ ↔ Yaml.endsOpen (.mapping m) = false := by
  constructor
  · intro h
    by_contra ho
    rw [Document.parse] at h
    split at h
    · exact hm (congrArg Document.metadata (Except.ok.inj h)).symm
    · next yaml rest hs =>
      obtain ⟨m', -, he⟩ := Traced.ok_of_map h
      cases he
      exact ne_endLine_of_open hm hy (by simpa using ho) hs rfl
  · intro ho
    have hblank : y.all Text.isBlank = false := by
      rw [eq_layout_of_write? hy, List.all_eq_false]
      exact ⟨':', Yaml.colon_mem_layout hm, by decide⟩
    rw [Document.parse, split?_join_of_closed hm hy ho]
    simp only [Header.read, hblank, hread, hc.normalize_eq, Bool.false_eq_true, if_false]
    rfl

/-- **What is written reads back, and is written the same again.**  For metadata that YAML reads
back the body gets a line feed at its end, and the document is found again if and only if the last
line of its header is complete.  A document without metadata is its body, and is found again if and
only if that does not begin with a header. -/
theorem parse_format {t s : Text} {d : Document} (h : Document.parse t = .ok d)
    (hs : d.format = .ok s) :
    (d.metadata ≠ [] → ∃ y, Yaml.write? d.metadata = some y ∧
      (Yaml.read? y = some (.mapping d.metadata) →
        (Document.parse s = .ok ⟨d.metadata, endLine d.body⟩ ↔
          Yaml.endsOpen (.mapping d.metadata) = false) ∧
        Document.format ⟨d.metadata, endLine d.body⟩ = .ok s)) ∧
    (d.metadata = [] → s = d.body ∧ (Document.parse s = .ok d ↔ split? d.body = none)) := by
  constructor
  · intro hm
    cases hy : Yaml.write? d.metadata with
    | none =>
      rw [Document.format, Header.format, hy] at hs
      simp [hm] at hs
    | some y =>
      obtain rfl : join y d.body = s :=
        Except.ok.inj ((format_of_write? hm hy d.body).symm.trans hs)
      refine ⟨y, rfl, fun hread => ⟨?_, ?_⟩⟩
      · exact parse_join hm hy hread (canonical_of_parse h) d.body
      · rw [Document.format, format_of_write? hm hy, join, endLine_endLine, join]
  · intro hm
    obtain rfl : d.body = s := by
      rw [Document.format, hm, Header.format_nil] at hs
      exact Except.ok.inj hs
    refine ⟨rfl, ?_⟩
    rw [Document.parse]
    cases hsplit : split? d.body with
    | none =>
      simp only [iff_true]
      rw [← hm]
    | some p =>
      obtain ⟨yaml, rest⟩ := p
      simp only [reduceCtorEq, iff_false]
      intro hp
      obtain ⟨m, -, rfl⟩ := Traced.ok_of_map hp
      exact absurd (length_lt_of_split? hsplit) (Nat.lt_irrefl _)

/-- A text whose header has a number as a key, and whose body does not end with a line feed. -/
def numberedSource : Text := "---\n2024: a\n---\nb"

/-- A text with an empty header, and with a second header behind it. -/
def doubledSource : Text := "---\n---\n---\na: 1\n---\n"

/-- The first of them reads back with a line feed at its end; of the second the empty header is not
written, so that the other one takes its place. -/
theorem parse_format_numbered :
    (∃ d s, Document.parse numberedSource = .ok d ∧ d.format = .ok s ∧
      Document.parse s = .ok ⟨d.metadata, "b\n"⟩) ∧
    ∃ d s, Document.parse doubledSource = .ok d ∧ d.format = .ok s ∧ Document.parse s ≠ .ok d := by
  constructor
  · have h : Document.parse numberedSource = .ok ⟨[(.text "2024", .text "a")], "b"⟩ := by
      decide +kernel
    have hs : Document.format ⟨[(.text "2024", .text "a")], "b"⟩ =
        .ok "---\n'2024': a\n---\nb\n" := by
      decide +kernel
    obtain ⟨y, hy, hback⟩ := (parse_format h hs).1 (by decide)
    obtain rfl : "'2024': a\n" = y :=
      Option.some.inj ((by decide +kernel : _ = some _).symm.trans hy)
    exact ⟨_, _, h, hs, (hback (by decide +kernel)).1.2 (by decide +kernel)⟩
  · have h : Document.parse doubledSource = .ok ⟨[], "---\na: 1\n---\n"⟩ := by decide +kernel
    have hs : Document.format ⟨[], "---\na: 1\n---\n"⟩ = .ok "---\na: 1\n---\n" := rfl
    refine ⟨_, _, h, hs, fun hd => ?_⟩
    exact absurd (((parse_format h hs).2 rfl).2.1 hd) (by decide +kernel)

/-- A text whose header has a text that is written as a block and ends with a line separator. -/
def separatedSource : Text := "---\nk: \"a\\nb\\L\"\n---\nBody\n"

/-- YAML reads the metadata back from its own text, and the document is yet not found again: what is
written for it has no header. -/
theorem parse_format_separated :
    ∃ d s y, Document.parse separatedSource = .ok d ∧ d.format = .ok s ∧ d.metadata ≠ [] ∧
      Yaml.write? d.metadata = some y ∧ Yaml.read? y = some (.mapping d.metadata) ∧
      Document.parse s = .ok ⟨[], s⟩ ∧ Document.parse s ≠ .ok ⟨d.metadata, endLine d.body⟩ := by
  refine ⟨⟨[(.text "k", .text "a\nb\u2028")], "Body\n"⟩, "---\nk: |\n  a\n  b\u2028---\nBody\n",
    "k: |\n  a\n  b\u2028", ?_, ?_, ?_, ?_, ?_, ?_, ?_⟩
  · decide +kernel
  · decide +kernel
  · decide
  · decide +kernel
  · decide +kernel
  · decide +kernel
  · decide +kernel

end Document

end MarkdownWeave
