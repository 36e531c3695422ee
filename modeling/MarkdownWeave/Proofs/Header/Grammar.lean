import MarkdownWeave.Document.Basic
import MarkdownWeave.Proofs.Header.Margin
import MarkdownWeave.Proofs.Lines

/-!
# The grammar of headers

What a text with a header looks like is said here without reading it: a line that opens the header,
complete lines of YAML, a line that closes it, and the body.  A text is of this form in one way or
in none, and splitting finds it.

## Main definitions

* `Header.hyphens` — what stands on a closing line.
* `Header.Closes` — YAML text, a closing line and a body fit together.
* `Header.Framed` — a text with a header, taken apart.

## Main results

* `Header.splitLines?_eq_some_iff` — behind the opening line, splitting finds the parts.
* `Header.Framed.ext_text` — a text is taken apart in one way.
* `Header.split?_iff_framed` — **splitting accepts exactly the texts with a header**, and what is
  read as the body is the end of the text.
-/

namespace MarkdownWeave

namespace Header

/-- What stands on a closing line: three hyphens with carriage returns behind them. -/
def hyphens (n : Nat) : Text := delimiter ++ List.replicate n '\r'

/-- YAML text, the line that closes it, and the body behind that line. -/
structure Closes (yaml closing body : Text) : Prop where
  /-- The YAML text is made of complete lines. -/
  complete : yaml = [] ∨ Text.endsWith '\n' yaml = true
  /-- None of them is a closing line. -/
  unclosed : ∀ line ∈ Text.lines yaml, ∀ n, line ≠ hyphens n
  /-- The closing line ends with a line feed, or nothing comes after it. -/
  closing : ∃ n, closing = hyphens n ++ ['\n'] ∨ closing = hyphens n ∧ body = []

/-- A text with a header, taken apart. -/
@[ext] structure Framed where
  /-- The line that opens the header. -/
  opening : Text
  /-- The YAML text. -/
  yaml : Text
  /-- The line that closes the header. -/
  closing : Text
  /-- The text behind it. -/
  body : Text
  /-- The opening line has a line feed, and no more than one carriage return. -/
  opens : opening = delimiter ++ ['\n'] ∨ opening = delimiter ++ ['\r', '\n']
  /-- What stands behind it is closed. -/
  closes : Closes yaml closing body

/-- The text that the parts make up. -/
def Framed.text (f : Framed) : Text := f.opening ++ f.yaml ++ f.closing ++ f.body

/-! ### Closing lines -/

theorem not_mem_hyphens (n : Nat) : '\n' ∉ hyphens n := by
  simp [hyphens, delimiter, List.mem_replicate]

theorem hyphens_ne_nil (n : Nat) : hyphens n ≠ [] := by
  simp [hyphens, delimiter]

/-- A line is a closing one for what stands on it. -/
theorem isClosing_iff {line : Text} (h : '\n' ∉ line) :
    isClosing line = true ↔ ∃ n, line = hyphens n := by
  constructor
  · intro hc
    obtain ⟨ending, he, hends⟩ := Text.exists_trimEndBy_append isLineEnd line
    have hwords : Text.trimEndBy isLineEnd line = delimiter := eq_of_beq hc
    rw [hwords] at he
    have hcr : ∀ c ∈ ending, c = '\r' := by
      intro c hm
      have hlf : c ≠ '\n' := by
        rintro rfl
        exact h (he ▸ List.mem_append_right delimiter hm)
      simpa [isLineEnd, hlf] using hends c hm
    exact ⟨ending.length, by rw [he, hyphens, ← List.eq_replicate_of_mem hcr]⟩
  · rintro ⟨n, rfl⟩
    have hends : ∀ c ∈ List.replicate n '\r', isLineEnd c = true := by
      intro c hm
      rw [List.eq_of_mem_replicate hm]
      rfl
    rw [isClosing, hyphens, Text.trimEndBy_append hends]
    decide

/-- Its line feed makes no difference. -/
theorem isClosing_concat (line : Text) : isClosing (line ++ ['\n']) = isClosing line := by
  have hlf : ∀ c ∈ ['\n'], isLineEnd c = true := by
    intro c hc
    rw [List.mem_singleton.1 hc]
    rfl
  rw [isClosing, isClosing, Text.trimEndBy_append hlf]

theorem fullLines_of_not_mem {line : Text} (h : '\n' ∉ line) (hne : line ≠ []) :
    fullLines line = [line] := by
  induction line with
  | nil => exact absurd rfl hne
  | cons c line ih =>
    rw [List.mem_cons, not_or] at h
    rw [fullLines, if_neg (Ne.symm h.1)]
    cases line with
    | nil => rfl
    | cons d line => rw [ih h.2 (List.cons_ne_nil d line)]

/-! ### Behind the opening line -/

section Closes

variable {line yaml closing body t : Text}

/-- One more line of YAML must not be a closing line. -/
theorem closes_cons (h : '\n' ∉ line) :
    Closes (line ++ '\n' :: yaml) closing body ↔
      (∀ n, line ≠ hyphens n) ∧ Closes yaml closing body := by
  have hlines : Text.lines (line ++ '\n' :: yaml) = line :: Text.lines yaml :=
    Text.lines_cons h yaml
  have hend : Text.endsWith '\n' (line ++ '\n' :: yaml) = true ↔
      yaml = [] ∨ Text.endsWith '\n' yaml = true := by
    rw [Text.endsWith, Text.endsWith, Text.getLast?_append_lf]
    by_cases hy : yaml = [] <;> simp [hy]
  constructor
  · rintro ⟨hcomplete, hunclosed, hclosing⟩
    rw [hlines, List.forall_mem_cons] at hunclosed
    have hne : line ++ '\n' :: yaml ≠ [] := by simp
    exact ⟨hunclosed.1, hend.1 (hcomplete.resolve_left hne), hunclosed.2, hclosing⟩
  · rintro ⟨hline, hcomplete, hunclosed, hclosing⟩
    refine ⟨Or.inr (hend.2 hcomplete), ?_, hclosing⟩
    rw [hlines, List.forall_mem_cons]
    exact ⟨hline, hunclosed⟩

/-- The closing line may come at once. -/
theorem closes_nil (h : ∃ n, closing = hyphens n ++ ['\n'] ∨ closing = hyphens n ∧ body = []) :
    Closes [] closing body := by
  refine ⟨Or.inl rfl, ?_, h⟩
  intro line hline n
  rw [List.mem_singleton.1 hline]
  exact (hyphens_ne_nil n).symm

/-- What is closed is found. -/
theorem Closes.splitLines? (h : Closes yaml closing body) :
    splitLines? (fullLines (yaml ++ closing ++ body)) = some (yaml, body) := by
  induction yaml using Text.induction_on_lines with
  | last line hline =>
    -- a line that is not complete is none at all, and the closing line comes first
    have hnil : line = [] := by
      refine h.complete.resolve_right fun hend => hline ?_
      exact List.mem_of_getLast? (eq_of_beq hend)
    rw [hnil, List.nil_append]
    obtain ⟨n, hclosing⟩ := h.closing
    have hlf : '\n' ∉ hyphens n := not_mem_hyphens n
    have hcloses : isClosing (hyphens n) = true := (isClosing_iff hlf).2 ⟨n, rfl⟩
    rcases hclosing with rfl | ⟨rfl, rfl⟩
    · rw [List.append_assoc, List.singleton_append, fullLines_append hlf, Header.splitLines?,
        isClosing_concat, if_pos hcloses, flatten_fullLines]
    · rw [List.append_nil, fullLines_of_not_mem hlf (hyphens_ne_nil n), Header.splitLines?,
        if_pos hcloses]
      rfl
  | above line yaml hline ih =>
    obtain ⟨hopen, hrest⟩ := (closes_cons hline).1 h
    have hnot : ¬ isClosing (line ++ ['\n']) = true := by
      rw [isClosing_concat, isClosing_iff hline]
      rintro ⟨n, hn⟩
      exact hopen n hn
    have hfound := ih hrest
    rw [List.append_assoc, List.append_assoc, List.cons_append, fullLines_append hline,
      Header.splitLines?, if_neg hnot, ← List.append_assoc, hfound]
    simp

/-- What is found is closed. -/
theorem exists_closes_of_splitLines? (h : splitLines? (fullLines t) = some (yaml, body)) :
    ∃ closing, Closes yaml closing body ∧ t = yaml ++ closing ++ body := by
  induction t using Text.induction_on_lines generalizing yaml with
  | last line hline =>
    by_cases hne : line = []
    · rw [hne] at h
      cases h
    rw [fullLines_of_not_mem hline hne, splitLines?] at h
    split at h
    · next hclosing =>
      obtain ⟨n, rfl⟩ := (isClosing_iff hline).1 hclosing
      cases h
      exact ⟨hyphens n, closes_nil ⟨n, Or.inr ⟨rfl, rfl⟩⟩, by simp⟩
    · cases h
  | above line rest hline ih =>
    rw [fullLines_append hline, splitLines?, isClosing_concat] at h
    split at h
    · next hclosing =>
      obtain ⟨n, rfl⟩ := (isClosing_iff hline).1 hclosing
      cases h
      rw [flatten_fullLines]
      exact ⟨hyphens n ++ ['\n'], closes_nil ⟨n, Or.inl rfl⟩, by simp⟩
    · next hopen =>
      obtain ⟨⟨yaml', body'⟩, hfound, he⟩ := Option.map_eq_some_iff.1 h
      cases he
      obtain ⟨closing, hcloses, hrest⟩ := ih hfound
      have hline' : ∀ n, line ≠ hyphens n := by
        rintro n rfl
        exact hopen ((isClosing_iff hline).2 ⟨n, rfl⟩)
      refine ⟨closing, ?_, by rw [hrest]; simp⟩
      rw [List.append_assoc, List.singleton_append]
      exact (closes_cons hline).2 ⟨hline', hcloses⟩

/-- **Behind the opening line, splitting finds the parts that fit together.** -/
theorem splitLines?_eq_some_iff :
    splitLines? (fullLines t) = some (yaml, body) ↔
      ∃ closing, Closes yaml closing body ∧ t = yaml ++ closing ++ body := by
  constructor
  · exact exists_closes_of_splitLines?
  · rintro ⟨closing, hcloses, rfl⟩
    exact hcloses.splitLines?

end Closes

/-! ### Whole texts -/

theorem afterOpening?_eq_some_iff {t rest : Text} :
    afterOpening? t = some rest ↔
      t = delimiter ++ ['\n'] ++ rest ∨ t = delimiter ++ ['\r', '\n'] ++ rest := by
  constructor
  · intro h
    unfold afterOpening? at h
    split at h
    · cases h; exact Or.inl rfl
    · cases h; exact Or.inr rfl
    · cases h
  · rintro (rfl | rfl) <;> rfl

namespace Framed

theorem split?_text (f : Framed) : split? f.text = some (f.yaml, f.body) := by
  have hopening : afterOpening? f.text = some (f.yaml ++ f.closing ++ f.body) := by
    rw [afterOpening?_eq_some_iff, text]
    rcases f.opens with h | h
    · exact Or.inl (by rw [h]; simp)
    · exact Or.inr (by rw [h]; simp)
  rw [split?, hopening, Option.bind_some, f.closes.splitLines?]

/-- **A text is taken apart in one way**: the YAML text and the body are those that are found, and
then there is no choice for the lines around the YAML text. -/
theorem ext_text {f g : Framed} (h : f.text = g.text) : f = g := by
  have hfound : some (f.yaml, f.body) = some (g.yaml, g.body) := by
    rw [← f.split?_text, ← g.split?_text, h]
  obtain ⟨hyaml, hbody⟩ := Prod.mk.inj (Option.some.inj hfound)
  have hheads : f.opening ++ f.yaml ++ f.closing = g.opening ++ f.yaml ++ g.closing := by
    rw [text, text, hyaml, hbody] at h
    rw [hyaml]
    exact List.append_cancel_right h
  -- the fourth character tells which of the two opening lines it is
  have hopening : f.opening = g.opening := by
    rcases f.opens with hf | hf <;> rcases g.opens with hg | hg <;>
      rw [hf, hg] at hheads ⊢ <;> simp [delimiter] at hheads
  refine Framed.ext hopening hyaml ?_ hbody
  rw [hopening] at hheads
  exact List.append_cancel_left hheads

end Framed

theorem split?_eq_some_iff {t yaml body : Text} :
    split? t = some (yaml, body) ↔ ∃ f : Framed, f.text = t ∧ f.yaml = yaml ∧ f.body = body := by
  constructor
  · intro h
    obtain ⟨rest, hopening, hlines⟩ := Option.bind_eq_some_iff.1 h
    obtain ⟨closing, hcloses, rfl⟩ := splitLines?_eq_some_iff.1 hlines
    rcases afterOpening?_eq_some_iff.1 hopening with rfl | rfl
    · exact ⟨⟨_, yaml, closing, body, Or.inl rfl, hcloses⟩, by simp [Framed.text], rfl, rfl⟩
    · exact ⟨⟨_, yaml, closing, body, Or.inr rfl, hcloses⟩, by simp [Framed.text], rfl, rfl⟩
  · rintro ⟨f, rfl, rfl, rfl⟩
    exact f.split?_text

theorem split?_eq_none_iff {t : Text} : split? t = none ↔ ∀ f : Framed, f.text ≠ t := by
  constructor
  · rintro h f rfl
    rw [f.split?_text] at h
    cases h
  · intro h
    cases hs : split? t with
    | none => rfl
    | some parts =>
      obtain ⟨f, hf, -, -⟩ := split?_eq_some_iff.1 hs
      exact absurd hf (h f)

/-- The body of a document that has a header is the body behind it. -/
theorem body_of_parse_text {f : Framed} {d : Document} (h : Document.parse f.text = .ok d) :
    d.body = f.body := by
  rw [Document.parse, f.split?_text] at h
  dsimp only at h
  cases hr : read f.yaml with
  | error e =>
    rw [hr] at h
    cases h
  | ok m =>
    rw [hr] at h
    obtain rfl := Except.ok.inj h
    rfl

theorem parse_of_not_framed {t : Text} (h : ∀ f : Framed, f.text ≠ t) :
    Document.parse t = .ok ⟨[], t⟩ := by
  rw [Document.parse, split?_eq_none_iff.2 h]

/-- **Splitting accepts exactly the texts with a header**: a line of three hyphens that ends with a
line feed or with a carriage return and a line feed, complete lines without a closing one among
them, and a closing line, which is three hyphens and any number of carriage returns, up to a line
feed or up to the end of the text.  A text is of this form in at most one way, and without a header
it is not split.  What a document has for its body is the end of its text: what comes behind the
header, and all of it if there is none. -/
theorem split?_iff_framed (t : Text) :
    (∀ yaml body, split? t = some (yaml, body) ↔
        ∃ f : Framed, f.text = t ∧ f.yaml = yaml ∧ f.body = body) ∧
      (∀ f g : Framed, f.text = t → g.text = t → f = g) ∧
      (split? t = none ↔ ∀ f : Framed, f.text ≠ t) ∧
      (∀ d, Document.parse t = .ok d →
        d.body <:+ t ∧ ∀ f : Framed, f.text = t → d.body = f.body) ∧
      ((∀ f : Framed, f.text ≠ t) → Document.parse t = .ok ⟨[], t⟩) := by
  refine ⟨fun _ _ => split?_eq_some_iff, ?_, split?_eq_none_iff, ?_, parse_of_not_framed⟩
  · intro f g hf hg
    exact Framed.ext_text (hf.trans hg.symm)
  · intro d hd
    by_cases hframed : ∃ f : Framed, f.text = t
    · obtain ⟨f, rfl⟩ := hframed
      have hbody : d.body = f.body := body_of_parse_text hd
      refine ⟨?_, ?_⟩
      · rw [hbody]
        exact List.suffix_append _ f.body
      · intro g hg
        rw [hbody, Framed.ext_text hg]
    · have hno : ∀ f : Framed, f.text ≠ t := fun f hf => hframed ⟨f, hf⟩
      rw [parse_of_not_framed hno] at hd
      obtain rfl := Except.ok.inj hd
      refine ⟨List.suffix_refl t, ?_⟩
      intro f hf
      exact absurd hf (hno f)

/-- The lines of a header that look like closing ones and are none. -/
def ruledYaml : Text := "ä: '--'\n--- \n----\r\n"

/-- A body with hyphens in it. -/
def ruledBody : Text := "---\nb\r\n---"

/-- A text with these parts, in which the lines that open and close the header have other ends. -/
def ruledText : Text := delimiter ++ ['\r', '\n'] ++ ruledYaml ++ "---\r\r\n" ++ ruledBody

/-- Its header ends at the first line that is hyphens and carriage returns alone. -/
theorem split?_ruledText :
    split? ruledText = some (ruledYaml, ruledBody) ∧
      ∃ f : Framed, f.text = ruledText ∧ f.closing = ("---\r\r\n" : Text) := by
  obtain ⟨hparts, hunique, -⟩ := split?_iff_framed ruledText
  have hsplit : split? ruledText = some (ruledYaml, ruledBody) := by decide +kernel
  obtain ⟨f, hf, hyaml, hbody⟩ := (hparts _ _).1 hsplit
  have hcloses : Closes ruledYaml "---\r\r\n" ruledBody := by
    have h := f.closes
    rw [hyaml, hbody] at h
    exact ⟨h.complete, h.unclosed, 2, Or.inl (by decide +kernel)⟩
  have hclosing : f.closing = ("---\r\r\n" : Text) := by
    rw [hunique f ⟨_, ruledYaml, "---\r\r\n", ruledBody, Or.inr rfl, hcloses⟩ hf rfl]
  exact ⟨hsplit, f, hf, hclosing⟩

end Header

end MarkdownWeave
