import MarkdownWeave.Proofs.Lines
import MarkdownWeave.Proofs.Transclusion.Expansion
import MarkdownWeave.Proofs.Transclusion.Splicing

/-!
# Line ends through transclusion

A document in which every line feed has its carriage return keeps it so, whatever is put in place of
its references.  A reference hands its own carriage return down to every line that it is replaced
with, so nothing need be known of the documents that these come from; and only the last line of a
document may go without one.

The law does not depend on where the lines come from either: the answers at a path may be any texts,
any number of them, and other ones each time.

## Main definitions

* `Includes answers lines ls` — lines come to other lines, with any of the answers at each path.
* `EndsCr ls` — all lines but the last one end with a carriage return.

## Main results

* `Expands.includes` — what an expansion comes to, lines come to with the answers of the resolver.
* `Includes.endsCr` — what lines come to ends with carriage returns if the lines do.
* `transclude_keeps_crLf` — **transclusion keeps the line ends of a document.**
-/

namespace MarkdownWeave

/-- Lines come to other lines when references are replaced, where `answers p a` says that `a` may be
the answer at the path `p`.  Guards are left out, since they only stop what would go on. -/
inductive Includes (answers : Text → Except Failure Text → Prop) : List Text → List Text → Prop
  /-- Without lines there is nothing to do. -/
  | nil : Includes answers [] []
  /-- A line that is no reference stays. -/
  | plain {line : Text} {lines ls : List Text} (hl : Reference.ofLine? line = none)
      (rest : Includes answers lines ls) : Includes answers (line :: lines) (line :: ls)
  /-- A reference stays if there is no text at its path. -/
  | missing {line : Text} {lines ls : List Text} {ref : Reference} {f : Failure}
      (hl : Reference.ofLine? line = some ref) (ha : answers ref.path (.error f))
      (rest : Includes answers lines ls) : Includes answers (line :: lines) (line :: ls)
  /-- What the lines of the document at its path come to takes the place of a reference. -/
  | included {line t : Text} {lines inner ls : List Text} {ref : Reference} {d : Document}
      (hl : Reference.ofLine? line = some ref) (ha : answers ref.path (.ok t))
      (hd : Document.parse t = .ok d) (within : Includes answers (Text.lines d.body) inner)
      (rest : Includes answers lines ls) :
      Includes answers (line :: lines) (ref.splice line inner ++ ls)

/-- What an expansion comes to, lines come to with the answers of the resolver. -/
theorem Expands.includes {r : Resolver} {g : Guard} {lines : List Text} {x : Traced (List Text)}
    {calls : List Guard} (h : Expands r g lines x calls) {ls : List Text}
    (hx : x.outcome = .ok ls) : Includes (fun p a => r.answer p = a) lines ls := by
  induction h generalizing ls with
  | nil =>
    cases hx
    exact .nil
  | plain hl _ ih =>
    obtain ⟨rest, hrest, rfl⟩ := Traced.ok_of_map hx
    exact .plain hl (ih hrest)
  | circular _ _ => cases hx
  | missing hl _ ha _ ih =>
    obtain ⟨rest, hrest, rfl⟩ := Traced.ok_of_map hx
    exact .missing hl ha (ih hrest)
  | malformed _ _ _ _ => cases hx
  | broken _ _ _ _ _ _ => cases hx
  | included hl _ hd _ hy _ ihi ih =>
    obtain ⟨rest, hrest, rfl⟩ := Traced.ok_of_map hx
    obtain ⟨t, ha, hd⟩ := hd
    exact .included hl ha hd (ihi hy) (ih hrest)

/-! ### Lines with carriage returns -/

/-- All lines but the last one end with a carriage return. -/
def EndsCr (ls : List Text) : Prop := ∀ line ∈ ls.dropLast, Text.endsWith '\r' line = true

theorem endsCr_nil : EndsCr [] := by
  intro line hline
  cases hline

/-- One more line above needs its carriage return, unless it is the only one. -/
theorem endsCr_cons {line : Text} {ls : List Text} :
    EndsCr (line :: ls) ↔ (ls ≠ [] → Text.endsWith '\r' line = true) ∧ EndsCr ls := by
  cases ls with
  | nil =>
    have hnone : ∀ l ∈ ([line] : List Text).dropLast, Text.endsWith '\r' l = true := by
      intro l hl
      cases hl
    exact ⟨fun _ => ⟨fun h => absurd rfl h, endsCr_nil⟩, fun _ => hnone⟩
  | cons next ls =>
    rw [EndsCr, List.dropLast_cons_of_ne_nil (List.cons_ne_nil next ls), List.forall_mem_cons]
    exact ⟨fun h => ⟨fun _ => h.1, h.2⟩, fun h => ⟨h.1 (List.cons_ne_nil next ls), h.2⟩⟩

/-- Lines that all end with a carriage return may stand above any others. -/
theorem EndsCr.append {above below : List Text} (hbelow : EndsCr below)
    (habove : ∀ line ∈ above, Text.endsWith '\r' line = true) : EndsCr (above ++ below) := by
  induction above with
  | nil => exact hbelow
  | cons line above ih =>
    obtain ⟨hline, habove⟩ := List.forall_mem_cons.1 habove
    exact endsCr_cons.2 ⟨fun _ => hline, ih habove⟩

theorem crLf_unlines_iff {ls : List Text} (hne : ls ≠ []) (h : ∀ line ∈ ls, '\n' ∉ line) :
    Text.CrLf (Text.unlines ls) ↔ EndsCr ls := by
  rw [Text.crLf_iff, Text.lines_unlines hne h, EndsCr]

/-- **In place of a reference with a carriage return come lines with carriage returns.** -/
theorem Reference.endsWith_of_mem_splice {ref : Reference} {line : Text}
    (hcr : Text.endsWith '\r' line = true) (inner : List Text) :
    ∀ l ∈ ref.splice line inner, Text.endsWith '\r' l = true := by
  intro l hl
  obtain ⟨words, -, rfl⟩ := List.mem_map.1 hl
  rw [endsWith_spliceLine, hcr, Bool.true_or]

section Includes

variable {answers : Text → Except Failure Text → Prop} {lines ls : List Text}

theorem Includes.eq_nil_iff (h : Includes answers lines ls) : ls = [] ↔ lines = [] := by
  cases h with
  | nil => exact Iff.rfl
  | plain _ _ => simp
  | missing _ _ _ => simp
  | included _ _ _ _ _ => simp [Reference.splice, splice_ne_nil]

/-- What lines come to is lines. -/
theorem Includes.not_mem (h : Includes answers lines ls) (hlf : ∀ line ∈ lines, '\n' ∉ line) :
    ∀ line ∈ ls, '\n' ∉ line := by
  induction h with
  | nil => exact hlf
  | plain _ _ ih =>
    obtain ⟨hline, hlines⟩ := List.forall_mem_cons.1 hlf
    exact List.forall_mem_cons.2 ⟨hline, ih hlines⟩
  | missing _ _ _ ih =>
    obtain ⟨hline, hlines⟩ := List.forall_mem_cons.1 hlf
    exact List.forall_mem_cons.2 ⟨hline, ih hlines⟩
  | included hl _ _ _ _ _ ih =>
    obtain ⟨hline, hlines⟩ := List.forall_mem_cons.1 hlf
    have hindent : '\n' ∉ _ := fun hm => hline (Reference.mem_of_mem_indent hl hm)
    exact List.forall_mem_append.2 ⟨not_mem_of_mem_splice hindent _ _, ih hlines⟩

/-- **What lines come to ends with carriage returns if the lines do**, and the references among
them, of which one may be the last line. -/
theorem Includes.endsCr (h : Includes answers lines ls) (hcr : EndsCr lines)
    (hrefs : ∀ line ∈ lines, ∀ ref, Reference.ofLine? line = some ref →
      Text.endsWith '\r' line = true) : EndsCr ls := by
  induction h with
  | nil => exact hcr
  | plain _ hrest ih =>
    obtain ⟨hline, hlines⟩ := endsCr_cons.1 hcr
    obtain ⟨-, hrefs⟩ := List.forall_mem_cons.1 hrefs
    -- there is a line below if there was one before
    refine endsCr_cons.2 ⟨fun hne => hline ?_, ih hlines hrefs⟩
    exact fun hnil => hne (hrest.eq_nil_iff.2 hnil)
  | missing hl _ _ ih =>
    obtain ⟨-, hlines⟩ := endsCr_cons.1 hcr
    obtain ⟨href, hrefs⟩ := List.forall_mem_cons.1 hrefs
    exact endsCr_cons.2 ⟨fun _ => href _ hl, ih hlines hrefs⟩
  | included hl _ _ _ _ _ ih =>
    obtain ⟨-, hlines⟩ := endsCr_cons.1 hcr
    obtain ⟨href, hrefs⟩ := List.forall_mem_cons.1 hrefs
    exact (ih hlines hrefs).append (Reference.endsWith_of_mem_splice (href _ hl) _)

/-- So a text of lines in which every line feed has its carriage return comes to such a text. -/
theorem Includes.crLf {t : Text} (h : Includes answers (Text.lines t) ls) (ht : Text.CrLf t)
    (hrefs : ∀ line ∈ Text.lines t, ∀ ref, Reference.ofLine? line = some ref →
      Text.endsWith '\r' line = true) : Text.CrLf (Text.unlines ls) := by
  have hne : ls ≠ [] := fun hnil => Text.lines_ne_nil t (h.eq_nil_iff.1 hnil)
  have hlf : ∀ line ∈ ls, '\n' ∉ line := h.not_mem fun line hl => Text.not_mem_of_mem_lines hl
  rw [crLf_unlines_iff hne hlf]
  exact h.endsCr ((Text.crLf_iff t).1 ht) hrefs

end Includes

/-- **Transclusion keeps the line ends of a document.**  If a carriage return stands in front of
every line feed of a body, and at the end of every reference, then in front of every line feed of
what it comes to stands one, too, under every guard and with every resolver, whatever line ends
there are in the documents that are put in.  It is so with any texts as answers, even if there are
others each time. -/
theorem transclude_keeps_crLf {d : Document} (hbody : Text.CrLf d.body)
    (hrefs : ∀ line ∈ Text.lines d.body, ∀ ref, Reference.ofLine? line = some ref →
      Text.endsWith '\r' line = true) :
    (∀ (r : Resolver) (g : Guard) (d' : Document),
        (transclude r d g).outcome = .ok d' → Text.CrLf d'.body) ∧
      ∀ (answers : Text → Except Failure Text → Prop) (ls : List Text),
        Includes answers (Text.lines d.body) ls → Text.CrLf (Text.unlines ls) := by
  refine ⟨?_, fun answers ls h => h.crLf hbody hrefs⟩
  intro r g d' h
  rw [transclude_outcome] at h
  obtain ⟨ls, hls, rfl⟩ := Traced.ok_of_map h
  obtain ⟨calls, he⟩ := expands_transcludeLines r g (Text.lines d.body)
  exact (he.includes hls).crLf hbody hrefs

/-- Documents with line ends of all kinds, and one without characters. -/
def mixedResolver : Resolver :=
  .ofAnswers [("mix", .ok "a\n\nb\r\r\n@nest\n"), ("nest", .ok "c\r\nd\n\re"), ("none", .ok [])]

/-- A document with carriage returns that refers to them, also in its last line. -/
def returnsDocument : Document := ⟨[], "x\r\n @mix\r\n@none \r\n@gone\r\ny\r\n@nest\r"⟩

/-- What it comes to has carriage returns at all its line ends. -/
theorem transclude_returnsDocument :
    (transclude mixedResolver returnsDocument .empty).outcome = .ok
        ⟨[], "x\r\n a\r\n\r\n b\r\r\n c\r\n d\r\n \re\r\n\r\n\r\n@gone\r\ny\r\nc\r\nd\r\n\re\r"⟩ ∧
      Text.CrLf
        "x\r\n a\r\n\r\n b\r\r\n c\r\n d\r\n \re\r\n\r\n\r\n@gone\r\ny\r\nc\r\nd\r\n\re\r" := by
  have hbody : Text.CrLf returnsDocument.body := by
    rw [Text.crLf_iff]
    decide +kernel
  have hrefs : ∀ line ∈ Text.lines returnsDocument.body, ∀ ref,
      Reference.ofLine? line = some ref → Text.endsWith '\r' line = true := by
    have hall : ∀ line ∈ Text.lines returnsDocument.body,
        (Reference.ofLine? line).isSome = true → Text.endsWith '\r' line = true := by
      decide +kernel
    intro line hline ref hl
    exact hall line hline (by rw [hl]; rfl)
  have h : (transclude mixedResolver returnsDocument .empty).outcome = .ok ⟨[],
      "x\r\n a\r\n\r\n b\r\r\n c\r\n d\r\n \re\r\n\r\n\r\n@gone\r\ny\r\nc\r\nd\r\n\re\r"⟩ := by
    rw [transclude_outcome, outcome_of_expandWithin 12 (o := .ok (Text.lines
      "x\r\n a\r\n\r\n b\r\r\n c\r\n d\r\n \re\r\n\r\n\r\n@gone\r\ny\r\nc\r\nd\r\n\re\r")) (by rfl)]
    rfl
  exact ⟨h, (transclude_keeps_crLf hbody hrefs).1 _ _ _ h⟩

end MarkdownWeave
