import MarkdownWeave.Proofs.Slots.Cutting
import MarkdownWeave.Proofs.Slots.Filling
import MarkdownWeave.Proofs.Stages
import MarkdownWeave.Proofs.Transclusion.Independence

/-!
# Two ways to bring in a document

A line can be a slot whose value begins with an at sign; then the body of a document is put in its
place before references are replaced, and the references in it are followed from there.  Or the
line can be that reference itself; then the document is followed with its own path on the guard, and
its lines are spliced in when they are complete.  The outcome is the same.

## Main definitions

* `filledWith` — the slots of a body filled, as far as there are texts for them.

## Main results

* `Answers.provides_around_slot`, `Answers.provides_around_reference` — what the slots in a body
  need, part by part.
* `finish_slot_ok_iff_reference` — **a slot with a reference for its value comes to the same as that
  reference.**
-/

namespace MarkdownWeave

/-! ### The slots of a body, part by part -/

section Provides

variable {answers : Answers} {m : Metadata}

theorem Answers.provides_iff_pieces {body : Text} :
    answers.Provides m body ↔
      ∀ s, .slot s ∈ Slot.pieces body → ∃ t, answers.textOf? m s.name = some t := by
  constructor
  · intro h s hs
    obtain ⟨i, hi⟩ := (Slot.cutsAt_pieces body).mem_iff.1 hs
    exact h s.name (Slot.mem_names.2 ⟨i, s, hi, rfl⟩)
  · intro h name hname
    obtain ⟨i, s, hi, rfl⟩ := Slot.mem_names.1 hname
    exact h s ((Slot.cutsAt_pieces body).mem_iff.2 ⟨i, hi⟩)

/-- The slots around one need no more than they need by themselves. -/
theorem Answers.provides_around_slot {s : Slot} (hs : s.IsForm) (a b : Text) :
    answers.Provides m (a ++ s.source ++ b) ↔
      (∃ t, answers.textOf? m s.name = some t) ∧ answers.Provides m a ∧ answers.Provides m b := by
  simp only [provides_iff_pieces, Slot.pieces_around_slot hs, List.mem_append, List.mem_cons,
    Piece.slot.injEq]
  constructor
  · intro h
    exact ⟨h s (Or.inr (Or.inl rfl)), fun s' hs' => h s' (Or.inl hs'),
      fun s' hs' => h s' (Or.inr (Or.inr hs'))⟩
  · rintro ⟨hhere, ha, hb⟩ s' (hs' | rfl | hs')
    · exact ha s' hs'
    · exact hhere
    · exact hb s' hs'

/-- Neither do those around a reference, which needs nothing. -/
theorem Answers.provides_around_reference {p : Text} (hp : '{' ∉ p) (a b : Text) :
    answers.Provides m (a ++ '@' :: p ++ b) ↔ answers.Provides m a ∧ answers.Provides m b := by
  simp only [provides_iff_pieces, Slot.pieces_around_reference hp, List.mem_append, List.mem_map]
  constructor
  · intro h
    exact ⟨fun s hs => h s (Or.inl (Or.inl hs)), fun s hs => h s (Or.inr hs)⟩
  · rintro ⟨ha, hb⟩ s ((hs | ⟨c, -, hc⟩) | hs)
    · exact ha s hs
    · cases hc
    · exact hb s hs

end Provides

/-! ### The last two stages -/

section Finish

variable {r : Resolver} {d : Document} {p : Text}

/-- The slots of a body filled, as far as there are texts for them. -/
def filledWith (r : Resolver) (m : Metadata) (body : Text) : Text :=
  Slot.fill (fun s => (Answers.textOf? r.answer m s.name).getD s.source) body

theorem finish_ok_iff {d' : Document} :
    (finish r d).outcome = .ok d' ↔
      Answers.Provides r.answer d.metadata d.body ∧
        (outputMetadata d.metadata).outcome = .ok d'.metadata ∧
        ∃ ls, (transcludeLines r .empty (Text.lines (filledWith r d.metadata d.body))).outcome =
          .ok ls ∧ d'.body = Text.unlines ls := by
  rw [finish, Traced.outcome_bind_eq_ok]
  constructor
  · rintro ⟨filled, hfilled, h⟩
    obtain ⟨hprovides, houtput, hbody⟩ := Answers.substitute_ok_iff.1 hfilled
    rw [transclude_outcome, hbody] at h
    obtain ⟨ls, hls, rfl⟩ := Traced.ok_of_map h
    exact ⟨hprovides, houtput, ls, hls, rfl⟩
  · rintro ⟨hprovides, houtput, ls, hls, hbody⟩
    refine ⟨⟨d'.metadata, filledWith r d.metadata d.body⟩, ?_, ?_⟩
    · exact Answers.substitute_ok_iff.2 ⟨hprovides, houtput, rfl⟩
    · rw [transclude_outcome, hls, Except.map, ← hbody]

/-- A text that begins with an at sign stands for the body of a document. -/
theorem textOf?_reference {m : Metadata} {name t : Text}
    (hv : m.get? name = some (.text ('@' :: p))) (ht : r.answer p = .ok t) {text : Text} :
    Answers.textOf? r.answer m name = some text ↔
      ∃ e, Document.parse t = .ok e ∧ e.body = text := by
  have hrender : (Answers.render r.answer (.text ('@' :: p))).outcome =
      (Document.parse t).map Document.body := by
    rw [Answers.render_of_path? r.answer rfl, ht]
    rfl
  rw [Answers.textOf?_eq_some_iff, hv]
  constructor
  · rintro ⟨v, he, hr⟩
    obtain rfl := Option.some.inj he
    rw [hrender] at hr
    exact Traced.ok_of_map hr
  · rintro ⟨e, he, rfl⟩
    exact ⟨_, rfl, by rw [hrender, he]; rfl⟩

/-- A reference to an answer comes to what the document comes to, if the answer is one. -/
theorem transcludeLines_at_ok_iff_exists (hp : Reference.IsPath p) {t : Text}
    (ht : r.answer p = .ok t) {ls : List Text} :
    (transcludeLines r .empty ['@' :: p]).outcome = .ok ls ↔
      ∃ e, Document.parse t = .ok e ∧
        (transcludeLines r .empty (Text.lines e.body)).outcome = .ok ls := by
  have hg : p ∉ Guard.empty.chain := List.not_mem_nil
  cases hd : Document.parse t with
  | error f => simp [transcludeLines_at_of_malformed hp hg ht hd]
  | ok e =>
    rw [transcludeLines_at_ok_iff hp hg ⟨t, ht, hd⟩]
    simp

/-- **A slot with a reference for its value comes to the same as that reference.**  If the slot is
the whole of a line, and the resolver answers the path, then with that line replaced by the at sign
and the path the last two stages of a compilation succeed for the same documents, with the same
result. -/
theorem finish_slot_ok_iff_reference (r : Resolver) (d : Document) {name p t : Text}
    {above below : List Text} (hname : Slot.IsName name) (hp : Reference.IsPath p)
    (ht : r.answer p = .ok t) (hv : d.get? name = some (.text ('@' :: p)))
    (hlines : Text.lines d.body = above ++ (Slot.spaced name).source :: below) (d' : Document) :
    (finish r d).outcome = .ok d' ↔
      (finish r ⟨d.metadata, Text.unlines (above ++ ('@' :: p) :: below)⟩).outcome = .ok d' := by
  have hform := hname.isForm_spaced
  have hopen : '{' ∉ p := fun hm => absurd (hp.chars _ hm) (by decide)
  have hbody : d.body = above.flatMap (· ++ ['\n']) ++ (Slot.spaced name).source ++
      below.flatMap ('\n' :: ·) := by
    rw [← Text.unlines_around, ← hlines, Text.unlines_lines]
  let value : Slot → Text := fun s => (Answers.textOf? r.answer d.metadata s.name).getD s.source
  obtain ⟨A, hA⟩ := Slot.exists_lines_fill_above value above
  obtain ⟨B, hB⟩ := Slot.exists_lines_fill_below value below
  -- in both bodies the same lines stand above and below the place
  have hslot : Text.lines (filledWith r d.metadata d.body) =
      A ++ Text.lines (value (Slot.spaced name)) ++ B := by
    rw [filledWith, hbody, Slot.fill_around_slot hform, hB, hA]
  have hreference :
      Text.lines (filledWith r d.metadata (Text.unlines (above ++ ('@' :: p) :: below))) =
        A ++ ['@' :: p] ++ B := by
    rw [filledWith, Text.unlines_around, Slot.fill_around_reference hopen, hB, hA, Text.lines,
      Text.splitOn_of_not_mem hp.not_mem_lf]
  have hvalue : ∀ e, Document.parse t = .ok e → value (Slot.spaced name) = e.body := by
    intro e he
    have htext := (textOf?_reference hv ht).2 ⟨e, he, rfl⟩
    show (Answers.textOf? r.answer d.metadata name).getD _ = e.body
    rw [htext, Option.getD_some]
  rw [finish_ok_iff, finish_ok_iff, hslot, hreference, hbody, Answers.provides_around_slot hform,
    Text.unlines_around, Answers.provides_around_reference hopen]
  constructor
  · rintro ⟨⟨⟨text, htext⟩, habove, hbelow⟩, houtput, ls, hls, hd'⟩
    obtain ⟨e, he, -⟩ := (textOf?_reference hv ht).1 htext
    rw [hvalue e he] at hls
    obtain ⟨first, last, hfirst, hlast, rfl⟩ := transcludeLines_append_ok_iff.1 hls
    obtain ⟨top, mid, htop, hmid, rfl⟩ := transcludeLines_append_ok_iff.1 hfirst
    have hat := (transcludeLines_at_ok_iff_exists hp ht).2 ⟨e, he, hmid⟩
    have hall := transcludeLines_append_ok_iff.2 ⟨top, mid, htop, hat, rfl⟩
    exact ⟨⟨habove, hbelow⟩, houtput, _,
      transcludeLines_append_ok_iff.2 ⟨_, last, hall, hlast, rfl⟩, hd'⟩
  · rintro ⟨⟨habove, hbelow⟩, houtput, ls, hls, hd'⟩
    obtain ⟨first, last, hfirst, hlast, rfl⟩ := transcludeLines_append_ok_iff.1 hls
    obtain ⟨top, mid, htop, hat, rfl⟩ := transcludeLines_append_ok_iff.1 hfirst
    obtain ⟨e, he, hmid⟩ := (transcludeLines_at_ok_iff_exists hp ht).1 hat
    have hall := transcludeLines_append_ok_iff.2 ⟨top, mid, htop, hmid, rfl⟩
    rw [hvalue e he]
    exact ⟨⟨⟨_, (textOf?_reference hv ht).2 ⟨e, he, rfl⟩⟩, habove, hbelow⟩, houtput, _,
      transcludeLines_append_ok_iff.2 ⟨_, last, hall, hlast, rfl⟩, hd'⟩

end Finish

/-- A document with a slot and a reference of its own, and one that it refers to. -/
def inlinedResolver : Resolver :=
  .ofAnswers [("inc/a.md", .ok "x\n @b\r\n{{ h }}\n@lost"), ("b", .ok "b1\n\n@lost\n")]

/-- A document with a slot for it that is a line, between others. -/
def inlinedDocument : Document :=
  ⟨[(.text "h", .text "@inc/a.md"), (.text "t", .int 1)],
    "\x7b\x7b\nt \x7d\x7d\n{{ h }}\n{{h}}{{ t }}\n"⟩

/-- What becomes of it; the slot in the document that is put in stays. -/
def inlinedFinished : Document where
  metadata := []
  body := "1\nx\n b1\r\n\r\n @lost\r\n\r\n{{ h }}\n@lost\n" ++
    "x\n b1\r\n\r\n @lost\r\n\r\n{{ h }}\n@lost1\n"

/-- The line may be the reference as well. -/
theorem finish_inlinedDocument :
    (finish inlinedResolver inlinedDocument).outcome = .ok inlinedFinished ∧
      (finish inlinedResolver ⟨inlinedDocument.metadata,
        "\x7b\x7b\nt \x7d\x7d\n@inc/a.md\n{{h}}{{ t }}\n"⟩).outcome = .ok inlinedFinished := by
  have hslot : (finish inlinedResolver inlinedDocument).outcome = .ok inlinedFinished := by
    refine Traced.outcome_bind_eq_ok.2
      ⟨⟨[], "1\nx\n @b\r\n{{ h }}\n@lost\nx\n @b\r\n{{ h }}\n@lost1\n"⟩, by decide +kernel, ?_⟩
    rw [transclude_outcome, outcome_of_expandWithin 20
      (o := .ok (Text.lines inlinedFinished.body)) (by decide +kernel)]
    decide +kernel
  have hname : Slot.IsName "h" := ⟨by decide, List.all_eq_true.1 (by decide)⟩
  have hp : Reference.IsPath "inc/a.md" := ⟨by decide, List.all_eq_true.1 (by decide)⟩
  have ht : inlinedResolver.answer "inc/a.md" = .ok ("x\n @b\r\n{{ h }}\n@lost" : Text) := by
    decide +kernel
  have hv : inlinedDocument.get? "h" = some (.text ('@' :: ("inc/a.md" : Text))) := by
    decide +kernel
  have hlines : Text.lines inlinedDocument.body =
      (["\x7b\x7b", "t \x7d\x7d"] : List Text) ++
        (Slot.spaced "h").source :: ["{{h}}{{ t }}", ""] := by
    decide +kernel
  have hreference := (finish_slot_ok_iff_reference inlinedResolver inlinedDocument hname hp ht hv
    hlines inlinedFinished).1 hslot
  exact ⟨hslot, hreference⟩

end MarkdownWeave
