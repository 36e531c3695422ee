import MarkdownWeave.Proofs.Header.RoundTrip
import MarkdownWeave.Proofs.Inheritance.Ascent
import MarkdownWeave.Proofs.Metadata.Proper
import MarkdownWeave.Proofs.Slots.Requests
import MarkdownWeave.Proofs.Stages
import MarkdownWeave.Proofs.Transclusion.Expansion

/-!
# Documents without directives

A document that names no parent, and whose body has no slot and no reference, is its own body when
it has been compiled, to the last character.  On the way the body is cut into pieces and put
together again, and then into lines; neither changes line ends, white space, or what only looks like
a slot or a reference.

## Main definitions

* `Document.Plain` — a document without directives.
* `Metadata.output` — the metadata that is left for the compiled document.

## Main results

* `Slot.fill_of_plain`, `transclude_of_plain` — a body without slots, and one without references.
* `finish_of_plain` — the last two stages.
* `Header.format_eq_ok_body_iff` — a body is written alone exactly without metadata.
* `compileDocument_of_plain`, `compile_of_plain` — a whole compilation.
* `plain_passes_through` — **a document without directives passes through a compilation.**
-/

namespace MarkdownWeave

/-- A document without directives: it names no parent, and there is no slot and no reference in its
body. -/
structure Document.Plain (d : Document) : Prop where
  /-- The entry for the parent is missing, null, `false` or the empty text. -/
  parentless : d.get? extendsKey = none ∨ d.get? extendsKey = some .null ∨
    d.get? extendsKey = some (.bool false) ∨ d.get? extendsKey = some (.text [])
  /-- No slot occurs in the body. -/
  slotless : ∀ i s, ¬ Slot.OccursAt d.body i s
  /-- No line of the body is a reference. -/
  unreferring : ∀ line ∈ Text.lines d.body, Reference.ofLine? line = none

/-! ### Slots -/

namespace Slot

variable {t : Text}

theorem names_eq_nil_iff : names t = [] ↔ ∀ i s, ¬ OccursAt t i s := by
  rw [List.eq_nil_iff_forall_not_mem]
  constructor
  · intro h i s hi
    exact h s.name (mem_names.2 ⟨i, s, hi, rfl⟩)
  · intro h name hname
    obtain ⟨i, s, hi, -⟩ := mem_names.1 hname
    exact h i s hi

/-- A text with every slot filled by itself is the same text. -/
theorem fill_source (t : Text) : fill source t = t := by
  have hpiece : ∀ p : Piece, fillPiece source p = p.source := by
    intro p
    cases p with
    | verbatim c => rfl
    | slot s => rfl
  rw [fill, funext hpiece, source_pieces]

/-- **A text in which no slot occurs stays as it is**, whatever slots are filled with. -/
theorem fill_of_plain (h : ∀ i s, ¬ OccursAt t i s) (value : Slot → Text) : fill value t = t := by
  have hsame : fill value t = fill source t :=
    fill_congr fun i s hi => absurd hi (h i s)
  rw [hsame, fill_source]

end Slot

/-! ### References -/

/-- Lines that are no references come to themselves, and nothing is asked for. -/
theorem transcludeLines_of_plain (r : Resolver) (g : Guard) {ls : List Text}
    (h : ∀ line ∈ ls, Reference.ofLine? line = none) : transcludeLines r g ls = .done ls := by
  induction ls with
  | nil => exact transcludeLines_nil
  | cons line ls ih =>
    obtain ⟨hline, hls⟩ := List.forall_mem_cons.1 h
    rw [transcludeLines_plain hline, ih hls]
    rfl

/-- **A body without references stays as it is**: its lines are put together again as they were. -/
theorem transclude_of_plain (r : Resolver) (g : Guard) {d : Document}
    (h : ∀ line ∈ Text.lines d.body, Reference.ofLine? line = none) :
    transclude r d g = .done d := by
  rw [transclude, transcludeLines_of_plain r g h, Traced.done_bind, Text.unlines_lines]
  rfl

/-! ### The last two stages -/

/-- The metadata that is left for the compiled document: the mapping under the key for it. -/
def Metadata.output (m : Metadata) : Metadata :=
  match m.get? outputKey with
  | some (.mapping output) => output
  | _ => []

section Stages

variable {r : Resolver} {source : Text} {vars : Metadata} {d : Document}

/-- Without slots no value is looked at, and nothing is asked for. -/
theorem substitute_of_plain (r : Resolver) (h : ∀ i s, ¬ Slot.OccursAt d.body i s) :
    (substitute r d).Alike (.done ⟨d.metadata.output, d.body⟩) := by
  have hnames : Slot.names d.body = [] := Slot.names_eq_nil_iff.2 h
  have houtcome : (outputMetadata d.metadata).outcome = .ok d.metadata.output :=
    outputMetadata_outcome d.metadata
  have hsub : (substitute r d).Alike
      (outputMetadata d.metadata >>= fun output => .done ⟨output, d.body⟩) := by
    unfold substitute Answers.substitute
    simp only [hnames, Slot.fill_of_plain h]
    exact ⟨rfl, rfl⟩
  refine hsub.trans ⟨?_, ?_⟩
  · exact Traced.outcome_bind_eq_ok.2 ⟨_, houtcome, rfl⟩
  · rw [Traced.fetched_bind_of_ok houtcome, outputMetadata_fetched]
    rfl

theorem finish_of_plain (r : Resolver) (h : ∀ i s, ¬ Slot.OccursAt d.body i s)
    (href : ∀ line ∈ Text.lines d.body, Reference.ofLine? line = none) :
    (finish r d).Alike (.done ⟨d.metadata.output, d.body⟩) := by
  have htrans : transclude r ⟨d.metadata.output, d.body⟩ .empty =
      .done ⟨d.metadata.output, d.body⟩ :=
    transclude_of_plain r .empty href
  refine ((substitute_of_plain r h).bind _).trans ?_
  rw [Traced.done_bind, htrans]
  exact .refl _

/-! ### Writing -/

/-- A header in front of a body makes the text longer. -/
theorem Header.length_lt_join (yaml body : Text) : body.length < (join yaml body).length := by
  have hend : body.length ≤ (endLine body).length := by
    unfold endLine
    split
    · exact le_refl _
    · rw [List.length_append]
      omega
  simp only [join, List.length_append, List.length_cons]
  omega

/-- **The body alone is written exactly if there is no metadata.** -/
theorem Header.format_eq_ok_body_iff {m : Metadata} {body : Text} :
    format m body = .ok body ↔ m = [] := by
  constructor
  · intro h
    by_contra hm
    have hempty : m.isEmpty = false := by simpa using hm
    cases hy : Yaml.write? m with
    | none => rw [format, hempty, hy] at h; cases h
    | some y =>
      rw [format_of_write? hm hy, Except.ok.injEq] at h
      have hlt := length_lt_join y body
      rw [h] at hlt
      exact lt_irrefl _ hlt
  · rintro rfl
    exact format_nil body

/-! ### Compilations -/

/-- Nothing is left for the output if neither the document nor the caller gives it entries. -/
theorem output_applyOverrides_eq_nil
    (hd : ∀ o, d.get? outputKey = some (.mapping o) → o = [])
    (hvars : ∀ e ∈ vars, e.1.normalizeKey = .text outputKey → ∀ o, e.2 = .mapping o → o = []) :
    (applyOverrides d vars).metadata.output = [] := by
  have hget : (applyOverrides d vars).metadata.get? outputKey =
      (Metadata.get? vars.withNormalKeys.reverse outputKey).or (d.get? outputKey) := by
    rw [applyOverrides_metadata, Metadata.get?_insertAll]
    rfl
  unfold Metadata.output
  rw [hget]
  cases hv : Metadata.get? vars.withNormalKeys.reverse outputKey with
  | none =>
    cases hv' : d.get? outputKey with
    | none => rfl
    | some v =>
      cases v with
      | mapping o => exact hd o hv'
      | _ => rfl
  | some v =>
    cases v with
    | mapping o =>
      have hmem := Metadata.exists_mem_of_get? hv
      rw [List.mem_reverse, Metadata.withNormalKeys, List.mem_map] at hmem
      obtain ⟨e, he, heq⟩ := hmem
      obtain ⟨hkey, hvalue⟩ := Prod.mk.inj heq
      exact hvars e he hkey o hvalue
    | _ => rfl

/-- A document without directives comes to its body with what is left for the output. -/
theorem compileDocument_of_plain (r : Resolver) (vars : Metadata)
    (hd : Document.parse source = .ok d) (h : d.Plain) :
    (compileDocument r source vars).Alike
      (.done ⟨(applyOverrides d vars).metadata.output, d.body⟩) := by
  have hparent : d.parent? = .ok none := Document.parent?_eq_none_iff.2 h.parentless
  refine (compileDocument_alike r vars hd).trans ?_
  rw [inherit_top hparent, Traced.done_bind]
  exact finish_of_plain r h.slotless h.unreferring

theorem compile_of_plain (r : Resolver) (vars : Metadata) (hd : Document.parse source = .ok d)
    (h : d.Plain) :
    (compile r source vars).outcome =
      Header.format (applyOverrides d vars).metadata.output d.body := by
  rw [compile, Traced.outcome_bind, (compileDocument_of_plain r vars hd h).outcome]
  rfl

/-- **A document without directives passes through a compilation.**  Whatever the resolver and the
variables of the caller are, nothing is asked for, and the body stays as it is, to the last
character.  The text that it is compiled to is that body exactly if nothing is left for the output,
and so it is if neither the document nor the caller gives the output a mapping with entries.  A text
without a header is then compiled to itself. -/
theorem plain_passes_through (r : Resolver) (vars : Metadata) :
    (∀ (source : Text) (d : Document), Document.parse source = .ok d → d.Plain →
      (compileDocument r source vars).outcome =
          .ok ⟨(applyOverrides d vars).metadata.output, d.body⟩ ∧
        (compileDocument r source vars).fetched = [] ∧ (compile r source vars).fetched = [] ∧
        ((compile r source vars).outcome = .ok d.body ↔
          (applyOverrides d vars).metadata.output = []) ∧
        ((∀ o, d.get? outputKey = some (.mapping o) → o = []) →
          (∀ e ∈ vars, e.1.normalizeKey = .text outputKey → ∀ o, e.2 = .mapping o → o = []) →
          (compile r source vars).outcome = .ok d.body)) ∧
    (∀ t : Text, Header.split? t = none → (∀ i s, ¬ Slot.OccursAt t i s) →
      (∀ line ∈ Text.lines t, Reference.ofLine? line = none) →
      (∀ e ∈ vars, e.1.normalizeKey = .text outputKey → ∀ o, e.2 = .mapping o → o = []) →
      (compile r t vars).outcome = .ok t) := by
  have hbody : ∀ (source : Text) (d : Document), Document.parse source = .ok d → d.Plain →
      ((compile r source vars).outcome = .ok d.body ↔
        (applyOverrides d vars).metadata.output = []) := by
    intro source d hd h
    rw [compile_of_plain r vars hd h]
    exact Header.format_eq_ok_body_iff
  refine ⟨?_, ?_⟩
  · intro source d hd h
    have hrun := compileDocument_of_plain r vars hd h
    refine ⟨hrun.outcome, hrun.fetched, ?_, hbody source d hd h, ?_⟩
    · rw [compile_fetched, hrun.fetched]
      rfl
    · intro houtput hvars
      exact (hbody source d hd h).2 (output_applyOverrides_eq_nil houtput hvars)
  · intro t ht hslots hrefs hvars
    have hd : Document.parse t = .ok ⟨[], t⟩ := by rw [Document.parse, ht]
    have hplain : Document.Plain ⟨[], t⟩ := ⟨Or.inl rfl, hslots, hrefs⟩
    have hnone : ∀ o, Document.get? ⟨[], t⟩ outputKey = some (.mapping o) → o = [] := by
      intro o ho
      cases ho
    exact (hbody t _ hd hplain).2 (output_applyOverrides_eq_nil hnone hvars)

/-- A text whose header is not closed; its slots are none, and what stands behind its at signs is no
path, or not alone in its line. -/
def deceptiveText : Text :=
  "---\r\nextends: base\r--- \nping @you\n@\n @a b\n{{ a b }}\x7b\x7b x \x7d\r\n\n\t{{}}\x7b\r"

/-- A document whose entry for the parent does not count, and with such a body. -/
def deceptiveSource : Text :=
  "---\nextends: ''\noutput: \x7b\x7d\n---\n@@\r\n\x7b\x7b\u00e9\x7d\x7d@x\r"

/-- That document. -/
def deceptiveDocument : Document :=
  ⟨[(.text "extends", .text []), (.text "output", .mapping [])],
    "@@\r\n\x7b\x7b\u00e9\x7d\x7d@x\r"⟩

/-- A resolver that would have something for every path in them. -/
def eagerResolver : Resolver :=
  .ofAnswers [("base", .ok "B"), ("you", .ok "Y"), ("a", .ok "A"), ("x", .ok "X"), ("@", .ok "@")]

/-- Both pass through, though every path has an answer, and the caller gives the output a text. -/
theorem compile_deceptiveText :
    Document.parse deceptiveSource = .ok deceptiveDocument ∧ deceptiveDocument.Plain ∧
      (compile eagerResolver deceptiveSource [(.text "output", .text "x")]).outcome =
        .ok deceptiveDocument.body ∧
      (compile eagerResolver deceptiveText [(.text "output", .text "x")]).outcome =
        .ok deceptiveText := by
  obtain ⟨hdocument, htext⟩ :=
    plain_passes_through eagerResolver [(.text "output", .text "x")]
  have hparse : Document.parse deceptiveSource = .ok deceptiveDocument := by decide +kernel
  have hplain : deceptiveDocument.Plain := by
    refine ⟨?_, Slot.names_eq_nil_iff.1 (by decide +kernel), by decide +kernel⟩
    exact Or.inr (Or.inr (Or.inr (by decide +kernel)))
  have hempty : ∀ o, deceptiveDocument.get? outputKey = some (.mapping o) → o = [] := by
    have hget : deceptiveDocument.get? outputKey = some (.mapping []) := by decide +kernel
    intro o ho
    rw [hget] at ho
    cases ho
    rfl
  have hvars : ∀ e ∈ ([(.text "output", .text "x")] : Metadata),
      e.1.normalizeKey = .text outputKey → ∀ o, e.2 = .mapping o → o = [] := by
    intro e he _ o ho
    rw [List.mem_singleton.1 he] at ho
    cases ho
  obtain ⟨-, -, -, -, hbody⟩ := hdocument deceptiveSource deceptiveDocument hparse hplain
  refine ⟨hparse, hplain, hbody hempty hvars, ?_⟩
  exact htext deceptiveText (by decide +kernel) (Slot.names_eq_nil_iff.1 (by decide +kernel))
    (by decide +kernel) hvars

end Stages

end MarkdownWeave
