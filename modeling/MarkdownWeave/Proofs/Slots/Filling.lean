import MarkdownWeave.Proofs.Slots.Simultaneous

/-!
# What a substitution needs

A substitution succeeds if every name that the body asks for has a text, and what it gives then is
made of these texts and of the mapping for the output; nothing else in the metadata counts.

## Main definitions

* `Value.path?` — the path that a value refers to.
* `Answers.textOf?` — the text that stands for the value under a name.
* `Answers.Provides` — every slot of a body has a text.

## Main results

* `Slot.fill_congr` — only the values of the slots that occur count.
* `Answers.substitute_ok_iff` — **when a substitution succeeds, and with what.**
-/

namespace MarkdownWeave

/-- Texts with the same values for all slots that occur are filled alike. -/
theorem Slot.fill_congr {t : Text} {f g : Slot → Text}
    (h : ∀ i s, Slot.OccursAt t i s → f s = g s) : Slot.fill f t = Slot.fill g t := by
  refine List.flatMap_congr fun p hp => ?_
  cases p with
  | verbatim c => rfl
  | slot s =>
    obtain ⟨i, hi⟩ := (Slot.cutsAt_pieces t).mem_iff.1 hp
    exact h i s hi

/-! ### The text of a value -/

/-- The path that a value refers to, if it is a text that begins with an at sign. -/
def Value.path? : Value → Option Text
  | .text ('@' :: path) => some path
  | _ => none

/-- The events when a value is a reference: the notice, and the request. -/
def loadingEvents (path : Text) : List Event :=
  [.notice .debug ("Loading variable value from '" ++ path ++ ['\'']), .fetch path]

namespace Answers

/-- A value that is a reference stands for the body of a document. -/
theorem render_of_path? (answers : Answers) {v : Value} {path : Text} (h : v.path? = some path) :
    answers.render v =
      ⟨((answers path).bind Document.parse).map Document.body, loadingEvents path⟩ := by
  have hload : answers.load path >>= (fun d => pure d.body) =
      ⟨((answers path).bind Document.parse).map Document.body, [.fetch path]⟩ := by
    cases hd : (answers path).bind Document.parse with
    | error f => rw [Traced.bind_of_error hd]; rfl
    | ok d => rw [Traced.bind_of_ok hd]; rfl
  unfold Value.path? at h
  split at h
  · obtain rfl := Option.some.inj h
    show Traced.debug _ >>= (fun _ => answers.load _ >>= fun d => pure d.body) = _
    rw [Traced.debug, Traced.event_bind, hload]
    rfl
  · cases h

/-- Every other value has a text, for which nothing has to be asked. -/
theorem render_of_path?_eq_none (answers : Answers) {v : Value} (h : v.path? = none) :
    ∃ t, answers.render v = .done t := by
  unfold render
  split
  · cases h
  · exact ⟨_, rfl⟩
  · exact ⟨_, rfl⟩

/-! ### The texts of all slots -/

variable {answers : Answers} {m : Metadata}

/-- The text that stands for the value under a name, if there is a value and it has a text. -/
def textOf? (answers : Answers) (m : Metadata) (name : Text) : Option Text :=
  (m.get? name).bind fun v => (answers.render v).outcome.toOption

/-- Every slot of a body has a text. -/
def Provides (answers : Answers) (m : Metadata) (body : Text) : Prop :=
  ∀ name ∈ Slot.names body, ∃ t, answers.textOf? m name = some t

theorem textOf?_eq_some_iff {name t : Text} :
    answers.textOf? m name = some t ↔
      ∃ v, m.get? name = some v ∧ (answers.render v).outcome = .ok t := by
  rw [textOf?, Option.bind_eq_some_iff]
  refine exists_congr fun v => and_congr_right fun _ => ?_
  cases (answers.render v).outcome <;> simp [Except.toOption]

/-- Every name that has a value has the text of that value in the end, if all of them have one. -/
theorem textOf?_of_render {name t : Text} (hn : m.has name = true)
    (h : (answers.render ((m.get? name).getD .null)).outcome = .ok t) :
    answers.textOf? m name = some t := by
  obtain ⟨v, hv⟩ := Option.isSome_iff_exists.1 hn
  rw [hv, Option.getD_some] at h
  exact textOf?_eq_some_iff.2 ⟨v, hv, h⟩

/-- The texts of values that all have one can be brought together. -/
theorem exists_renderAll_ok {names : List Text}
    (h : ∀ name ∈ names, ∃ t, (answers.render ((m.get? name).getD .null)).outcome = .ok t) :
    ∃ values, (answers.renderAll m names).outcome = .ok values := by
  induction names with
  | nil => exact ⟨[], rfl⟩
  | cons name names ih =>
    obtain ⟨⟨t, ht⟩, hnames⟩ := List.forall_mem_cons.1 h
    obtain ⟨values, hvalues⟩ := ih hnames
    refine ⟨(name, t) :: values, ?_⟩
    rw [renderAll, List.mapM_cons, bind_assoc, Traced.outcome_bind_eq_ok]
    refine ⟨t, ht, ?_⟩
    rw [pure_bind, Traced.outcome_bind_eq_ok]
    exact ⟨values, hvalues, rfl⟩

/-- Values that have been brought together are the texts of their names. -/
theorem lookup_of_renderAll {names : List Text} {values : List (Text × Text)}
    (h : (answers.renderAll m names).outcome = .ok values)
    (hhas : ∀ name ∈ names, m.has name = true) {name : Text} (hname : name ∈ names) :
    ∃ t, values.lookup name = some t ∧ answers.textOf? m name = some t := by
  obtain ⟨t, ht, hr⟩ := Answers.renderAll_lookup h name hname
  exact ⟨t, ht, textOf?_of_render (hhas name hname) hr⟩

/-- **A substitution succeeds exactly if every slot has a text.**  Then these texts are in the body,
and the metadata is what is meant for the output. -/
theorem substitute_ok_iff {d d' : Document} :
    (answers.substitute d).outcome = .ok d' ↔
      answers.Provides d.metadata d.body ∧
        (outputMetadata d.metadata).outcome = .ok d'.metadata ∧
        d'.body =
          Slot.fill (fun s => (answers.textOf? d.metadata s.name).getD s.source) d.body := by
  -- whichever way the texts are looked up, the body is filled with the same
  have hfill : ∀ values, (answers.renderAll d.metadata (Slot.names d.body)).outcome = .ok values →
      (∀ name ∈ Slot.names d.body, d.metadata.has name = true) →
      Slot.fill (fun s => (values.lookup s.name).getD s.source) d.body =
        Slot.fill (fun s => (answers.textOf? d.metadata s.name).getD s.source) d.body := by
    intro values hvalues hhas
    refine Slot.fill_congr fun i s hi => ?_
    obtain ⟨t, ht, ht'⟩ := lookup_of_renderAll hvalues hhas (Slot.mem_names.2 ⟨i, s, hi, rfl⟩)
    rw [ht, ht']
  constructor
  · intro h
    obtain ⟨values, hvalues, hhas, houtput, hbody⟩ := Answers.substitute_ok h
    refine ⟨fun name hname => ?_, houtput, by rw [hbody, hfill values hvalues hhas]⟩
    obtain ⟨t, -, ht⟩ := lookup_of_renderAll hvalues hhas hname
    exact ⟨t, ht⟩
  · rintro ⟨hprovides, houtput, hbody⟩
    have hvalue : ∀ name ∈ Slot.names d.body, d.metadata.has name = true ∧
        ∃ t, (answers.render ((d.metadata.get? name).getD .null)).outcome = .ok t := by
      intro name hname
      obtain ⟨t, ht⟩ := hprovides name hname
      obtain ⟨v, hv, hr⟩ := textOf?_eq_some_iff.1 ht
      exact ⟨Option.isSome_iff_exists.2 ⟨v, hv⟩, t, by rw [hv]; exact hr⟩
    have hhas : ∀ name ∈ Slot.names d.body, d.metadata.has name = true :=
      fun name hname => (hvalue name hname).1
    obtain ⟨values, hvalues⟩ := exists_renderAll_ok fun name hname => (hvalue name hname).2
    have hfind : (Slot.names d.body).find? (fun name => !d.metadata.has name) = none := by
      rw [List.find?_eq_none]
      intro name hname
      simp [hhas name hname]
    unfold substitute
    rw [hfind, Traced.outcome_bind_eq_ok]
    refine ⟨values, hvalues, Traced.outcome_bind_eq_ok.2 ⟨(), rfl, ?_⟩⟩
    refine Traced.outcome_bind_eq_ok.2 ⟨d'.metadata, houtput, ?_⟩
    rw [hfill values hvalues hhas, ← hbody]
    rfl

end Answers

end MarkdownWeave
