import MarkdownWeave.Proofs.Metadata.Proper
import MarkdownWeave.Proofs.Slots.Filling
import MarkdownWeave.Proofs.Stages
import MarkdownWeave.Proofs.Transclusion.Expansion

/-!
# Normal metadata along a compilation

Reading brings keys into normal form at every depth.  A child and the variables of the caller are
put in with only their own keys in normal form, and their values as they come.  A child that has been
read hands on normal values all the same; but a mapping that the caller gives as a value keeps its
keys, whatever they are.

## Main definitions

* `Metadata.lastUnder?` — the value of the last entry whose key is a spelling of a given one.
* `Metadata.NormalFor` — the values of the caller that count after a step are normal.

## Main results

* `isNormal_insertAll_iff` — metadata stays normal exactly if the values that are put in, and not
  replaced again, are normal.
* `Reaches.canonical` — documents are normal as long as the caller has no say.
* `Reaches.isNormal_iff` — after that it depends on the values of the caller alone.
* `Reaches.isNormal_of_textVariables` — **texts for variables leave metadata normal.**
* `metadata_isNormal_iff` — **when metadata is normal, after a merge and after each step.**
-/

namespace MarkdownWeave

open Value (IsProper IsNormal)

/-! ### Entries that are put in -/

theorem Value.isNormal_mapping {m : Metadata} :
    IsNormal (.mapping m) ↔ ∀ e ∈ m, scalarText? e.1 = none ∧ IsNormal e.2 := by
  constructor
  · rintro (_ | _ | _ | _ | _ | _ | ⟨hkeys, hvalues⟩)
    exact fun e he => ⟨hkeys e he, hvalues e he⟩
  · intro h
    exact .mapping (fun e he => (h e he).1) fun e he => (h e he).2

namespace Metadata

theorem Canonical.isNormal {m : Metadata} (h : m.Canonical) : IsNormal (.mapping m) := by
  have hm : IsNormal (Value.normalize (.mapping m)) := Value.isNormal_normalize _
  rw [← h.normalize_eq]
  exact hm

/-- The value of the last entry whose key is, in its normal form, equal to a given one. -/
def lastUnder? (m : Metadata) (k : Value) : Option Value := valueAt? m.withNormalKeys.reverse k

/-- **Normal metadata into which entries are put stays normal exactly if their values are**, apart
from those that are replaced by later ones. -/
theorem isNormal_insertAll_iff {m es : Metadata} (hm : IsProper (.mapping m))
    (hn : IsNormal (.mapping m)) (hes : ∀ e ∈ es, e.1.IsProper ∧ e.2.IsProper) :
    IsNormal (.mapping (m.insertAll es.withNormalKeys)) ↔
      ∀ k v, es.lastUnder? k = some v → IsNormal v := by
  have hproper := isProper_withNormalKeys hes
  have hvalues : ∀ k, valueAt? (m.insertAll es.withNormalKeys) k =
      (es.lastUnder? k).or (valueAt? m k) := by
    intro k
    exact valueAt?_insertAll (fun e he => ((Value.isProper_mapping.1 hm).2 e he).1)
      (fun e he => (hproper e he).1) k
  have hkeys : ∀ e ∈ m.insertAll es.withNormalKeys, e.1.scalarText? = none ∧ True := by
    refine forall_insertAll (p := fun k => k.scalarText? = none) (q := fun _ => True) ?_ ?_
    · intro e he
      exact ⟨(Value.isNormal_mapping.1 hn e he).1, trivial⟩
    · intro f hf
      obtain ⟨e, -, rfl⟩ := List.mem_map.1 hf
      exact ⟨Value.scalarText?_normalizeKey e.1, trivial⟩
  have hdistinct := distinct_insertAll (Value.isProper_mapping.1 hm).1 es.withNormalKeys
  have hbefore : ∀ k v, valueAt? m k = some v → IsNormal v :=
    (forall_values_iff (Value.isProper_mapping.1 hm).1).1
      fun e he => (Value.isNormal_mapping.1 hn e he).2
  calc IsNormal (.mapping (m.insertAll es.withNormalKeys))
      ↔ ∀ e ∈ m.insertAll es.withNormalKeys, IsNormal e.2 := by
        rw [Value.isNormal_mapping]
        exact forall₂_congr fun e he => and_iff_right (hkeys e he).1
    _ ↔ ∀ k v, valueAt? (m.insertAll es.withNormalKeys) k = some v → IsNormal v :=
        forall_values_iff hdistinct
    _ ↔ ∀ k v, es.lastUnder? k = some v → IsNormal v := by
        refine forall₂_congr fun k v => ?_
        rw [hvalues]
        cases hk : es.lastUnder? k with
        | some w => rfl
        | none => simpa using hbefore k v

end Metadata

/-- **A merge is normal exactly if the values that the child hands on are**; the parent is brought
into normal form whatever it is. -/
theorem isNormal_mergeMetadata_iff {p c : Metadata} (hp : IsProper (.mapping p))
    (hc : IsProper (.mapping c)) :
    IsNormal (.mapping (mergeMetadata p c)) ↔
      ∀ k v, c.handedOn.lastUnder? k = some v → IsNormal v := by
  have hnormal : IsNormal (.mapping (Metadata.normalize p)) :=
    (Metadata.canonical_normalize p).isNormal
  have hkept : ∀ e ∈ c.handedOn, e.1.IsProper ∧ e.2.IsProper := fun e he =>
    (Value.isProper_mapping.1 hc).2 e (List.mem_filter.1 he).1
  rw [mergeMetadata_eq]
  exact Metadata.isNormal_insertAll_iff hp.normalize hnormal hkept

/-- **A document with variables is normal exactly if their values are.** -/
theorem isNormal_applyOverrides_iff {d : Document} {vars : Metadata}
    (hd : IsProper (.mapping d.metadata)) (hn : IsNormal (.mapping d.metadata))
    (hv : IsProper (.mapping vars)) :
    IsNormal (.mapping (applyOverrides d vars).metadata) ↔
      ∀ k v, vars.lastUnder? k = some v → IsNormal v := by
  rw [applyOverrides_metadata]
  exact Metadata.isNormal_insertAll_iff hd hn (Value.isProper_mapping.1 hv).2

/-! ### From step to step -/

section Steps

variable {r : Resolver} {source : Text} {vars : Metadata} {step : Step} {d : Document}

/-- What has been read, with all that it inherits, is canonical and has no equal keys. -/
theorem Reaches.canonical (h : Reaches r source vars .inherit d) :
    d.metadata.Canonical ∧ IsProper (.mapping d.metadata) := by
  cases h with | @inherit p _ hparsed hd =>
  cases hparsed with | parse hp =>
  obtain ⟨calls, hi⟩ := inherits_inherit r .empty p
  obtain ⟨chain, -, hcanon, -⟩ := hi.lineage hd (Document.canonical_of_parse hp)
  exact ⟨hcanon, hi.isProper hd (Document.isProper_of_parse hp)⟩

/-- The values of the caller that count after a step are normal: none at first, then all that are
put in and not replaced again, and in the end the mapping that is meant for the output. -/
def Metadata.NormalFor (vars : Metadata) : Step → Prop
  | .parse | .inherit => True
  | .override => ∀ k v, vars.lastUnder? k = some v → IsNormal v
  | .substitute | .transclude =>
    ∀ m, vars.lastUnder? (.text outputKey) = some (.mapping m) → IsNormal (.mapping m)

/-- The metadata for the output is that of the caller, or else what has been inherited. -/
theorem isNormal_output_iff (h : Reaches r source vars .inherit d) {e : Document}
    (he : (substitute r (applyOverrides d vars)).outcome = .ok e) :
    IsNormal (.mapping e.metadata) ↔ vars.NormalFor .substitute := by
  have hget : (applyOverrides d vars).metadata.get? outputKey =
      (vars.lastUnder? (.text outputKey)).or (d.metadata.get? outputKey) := by
    rw [applyOverrides_metadata, Metadata.get?_insertAll, ← Metadata.valueAt?_text]
    rfl
  have houtput := (Answers.substitute_ok_iff.1 he).2.1
  rw [outputMetadata_outcome, hget] at houtput
  have hmetadata := Except.ok.inj houtput
  show _ ↔ ∀ m, vars.lastUnder? (.text outputKey) = some (.mapping m) → _
  cases hv : vars.lastUnder? (.text outputKey) with
  | some v =>
    rw [hv, Option.some_or] at hmetadata
    rw [← hmetadata]
    cases v with
    | mapping m => simp
    | _ => simp [Value.isNormal_mapping]
  | none =>
    rw [hv, Option.none_or, ← Metadata.valueAt?_text] at hmetadata
    have hnormal : IsNormal (.mapping e.metadata) := by
      rw [← hmetadata]
      split
      · next output houtput =>
        obtain ⟨f, hf, hvalue⟩ := Metadata.exists_mem_of_valueAt? houtput
        rw [← hvalue]
        exact (Value.isNormal_mapping.1 h.canonical.1.isNormal f hf).2
      · simp [Value.isNormal_mapping]
    simp [hnormal]

/-- **After each step metadata is normal exactly if those values of the caller are that count.** -/
theorem Reaches.isNormal_iff (hv : IsProper (.mapping vars)) (h : Reaches r source vars step d) :
    IsNormal (.mapping d.metadata) ↔ vars.NormalFor step := by
  induction h with
  | parse hd => exact iff_of_true (Document.canonical_of_parse hd).isNormal trivial
  | inherit h hd _ => exact iff_of_true (Reaches.inherit h hd).canonical.1.isNormal trivial
  | override h _ => exact isNormal_applyOverrides_iff h.canonical.2 h.canonical.1.isNormal hv
  | substitute h he _ =>
    cases h with | override h =>
    exact isNormal_output_iff h he
  | transclude _ he ih =>
    rw [transclude_outcome] at he
    obtain ⟨ls, -, rfl⟩ := Traced.ok_of_map he
    exact ih

/-- Texts for variables have no keys of their own. -/
theorem normalFor_textVariables (vars : List (Text × Text)) (step : Step) :
    (textVariables vars).NormalFor step := by
  have hvalues : ∀ e ∈ textVariables vars, True ∧ IsNormal e.2 := by
    refine Metadata.forall_ofEntries (p := fun _ => True) (q := IsNormal) fun e he => ?_
    obtain ⟨v, -, rfl⟩ := List.mem_map.1 he
    exact ⟨trivial, .text v.2⟩
  have hall : ∀ k v, (textVariables vars).lastUnder? k = some v → IsNormal v := by
    intro k v hv
    obtain ⟨f, hf, rfl⟩ := Metadata.exists_mem_of_valueAt? hv
    obtain ⟨e, he, rfl⟩ := List.mem_map.1 (List.mem_reverse.1 hf)
    exact (hvalues e he).2
  cases step with
  | parse | inherit => trivial
  | override => exact hall
  | substitute | transclude => exact fun m hm => hall _ _ hm

theorem isProper_textVariables (vars : List (Text × Text)) :
    IsProper (.mapping (textVariables vars)) := by
  refine Value.isProper_mapping.2 ⟨Metadata.distinct_ofEntries _, ?_⟩
  refine Metadata.forall_ofEntries (p := IsProper) (q := IsProper) fun e he => ?_
  obtain ⟨v, -, rfl⟩ := List.mem_map.1 he
  exact ⟨.text v.1, .text v.2⟩

/-- **Texts for variables leave metadata normal**, after every step. -/
theorem Reaches.isNormal_of_textVariables {vars : List (Text × Text)}
    (h : Reaches r source (textVariables vars) step d) : IsNormal (.mapping d.metadata) :=
  (h.isNormal_iff (isProper_textVariables vars)).2 (normalFor_textVariables vars step)

end Steps

/-! ### The whole way -/

/-- **When metadata is normal at every depth.**  A merge is normal exactly if the values that the
child hands on are, except those that a later entry with another spelling of the key replaces; the
parent is brought into normal form.  So it is with variables that are put into normal metadata.  In
a compilation metadata is normal as long as nothing of the caller is in it, and from then on exactly
if those values of the caller are that count; for the compiled document that is nothing but the
mapping that the caller gives for the output. -/
theorem metadata_isNormal_iff (r : Resolver) (source : Text) {p c vars : Metadata} {d : Document}
    (hp : IsProper (.mapping p)) (hc : IsProper (.mapping c)) (hvars : IsProper (.mapping vars))
    (hd : IsProper (.mapping d.metadata)) (hn : IsNormal (.mapping d.metadata)) :
    (IsNormal (.mapping (mergeMetadata p c)) ↔
        ∀ k v, c.handedOn.lastUnder? k = some v → IsNormal v) ∧
      (IsNormal (.mapping (applyOverrides d vars).metadata) ↔
        ∀ k v, vars.lastUnder? k = some v → IsNormal v) ∧
      (∀ step e, (step, e) ∈ (progress r source vars).documents →
        (IsNormal (.mapping e.metadata) ↔ vars.NormalFor step)) ∧
      ∀ e, (compileDocument r source vars).outcome = .ok e →
        (IsNormal (.mapping e.metadata) ↔
          ∀ m, vars.lastUnder? (.text outputKey) = some (.mapping m) →
            IsNormal (.mapping m)) := by
  refine ⟨isNormal_mergeMetadata_iff hp hc, isNormal_applyOverrides_iff hd hn hvars, ?_, ?_⟩
  · intro step e he
    exact (reaches_of_mem he).isNormal_iff hvars
  · intro e he
    exact (reaches_of_compileDocument he).isNormal_iff hvars

/-- Variables with two spellings of one key, of which the first has a mapping for its value that is
not normal. -/
def respelledVariables : Metadata :=
  [(.int 7, .mapping [(.int 1, .text "x")]), (.text "7", .text "y"),
    (.text "output", .mapping [(.text "k", .int 1)])]

/-- The second spelling replaces the first, and with it the mapping. -/
theorem isNormal_respelledVariables :
    IsProper (.mapping respelledVariables) ∧ ¬ IsNormal (.mapping respelledVariables) ∧
      IsNormal (.mapping (mergeMetadata respelledVariables respelledVariables)) ∧
      IsNormal (.mapping (applyOverrides ⟨[], "Body"⟩ respelledVariables).metadata) ∧
      ∀ step e, (step, e) ∈ (progress (.ofAnswers []) "Body" respelledVariables).documents →
        IsNormal (.mapping e.metadata) := by
  have hempty : IsProper (.mapping []) ∧ IsNormal (.mapping []) := by
    simp [Value.isProper_mapping, Value.isNormal_mapping, Metadata.Distinct]
  have hproper : IsProper (.mapping respelledVariables) := by
    simp [respelledVariables, Value.isProper_mapping, Metadata.Distinct, Value.same, IsProper.int,
      IsProper.text]
  have hnot : ¬ IsNormal (.mapping respelledVariables) := by
    simp [respelledVariables, Value.isNormal_mapping, Value.scalarText?]
  have hlast : ∀ k v, respelledVariables.lastUnder? k = some v → IsNormal v := by
    intro k v hv
    have hreverse : respelledVariables.withNormalKeys.reverse =
        [(.text "output", .mapping [(.text "k", .int 1)]), (.text "7", .text "y"),
          (.text "7", .mapping [(.int 1, .text "x")])] := by
      decide +kernel
    rw [Metadata.lastUnder?, hreverse] at hv
    simp only [Metadata.valueAt?_cons, Metadata.valueAt?_nil] at hv
    split at hv
    · cases hv
      simp [Value.isNormal_mapping, Value.scalarText?, IsNormal.int]
    · split at hv
      · cases hv
        exact .text "y"
      · cases hv
  obtain ⟨hmerge, happly, hsteps, -⟩ := metadata_isNormal_iff (.ofAnswers []) "Body"
    (d := ⟨[], "Body"⟩) hproper hproper hproper hempty.1 hempty.2
  refine ⟨hproper, hnot, hmerge.2 hlast, happly.2 hlast, fun step e he => ?_⟩
  refine (hsteps step e he).2 ?_
  cases step with
  | parse | inherit => trivial
  | override => exact hlast
  | substitute | transclude => exact fun m hm => hlast _ _ hm

/-- Variables with a mapping for the output that has a number as a key. -/
def numberedOutput : Metadata := [(.text "output", .mapping [(.int 1, .text "x")])]

/-- The number stays a key when the variables are put in, and even in the compiled document. -/
theorem not_isNormal_numberedOutput :
    IsProper (.mapping numberedOutput) ∧ IsNormal (.mapping []) ∧
      ¬ IsNormal (.mapping (mergeMetadata [] numberedOutput)) ∧
      ¬ IsNormal (.mapping (applyOverrides ⟨[], "Body"⟩ numberedOutput).metadata) ∧
      ∃ e, (compileDocument (.ofAnswers []) "Body" numberedOutput).outcome = .ok e ∧
        ¬ IsNormal (.mapping e.metadata) := by
  have hnot : ¬ IsNormal (.mapping [(.int 1, .text "x")]) := by
    simp [Value.isNormal_mapping, Value.scalarText?]
  have hnot' : ¬ IsNormal (.mapping numberedOutput) := by
    -- the mapping for the output is one of its values
    intro h
    exact hnot (Value.isNormal_mapping.1 h _ List.mem_cons_self).2
  refine ⟨?_, ?_, ?_, ?_, ⟨[(.int 1, .text "x")], "Body"⟩, ?_, hnot⟩
  · simp [numberedOutput, Value.isProper_mapping, Metadata.Distinct, IsProper.int, IsProper.text]
  · simp [Value.isNormal_mapping]
  · have hmerge : mergeMetadata [] numberedOutput = numberedOutput := by decide +kernel
    rw [hmerge]
    exact hnot'
  · have happly : (applyOverrides ⟨[], "Body"⟩ numberedOutput).metadata = numberedOutput := by
      decide +kernel
    rw [happly]
    exact hnot'
  · have hparsed : Document.parse "Body" = .ok ⟨[], "Body"⟩ := by decide +kernel
    have hinherited : (inherit (.ofAnswers []) ⟨[], "Body"⟩ .empty).outcome =
        .ok ⟨[], "Body"⟩ := by
      rw [inherit_top (by decide)]
      rfl
    have hfilled :
        (substitute (.ofAnswers []) (applyOverrides ⟨[], "Body"⟩ numberedOutput)).outcome =
          .ok ⟨[(.int 1, .text "x")], "Body"⟩ := by
      decide +kernel
    rw [compileDocument_of_inherit hparsed hinherited, hfilled]
    show (transclude _ _ _).outcome = _
    rw [transclude_outcome, outcome_of_expandWithin 2 (o := .ok ["Body"]) (by decide +kernel)]
    decide +kernel

end MarkdownWeave
