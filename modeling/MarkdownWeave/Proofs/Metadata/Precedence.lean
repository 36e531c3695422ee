import Mathlib.Control.Monad.Basic
import Mathlib.Data.List.Basic
import MarkdownWeave.CommandLine.Run
import MarkdownWeave.Compile.Progress
import MarkdownWeave.Proofs.Inheritance.Ascent
import MarkdownWeave.Proofs.Metadata.Canonical
import MarkdownWeave.Proofs.Numerals

/-!
# Which value a variable has

A name can have a value from the command line, from the settings, in the document itself and in each
of the documents that it inherits from.  The command line comes first, then the settings, then the
document and its parents, the nearest first; a value is taken as a whole, and a name is defined if
one of them has it.  The spelling of a key does not matter: `2024` and `'2024'` are one name.

## Main definitions

* `Lineage r d chain` — `chain` is the document with all that it inherits from, the nearest first.
* `Variable.value?` — the value that an argument of the command line gives a name.

## Main results

* `get?_mergeMetadata` — what a child has comes before what its parent has.
* `Inherits.lineage` — **the nearest document that has a name decides.**
* `Variable.value?_eq_some_iff` — an argument has its value behind its first equals sign.
* `variable_precedence` — **the command line comes before the settings, these before the document,
  and that before its parents.**
-/

namespace MarkdownWeave

/-! ### Parents and children -/

/-- A document with all that it inherits from, the nearest first; the last one has no parent. -/
inductive Lineage (r : Resolver) : Document → List Document → Prop
  /-- A document without a parent inherits nothing. -/
  | top {d : Document} (hp : d.parent? = .ok none) : Lineage r d [d]
  /-- A document inherits from its parent, and from all that this inherits from. -/
  | parent {d e : Document} {path : Text} {chain : List Document}
      (hp : d.parent? = .ok (some path)) (he : r.Supplies path e) (above : Lineage r e chain) :
      Lineage r d (d :: chain)

/-- All documents above another one have been read from texts. -/
theorem Lineage.exists_parse {r : Resolver} {d : Document} {chain : List Document}
    (h : Lineage r d chain) (hd : ∃ t, Document.parse t = .ok d) :
    ∀ e ∈ chain, ∃ t, Document.parse t = .ok e := by
  induction h with
  | top _ => simpa using hd
  | parent _ he _ ih =>
    obtain ⟨t, -, ht⟩ := he
    exact List.forall_mem_cons.2 ⟨hd, ih ⟨t, ht⟩⟩

section Merge

variable {p c : Metadata}

/-- The entries of a child that are put over its parent's. -/
theorem mergeMetadata_eq_insertAll (hp : p.Canonical) (hc : c.Canonical) :
    mergeMetadata p c = p.insertAll (c.filter fun e => e.1.textUnderTags? != some extendsKey) := by
  rw [mergeMetadata, hp.normalize_eq, Metadata.insertAll]
  refine List.foldl_ext _ _ _ fun m e he => ?_
  rw [(hc.fixed e (List.mem_filter.1 he).1).1]

theorem canonical_mergeMetadata (hp : p.Canonical) (hc : c.Canonical) :
    (mergeMetadata p c).Canonical := by
  rw [mergeMetadata_eq_insertAll hp hc]
  exact hp.insertAll fun e he => hc.fixed e (List.mem_filter.1 he).1

/-- **What a child has under a name comes before what its parent has**, apart from the name of the
parent itself. -/
theorem get?_mergeMetadata (hp : p.Canonical) (hc : c.Canonical) {name : Text}
    (hn : name ≠ extendsKey) :
    (mergeMetadata p c).get? name = (c.get? name).or (p.get? name) := by
  have hkept : Metadata.get? (c.filter fun e => e.1.textUnderTags? != some extendsKey) name =
      c.get? name := by
    rw [Metadata.get?, List.find?_filter, Metadata.get?]
    congr 2
    funext e
    -- an entry with this name is not the one that names the parent
    cases hk : e.1 with
    | text t =>
      by_cases ht : t = name <;> simp [Metadata.isNamed, Value.textUnderTags?, ht, hn]
    | _ => simp [Metadata.isNamed]
  rw [mergeMetadata_eq_insertAll hp hc, Metadata.get?_insertAll,
    Metadata.get?_reverse_of_distinct _ (hc.distinct.filter _), hkept]

/-- No key but a text is spelled like the name of the parent. -/
theorem isNamed_extendsKey_normalizeKey {k : Value} (h : k.textUnderTags? ≠ some extendsKey) :
    Metadata.isNamed extendsKey k.normalizeKey = false := by
  cases hs : k.scalarText? with
  | some t =>
    rw [Value.normalizeKey, hs]
    refine beq_eq_false_iff_ne.2 fun ht => ?_
    -- there is a letter in the name that no scalar has
    have hx : 'x' ∈ t := by rw [ht]; decide
    exact absurd (Value.isScalarChar_of_mem hs 'x' hx) (by decide)
  | none =>
    rw [Value.normalizeKey, hs]
    cases k with
    | text t =>
      refine beq_eq_false_iff_ne.2 fun ht => h ?_
      rw [ht]
      rfl
    | _ => rfl

/-- The name of the parent is not taken over from the child, in whatever way it is spelled there. -/
theorem get?_mergeMetadata_extendsKey (hp : p.Canonical) (c : Metadata) :
    (mergeMetadata p c).get? extendsKey = p.get? extendsKey := by
  have kept : ∀ (es m : Metadata), (∀ e ∈ es, e.1.textUnderTags? ≠ some extendsKey) →
      (es.foldl (fun m e => m.insert e.1.normalizeKey e.2) m).get? extendsKey =
        m.get? extendsKey := by
    intro es
    induction es with
    | nil => exact fun m _ => rfl
    | cons e es ih =>
      intro m hes
      obtain ⟨he, hes⟩ := List.forall_mem_cons.1 hes
      rw [List.foldl_cons, ih _ hes, Metadata.get?_insert, isNamed_extendsKey_normalizeKey he,
        if_neg Bool.false_ne_true]
  rw [mergeMetadata, hp.normalize_eq]
  exact kept _ p fun e he => by simpa using (List.mem_filter.1 he).2

/-- **The nearest document that has a name decides** what a document has under it after all that it
inherits has come together. -/
theorem Inherits.lineage {r : Resolver} {g : Guard} {d complete : Document} {x : Traced Document}
    {calls : List Guard} (h : Inherits r g d x calls) (hx : x.outcome = .ok complete)
    (hd : d.metadata.Canonical) :
    ∃ chain, Lineage r d chain ∧ complete.metadata.Canonical ∧
      ∀ name, name ≠ extendsKey → complete.get? name = chain.findSome? (·.get? name) := by
  induction h generalizing complete with
  | top hp =>
    cases hx
    exact ⟨[_], .top hp, hd, fun name _ => by simp⟩
  | invalid _ | circular _ _ | missing _ _ _ | malformed _ _ _ _ => cases hx
  | @parent g d e path x calls hp _ he _ ih =>
    cases hy : x.outcome with
    | error f => rw [hy] at hx; cases hx
    | ok above =>
      rw [hy] at hx
      obtain ⟨body, -, rfl⟩ := Traced.ok_of_map (y := mergeBodies above.body d.body) hx
      have hcanon : e.metadata.Canonical := by
        obtain ⟨t, -, ht⟩ := he
        exact Document.canonical_of_parse ht
      obtain ⟨chain, hchain, habove, hget⟩ := ih hy hcanon
      refine ⟨d :: chain, .parent hp he hchain, canonical_mergeMetadata habove hd, ?_⟩
      intro name hn
      have hn' := hget name hn
      rw [Document.get?] at hn' ⊢
      rw [get?_mergeMetadata habove hd hn, hn', List.findSome?_cons]
      rw [Document.get?]
      cases d.metadata.get? name <;> rfl

end Merge

/-! ### Variables of the caller -/

/-- The value that an argument of the command line gives a name: what stands behind its first equals
sign, if what stands before that is the name, apart from white space at its ends. -/
def Variable.value? (name input : Text) : Option Text :=
  (Text.splitAt? '=' input).bind fun (key, value) =>
    if Text.trim key = name then some value else none

theorem Variable.value?_eq_some_iff {name input value : Text} :
    Variable.value? name input = some value ↔
      ∃ key, input = key ++ '=' :: value ∧ '=' ∉ key ∧ Text.trim key = name := by
  simp only [Variable.value?, Option.bind_eq_some_iff, Prod.exists, Text.splitAt?_eq_some_iff,
    Option.ite_none_right_eq_some]
  constructor
  · rintro ⟨key, v, ⟨hi, hk⟩, ht, hv⟩
    exact ⟨key, Option.some.inj hv ▸ hi, hk, ht⟩
  · rintro ⟨key, hi, hk, ht⟩
    exact ⟨key, value, ⟨hi, hk⟩, ht, rfl⟩

/-- The value that a list of variables gives a name: that of the last one with the name. -/
def lastValue? (vars : List (Text × Text)) (name : Text) : Option Text := vars.reverse.lookup name

theorem lastValue?_append (vars vars' : List (Text × Text)) (name : Text) :
    lastValue? (vars ++ vars') name = (lastValue? vars' name).or (lastValue? vars name) := by
  rw [lastValue?, List.reverse_append, List.lookup_append]
  rfl

/-- An argument that is accepted gives a value to the name that it is read with, and to no other. -/
theorem Variable.value?_of_parse {input key value : Text}
    (h : Variable.parse input = .ok (key, value)) (name : Text) :
    Variable.value? name input = if key = name then some value else none := by
  unfold Variable.parse at h
  split at h
  · cases h
  · next k v hs =>
    split at h
    · cases h
    · cases h
      rw [Variable.value?, hs]
      rfl

/-- The variables of the command line give a name the value of the last argument for it. -/
theorem Variable.lastValue?_parseAll {inputs : List Text} {vars : List (Text × Text)}
    (h : Variable.parseAll inputs = .ok vars) (name : Text) :
    lastValue? vars name = inputs.reverse.findSome? (Variable.value? name) := by
  induction inputs generalizing vars with
  | nil => cases h; rfl
  | cons input inputs ih =>
    rw [Variable.parseAll, List.mapM_cons] at h
    cases hp : Variable.parse input with
    | error f => rw [hp] at h; cases h
    | ok v =>
      obtain ⟨key, value⟩ := v
      cases hps : inputs.mapM Variable.parse with
      | error f => rw [hp, hps] at h; cases h
      | ok later =>
        rw [hp, hps] at h
        obtain rfl : (key, value) :: later = vars := Except.ok.inj h
        rw [← List.singleton_append, lastValue?_append, ih hps, List.reverse_cons,
          List.findSome?_append]
        congr 1
        rw [List.findSome?_singleton, Variable.value?_of_parse hp]
        by_cases hv : key = name
        · simp [lastValue?, hv]
        · have hb : (name == key) = false := beq_eq_false_iff_ne.2 (Ne.symm hv)
          simp [lastValue?, hv, hb]

/-- Variables as entries have under a name the value of the first one with it. -/
theorem get?_map_text (vars : List (Text × Text)) (name : Text) :
    Metadata.get? (vars.map fun v => (.text v.1, .text v.2)) name =
      (vars.lookup name).map .text := by
  induction vars with
  | nil => rfl
  | cons v vars ih =>
    rw [List.map_cons, Metadata.get?_cons, ih, List.lookup_cons]
    by_cases hv : v.1 = name
    · simp [Metadata.isNamed, hv]
    · have hb : (name == v.1) = false := beq_eq_false_iff_ne.2 (Ne.symm hv)
      simp [Metadata.isNamed, hv, hb]

/-- Variables are in normal form: their names and values are texts. -/
theorem fixed_textVariables (vars : List (Text × Text)) :
    ∀ e ∈ textVariables vars, e.1.normalizeKey = e.1 ∧ e.2.normalize = e.2 := by
  refine Metadata.forall_ofEntries (p := fun k => k.normalizeKey = k)
    (q := fun v => v.normalize = v) fun e he => ?_
  obtain ⟨v, -, rfl⟩ := List.mem_map.1 he
  exact ⟨rfl, rfl⟩

/-- Variables are put over a document's metadata with their names as they are. -/
theorem applyOverrides_textVariables (d : Document) (vars : List (Text × Text)) :
    (applyOverrides d (textVariables vars)).metadata =
      d.metadata.insertAll (textVariables vars) := by
  rw [applyOverrides, Metadata.insertAll]
  refine List.foldl_ext _ _ _ fun m e he => ?_
  rw [(fixed_textVariables vars e he).1]

/-- **The variables of the caller come before what a document has.** -/
theorem get?_applyOverrides (d : Document) (vars : List (Text × Text)) (name : Text) :
    (applyOverrides d (textVariables vars)).get? name =
      ((lastValue? vars name).map .text).or (d.get? name) := by
  rw [Document.get?, applyOverrides_textVariables, textVariables, Metadata.get?_insertAll,
    Metadata.get?_reverse_of_distinct _ (Metadata.distinct_ofEntries _),
    Metadata.ofEntries_eq_insertAll, Metadata.get?_insertAll, ← List.map_reverse, get?_map_text]
  simp [lastValue?, Document.get?]

/-! ### The whole order -/

/-- When the document has come together, its slots are filled, and then its references replaced. -/
theorem compileDocument_of_inherit {r : Resolver} {source : Text} {d complete : Document}
    (hd : Document.parse source = .ok d) (hi : (inherit r d .empty).outcome = .ok complete)
    (vars : Metadata) :
    (compileDocument r source vars).outcome =
      (substitute r (applyOverrides complete vars)).outcome.bind fun f =>
        (transclude r f .empty).outcome := by
  have debug_ok (t : Text) : (Traced.debug t).outcome = .ok () := rfl
  simp only [compileDocument, Traced.outcome_bind, Traced.ofExcept, hd, debug_ok, hi,
    announceOverrides_outcome, Except.bind]

/-- **The command line comes before the settings, these before the document, and that before its
parents, the nearest first.**  If a document and all that it inherits come together, and all
variables on the command line are accepted, then slots are filled from metadata that has under every
name, except the one for the parent, the value of the last argument for it; without one that of the
settings; and else the whole value of the nearest document that has the name.  There it is the last
value in the header whose key spells the name, whether as a text or as a number, a truth value or
null; and no two keys of the metadata are spellings of one name. -/
theorem variable_precedence (r : Resolver) (source : Text) (settings : Settings) (a : Arguments)
    {vars : List (Text × Text)} {d complete : Document}
    (hvars : CommandLine.collectVars settings a = .ok vars)
    (hd : Document.parse source = .ok d) (hi : (inherit r d .empty).outcome = .ok complete) :
    ∃ chain, Lineage r d chain ∧
      (compileDocument r source (textVariables vars)).outcome =
        ((substitute r (applyOverrides complete (textVariables vars))).outcome.bind fun f =>
          (transclude r f .empty).outcome) ∧
      (∀ name, name ≠ extendsKey →
        (applyOverrides complete (textVariables vars)).get? name =
          ((a.vars.reverse.findSome? (Variable.value? name)).map .text).or
            (((lastValue? settings.vars name).map .text).or
              (chain.findSome? (·.get? name)))) ∧
      (∀ e ∈ chain, ∃ t, Document.parse t = .ok e ∧
        ∀ name, e.get? name = ((Header.entries t).spelled? name).map Value.normalize) ∧
      (applyOverrides complete (textVariables vars)).metadata.Canonical := by
  obtain ⟨calls, h⟩ := inherits_inherit r .empty d
  obtain ⟨chain, hchain, hcanon, hget⟩ := h.lineage hi (Document.canonical_of_parse hd)
  refine ⟨chain, hchain, compileDocument_of_inherit hd hi _, ?_, ?_, ?_⟩
  · intro name hn
    cases hp : Variable.parseAll a.vars with
    | error f => rw [CommandLine.collectVars, hp] at hvars; cases hvars
    | ok given =>
      rw [CommandLine.collectVars, hp] at hvars
      obtain rfl : settings.vars ++ given = vars := Except.ok.inj hvars
      rw [get?_applyOverrides, lastValue?_append, Variable.lastValue?_parseAll hp, hget name hn,
        Option.map_or, Option.or_assoc]
  · intro e he
    obtain ⟨t, ht⟩ := hchain.exists_parse ⟨source, hd⟩ e he
    exact ⟨t, ht, Document.get?_of_parse ht⟩
  · rw [applyOverrides_textVariables]
    exact hcanon.insertAll (fixed_textVariables vars)

/-- The text of a parent; one of its keys is a text and one a truth value. -/
def layeredBase : Text := "---\n'2024': up\ntrue: 1\nkeep: k\n---\n"

/-- A resolver with that text alone. -/
def layeredResolver : Resolver := .ofAnswers [("base", .ok layeredBase)]

/-- The text of a child of that parent; its key is a number. -/
def layeredSource : Text := "---\nextends: base\n2024: own\n---\nBody"

/-- Settings with a variable that the parent has, too. -/
def layeredSettings : Settings := ⟨0, [("keep", "config"), ("lang", "en")]⟩

/-- Arguments with two values for a variable of the settings. -/
def layeredArguments : Arguments := ⟨none, ["lang=de", " lang =fr=x"], none, none, false, false⟩

/-- The parent. -/
def layeredParent : Document :=
  ⟨[(.text "2024", .text "up"), (.text "true", .int 1), (.text "keep", .text "k")], []⟩

/-- The child. -/
def layeredChild : Document :=
  ⟨[(.text "extends", .text "base"), (.text "2024", .text "own")], "Body"⟩

/-- What the child and its parent come to. -/
def layeredComplete : Document :=
  ⟨[(.text "2024", .text "own"), (.text "true", .int 1), (.text "keep", .text "k")], "Body"⟩

/-- The number in the child is the text in its parent, the settings come before the parent, and the
last argument before the settings. -/
theorem precedence_layered :
    ∃ vars, CommandLine.collectVars layeredSettings layeredArguments = .ok vars ∧
      Document.parse layeredSource = .ok layeredChild ∧
      (inherit layeredResolver layeredChild .empty).outcome = .ok layeredComplete ∧
      ∃ chain, Lineage layeredResolver layeredChild chain ∧ ∀ name, name ≠ extendsKey →
        (applyOverrides layeredComplete (textVariables vars)).get? name =
          ((layeredArguments.vars.reverse.findSome? (Variable.value? name)).map .text).or
            (((lastValue? layeredSettings.vars name).map .text).or
              (chain.findSome? (·.get? name))) := by
  have hvars : CommandLine.collectVars layeredSettings layeredArguments =
      .ok [("keep", "config"), ("lang", "en"), ("lang", "de"), ("lang", "fr=x")] := by
    rfl
  have hchild : Document.parse layeredSource = .ok layeredChild := by decide +kernel
  have hparent : Document.parse layeredBase = .ok layeredParent := by decide +kernel
  have hi : (inherit layeredResolver layeredChild .empty).outcome = .ok layeredComplete := by
    have below : layeredChild.parent? = .ok (some "base") := by decide +kernel
    have above : layeredParent.parent? = .ok none := by decide +kernel
    have supplied : layeredResolver.Supplies "base" layeredParent :=
      ⟨layeredBase, by decide +kernel, hparent⟩
    rw [(Inherits.parent below (by simp [Guard.empty]) supplied (.top above)).eq_inherit]
    decide +kernel
  obtain ⟨chain, hchain, -, hget, -⟩ :=
    variable_precedence layeredResolver layeredSource layeredSettings layeredArguments hvars hchild
      hi
  exact ⟨_, hvars, hchild, hi, chain, hchain, hget⟩

end MarkdownWeave
