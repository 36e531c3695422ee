import MarkdownWeave.Proofs.Metadata.Normality
import MarkdownWeave.Proofs.Metadata.Precedence
import MarkdownWeave.Proofs.TwoRuns

/-!
# Metadata that is not used

When a document is finished, the names of its slots and that of the output are the only ones that
count.  Whatever else there is in its metadata, and wherever that comes from, the caller or the
documents that are inherited from, leaves no trace in what the document comes to; only the names
that are suggested for one that is missing are taken from all of them.

## Main definitions

* `Failure.Akin` — two failures that are the same apart from suggestions.
* `Traced.Akin` — two computations that ask for the same and come to the same, up to that.
* `Document.DiffersIn K d d'` — two documents that differ in values under names of `K` at most.

## Main results

* `finish_akin` — the last two stages see nothing but what is used.
* `compile_akin` — the rule for two compilations.
* `unused_metadata_inert` — **names that are not used can be given any value or none**, by
  variables, and in the documents that are inherited from.
-/

namespace MarkdownWeave

/-! ### The same apart from suggestions -/

/-- Two failures are the same, apart from the names that are suggested for one that is missing. -/
inductive Failure.Akin : Failure → Failure → Prop
  /-- The same failure. -/
  | refl (f : Failure) : Akin f f
  /-- The same name is missing. -/
  | undefined (name : Text) (similar similar' : List Text) :
      Akin (.undefinedVariable name similar) (.undefinedVariable name similar')

theorem undefinedName_akin (m m' : Metadata) (name : Text) :
    (undefinedName name m).Akin (undefinedName name m') :=
  .undefined name _ _

namespace Traced

variable {α : Type} {P : Text → Prop} {x y x' y' : Traced α}

/-- Two computations ask for the same and come to the same, apart from suggestions in a failure. -/
structure Akin (x y : Traced α) : Prop where
  /-- They ask for the same, in the same order. -/
  fetched : y.fetched = x.fetched
  /-- They come to the same result, or both fail likewise. -/
  outcome : Matched Failure.Akin Eq x.outcome y.outcome

theorem Akin.of_alike (h : x'.Akin y') (hx : x.Alike x') (hy : y.Alike y') : x.Akin y := by
  refine ⟨?_, ?_⟩
  · rw [hx.fetched, hy.fetched, h.fetched]
  · rw [hx.outcome, hy.outcome]
    exact h.outcome

theorem Follows.akin (h : Follows P Failure.Akin Eq x y) (hP : ∀ p ∈ x.fetched, P p) :
    x.Akin y := by
  obtain ⟨hevents, hout⟩ := h hP
  exact ⟨by rw [fetched, fetched, hevents], hout⟩

end Traced

/-! ### The last two stages -/

/-- **Filling slots and replacing references see nothing but what is used.** -/
theorem finish_akin (r : Resolver) {d d' : Document} (h : d.SameInUse d') :
    (finish r d').events = (finish r d).events ∧
      Matched Failure.Akin Eq (finish r d).outcome (finish r d').outcome := by
  apply finish_follows h .refl (undefinedName_akin _ _)
  intro p _
  exact Resolver.alike_of_answer_eq (fun _ => rfl) rfl

/-! ### Documents that differ in some names -/

/-- Two documents have the same body, and differ in values under names of some kind at most. -/
structure Document.DiffersIn (K : Text → Prop) (d d' : Document) : Prop where
  /-- The bodies are the same. -/
  body : d.body = d'.body
  /-- Another name has the same value in both, or none in either. -/
  values : ∀ name, ¬ K name → d.get? name = d'.get? name

/-- Two documents that have been read, or come together from such, and differ in some names. -/
structure Document.ReadApart (K : Text → Prop) (d d' : Document) : Prop
    extends d.DiffersIn K d' where
  /-- The metadata of the first one is canonical. -/
  left : d.metadata.Canonical
  /-- So is that of the second. -/
  right : d'.metadata.Canonical

/-- One more entry, in front of the others, makes no difference to other names. -/
theorem Document.differsIn_cons (name : Text) (v : Value) (m : Metadata) (body : Text) :
    DiffersIn (fun other => other = name) ⟨m, body⟩ ⟨(.text name, v) :: m, body⟩ := by
  refine ⟨rfl, fun other hother => ?_⟩
  have hnamed : Metadata.isNamed other (.text name) = false :=
    beq_eq_false_iff_ne.2 fun h => hother h.symm
  rw [Document.get?, Document.get?, Metadata.get?_cons, hnamed, if_neg Bool.false_ne_true]

section Apart

variable {K : Text → Prop} {d d' : Document}

theorem Document.DiffersIn.readApart (h : d.DiffersIn K d') {t t' : Text}
    (hd : Document.parse t = .ok d) (hd' : Document.parse t' = .ok d') : d.ReadApart K d' :=
  ⟨h, Document.canonical_of_parse hd, Document.canonical_of_parse hd'⟩

/-- What is read from resolvers has canonical metadata. -/
theorem Resolver.Alike.readApart {r r' : Resolver} {p : Text}
    (h : Resolver.Alike (Document.DiffersIn K) r r' p) :
    Resolver.Alike (Document.ReadApart K) r r' p where
  missing := h.missing
  malformed := h.malformed
  supplied d hd := by
    obtain ⟨d', hd', happart⟩ := h.supplied d hd
    obtain ⟨t, -, ht⟩ := id hd
    obtain ⟨t', -, ht'⟩ := id hd'
    exact ⟨d', hd', happart.readApart ht ht'⟩

/-- Documents that differ in some names are merged to such documents, as long as they have the same
parent. -/
theorem heritable_readApart (hK : ¬ K extendsKey) : Heritable (Document.ReadApart K) where
  parent h := by rw [Document.parent?, Document.parent?, h.values extendsKey hK]
  merge {p p' c c'} hp hc := by
    have hbody : mergeBodies p'.body c'.body = mergeBodies p.body c.body := by
      rw [hp.body, hc.body]
    rw [merge, merge, hbody]
    cases mergeBodies p.body c.body with
    | error f => exact .error rfl
    | ok body =>
      refine .ok ⟨⟨rfl, ?_⟩, canonical_mergeMetadata hp.left hc.left,
        canonical_mergeMetadata hp.right hc.right⟩
      intro name hn
      have hparent : p.metadata.get? name = p'.metadata.get? name := hp.values name hn
      have hchild : c.metadata.get? name = c'.metadata.get? name := hc.values name hn
      show (mergeMetadata p.metadata c.metadata).get? name =
        (mergeMetadata p'.metadata c'.metadata).get? name
      by_cases he : name = extendsKey
      · rw [he, get?_mergeMetadata_extendsKey hp.left,
          get?_mergeMetadata_extendsKey hp.right, ← he, hparent]
      · rw [get?_mergeMetadata hp.left hc.left he, get?_mergeMetadata hp.right hc.right he,
          hparent, hchild]

end Apart

/-! ### Compilations -/

section Compilations

variable {r r' : Resolver} {source source' : Text} {vars vars' : Metadata} {d d' : Document}
variable {R : Document → Document → Prop}

/-- Two compilations go together if what is inherited goes together, and comes to documents with the
same in use; of the documents that are not inherited from only the bodies count. -/
theorem compile_akin (hd : Document.parse source = .ok d) (hd' : Document.parse source' = .ok d')
    (hR : Heritable R) (hdd : R d d')
    (hchain : ∀ p ∈ (inherit r d .empty).fetched, Resolver.Alike R r r' p)
    (hbodies : ∀ p ∈ (compileDocument r source vars).fetched,
      Resolver.Alike Document.SameBody r r' p)
    (huse : ∀ complete complete', (inherit r d .empty).outcome = .ok complete →
      R complete complete' → (applyOverrides complete vars).SameInUse
        (applyOverrides complete' vars')) :
    (compileDocument r source vars).Akin (compileDocument r' source' vars') ∧
      (compile r source vars).Akin (compile r' source' vars') := by
  have hx := compileDocument_alike r vars hd
  have hy := compileDocument_alike r' vars' hd'
  have hinherit : Traced.Follows (Resolver.Alike Document.SameBody r r') Failure.Akin R
      (inherit r d .empty) (inherit r' d' .empty) := by
    intro _
    obtain ⟨hevents, hout⟩ := inherit_follows hR hdd .empty hchain
    refine ⟨hevents, hout.imp ?_⟩
    rintro e _ rfl
    exact .refl e
  have hdocument := hinherit.bind fun complete complete' hi hc =>
    finish_follows (huse complete complete' hi hc) .refl (undefinedName_akin _ _)
  have htext := hdocument.bind (f := fun d => Traced.ofExcept d.format)
    (g := fun d => Traced.ofExcept d.format) fun a b _ hab => by
      subst hab
      exact .refl .refl (fun _ => rfl) _
  rw [hx.fetched] at hbodies
  refine ⟨(hdocument.akin hbodies).of_alike hx hy, ?_⟩
  refine (htext.akin ?_).of_alike (hx.bind _) (hy.bind _)
  rwa [← (hx.bind _).fetched, ← compile, compile_fetched, hx.fetched]

/-- With the same source and resolver only the variables have to go together. -/
theorem compile_akin_of_vars
    (huse : ∀ d complete, Document.parse source = .ok d →
      (inherit r d .empty).outcome = .ok complete →
      (applyOverrides complete vars).SameInUse (applyOverrides complete vars')) :
    (compileDocument r source vars).Akin (compileDocument r source vars') ∧
      (compile r source vars).Akin (compile r source vars') := by
  cases hd : Document.parse source with
  | error f =>
    have hall : ∀ vars, compileDocument r source vars = .fail f := fun _ =>
      compileDocument_of_malformed hd
    rw [compile, compile, hall, hall]
    exact ⟨⟨rfl, .error (.refl f)⟩, ⟨rfl, .error (.refl f)⟩⟩
  | ok d =>
    have hsame : ∀ (S : Document → Document → Prop) (p : Text), (∀ e, S e e) →
        Resolver.Alike S r r p := fun S p hS => Resolver.alike_of_answer_eq hS rfl
    refine compile_akin hd hd heritable_eq rfl (fun p _ => hsame _ p fun _ => rfl)
      (fun p _ => hsame _ p fun _ => rfl) ?_
    rintro complete _ hi rfl
    exact huse d complete hd hi

/-! ### Names that are not used -/

/-- No name of some kind is used by what a source comes to with all that it inherits. -/
def Unused (r : Resolver) (source : Text) (K : Text → Prop) : Prop :=
  ∀ d complete, Document.parse source = .ok d → (inherit r d .empty).outcome = .ok complete →
    ∀ name, complete.Uses name → ¬ K name

/-- A variable among others has no say under other names. -/
theorem get?_applyOverrides_add (d : Document) (pre post : Metadata) {key : Value} (value : Value)
    {name : Text} (h : key.normalizeKey ≠ .text name) :
    (applyOverrides d (pre ++ (key, value) :: post)).get? name =
      (applyOverrides d (pre ++ post)).get? name := by
  have hother : Metadata.isNamed name key.normalizeKey = false := by
    cases hk : key.normalizeKey with
    | text t =>
      rw [hk] at h
      exact beq_eq_false_iff_ne.2 fun ht => h (congrArg Value.text ht)
    | _ => rfl
  have hsplit : ∀ vars : Metadata, (applyOverrides d vars).get? name =
      (Metadata.get? vars.withNormalKeys.reverse name).or (d.metadata.get? name) := by
    intro vars
    rw [Document.get?, applyOverrides_metadata, Metadata.get?_insertAll]
  rw [hsplit, hsplit]
  simp [Metadata.withNormalKeys, Metadata.get?_append, Metadata.get?_cons, hother]

theorem get?_textVariables_add (d : Document) (pre post : List (Text × Text)) (value : Text)
    {key name : Text} (h : name ≠ key) :
    (applyOverrides d (textVariables (pre ++ (key, value) :: post))).get? name =
      (applyOverrides d (textVariables (pre ++ post))).get? name := by
  have hb : (name == key) = false := beq_eq_false_iff_ne.2 h
  rw [get?_applyOverrides, get?_applyOverrides, lastValue?, lastValue?]
  simp [List.lookup_append, List.lookup_cons, hb]

/-- A variable under a name that is not used makes no difference. -/
theorem compile_akin_add (pre post : Metadata) {key : Value} (value : Value)
    (h : Unused r source fun name => key.normalizeKey = .text name) :
    (compileDocument r source (pre ++ post)).Akin
        (compileDocument r source (pre ++ (key, value) :: post)) ∧
      (compile r source (pre ++ post)).Akin (compile r source (pre ++ (key, value) :: post)) := by
  apply compile_akin_of_vars
  intro d complete hd hi
  refine ⟨rfl, fun name hname => ?_⟩
  have hother : key.normalizeKey ≠ .text name := h d complete hd hi name hname
  exact (get?_applyOverrides_add complete pre post value hother).symm

theorem compile_akin_textVariables_add (pre post : List (Text × Text)) {key : Text} (value : Text)
    (h : Unused r source fun name => name = key) :
    (compileDocument r source (textVariables (pre ++ post))).Akin
        (compileDocument r source (textVariables (pre ++ (key, value) :: post))) ∧
      (compile r source (textVariables (pre ++ post))).Akin
        (compile r source (textVariables (pre ++ (key, value) :: post))) := by
  apply compile_akin_of_vars
  intro d complete hd hi
  refine ⟨rfl, fun name hname => ?_⟩
  have hother : name ≠ key := h d complete hd hi name hname
  exact (get?_textVariables_add complete pre post value hother).symm

/-- Variables put over documents with the same under a name leave them with the same under it. -/
theorem get?_applyOverrides_congr {name : Text} (h : d.get? name = d'.get? name) (vars : Metadata) :
    (applyOverrides d vars).get? name = (applyOverrides d' vars).get? name := by
  have hget : d.metadata.get? name = d'.metadata.get? name := h
  rw [Document.get?, Document.get?, applyOverrides_metadata, applyOverrides_metadata,
    Metadata.get?_insertAll, Metadata.get?_insertAll, hget]

/-- What documents have under names that are not used makes no difference to what inherits it. -/
theorem compile_akin_of_differsIn {K : Text → Prop} (hK : ¬ K extendsKey)
    (hunused : Unused r source K) (hd : Document.parse source = .ok d)
    (hd' : Document.parse source' = .ok d') (hdd : d.DiffersIn K d')
    (hchain : ∀ p ∈ (inherit r d .empty).fetched,
      Resolver.Alike (Document.DiffersIn K) r r' p)
    (hbodies : ∀ p ∈ (compileDocument r source vars).fetched,
      Resolver.Alike Document.SameBody r r' p) :
    (compileDocument r source vars).Akin (compileDocument r' source' vars) ∧
      (compile r source vars).Akin (compile r' source' vars) := by
  refine compile_akin hd hd' (heritable_readApart hK) (hdd.readApart hd hd')
    (fun p hp => (hchain p hp).readApart) hbodies ?_
  intro complete complete' hi hc
  refine ⟨hc.body, fun name hname => ?_⟩
  have hother : ¬ K name := hunused d complete hd hi name hname
  exact get?_applyOverrides_congr (hc.values name hother) vars

/-- **Metadata that is not used is inert.**  Documents with the same body, and with the same under
the names of its slots and that of the output, are finished with the same requests and notices, and
come to the same document, or fail likewise but for suggestions.  So take a name that is not used
when a source and its parents have come together.  Variables may give it a value or not, however its
key is spelled, and so may those of the settings and of the command line; and, if it is not the name
for the parent, so may the source and each of its parents.  The same is asked for, and the compiled
document and its text are the same. -/
theorem unused_metadata_inert :
    (∀ (r : Resolver) (d d' : Document), d.SameInUse d' →
      (finish r d').events = (finish r d).events ∧
        Matched Failure.Akin Eq (finish r d).outcome (finish r d').outcome) ∧
    (∀ (r : Resolver) (source : Text) (pre post : Metadata) (key value : Value),
      Unused r source (fun name => key.normalizeKey = .text name) →
      (compileDocument r source (pre ++ post)).Akin
          (compileDocument r source (pre ++ (key, value) :: post)) ∧
        (compile r source (pre ++ post)).Akin
          (compile r source (pre ++ (key, value) :: post))) ∧
    (∀ (r : Resolver) (source : Text) (pre post : List (Text × Text)) (key value : Text),
      Unused r source (fun name => name = key) →
      (compileDocument r source (textVariables (pre ++ post))).Akin
          (compileDocument r source (textVariables (pre ++ (key, value) :: post))) ∧
        (compile r source (textVariables (pre ++ post))).Akin
          (compile r source (textVariables (pre ++ (key, value) :: post)))) ∧
    (∀ (K : Text → Prop) (r r' : Resolver) (source source' : Text) (vars : Metadata)
      (d d' : Document), ¬ K extendsKey → Unused r source K →
      Document.parse source = .ok d → Document.parse source' = .ok d' → d.DiffersIn K d' →
      (∀ p ∈ (inherit r d .empty).fetched, Resolver.Alike (Document.DiffersIn K) r r' p) →
      (∀ p ∈ (compileDocument r source vars).fetched,
        Resolver.Alike Document.SameBody r r' p) →
      (compileDocument r source vars).Akin (compileDocument r' source' vars) ∧
        (compile r source vars).Akin (compile r' source' vars)) := by
  refine ⟨fun r d d' h => finish_akin r h, ?_, ?_, ?_⟩
  · intro r source pre post key value h
    exact compile_akin_add pre post value h
  · intro r source pre post key value h
    exact compile_akin_textVariables_add pre post value h
  · intro K r r' source source' vars d d' hK hunused hd hd' hdd hchain hbodies
    exact compile_akin_of_differsIn hK hunused hd hd' hdd hchain hbodies

/-- The text of a parent; the value of its slot is a reference. -/
def inertBase : Text := "---\nv: '@x'\n---\n{{ v }} {{ content }}"

/-- The same parent with one more key. -/
def richBase : Text := "---\nw: [2]\nv: '@x'\n---\n{{ v }} {{ content }}"

/-- The text of a child of that parent. -/
def inertSource : Text := "---\nextends: base\n---\nB"

/-- The same child with the key of the parent. -/
def richSource : Text := "---\nw: 1\nextends: base\n---\nB"

/-- A resolver with the parent, and the document that it refers to. -/
def inertResolver : Resolver := .ofAnswers [("base", .ok inertBase), ("x", .ok "X")]

/-- The same with the other parent. -/
def richResolver : Resolver := .ofAnswers [("base", .ok richBase), ("x", .ok "X")]

/-- The parent. -/
def inertParent : Document := ⟨[(.text "v", .text "@x")], "{{ v }} {{ content }}"⟩

/-- The other parent. -/
def richParent : Document :=
  ⟨[(.text "w", .sequence [.int 2]), (.text "v", .text "@x")], "{{ v }} {{ content }}"⟩

/-- The child. -/
def inertChild : Document := ⟨[(.text "extends", .text "base")], "B"⟩

/-- The other child. -/
def richChild : Document := ⟨[(.text "w", .int 1), (.text "extends", .text "base")], "B"⟩

/-- What the child and its parent come to. -/
def inertComplete : Document := ⟨[(.text "v", .text "@x")], "{{ v }} B"⟩

/-- What the other child and its parent come to. -/
def richComplete : Document := ⟨[(.text "w", .int 1), (.text "v", .text "@x")], "{{ v }} B"⟩

theorem parse_inertSource : Document.parse inertSource = .ok inertChild := by decide +kernel

theorem supplies_inertBase : inertResolver.Supplies "base" inertParent :=
  ⟨inertBase, by decide +kernel, by decide +kernel⟩

theorem unused_inertSource {K : Text → Prop} (houtput : ¬ K outputKey) (hv : ¬ K "v") :
    Unused inertResolver inertSource K := by
  have hcomplete : (inherit inertResolver inertChild .empty).outcome = .ok inertComplete := by
    have below : inertChild.parent? = .ok (some "base") := by decide +kernel
    have above : inertParent.parent? = .ok none := by decide +kernel
    rw [inherit_of_top_parent below supplies_inertBase above]
    decide +kernel
  have hnames : Slot.names inertComplete.body = (["v"] : List Text) := by decide +kernel
  intro d complete hd hi name hname
  obtain rfl := Except.ok.inj (parse_inertSource.symm.trans hd)
  obtain rfl := Except.ok.inj (hcomplete.symm.trans hi)
  rcases hname with rfl | hslot
  · exact houtput
  · have hmem := Slot.mem_names.2 hslot
    rw [hnames, List.mem_singleton] at hmem
    rw [hmem]
    exact hv

theorem richResolver_alike (p : Text) :
    Resolver.Alike (Document.DiffersIn fun name => name = "w") inertResolver richResolver p := by
  by_cases hp : p = "base"
  · have supplied : richResolver.Supplies "base" richParent :=
      ⟨richBase, by decide +kernel, by decide +kernel⟩
    rw [hp]
    exact supplies_inertBase.alike supplied (Document.differsIn_cons _ _ _ _)
  · apply Resolver.alike_of_answer_eq fun d => ⟨rfl, fun _ _ => rfl⟩
    rw [inertResolver, richResolver, Resolver.ofAnswers_cons_of_ne hp,
      Resolver.ofAnswers_cons_of_ne hp]

/-- Variables of the caller, of the child and of the parent make no difference if nothing uses
them. -/
theorem compile_richSource :
    (finish inertResolver richComplete).events = (finish inertResolver inertComplete).events ∧
      (compile inertResolver inertSource []).Akin
        (compile inertResolver inertSource [(.int 7, .sequence [])]) ∧
      (compile inertResolver inertSource (textVariables [])).Akin
        (compile inertResolver inertSource (textVariables [("w", "2")])) ∧
      (compile inertResolver inertSource []).Akin (compile richResolver richSource []) := by
  obtain ⟨hfinish, hoverride, hvariable, hinherited⟩ := unused_metadata_inert
  have hrich : Document.parse richSource = .ok richChild := by decide +kernel
  have hw : Unused inertResolver inertSource fun name => name = "w" :=
    unused_inertSource (by decide) (by decide)
  have hseven : Unused inertResolver inertSource fun name =>
      (Value.int 7).normalizeKey = .text name :=
    unused_inertSource (by decide) (by decide)
  have hcomplete : inertComplete.SameInUse richComplete := by
    have happart := Document.differsIn_cons "w" (.int 1) inertComplete.metadata inertComplete.body
    refine ⟨happart.body, fun name hname => happart.values name ?_⟩
    rintro rfl
    rcases hname with h | h
    · exact absurd h (by decide)
    · exact absurd (Slot.mem_names.2 h) (by decide +kernel)
  have hbodies : ∀ p, Resolver.Alike Document.SameBody inertResolver richResolver p := fun p =>
    (richResolver_alike p).imp fun d d' h => h.body
  refine ⟨(hfinish inertResolver _ _ hcomplete).1, ?_, ?_, ?_⟩
  · exact (hoverride inertResolver inertSource [] [] (.int 7) (.sequence []) hseven).2
  · exact (hvariable inertResolver inertSource [] [] "w" "2" hw).2
  · exact (hinherited _ inertResolver richResolver inertSource richSource [] _ _ (by decide) hw
      parse_inertSource hrich (Document.differsIn_cons _ _ _ _) (fun p _ => richResolver_alike p)
      fun p _ => hbodies p).2

end Compilations

end MarkdownWeave
