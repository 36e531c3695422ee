import MarkdownWeave.Proofs.Metadata.Equality
import MarkdownWeave.Proofs.Metadata.Precedence
import MarkdownWeave.Proofs.Yaml.Loading

/-!
# Metadata has no equal keys

Reading YAML refuses a mapping that has two equal keys, and whatever is done with metadata after
that puts an entry in the place of one with an equal key.  So all metadata that a compilation comes
by is proper.

## Main definitions

* `Metadata.withNormalKeys` — entries with their keys in normal form, and their values as they are.

## Main results

* `Yaml.isProper_of_read?` — **values that are read are proper.**
* `Yaml.LoadClosed.of_parse`, `Inherits.metadata` — what is true of metadata that is read, and of
  metadata with all that is inherited.
* `Value.IsProper.normalize` — their normal forms are proper, too.
* `Document.isProper_of_parse`, `Inherits.isProper` — so is the metadata of documents, alone and
  with all that they inherit.
-/

namespace MarkdownWeave

open Value (IsProper)

/-! ### Reading -/

namespace Yaml

/-- An entry with a new key keeps a mapping proper. -/
theorem isProper_of_addNew? {m m' : Metadata} {k v : Value} (hm : IsProper (.mapping m))
    (hk : k.IsProper) (hv : v.IsProper) (h : addNew? m k v = some m') : IsProper (.mapping m') := by
  unfold addNew? at h
  split at h
  · cases h
  · next hnew =>
    cases h
    cases hm with | mapping hdistinct hkeys hvalues =>
    have hother : ∀ e ∈ m, e.1.same k = false := by
      intro e he
      rw [Bool.eq_false_iff]
      intro hek
      exact hnew (List.any_eq_true.2 ⟨e, he, hek⟩)
    refine .mapping ?_ ?_ ?_
    · refine List.pairwise_append.2 ⟨hdistinct, List.pairwise_singleton _ _, fun e he f hf => ?_⟩
      rw [List.mem_singleton.1 hf]
      exact hother e he
    · rw [List.forall_mem_append]
      exact ⟨hkeys, by simpa using hk⟩
    · rw [List.forall_mem_append]
      exact ⟨hvalues, by simpa using hv⟩

theorem loadClosed_isProper : LoadClosed IsProper where
  scalar hv := by
    cases hv with
    | null => exact .null
    | bool b => exact .bool b
    | int n => exact .int n
    | float _ => exact .float _
    | text t => exact .text t
  sequence := .sequence
  empty := .mapping List.Pairwise.nil (by simp) (by simp)
  entry := isProper_of_addNew?
  tagged := .tagged _

/-- **Values that are read are proper.** -/
theorem isProper_of_read? {t : Text} {v : Value} (h : read? t = some v) : v.IsProper :=
  loadClosed_isProper.of_read? h

end Yaml

/-! ### Normal forms -/

namespace Value

theorem isProper_mapping {m : Metadata} :
    IsProper (mapping m) ↔ m.Distinct ∧ ∀ e ∈ m, e.1.IsProper ∧ e.2.IsProper := by
  constructor
  · rintro (_ | _ | _ | _ | _ | _ | ⟨hdistinct, hkeys, hvalues⟩)
    exact ⟨hdistinct, fun e he => ⟨hkeys e he, hvalues e he⟩⟩
  · rintro ⟨hdistinct, h⟩
    exact .mapping hdistinct (fun e he => (h e he).1) fun e he => (h e he).2

theorem isProper_sequence {vs : List Value} : IsProper (sequence vs) ↔ ∀ v ∈ vs, v.IsProper := by
  constructor
  · rintro (_ | _ | _ | _ | _ | hvs)
    exact hvs
  · exact .sequence

theorem isProper_tagged {t : Text} {v : Value} : IsProper (tagged t v) ↔ v.IsProper := by
  constructor
  · rintro (_ | _ | _ | _ | _ | _ | _ | ⟨-, hv⟩)
    exact hv
  · exact .tagged t

theorem IsProper.normalizeKey {k : Value} (h : k.IsProper) : k.normalizeKey.IsProper := by
  unfold Value.normalizeKey
  split
  · exact .text _
  · exact h

/-- Entries that are put in keep a mapping proper. -/
theorem IsProper.insertAll {m : Metadata} (hm : IsProper (.mapping m))
    {es : List (Value × Value)} (hes : ∀ e ∈ es, e.1.IsProper ∧ e.2.IsProper) :
    IsProper (.mapping (m.insertAll es)) := by
  rw [isProper_mapping] at hm ⊢
  exact ⟨Metadata.distinct_insertAll hm.1 es, Metadata.forall_insertAll hm.2 hes⟩

/-- **The normal form of a proper value is proper.** -/
theorem IsProper.normalize {v : Value} (h : v.IsProper) : v.normalize.IsProper := by
  induction h with
  | null => exact .null
  | bool b => exact .bool b
  | int n => exact .int n
  | float x => exact .float x
  | text t => exact .text t
  | @sequence vs _ ih =>
    rw [Value.normalize, normalizeItems_eq_map]
    refine .sequence fun w hw => ?_
    obtain ⟨v, hv, rfl⟩ := List.mem_map.1 hw
    exact ih v hv
  | @mapping m hdistinct hkeys _ _ ihvalues =>
    rw [Value.normalize, normalizeEntries_eq_map, Metadata.ofEntries_eq_insertAll]
    refine IsProper.insertAll (.mapping List.Pairwise.nil (by simp) (by simp)) fun f hf => ?_
    obtain ⟨e, he, rfl⟩ := List.mem_map.1 hf
    exact ⟨(hkeys e he).normalizeKey, ihvalues e he⟩
  | tagged t _ ih => exact .tagged t ih

end Value

/-! ### Documents -/

namespace Metadata

/-- Entries with their keys in normal form, and their values as they are. -/
def withNormalKeys (m : Metadata) : List (Value × Value) := m.map fun e => (e.1.normalizeKey, e.2)

/-- The entries that a child hands on: all but the one that names its parent. -/
def handedOn (c : Metadata) : Metadata := c.filter fun e => e.1.textUnderTags? != some extendsKey

theorem isProper_withNormalKeys {m : Metadata} (h : ∀ e ∈ m, e.1.IsProper ∧ e.2.IsProper) :
    ∀ e ∈ m.withNormalKeys, e.1.IsProper ∧ e.2.IsProper := by
  intro f hf
  obtain ⟨e, he, rfl⟩ := List.mem_map.1 hf
  exact ⟨(h e he).1.normalizeKey, (h e he).2⟩

end Metadata

/-- What a child hands on is put into the normal form of its parent's metadata as it is, apart from
the keys. -/
theorem mergeMetadata_eq (p c : Metadata) :
    mergeMetadata p c = (Metadata.normalize p).insertAll c.handedOn.withNormalKeys := by
  rw [mergeMetadata, Metadata.insertAll, Metadata.withNormalKeys, List.foldl_map]
  rfl

/-- So are the variables of the caller put into the metadata of a document. -/
theorem applyOverrides_metadata (d : Document) (vars : Metadata) :
    (applyOverrides d vars).metadata = d.metadata.insertAll vars.withNormalKeys := by
  rw [applyOverrides, Metadata.insertAll, Metadata.withNormalKeys, List.foldl_map]

theorem isProper_mergeMetadata {p c : Metadata} (hp : IsProper (.mapping p))
    (hc : IsProper (.mapping c)) : IsProper (.mapping (mergeMetadata p c)) := by
  have hkept : ∀ e ∈ c.handedOn, e.1.IsProper ∧ e.2.IsProper := fun e he =>
    (Value.isProper_mapping.1 hc).2 e (List.mem_filter.1 he).1
  rw [mergeMetadata_eq]
  exact hp.normalize.insertAll (Metadata.isProper_withNormalKeys hkept)

/-- Metadata that is read has every property that values have if their parts do, and that their
normal forms keep. -/
theorem Yaml.LoadClosed.of_parse {P : Value → Prop} (h : LoadClosed P)
    (hnormal : ∀ v, P v → P v.normalize) {t : Text} {d : Document} (hd : Document.parse t = .ok d) :
    P (.mapping d.metadata) := by
  have hentries : P (.mapping (Header.entries t)) := by
    unfold Header.entries
    split
    · exact h.empty
    · split
      · exact h.empty
      · split
        · next hread => exact h.of_read? hread
        · exact h.empty
  rw [Document.metadata_of_parse hd]
  exact hnormal _ hentries

/-- What is true of metadata that is read, and stays true when a child is merged into its parent, is
true of a document with all that it inherits. -/
theorem Inherits.metadata {P : Metadata → Prop}
    (hparse : ∀ {t d}, Document.parse t = .ok d → P d.metadata)
    (hmerge : ∀ {p c}, P p → P c → P (mergeMetadata p c)) {r : Resolver} {g : Guard}
    {d complete : Document} {x : Traced Document} {calls : List Guard}
    (h : Inherits r g d x calls) (hx : x.outcome = .ok complete) (hd : P d.metadata) :
    P complete.metadata := by
  induction h generalizing complete with
  | top _ => cases hx; exact hd
  | invalid _ | circular _ _ | missing _ _ _ | malformed _ _ _ _ => cases hx
  | @parent g d e path x calls _ _ he _ ih =>
    cases hy : x.outcome with
    | error f => rw [hy] at hx; cases hx
    | ok above =>
      rw [hy] at hx
      obtain ⟨body, -, rfl⟩ := Traced.ok_of_map (y := mergeBodies above.body d.body) hx
      obtain ⟨t, -, ht⟩ := he
      exact hmerge (ih hy (hparse ht)) hd

/-- The metadata of a document that has been read is proper. -/
theorem Document.isProper_of_parse {t : Text} {d : Document} (h : Document.parse t = .ok d) :
    IsProper (.mapping d.metadata) :=
  Yaml.loadClosed_isProper.of_parse (fun _ => IsProper.normalize) h

/-- So is what it has after all that it inherits has come together. -/
theorem Inherits.isProper {r : Resolver} {g : Guard} {d complete : Document} {x : Traced Document}
    {calls : List Guard} (h : Inherits r g d x calls) (hx : x.outcome = .ok complete)
    (hd : IsProper (.mapping d.metadata)) : IsProper (.mapping complete.metadata) :=
  h.metadata (P := fun m => IsProper (.mapping m)) Document.isProper_of_parse isProper_mergeMetadata
    hx hd

end MarkdownWeave
