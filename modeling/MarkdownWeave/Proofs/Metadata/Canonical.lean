import MarkdownWeave.Document.Basic
import MarkdownWeave.Traced

/-!
# Canonical metadata

Metadata that has been read has no two equal keys, and no number, truth value or null as a key at
any depth.  Such metadata is not changed by being brought into normal form once more, and putting
entries into it keeps it that way, so that the value under a name is the one that was put in last.

## Main definitions

* `Metadata.insertAll` — entries put in one after the other.
* `Metadata.Distinct` — no two entries have equal keys.
* `Metadata.Canonical` — the metadata is its own normal form.
* `Metadata.spelled?` — the value of the last entry whose key is written, in some way, as a name.
* `Header.entries` — the entries of a header, as they are written.

## Main results

* `Metadata.insertAll_eq_append` — entries with new keys go to the end.
* `Value.normalize_normalize`, `Metadata.Canonical.normalize_eq` — **the normal form of a normal
  form is itself**, with the order of its entries.
* `Metadata.get?_insertAll` — **the entry that is put in last counts.**
* `Metadata.get?_normalize` — **all spellings of a key are one name.**
* `Document.canonical_of_parse` — the metadata of a document is canonical.
* `Document.get?_of_parse` — a document has under a name the last value whose key spells it.
-/

namespace MarkdownWeave

namespace Metadata

/-- A mapping with entries put in one after the other. -/
def insertAll (m : Metadata) (es : List (Value × Value)) : Metadata :=
  es.foldl (fun m e => m.insert e.1 e.2) m

@[simp] theorem insertAll_nil (m : Metadata) : m.insertAll [] = m := rfl

@[simp] theorem insertAll_cons (m : Metadata) (e : Value × Value) (es : List (Value × Value)) :
    m.insertAll (e :: es) = (m.insert e.1 e.2).insertAll es := rfl

theorem ofEntries_eq_insertAll (es : List (Value × Value)) : ofEntries es = insertAll [] es := rfl

/-- Entries that are put in keep any property of the keys and any property of the values. -/
theorem forall_insertAll {p q : Value → Prop} {m : Metadata} {es : List (Value × Value)}
    (hm : ∀ e ∈ m, p e.1 ∧ q e.2) (hes : ∀ e ∈ es, p e.1 ∧ q e.2) :
    ∀ e ∈ m.insertAll es, p e.1 ∧ q e.2 := by
  induction es generalizing m with
  | nil => exact hm
  | cons e es ih =>
    obtain ⟨he, hes⟩ := List.forall_mem_cons.1 hes
    exact ih (forall_insert_keys_values hm he.1 he.2) hes

/-! ### Distinct keys -/

/-- No two entries have equal keys. -/
def Distinct (m : Metadata) : Prop := m.Pairwise fun e f => e.1.same f.1 = false

theorem distinct_insert {m : Metadata} (h : m.Distinct) (k v : Value) :
    (m.insert k v).Distinct := by
  induction m with
  | nil => exact List.pairwise_singleton _ _
  | cons e m ih =>
    obtain ⟨he, hm⟩ := List.pairwise_cons.1 h
    rw [insert_cons]
    split
    · -- the key keeps its place and its spelling
      exact List.pairwise_cons.2 ⟨he, hm⟩
    · next hk =>
      refine List.pairwise_cons.2 ⟨?_, ih hm⟩
      exact forall_insert (p := fun l _ => e.1.same l = false) he he (Bool.eq_false_iff.2 hk)

theorem distinct_insertAll {m : Metadata} (h : m.Distinct) (es : List (Value × Value)) :
    (m.insertAll es).Distinct := by
  induction es generalizing m with
  | nil => exact h
  | cons e es ih => exact ih (distinct_insert h e.1 e.2)

theorem distinct_ofEntries (es : List (Value × Value)) : (ofEntries es).Distinct :=
  distinct_insertAll List.Pairwise.nil es

/-- A new key goes to the end. -/
theorem insert_eq_append {m : Metadata} {k : Value} (h : ∀ e ∈ m, e.1.same k = false) (v : Value) :
    m.insert k v = m ++ [(k, v)] := by
  induction m with
  | nil => rfl
  | cons e m ih =>
    obtain ⟨he, hm⟩ := List.forall_mem_cons.1 h
    rw [insert_cons, he, if_neg Bool.false_ne_true, ih hm]
    rfl

/-- **Entries with new keys go to the end, in order.** -/
theorem insertAll_eq_append {m es : Metadata} (h : Distinct (m ++ es)) :
    m.insertAll es = m ++ es := by
  induction es generalizing m with
  | nil => simp
  | cons e es ih =>
    have hnew : ∀ f ∈ m, f.1.same e.1 = false := by
      intro f hf
      exact (List.pairwise_append.1 h).2.2 f hf e List.mem_cons_self
    rw [insertAll_cons, insert_eq_append hnew, ih (by simpa using h)]
    simp

theorem ofEntries_of_distinct {m : Metadata} (h : m.Distinct) : ofEntries m = m := by
  rw [ofEntries_eq_insertAll, insertAll_eq_append (by simpa using h), List.nil_append]

end Metadata

/-! ### The normal form of a normal form -/

namespace Value

theorem normalizeKey_normalizeKey (k : Value) : k.normalizeKey.normalizeKey = k.normalizeKey := by
  cases k <;> rfl

/-- Entries whose keys and values are in normal form are their own normal form. -/
theorem normalizeEntries_of_fixed {m : List (Value × Value)}
    (h : ∀ e ∈ m, e.1.normalizeKey = e.1 ∧ e.2.normalize = e.2) : normalizeEntries m = m := by
  rw [normalizeEntries_eq_map]
  refine (List.map_congr_left fun e he => ?_).trans (List.map_id m)
  rw [(h e he).1, (h e he).2]
  rfl

mutual

/-- **The normal form of a normal form is itself.** -/
theorem normalize_normalize : (v : Value) → v.normalize.normalize = v.normalize
  | null => rfl
  | bool _ => rfl
  | int _ => rfl
  | float _ => rfl
  | text _ => rfl
  | sequence vs => by
    have h := normalizeItems_normalizeItems vs
    simp only [normalize, h]
  | mapping m => by
    -- what is put in is in normal form, and so is then all that is in
    have h := Metadata.forall_ofEntries (p := fun k => k.normalizeKey = k)
      (q := fun v => v.normalize = v) (fixed_normalizeEntries m)
    simp only [normalize, normalizeEntries_of_fixed h,
      Metadata.ofEntries_of_distinct (Metadata.distinct_ofEntries _)]
  | tagged t v => by
    have h := normalize_normalize v
    simp only [normalize, h]

theorem normalizeItems_normalizeItems : (vs : List Value) →
    normalizeItems (normalizeItems vs) = normalizeItems vs
  | [] => rfl
  | v :: vs => by
    have h := normalize_normalize v
    have hs := normalizeItems_normalizeItems vs
    simp only [normalizeItems, h, hs]

theorem fixed_normalizeEntries : (m : List (Value × Value)) →
    ∀ e ∈ normalizeEntries m, e.1.normalizeKey = e.1 ∧ e.2.normalize = e.2
  | [] => by simp [normalizeEntries]
  | (k, v) :: m => by
    intro e he
    rw [normalizeEntries, normalizeEntry] at he
    rcases List.mem_cons.1 he with rfl | he
    · exact ⟨normalizeKey_normalizeKey k, normalize_normalize v⟩
    · exact fixed_normalizeEntries m e he

end

end Value

namespace Metadata

/-- Metadata that is its own normal form. -/
structure Canonical (m : Metadata) : Prop where
  /-- No two entries have equal keys. -/
  distinct : m.Distinct
  /-- The keys and values of all entries are in normal form. -/
  fixed : ∀ e ∈ m, e.1.normalizeKey = e.1 ∧ e.2.normalize = e.2

theorem canonical_normalize (m : Metadata) : (normalize m).Canonical :=
  ⟨distinct_ofEntries _, forall_ofEntries (p := fun k => k.normalizeKey = k)
    (q := fun v => v.normalize = v) (Value.fixed_normalizeEntries m)⟩

theorem Canonical.normalize_eq {m : Metadata} (h : m.Canonical) : normalize m = m := by
  rw [normalize, Value.normalizeEntries_of_fixed h.fixed, ofEntries_of_distinct h.distinct]

/-- Entries in normal form keep metadata canonical. -/
theorem Canonical.insertAll {m : Metadata} (h : m.Canonical) {es : List (Value × Value)}
    (hes : ∀ e ∈ es, e.1.normalizeKey = e.1 ∧ e.2.normalize = e.2) :
    (m.insertAll es).Canonical :=
  ⟨distinct_insertAll h.distinct es, forall_insertAll (p := fun k => k.normalizeKey = k)
    (q := fun v => v.normalize = v) h.fixed hes⟩

/-! ### The value under a name -/

section Names

variable (name : Text)

/-- A key that is not a text is not equal to one. -/
theorem same_eq_false_of_isNamed {name : Text} {k l : Value} (hk : isNamed name k = true)
    (hl : isNamed name l = false) : k.same l = false := by
  cases k with
  | text t =>
    obtain rfl : t = name := eq_of_beq hk
    cases l with
    | text u =>
      rw [Value.same_text, beq_eq_false_iff_ne]
      intro he
      rw [he, isNamed, beq_self_eq_true] at hl
      cases hl
    | _ => simp [Value.same]
  | _ => cases hk

/-- What is put in is found under its own name, and nothing else changes. -/
theorem get?_insert (m : Metadata) (k v : Value) :
    get? (insert m k v) name = if isNamed name k then some v else get? m name := by
  cases hk : isNamed name k with
  | true =>
    cases k with
    | text t =>
      obtain rfl : t = name := eq_of_beq hk
      rw [get?_insert_text, if_pos rfl, if_pos rfl]
    | _ => cases hk
  | false =>
    rw [if_neg Bool.false_ne_true]
    induction m with
    | nil => simp [get?_cons, hk]
    | cons e m ih =>
      rw [insert_cons]
      cases he : isNamed name e.1 with
      | true =>
        rw [same_eq_false_of_isNamed he hk, if_neg Bool.false_ne_true, get?_cons, get?_cons, he]
        rfl
      | false =>
        split
        · rw [get?_cons, get?_cons, he]
          rfl
        · rw [get?_cons, get?_cons, he, ih]

theorem get?_append (m n : Metadata) : get? (m ++ n) name = (get? m name).or (get? n name) := by
  rw [get?, List.find?_append, Option.map_or]
  rfl

/-- A value under a name is that of an entry. -/
theorem exists_mem_of_get? {m : Metadata} {name : Text} {v : Value}
    (h : m.get? name = some v) : (.text name, v) ∈ m := by
  obtain ⟨e, he, rfl⟩ := Option.map_eq_some_iff.1 h
  have hnamed : isNamed name e.1 = true :=
    List.find?_some (p := fun e : Value × Value => isNamed name e.1) he
  obtain ⟨k, v⟩ := e
  cases k with
  | text t =>
    obtain rfl : t = name := eq_of_beq hnamed
    exact List.mem_of_find?_eq_some he
  | _ => cases hnamed

/-- **Of the entries that are put in the last one with the name counts**, and without one what was
there before. -/
theorem get?_insertAll (m : Metadata) (es : List (Value × Value)) :
    get? (m.insertAll es) name = (get? es.reverse name).or (get? m name) := by
  induction es generalizing m with
  | nil => rfl
  | cons e es ih =>
    rw [insertAll_cons, ih, get?_insert, List.reverse_cons, get?_append, Option.or_assoc, get?_cons]
    cases isNamed name e.1 <;> rfl

/-- If no two keys are equal, it does not matter from which side a name is looked for. -/
theorem get?_reverse_of_distinct {m : Metadata} (h : m.Distinct) :
    get? m.reverse name = get? m name := by
  have hget := get?_insertAll name [] m
  rw [← ofEntries_eq_insertAll, ofEntries_of_distinct h, get?_nil, Option.or_none] at hget
  exact hget.symm

end Names

/-- The value of the last entry whose key is, in its text, the name. -/
def spelled? (m : Metadata) (name : Text) : Option Value :=
  (m.reverse.find? fun e => isNamed name e.1.normalizeKey).map Prod.snd

/-- **All spellings of a key are one name**: what is found in a normal form is the last value whose
key is, in its text, the name. -/
theorem get?_normalize (m : Metadata) (name : Text) :
    get? (normalize m) name = (m.spelled? name).map Value.normalize := by
  rw [normalize, ofEntries_eq_insertAll, get?_insertAll, get?_nil, Option.or_none,
    Value.normalizeEntries_eq_map, ← List.map_reverse, get?, List.find?_map, spelled?,
    Option.map_map, Option.map_map]
  rfl

end Metadata

/-! ### What a header says -/

/-- The entries of the header of a text, with keys and values as they are written. -/
def Header.entries (t : Text) : Metadata :=
  match Header.split? t with
  | none => []
  | some (yaml, _) =>
    if yaml.all Text.isBlank then []
    else
      match Yaml.read? yaml with
      | some (.mapping m) => m
      | _ => []

/-- The metadata of a document is the normal form of the entries of its header. -/
theorem Document.metadata_of_parse {t : Text} {d : Document} (h : Document.parse t = .ok d) :
    d.metadata = Metadata.normalize (Header.entries t) := by
  cases hs : Header.split? t with
  | none =>
    rw [Document.parse, hs] at h
    cases h
    rw [Header.entries, hs]
    rfl
  | some p =>
    obtain ⟨yaml, body⟩ := p
    rw [Document.parse, hs] at h
    obtain ⟨m, hm, rfl⟩ := Traced.ok_of_map h
    rw [Header.entries, hs]
    dsimp only
    unfold Header.read at hm
    split at hm
    · next hb =>
      cases hm
      rw [if_pos hb]
      rfl
    · next hb =>
      rw [if_neg hb]
      split at hm
      · next hr => cases hm; rw [hr]
      · next hr => cases hm; rw [hr]; rfl
      · cases hm
      · cases hm

theorem Document.canonical_of_parse {t : Text} {d : Document} (h : Document.parse t = .ok d) :
    d.metadata.Canonical := by
  rw [Document.metadata_of_parse h]
  exact Metadata.canonical_normalize _

/-- **A document has under a name the last value in its header whose key spells the name.** -/
theorem Document.get?_of_parse {t : Text} {d : Document} (h : Document.parse t = .ok d)
    (name : Text) : d.get? name = ((Header.entries t).spelled? name).map Value.normalize := by
  rw [Document.get?, Document.metadata_of_parse h, Metadata.get?_normalize]

end MarkdownWeave
