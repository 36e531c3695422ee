import MarkdownWeave.Proofs.Lists
import MarkdownWeave.Proofs.Metadata.Normality

/-!
# Spellings of a key that fall together

In its normal form a mapping has one entry for all keys that come to have the same text.  The entry
stands where the first of them stood, and has the normal form of what the last of them had.  It is
so for every mapping that is reached through values, items and tags, and nothing else changes: this
alone determines the normal form.

Keys are put in by equality, which does not see the order of a mapping.  In a proper mapping that
makes no difference: a key that is not replaced by its text has no other one that is equal to it.

## Main definitions

* `Metadata.Sharp` — keys that are equal are identical.
* `Metadata.LastUnder` — a value is that of the last entry whose key has a given normal form.
* `Value.Collapses` — a value comes from another one by letting keys fall together, at every depth.

## Main results

* `Metadata.keys_ofEntries` — each key is kept where it is met first.
* `Metadata.keys_normalize`, `Metadata.exists_lastUnder_of_mem_normalize` — the keys and the values
  of a normal form.
* `Value.collapses_iff` — **a value collapses to its normal form, and to nothing else.**
* `normalize_collapses` — what becomes of a mapping.
-/

namespace MarkdownWeave

open Value (IsProper)

/-! ### Equal keys -/

namespace Value

theorem eq_text_of_same_text {k : Value} {t : Text} (h : k.same (text t) = true) : k = text t := by
  cases k <;> simp_all [same]

theorem eq_text_of_text_same {k : Value} {t : Text} (h : (text t).same k = true) : k = text t := by
  cases k <;> simp_all [same]

/-- A key is kept, or it becomes a text. -/
theorem normalizeKey_eq_self_or_text (k : Value) :
    k.normalizeKey = k ∨ ∃ t, k.normalizeKey = text t := by
  cases k <;> simp [normalizeKey, scalarText?]

end Value

namespace Metadata

/-- Keys of which two are equal only if they are identical. -/
def Sharp (ks : List Value) : Prop := ∀ k ∈ ks, ∀ l ∈ ks, k.same l = true → k = l

theorem Sharp.same_iff {ks : List Value} (h : Sharp ks) {k l : Value} (hk : k ∈ ks) (hl : l ∈ ks) :
    k.same l = true ↔ k = l := by
  constructor
  · exact h k hk l hl
  · rintro rfl
    exact Value.same_refl k

/-- A proper mapping has no entries with equal keys but one and the same. -/
theorem eq_of_same {m : Metadata} (hm : IsProper (.mapping m)) {e f : Value × Value} (he : e ∈ m)
    (hf : f ∈ m) (h : e.1.same f.1 = true) : e = f := by
  obtain ⟨hdistinct, hproper⟩ := Value.isProper_mapping.1 hm
  obtain ⟨i, rfl⟩ := List.mem_iff_get.1 he
  obtain ⟨j, rfl⟩ := List.mem_iff_get.1 hf
  rcases lt_trichotomy i j with hij | rfl | hji
  · rw [List.pairwise_iff_get.1 hdistinct i j hij] at h
    cases h
  · rfl
  · have hback := Value.same_symm (hproper _ he).1 h
    rw [List.pairwise_iff_get.1 hdistinct j i hji] at hback
    cases hback

/-- **The normal forms of the keys of a proper mapping are equal only if they are identical.** -/
theorem sharp_normalKeys {m : Metadata} (hm : IsProper (.mapping m)) :
    Sharp (m.map fun e => e.1.normalizeKey) := by
  intro k hk l hl h
  obtain ⟨e, he, rfl⟩ := List.mem_map.1 hk
  obtain ⟨f, hf, rfl⟩ := List.mem_map.1 hl
  rcases e.1.normalizeKey_eq_self_or_text with hkey | ⟨t, htext⟩
  · rcases f.1.normalizeKey_eq_self_or_text with hkey' | ⟨t, htext⟩
    · rw [hkey, hkey'] at h ⊢
      exact congrArg Prod.fst (eq_of_same hm he hf h)
    · rw [htext] at h ⊢
      exact Value.eq_text_of_same_text h
  · rw [htext] at h ⊢
    exact (Value.eq_text_of_text_same h).symm

/-! ### Keys in their order -/

/-- An entry that is put in has its key in the place of an equal one, or at the end. -/
theorem keys_insert (m : Metadata) (k v : Value) :
    (m.insert k v).map Prod.fst =
      if m.hasKey k then m.map Prod.fst else m.map Prod.fst ++ [k] := by
  induction m with
  | nil => rfl
  | cons e m ih =>
    rw [insert_cons, hasKey, List.any_cons]
    cases h : e.1.same k with
    | true => simp
    | false =>
      rw [if_neg Bool.false_ne_true, List.map_cons, ih, hasKey, Bool.false_or]
      cases m.any fun e => e.1.same k <;> rfl

/-- A key is in if an equal one is. -/
theorem hasKey_iff {m : Metadata} {k : Value} :
    m.hasKey k = true ↔ ∃ l ∈ m.map Prod.fst, l.same k = true := by
  simp [hasKey]

/-- **Each key is kept where it is met first.** -/
theorem keys_ofEntries {es : List (Value × Value)} (h : Sharp (es.map Prod.fst)) :
    (ofEntries es).map Prod.fst = (es.map Prod.fst).eraseDups := by
  induction es using List.reverseRecOn with
  | nil => rfl
  | append_singleton es e ih =>
    rw [List.map_append, List.map_singleton] at h
    have hleft : ∀ k ∈ es.map Prod.fst, k ∈ es.map Prod.fst ++ [e.1] :=
      fun k hk => List.mem_append_left _ hk
    have hkeys := ih fun k hk l hl => h k (hleft k hk) l (hleft l hl)
    have hmem : (ofEntries es).hasKey e.1 = true ↔ e.1 ∈ es.map Prod.fst := by
      simp only [hasKey_iff, hkeys, List.mem_eraseDups]
      constructor
      · rintro ⟨l, hl, hle⟩
        rwa [← h l (hleft l hl) e.1 (by simp) hle]
      · intro he
        exact ⟨e.1, he, Value.same_refl e.1⟩
    have hlast : ofEntries (es ++ [e]) = (ofEntries es).insert e.1 e.2 :=
      List.foldl_concat _ _ _ _
    rw [hlast, keys_insert, hkeys, List.map_append, List.map_singleton]
    by_cases he : e.1 ∈ es.map Prod.fst
    · rw [if_pos (hmem.2 he), eraseDups_concat_of_mem he]
    · rw [if_neg (mt hmem.1 he), eraseDups_concat_of_not_mem he]

/-- **The keys of a normal form are the normal keys, each where it is met first.** -/
theorem keys_normalize {m : Metadata} (hm : IsProper (.mapping m)) :
    (normalize m).map Prod.fst = (m.map fun e => e.1.normalizeKey).eraseDups := by
  have hkeys : (Value.normalizeEntries m).map Prod.fst = m.map fun e => e.1.normalizeKey := by
    rw [Value.normalizeEntries_eq_map, List.map_map]
    rfl
  rw [normalize, keys_ofEntries (hkeys ▸ sharp_normalKeys hm), hkeys]

/-! ### The value of the last entry -/

/-- The value is that of the last entry whose key has the normal form `k`. -/
def LastUnder (m : Metadata) (k v : Value) : Prop :=
  ∃ before l after, m = before ++ (l, v) :: after ∧ l.normalizeKey = k ∧
    ∀ e ∈ after, e.1.normalizeKey ≠ k

theorem LastUnder.exists_mem {m : Metadata} {k v : Value} (h : m.LastUnder k v) :
    ∃ l, (l, v) ∈ m ∧ l.normalizeKey = k := by
  obtain ⟨before, l, after, rfl, hl, -⟩ := h
  exact ⟨l, List.mem_append_right before List.mem_cons_self, hl⟩

theorem lastUnder?_eq_find? (m : Metadata) (k : Value) :
    m.lastUnder? k = (m.reverse.find? fun e => e.1.normalizeKey.same k).map Prod.snd := by
  rw [lastUnder?, valueAt?, withNormalKeys, ← List.map_reverse, List.find?_map, Option.map_map]
  rfl

/-- For a key of the normal form, that is the value of the last entry with an equal key. -/
theorem lastUnder_iff {m : Metadata} (hm : IsProper (.mapping m)) {k v : Value}
    (hk : k ∈ m.map fun e => e.1.normalizeKey) : m.LastUnder k v ↔ m.lastUnder? k = some v := by
  obtain ⟨f, hf, rfl⟩ := List.mem_map.1 hk
  have hsame : ∀ e ∈ m, (e.1.normalizeKey.same f.1.normalizeKey = true ↔
      e.1.normalizeKey = f.1.normalizeKey) := fun e he =>
    (sharp_normalKeys hm).same_iff (List.mem_map.2 ⟨e, he, rfl⟩) hk
  simp only [lastUnder?_eq_find?, Option.map_eq_some_iff, find?_reverse_eq_some_iff]
  constructor
  · rintro ⟨before, l, after, rfl, hl, hafter⟩
    refine ⟨(l, v), ⟨(hsame _ (by simp)).2 hl, before, after, rfl, fun e he => ?_⟩, rfl⟩
    exact Bool.eq_false_iff.2 (mt (hsame e (by simp [he])).1 (hafter e he))
  · rintro ⟨⟨l, v⟩, ⟨hl, before, after, rfl, hafter⟩, rfl⟩
    refine ⟨before, l, after, rfl, (hsame _ (by simp)).1 hl, fun e he heq => ?_⟩
    exact Bool.eq_false_iff.1 (hafter e he) ((hsame e (by simp [he])).2 heq)

theorem LastUnder.unique {m : Metadata} (hm : IsProper (.mapping m)) {k v w : Value}
    (hv : m.LastUnder k v) (hw : m.LastUnder k w) : v = w := by
  obtain ⟨l, hl, hk⟩ := hv.exists_mem
  have hmem : k ∈ m.map fun e => e.1.normalizeKey := List.mem_map.2 ⟨(l, v), hl, hk⟩
  rw [lastUnder_iff hm hmem] at hv hw
  exact Option.some.inj (hv.symm.trans hw)

/-- What is found in a normal form is the normal form of the last value. -/
theorem valueAt?_normalize {m : Metadata} (hm : IsProper (.mapping m)) (k : Value) :
    (normalize m).valueAt? k = (m.lastUnder? k).map Value.normalize := by
  have hkeys : ∀ e ∈ Value.normalizeEntries m, e.1.IsProper := by
    rw [Value.normalizeEntries_eq_map]
    intro f hf
    obtain ⟨e, he, rfl⟩ := List.mem_map.1 hf
    exact ((Value.isProper_mapping.1 hm).2 e he).1.normalizeKey
  rw [normalize, ofEntries_eq_insertAll, valueAt?_insertAll (by simp) hkeys, valueAt?_nil,
    Option.or_none, Value.normalizeEntries_eq_map, ← List.map_reverse, valueAt?, List.find?_map,
    lastUnder?_eq_find?, Option.map_map, Option.map_map]
  rfl

/-- **Under each key of a normal form stands the normal form of the last value for it.** -/
theorem exists_lastUnder_of_mem_normalize {m : Metadata} (hm : IsProper (.mapping m))
    {e : Value × Value} (he : e ∈ normalize m) :
    ∃ v, m.LastUnder e.1 v ∧ e.2 = v.normalize := by
  have hk : e.1 ∈ m.map fun e => e.1.normalizeKey := by
    rw [← List.mem_eraseDups, ← keys_normalize hm]
    exact List.mem_map_of_mem he
  have hvalue := valueAt?_of_mem (canonical_normalize m).distinct he
  rw [valueAt?_normalize hm] at hvalue
  obtain ⟨v, hv, hnormal⟩ := Option.map_eq_some_iff.1 hvalue
  exact ⟨v, (lastUnder_iff hm hk).2 hv, hnormal.symm⟩

/-- A mapping is determined by its keys and what stands under them. -/
theorem eq_of_keys {m n : Metadata} (hkeys : m.map Prod.fst = n.map Prod.fst)
    (hvalues : ∀ e ∈ m, ∀ f ∈ n, e.1 = f.1 → e.2 = f.2) : m = n := by
  induction m generalizing n with
  | nil => exact (List.map_eq_nil_iff.1 hkeys.symm).symm
  | cons e m ih =>
    cases n with
    | nil => cases hkeys
    | cons f n =>
      obtain ⟨hkey, hkeys⟩ := List.cons.inj hkeys
      have hvalue := hvalues e List.mem_cons_self f List.mem_cons_self hkey
      rw [Prod.ext hkey hvalue, ih hkeys fun e he f hf =>
        hvalues e (List.mem_cons_of_mem _ he) f (List.mem_cons_of_mem _ hf)]

end Metadata

/-! ### At every depth -/

namespace Value

/-- A value comes from another one by letting keys fall together in all mappings that are reached
through values, items and tags: each keeps its normal keys, where they are met first, with what the
value of the last entry comes to.  Nothing else changes. -/
inductive Collapses : Value → Value → Prop
  /-- The null value stays. -/
  | null : Collapses null null
  /-- Truth values stay. -/
  | bool (b : Bool) : Collapses (bool b) (bool b)
  /-- Integers stay. -/
  | int (n : Int) : Collapses (int n) (int n)
  /-- Doubles stay. -/
  | float (x : Binary64) : Collapses (float x) (float x)
  /-- Texts stay. -/
  | text (t : Text) : Collapses (text t) (text t)
  /-- The items of a sequence collapse one by one. -/
  | sequence {vs ws : List Value} (length : ws.length = vs.length)
      (items : ∀ (i : Nat) (v w : Value), vs[i]? = some v → ws[i]? = some w → Collapses v w) :
      Collapses (sequence vs) (sequence ws)
  /-- The last value for a key comes under its normal form, where that is met first. -/
  | mapping {m n : Metadata}
      (keys : n.map Prod.fst = (m.map fun e => e.1.normalizeKey).eraseDups)
      (values : ∀ e ∈ n, ∀ v, m.LastUnder e.1 v → Collapses v e.2) :
      Collapses (mapping m) (mapping n)
  /-- A tag stays around what its content comes to. -/
  | tagged (t : Text) {v w : Value} (content : Collapses v w) : Collapses (tagged t v) (tagged t w)

theorem normalize_mapping (m : Metadata) : (mapping m).normalize = mapping m.normalize := rfl

/-- A proper value collapses to its normal form. -/
theorem collapses_normalize {v : Value} (hv : v.IsProper) : Collapses v v.normalize := by
  induction hv with
  | null => exact .null
  | bool b => exact .bool b
  | int n => exact .int n
  | float x => exact .float x
  | text t => exact .text t
  | @sequence vs _ ih =>
    rw [normalize, normalizeItems_eq_map]
    refine .sequence (List.length_map _) fun i v w hv hw => ?_
    rw [List.getElem?_map, hv] at hw
    cases hw
    exact ih v (List.mem_of_getElem? hv)
  | @mapping m hdistinct hkeys hvalues _ ih =>
    have hm : IsProper (mapping m) := .mapping hdistinct hkeys hvalues
    rw [normalize_mapping]
    refine .mapping (Metadata.keys_normalize hm) fun e he v hv => ?_
    obtain ⟨w, hw, hvalue⟩ := Metadata.exists_lastUnder_of_mem_normalize hm he
    obtain ⟨l, hl, -⟩ := hv.exists_mem
    rw [hvalue, ← hv.unique hm hw]
    exact ih _ hl
  | tagged t _ ih => exact .tagged t ih

/-- It collapses to nothing else. -/
theorem Collapses.eq_normalize {v w : Value} (h : Collapses v w) (hv : v.IsProper) :
    w = v.normalize := by
  induction h with
  | null | bool _ | int _ | float _ | text _ => rfl
  | @sequence vs ws hlength _ ih =>
    have hvs := isProper_sequence.1 hv
    rw [normalize, normalizeItems_eq_map]
    refine congrArg Value.sequence (List.ext_getElem? fun i => ?_)
    rw [List.getElem?_map]
    cases hi : vs[i]? with
    | none =>
      rw [List.getElem?_eq_none_iff] at hi
      exact List.getElem?_eq_none_iff.2 (hlength ▸ hi)
    | some v =>
      obtain ⟨hlt, -⟩ := List.getElem?_eq_some_iff.1 hi
      obtain ⟨w, hw⟩ : ∃ w, ws[i]? = some w := ⟨_, List.getElem?_eq_getElem (hlength ▸ hlt)⟩
      rw [hw, ih i v w hi hw (hvs v (List.mem_of_getElem? hi))]
      rfl
  | @mapping m n hkeys _ ih =>
    rw [normalize_mapping]
    refine congrArg Value.mapping (Metadata.eq_of_keys ?_ fun e he f hf hef => ?_)
    · rw [hkeys, Metadata.keys_normalize hv]
    · obtain ⟨v, hlast, hvalue⟩ := Metadata.exists_lastUnder_of_mem_normalize hv hf
      rw [← hef] at hlast
      obtain ⟨l, hl, -⟩ := hlast.exists_mem
      rw [hvalue]
      exact ih e he v hlast ((isProper_mapping.1 hv).2 _ hl).2
  | tagged t _ ih =>
    rw [ih (isProper_tagged.1 hv)]
    rfl

/-- **A proper value collapses to its normal form, and to nothing else.** -/
theorem collapses_iff {v w : Value} (hv : v.IsProper) : Collapses v w ↔ w = v.normalize := by
  constructor
  · intro h
    exact h.eq_normalize hv
  · rintro rfl
    exact collapses_normalize hv

end Value

/-- **The last value for a key wins, in the place of the first.**  The keys of a normal form are the
normal keys of the mapping, each where it is met first, and no two of them are equal; under each
stands the normal form of the value of the last entry whose key it is the normal form of.  It is so
for all mappings that are reached through values, items and tags, and nothing else changes, which
leaves only one normal form.  The normal form of a normal form is itself. -/
theorem Metadata.normalize_collapses {m : Metadata} (hm : IsProper (.mapping m)) :
    (normalize m).map Prod.fst = (m.map fun e => e.1.normalizeKey).eraseDups ∧
      (normalize m).Distinct ∧
      (∀ e ∈ normalize m, ∃ v, m.LastUnder e.1 v ∧ e.2 = v.normalize) ∧
      (∀ w, Value.Collapses (.mapping m) w ↔ w = .mapping (normalize m)) ∧
      normalize (normalize m) = normalize m := by
  refine ⟨keys_normalize hm, distinct_ofEntries _, fun e he => exists_lastUnder_of_mem_normalize hm he,
    fun w => Value.collapses_iff hm, (canonical_normalize m).normalize_eq⟩

/-- A mapping with two spellings of a key, at three depths. -/
def respelledMetadata : Metadata :=
  [(.int 1, .text "number"),
    (.text "other", .sequence [.int 1, .mapping [(.bool true, .null), (.text "true", .text "yes")]]),
    (.text "1", .tagged "!t" (.mapping [(.null, .int 1), (.sequence [.int 1], .int 2),
      (.text "null", .mapping [(.int 7, .int 7)])]))]

/-- What it collapses to. -/
def collapsedMetadata : Metadata :=
  [(.text "1", .tagged "!t" (.mapping [(.text "null", .mapping [(.text "7", .int 7)]),
      (.sequence [.int 1], .int 2)])),
    (.text "other", .sequence [.int 1, .mapping [(.text "true", .text "yes")]])]

/-- The second spellings win in the places of the first. -/
theorem collapses_respelledMetadata :
    IsProper (.mapping respelledMetadata) ∧
      Metadata.normalize respelledMetadata = collapsedMetadata ∧
      collapsedMetadata.map Prod.fst =
        (respelledMetadata.map fun e => e.1.normalizeKey).eraseDups ∧
      Value.Collapses (.mapping respelledMetadata) (.mapping collapsedMetadata) ∧
      Metadata.normalize collapsedMetadata = collapsedMetadata := by
  have hproper : IsProper (.mapping respelledMetadata) := by
    simp [respelledMetadata, Value.isProper_mapping, Value.isProper_sequence, Value.isProper_tagged,
      Metadata.Distinct, Value.same, IsProper.null, IsProper.bool, IsProper.int, IsProper.text]
  have hnormal : Metadata.normalize respelledMetadata = collapsedMetadata := by decide +kernel
  obtain ⟨hkeys, -, -, hcollapses, hagain⟩ := Metadata.normalize_collapses hproper
  rw [hnormal] at hkeys hcollapses hagain
  exact ⟨hproper, hnormal, hkeys, (hcollapses _).2 rfl, hagain⟩

end MarkdownWeave
