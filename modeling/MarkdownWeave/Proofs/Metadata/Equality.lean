import Mathlib.Data.Fintype.EquivFin
import Mathlib.Data.List.Forall2
import MarkdownWeave.Proofs.Metadata.Canonical

/-!
# Equality of values

Two mappings are equal if they have the same number of entries and every entry of one has an equal
one in the other.  If no two keys are equal in either, this is a matter of counting: each entry of
the first then has its own in the second, so that none is left over there, and it does not matter
from which side mappings are compared.

So for the keys of metadata equality is an equivalence, and a mapping is a function of its keys: a
value that is put in is found again under every key that equals its own.

## Main definitions

* `Value.IsProper` — no mapping in a value has two equal keys.
* `Metadata.valueAt?` — the value under a key.

## Main results

* `Value.same_refl`, `Value.same_symm`, `Value.same_trans` — equality is an equivalence.
* `Metadata.valueAt?_insertAll` — **of the entries with equal keys the one put in last counts.**
* `Metadata.forall_values_iff` — what holds of all values holds of what is found under any key.
-/

namespace MarkdownWeave

namespace Value

/-- What holds of a value if it holds of its items, its keys and values, and its content. -/
@[elab_as_elim]
theorem induction {P : Value → Prop} (null : P .null) (bool : ∀ b, P (.bool b))
    (int : ∀ n, P (.int n)) (float : ∀ x, P (.float x)) (text : ∀ t, P (.text t))
    (sequence : ∀ vs, (∀ v ∈ vs, P v) → P (.sequence vs))
    (mapping : ∀ m, (∀ e ∈ m, P e.1 ∧ P e.2) → P (.mapping m))
    (tagged : ∀ t v, P v → P (.tagged t v)) (v : Value) : P v := by
  refine @Value.rec P (fun vs => ∀ v ∈ vs, P v) (fun m => ∀ e ∈ m, P e.1 ∧ P e.2)
    (fun e => P e.1 ∧ P e.2) null bool int float text sequence mapping tagged ?_ ?_ ?_ ?_ ?_ v
  · simp
  · intro v vs hv hvs
    exact List.forall_mem_cons.2 ⟨hv, hvs⟩
  · simp
  · intro e m he hm
    exact List.forall_mem_cons.2 ⟨he, hm⟩
  · intro k v hk hv
    exact ⟨hk, hv⟩

/-! ### Equality, part by part -/

theorem sameItems_iff {vs ws : List Value} :
    sameItems vs ws = true ↔ List.Forall₂ (fun v w => v.same w = true) vs ws := by
  induction vs generalizing ws with
  | nil => cases ws <;> simp [sameItems]
  | cons v vs ih => cases ws <;> simp [sameItems, ih]

theorem sameEntries_iff {m n : List (Value × Value)} :
    sameEntries m n = true ↔ ∀ e ∈ m, ∃ f ∈ n, e.1.same f.1 = true ∧ e.2.same f.2 = true := by
  induction m with
  | nil => simp [sameEntries]
  | cons e m ih =>
    obtain ⟨k, v⟩ := e
    simp [sameEntries, hasEntry, ih]

theorem same_sequence {vs ws : List Value} :
    (sequence vs).same (sequence ws) = true ↔
      List.Forall₂ (fun v w => v.same w = true) vs ws := by
  rw [same, sameItems_iff]

theorem same_mapping {m n : Metadata} :
    (mapping m).same (mapping n) = true ↔ m.length = n.length ∧
      ∀ e ∈ m, ∃ f ∈ n, e.1.same f.1 = true ∧ e.2.same f.2 = true := by
  rw [same, Bool.and_eq_true, beq_iff_eq, sameEntries_iff]

theorem same_tagged {s t : Text} {v w : Value} :
    (tagged s v).same (tagged t w) = true ↔ s = t ∧ v.same w = true := by
  rw [same, Bool.and_eq_true, beq_iff_eq]

/-- A value equals itself. -/
theorem same_refl (v : Value) : v.same v = true := by
  induction v using induction with
  | null => rfl
  | bool b => simp [same]
  | int n => simp [same]
  | float x => simp [same]
  | text t => simp
  | sequence vs ih => exact same_sequence.2 (List.forall₂_same.2 ih)
  | mapping m ih => exact same_mapping.2 ⟨rfl, fun e he => ⟨e, he, ih e he⟩⟩
  | tagged t v ih => exact same_tagged.2 ⟨rfl, ih⟩

/-- What equals a value equals all that this equals. -/
theorem same_trans {u v w : Value} (h : u.same v = true) (h' : v.same w = true) :
    u.same w = true := by
  induction u using induction generalizing v w with
  | null => cases v <;> simp [same] at h; exact h'
  | bool b => cases v <;> simp [same] at h; exact h ▸ h'
  | int n => cases v <;> simp [same] at h; exact h ▸ h'
  | float x =>
    cases v <;> simp [same] at h
    cases w <;> simp [same] at h'
    rw [same]
    exact Binary64.same_trans h h'
  | text t => cases v <;> simp [same] at h; exact h ▸ h'
  | sequence us ih =>
    cases v with
    | sequence vs =>
      cases w with
      | sequence ws =>
        rw [same_sequence] at h h' ⊢
        induction h generalizing ws with
        | nil => exact h'
        | @cons u v us vs huv _ ihs =>
          obtain ⟨hu, hus⟩ := List.forall_mem_cons.1 ih
          cases h' with
          | @cons _ w _ ws hvw hvs => exact .cons (hu huv hvw) (ihs hus ws hvs)
      | _ => simp [same] at h'
    | _ => simp [same] at h
  | mapping l ih =>
    cases v with
    | mapping m =>
      cases w with
      | mapping n =>
        rw [same_mapping] at h h' ⊢
        refine ⟨h.1.trans h'.1, fun e he => ?_⟩
        obtain ⟨f, hf, hkey, hvalue⟩ := h.2 e he
        obtain ⟨g, hg, hkey', hvalue'⟩ := h'.2 f hf
        exact ⟨g, hg, (ih e he).1 hkey hkey', (ih e he).2 hvalue hvalue'⟩
      | _ => simp [same] at h'
    | _ => simp [same] at h
  | tagged s u ih =>
    cases v with
    | tagged t v =>
      cases w with
      | tagged t' w =>
        rw [same_tagged] at h h' ⊢
        exact ⟨h.1.trans h'.1, ih h.2 h'.2⟩
      | _ => simp [same] at h'
    | _ => simp [same] at h

/-! ### Mappings compared from the other side -/

/-- Values in which no mapping has two equal keys, at any depth and in keys, too. -/
inductive IsProper : Value → Prop
  /-- The null value has no keys. -/
  | null : IsProper null
  /-- Truth values have no keys. -/
  | bool (b : Bool) : IsProper (bool b)
  /-- Integers have no keys. -/
  | int (n : Int) : IsProper (int n)
  /-- Doubles have no keys. -/
  | float (x : Binary64) : IsProper (float x)
  /-- Texts have no keys. -/
  | text (t : Text) : IsProper (text t)
  /-- A sequence is proper if its items are. -/
  | sequence {vs : List Value} (h : ∀ v ∈ vs, IsProper v) : IsProper (sequence vs)
  /-- A mapping is proper if its keys are different, and they and its values are proper. -/
  | mapping {m : Metadata} (distinct : m.Distinct) (keys : ∀ e ∈ m, IsProper e.1)
      (values : ∀ e ∈ m, IsProper e.2) : IsProper (mapping m)
  /-- A tagged value is proper if its content is. -/
  | tagged (t : Text) {v : Value} (h : IsProper v) : IsProper (tagged t v)

/-- If no two entries of one list are related to the same entry of another one, which is no longer,
then each entry of the other has one that is related to it. -/
theorem exists_related_of_length_eq {α β : Type} {R : α → β → Prop} {m : List α} {n : List β}
    (hlen : m.length = n.length) (htotal : ∀ e ∈ m, ∃ f ∈ n, R e f)
    (hpair : m.Pairwise fun e e' => ∀ f ∈ n, R e f → ¬ R e' f) :
    ∀ f ∈ n, ∃ e ∈ m, R e f := by
  have hindex : ∀ i : Fin m.length, ∃ j : Fin n.length, R (m.get i) (n.get j) := by
    intro i
    obtain ⟨f, hf, hR⟩ := htotal (m.get i) (List.get_mem m i)
    obtain ⟨j, rfl⟩ := List.mem_iff_get.1 hf
    exact ⟨j, hR⟩
  choose g hg using hindex
  have hne : ∀ i j : Fin m.length, i < j → g i ≠ g j := by
    intro i j hij heq
    have hnot := List.pairwise_iff_get.1 hpair i j hij (n.get (g i)) (List.get_mem n _) (hg i)
    rw [heq] at hnot
    exact hnot (hg j)
  have hinj : Function.Injective g := by
    intro i j heq
    rcases lt_trichotomy i j with hij | hij | hij
    · exact absurd heq (hne i j hij)
    · exact hij
    · exact absurd heq.symm (hne j i hij)
  have hsurj : Function.Surjective g :=
    ((Fintype.bijective_iff_injective_and_card g).2 ⟨hinj, by simpa using hlen⟩).2
  intro f hf
  obtain ⟨j, rfl⟩ := List.mem_iff_get.1 hf
  obtain ⟨i, rfl⟩ := hsurj j
  exact ⟨m.get i, List.get_mem m i, hg i⟩

/-- **Equality of proper values is symmetric.** -/
theorem same_symm {v w : Value} (hv : v.IsProper) (h : v.same w = true) : w.same v = true := by
  induction v using induction generalizing w with
  | null => cases w <;> simp [same] at h; rfl
  | bool b => cases w <;> simp [same] at h; simp [same, h]
  | int n => cases w <;> simp [same] at h; simp [same, h]
  | float x =>
    cases w <;> simp [same] at h
    rw [same, Binary64.same_comm]
    exact h
  | text t => cases w <;> simp [same] at h; simp [h]
  | sequence vs ih =>
    cases w with
    | sequence ws =>
      have hvs : ∀ v ∈ vs, IsProper v := by cases hv with | sequence hvs => exact hvs
      rw [same_sequence] at h ⊢
      clear hv
      induction h with
      | nil => exact .nil
      | @cons v w vs ws hvw _ ihs =>
        obtain ⟨hv, hvs⟩ := List.forall_mem_cons.1 hvs
        obtain ⟨ihv, ih⟩ := List.forall_mem_cons.1 ih
        exact .cons (ihv hv hvw) (ihs ih hvs)
    | _ => simp [same] at h
  | mapping m ih =>
    cases w with
    | mapping n =>
      cases hv with | mapping hdistinct hkeys hvalues =>
      rw [same_mapping] at h ⊢
      -- two entries with a common partner would have equal keys
      have hpair : m.Pairwise fun e e' => ∀ f ∈ n,
          (e.1.same f.1 = true ∧ e.2.same f.2 = true) →
            ¬ (e'.1.same f.1 = true ∧ e'.2.same f.2 = true) := by
        refine hdistinct.imp_of_mem ?_
        rintro e e' he he' hne f - ⟨hkey, -⟩ ⟨hkey', -⟩
        have hback := (ih e' he').1 (hkeys e' he') hkey'
        rw [same_trans hkey hback] at hne
        cases hne
      refine ⟨h.1.symm, fun f hf => ?_⟩
      obtain ⟨e, he, hkey, hvalue⟩ := exists_related_of_length_eq h.1 h.2 hpair f hf
      exact ⟨e, he, (ih e he).1 (hkeys e he) hkey, (ih e he).2 (hvalues e he) hvalue⟩
    | _ => simp [same] at h
  | tagged s v ih =>
    cases w with
    | tagged t w =>
      cases hv with | tagged _ hv =>
      rw [same_tagged] at h ⊢
      exact ⟨h.1.symm, ih hv h.2⟩
    | _ => simp [same] at h

/-- Equal keys are equal to the same keys. -/
theorem same_congr_left {k l w : Value} (hk : k.IsProper) (h : k.same l = true) :
    k.same w = l.same w := by
  rw [Bool.eq_iff_iff]
  exact ⟨fun hw => same_trans (same_symm hk h) hw, fun hw => same_trans h hw⟩

end Value

/-! ### The value under a key -/

namespace Metadata

/-- The value under a key, which may be any value. -/
def valueAt? (m : Metadata) (k : Value) : Option Value := (m.find? fun e => e.1.same k).map Prod.snd

@[simp] theorem valueAt?_nil (k : Value) : valueAt? [] k = none := rfl

theorem valueAt?_cons (e : Value × Value) (m : Metadata) (k : Value) :
    valueAt? (e :: m) k = if e.1.same k then some e.2 else valueAt? m k := by
  cases h : e.1.same k <;> simp [valueAt?, List.find?, h]

theorem valueAt?_append (m n : Metadata) (k : Value) :
    valueAt? (m ++ n) k = (valueAt? m k).or (valueAt? n k) := by
  rw [valueAt?, List.find?_append, Option.map_or]
  rfl

/-- Under a name stands the value of the text key. -/
theorem valueAt?_text (m : Metadata) (name : Text) : valueAt? m (.text name) = get? m name := by
  simp only [valueAt?, get?, same_text_right]

/-- What is found under a key is one of the values. -/
theorem exists_mem_of_valueAt? {m : Metadata} {k v : Value} (h : m.valueAt? k = some v) :
    ∃ e ∈ m, e.2 = v := by
  obtain ⟨e, he, rfl⟩ := Option.map_eq_some_iff.1 h
  exact ⟨e, List.mem_of_find?_eq_some he, rfl⟩

/-- If keys are different, each value is found under its own. -/
theorem valueAt?_of_mem {m : Metadata} (h : m.Distinct) {e : Value × Value} (he : e ∈ m) :
    m.valueAt? e.1 = some e.2 := by
  induction m with
  | nil => cases he
  | cons f m ih =>
    obtain ⟨hf, hm⟩ := List.pairwise_cons.1 h
    rw [valueAt?_cons]
    rcases List.mem_cons.1 he with rfl | he
    · rw [Value.same_refl, if_pos rfl]
    · rw [hf e he, if_neg Bool.false_ne_true, ih hm he]

/-- What holds of all values holds of what is found under any key. -/
theorem forall_values_iff {m : Metadata} (h : m.Distinct) {Q : Value → Prop} :
    (∀ e ∈ m, Q e.2) ↔ ∀ k v, m.valueAt? k = some v → Q v := by
  constructor
  · intro hall k v hv
    obtain ⟨e, he, rfl⟩ := exists_mem_of_valueAt? hv
    exact hall e he
  · intro hall e he
    exact hall e.1 e.2 (valueAt?_of_mem h he)

/-- What is put in is found under every key that is equal to its own, and nothing else changes. -/
theorem valueAt?_insert {m : Metadata} {k : Value} (hm : ∀ e ∈ m, e.1.IsProper) (hk : k.IsProper)
    (v l : Value) : valueAt? (insert m k v) l = if k.same l then some v else valueAt? m l := by
  induction m with
  | nil => rw [insert_nil, valueAt?_cons]
  | cons e m ih =>
    obtain ⟨he, hm⟩ := List.forall_mem_cons.1 hm
    rw [insert_cons]
    cases hek : e.1.same k with
    | true =>
      -- the key that is there already finds what the new one would
      rw [if_pos rfl, valueAt?_cons, valueAt?_cons, Value.same_congr_left he hek]
      cases k.same l <;> rfl
    | false =>
      rw [if_neg Bool.false_ne_true, valueAt?_cons, valueAt?_cons, ih hm]
      cases hkl : k.same l with
      | false => rfl
      | true =>
        have hel : e.1.same l = false := by
          rw [Bool.eq_false_iff]
          intro hel
          have hback := Value.same_trans hel (Value.same_symm hk hkl)
          rw [hback] at hek
          cases hek
        rw [hel]
        rfl

/-- **Of the entries that are put in the last one with an equal key counts**, and without one what
was there before. -/
theorem valueAt?_insertAll {m es : Metadata} (hm : ∀ e ∈ m, e.1.IsProper)
    (hes : ∀ e ∈ es, e.1.IsProper) (k : Value) :
    valueAt? (m.insertAll es) k = (valueAt? es.reverse k).or (valueAt? m k) := by
  induction es generalizing m with
  | nil => rfl
  | cons e es ih =>
    obtain ⟨he, hes⟩ := List.forall_mem_cons.1 hes
    have hm' : ∀ f ∈ m.insert e.1 e.2, f.1.IsProper :=
      forall_insert (p := fun l _ => l.IsProper) hm hm he
    rw [insertAll_cons, ih hm' hes, valueAt?_insert hm he, List.reverse_cons, valueAt?_append,
      Option.or_assoc, valueAt?_cons]
    cases e.1.same k <;> rfl

end Metadata

end MarkdownWeave
