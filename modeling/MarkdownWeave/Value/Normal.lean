import MarkdownWeave.Value.Basic

/-!
# Normal form of metadata

A mapping is normal when no number, truth value or null is a key, at any depth below it: such keys
are replaced by their texts, so that `2024` and `'2024'` are the same name.

## Main definitions

* `Value.scalarText?` — the text of a number, truth value or null.
* `Value.normalizeKey`, `Value.normalize`, `Metadata.normalize` — the normal form.
* `Value.IsNormal` — what it means for a value to be normal.

`Value.isNormal_normalize` says that the normal form is normal.
-/

namespace MarkdownWeave

/-- How doubles are spelled in metadata. -/
def Value.floatStyle : Binary64.Style := ⟨[], ".nan", ".inf"⟩

namespace Value

/-- The text of a double in metadata. -/
def floatText (x : Binary64) : Text := x.text floatStyle

/-- The text of a truth value. -/
def boolText (b : Bool) : Text := if b then "true" else "false"

/-- The text of a number, a truth value or null. -/
def scalarText? : Value → Option Text
  | null => some "null"
  | bool b => some (boolText b)
  | int n => some (Text.ofInt n)
  | float x => some (floatText x)
  | _ => none

/-- The key under which an entry is kept: numbers, truth values and null become their texts. -/
def normalizeKey (k : Value) : Value :=
  match scalarText? k with
  | some t => text t
  | none => k

mutual

/-- A value with normal keys in all its mappings. -/
def normalize : Value → Value
  | sequence vs => sequence (normalizeItems vs)
  | mapping m => mapping (Metadata.ofEntries (normalizeEntries m))
  | tagged t v => tagged t (normalize v)
  | v => v
termination_by structural v => v

/-- The items of a sequence, each in normal form. -/
def normalizeItems : List Value → List Value
  | [] => []
  | v :: vs => normalize v :: normalizeItems vs
termination_by structural vs => vs

/-- The entries of a mapping with normal keys and values; keys may now occur more than once. -/
def normalizeEntries : List (Value × Value) → List (Value × Value)
  | [] => []
  | e :: rest => normalizeEntry e :: normalizeEntries rest
termination_by structural m => m

/-- One entry with normal key and value. -/
def normalizeEntry : Value × Value → Value × Value
  | (k, v) => (normalizeKey k, normalize v)
termination_by structural e => e

end

@[simp] theorem normalizeKey_text (t : Text) : normalizeKey (text t) = text t := rfl

theorem normalizeItems_eq_map (vs : List Value) : normalizeItems vs = vs.map normalize := by
  induction vs with
  | nil => rfl
  | cons v vs ih => simp [normalizeItems, ih]

theorem normalizeEntries_eq_map (m : List (Value × Value)) :
    normalizeEntries m = m.map fun e => (normalizeKey e.1, normalize e.2) := by
  induction m with
  | nil => rfl
  | cons e m ih =>
    obtain ⟨k, v⟩ := e
    simp [normalizeEntries, normalizeEntry, ih]

/-! ### Normal values -/

/-- Values in which no mapping, reached through values, items and tags, has a number, a truth value
or null as a key. -/
inductive IsNormal : Value → Prop
  /-- The null value is normal. -/
  | null : IsNormal null
  /-- Truth values are normal. -/
  | bool (b : Bool) : IsNormal (bool b)
  /-- Integers are normal. -/
  | int (n : Int) : IsNormal (int n)
  /-- Doubles are normal. -/
  | float (x : Binary64) : IsNormal (float x)
  /-- Texts are normal. -/
  | text (t : Text) : IsNormal (text t)
  /-- A sequence is normal if its items are. -/
  | sequence {vs : List Value} (h : ∀ v ∈ vs, IsNormal v) : IsNormal (sequence vs)
  /-- A mapping is normal if its values are and no key is a plain scalar other than a text. -/
  | mapping {m : Metadata} (keys : ∀ e ∈ m, scalarText? e.1 = none)
      (values : ∀ e ∈ m, IsNormal e.2) : IsNormal (mapping m)
  /-- A tagged value is normal if its content is. -/
  | tagged (t : Text) {v : Value} (h : IsNormal v) : IsNormal (tagged t v)

theorem scalarText?_normalizeKey (k : Value) : scalarText? (normalizeKey k) = none := by
  cases k <;> rfl

end Value

namespace Metadata

/-- A mapping whose keys, at any depth, are normal.  Of entries that come to have the same key the
last one counts, at the place of the first. -/
def normalize (m : Metadata) : Metadata := ofEntries (Value.normalizeEntries m)

/-- Whatever holds of all entries and of a new one holds of all entries after it is put in, if it
does not depend on how a key is spelled. -/
theorem forall_insert {p : Value → Value → Prop} {m : Metadata} {k v : Value}
    (h : ∀ e ∈ m, p e.1 e.2) (keep : ∀ e ∈ m, p e.1 v) (new : p k v) :
    ∀ e ∈ insert m k v, p e.1 e.2 := by
  induction m with
  | nil => simpa using new
  | cons e m ih =>
    intro f hf
    rw [insert_cons] at hf
    split at hf
    · rcases List.mem_cons.1 hf with rfl | hf
      · exact keep e (by simp)
      · exact h f (by simp [hf])
    · rcases List.mem_cons.1 hf with rfl | hf
      · exact h _ (by simp)
      · exact ih (fun g hg => h g (by simp [hg])) (fun g hg => keep g (by simp [hg])) f hf

/-- Inserting keeps any property of the keys and any property of the values. -/
theorem forall_insert_keys_values {p q : Value → Prop} {m : Metadata} {k v : Value}
    (h : ∀ e ∈ m, p e.1 ∧ q e.2) (hk : p k) (hv : q v) :
    ∀ e ∈ insert m k v, p e.1 ∧ q e.2 :=
  forall_insert (p := fun a b => p a ∧ q b) h (fun e he => ⟨(h e he).1, hv⟩) ⟨hk, hv⟩

/-- A mapping made of entries has only keys and values with the properties that theirs have. -/
theorem forall_ofEntries {p q : Value → Prop} {es : List (Value × Value)}
    (h : ∀ e ∈ es, p e.1 ∧ q e.2) : ∀ e ∈ ofEntries es, p e.1 ∧ q e.2 := by
  have key : ∀ (es : List (Value × Value)) (m : Metadata), (∀ e ∈ es, p e.1 ∧ q e.2) →
      (∀ e ∈ m, p e.1 ∧ q e.2) →
      ∀ e ∈ es.foldl (fun m e => insert m e.1 e.2) m, p e.1 ∧ q e.2 := by
    intro es
    induction es with
    | nil => exact fun m _ hm => hm
    | cons e es ih =>
      intro m hes hm
      have he := hes e (by simp)
      exact ih _ (fun f hf => hes f (by simp [hf])) (forall_insert_keys_values hm he.1 he.2)
  exact key es [] h (by simp)

end Metadata

namespace Value

mutual

/-- The normal form of a value is normal. -/
theorem isNormal_normalize : (v : Value) → IsNormal v.normalize
  | null => .null
  | bool b => .bool b
  | int n => .int n
  | float x => .float x
  | text t => .text t
  | sequence vs => by simpa [normalize] using .sequence (isNormal_normalizeItems vs)
  | mapping m => by
    have h := Metadata.forall_ofEntries (p := fun k => scalarText? k = none) (q := IsNormal)
      (isNormal_normalizeEntries m)
    simpa [normalize] using .mapping (fun e he => (h e he).1) fun e he => (h e he).2
  | tagged t v => by simpa [normalize] using .tagged t (isNormal_normalize v)

/-- So are the items of a sequence in normal form. -/
theorem isNormal_normalizeItems : (vs : List Value) → ∀ v ∈ normalizeItems vs, IsNormal v
  | [] => by simp [normalizeItems]
  | v :: vs => by
    simpa [normalizeItems] using ⟨isNormal_normalize v, isNormal_normalizeItems vs⟩

/-- So are the values of entries in normal form, and their keys are no scalars but texts. -/
theorem isNormal_normalizeEntries : (m : List (Value × Value)) →
    ∀ e ∈ normalizeEntries m, scalarText? e.1 = none ∧ IsNormal e.2
  | [] => by simp [normalizeEntries]
  | (k, v) :: m => by
    intro e he
    rw [normalizeEntries, normalizeEntry] at he
    rcases List.mem_cons.1 he with rfl | he
    · exact ⟨scalarText?_normalizeKey k, isNormal_normalize v⟩
    · exact isNormal_normalizeEntries m e he

end

end Value

end MarkdownWeave
