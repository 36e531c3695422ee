import MarkdownWeave.Binary64.Numeral

/-!
# Metadata values

The values that a document's metadata is made of: scalars, sequences, mappings in the order in
which they were written, and values that carry a tag.

## Main definitions

* `Value` — a metadata value.
* `Metadata` — the entries of a mapping, in order.
* `Value.same` — equality of values, in which the order of mappings does not count.
* `Value.identical` — equality of values in every detail, which makes it decidable.
* `Metadata.get?`, `Metadata.insert` — finding and replacing an entry.
-/

namespace MarkdownWeave

/-- A metadata value. -/
inductive Value
  /-- The null value. -/
  | null
  /-- A truth value. -/
  | bool (b : Bool)
  /-- An integer. -/
  | int (n : Int)
  /-- A floating-point number. -/
  | float (x : Binary64)
  /-- A text. -/
  | text (t : Text)
  /-- A list of values. -/
  | sequence (items : List Value)
  /-- Keys with their values, in order. -/
  | mapping (entries : List (Value × Value))
  /-- A value under a tag, which is kept without its exclamation mark. -/
  | tagged (tag : Text) (content : Value)
deriving Inhabited

/-- The entries of a mapping, in order. -/
abbrev Metadata := List (Value × Value)

namespace Value

/-! ### Views -/

/-- The text that a value is, under any number of tags. -/
def textUnderTags? : Value → Option Text
  | text t => some t
  | tagged _ v => v.textUnderTags?
  | _ => none

/-- The name of a tag: its text without the first exclamation mark, unless that is all of it. -/
def tagName : Text → Text
  | '!' :: c :: cs => c :: cs
  | t => t

/-- What kind of value this is, in words. -/
def kind : Value → Text
  | null => "null"
  | bool _ => "a boolean"
  | int _ => "a number"
  | float _ => "a number"
  | text _ => "a string"
  | sequence _ => "a sequence"
  | mapping _ => "a mapping"
  | tagged .. => "a tagged value"

/-! ### Equality -/

mutual

/-- Whether two values are equal: numbers of the same kind by their value, sequences item by item,
mappings as sets of entries. -/
def same : Value → Value → Bool
  | null, null => true
  | bool a, bool b => a == b
  | int m, int n => m == n
  | float x, float y => x.same y
  | text s, text t => s == t
  | sequence vs, sequence ws => sameItems vs ws
  | mapping m, mapping n => m.length == n.length && sameEntries m n
  | tagged s v, tagged t w => s == t && same v w
  | _, _ => false
termination_by structural v => v

/-- Whether two lists hold equal values in the same order. -/
def sameItems : List Value → List Value → Bool
  | [], [] => true
  | v :: vs, w :: ws => same v w && sameItems vs ws
  | _, _ => false
termination_by structural vs => vs

/-- Whether every entry of one mapping has an equal entry in another. -/
def sameEntries : List (Value × Value) → List (Value × Value) → Bool
  | [], _ => true
  | e :: rest, n => hasEntry e n && sameEntries rest n
termination_by structural m => m

/-- Whether a mapping has an entry with an equal key and an equal value. -/
def hasEntry : Value × Value → List (Value × Value) → Bool
  | (k, v), n => n.any fun e => same k e.1 && same v e.2
termination_by structural e => e

end

@[simp] theorem same_text (s t : Text) : same (text s) (text t) = (s == t) := by simp [same]

/-! ### Identity -/

mutual

/-- Whether two values are identical, down to the order of entries and the signs of zeros. -/
def identical : Value → Value → Bool
  | null, null => true
  | bool a, bool b => a == b
  | int m, int n => m == n
  | float x, float y => x == y
  | text s, text t => s == t
  | sequence vs, sequence ws => identicalItems vs ws
  | mapping m, mapping n => identicalEntries m n
  | tagged s v, tagged t w => s == t && identical v w
  | _, _ => false
termination_by structural v => v

/-- Whether two lists hold identical values in the same order. -/
def identicalItems : List Value → List Value → Bool
  | [], [] => true
  | v :: vs, w :: ws => identical v w && identicalItems vs ws
  | _, _ => false
termination_by structural vs => vs

/-- Whether two mappings hold identical entries in the same order. -/
def identicalEntries : List (Value × Value) → List (Value × Value) → Bool
  | [], [] => true
  | e :: m, f :: n => identicalEntry e f && identicalEntries m n
  | _, _ => false
termination_by structural m => m

/-- Whether two entries have identical keys and identical values. -/
def identicalEntry : Value × Value → Value × Value → Bool
  | (k, v), f => identical k f.1 && identical v f.2
termination_by structural e => e

end

mutual

theorem identical_iff : (v w : Value) → (identical v w = true ↔ v = w)
  | null, w => by cases w <;> simp [identical]
  | bool _, w => by cases w <;> simp [identical]
  | int _, w => by cases w <;> simp [identical]
  | float _, w => by cases w <;> simp [identical]
  | text _, w => by cases w <;> simp [identical]
  | sequence vs, w => by cases w <;> simp [identical, identicalItems_iff vs]
  | mapping m, w => by cases w <;> simp [identical, identicalEntries_iff m]
  | tagged _ v, w => by cases w <;> simp [identical, identical_iff v]

theorem identicalItems_iff : (vs ws : List Value) → (identicalItems vs ws = true ↔ vs = ws)
  | [], ws => by cases ws <;> simp [identicalItems]
  | v :: vs, ws => by cases ws <;> simp [identicalItems, identical_iff v, identicalItems_iff vs]

theorem identicalEntries_iff : (m n : List (Value × Value)) →
    (identicalEntries m n = true ↔ m = n)
  | [], n => by cases n <;> simp [identicalEntries]
  | (k, v) :: m, n => by
    cases n <;> simp [identicalEntries, identicalEntry, identical_iff k, identical_iff v,
      identicalEntries_iff m, Prod.ext_iff]

end

instance : DecidableEq Value := fun v w => decidable_of_iff _ (identical_iff v w)

end Value

namespace Metadata

/-! ### Entries -/

/-- Whether a key is the text `name`. -/
def isNamed (name : Text) : Value → Bool
  | .text t => t == name
  | _ => false

/-- The value under a text key. -/
def get? (m : Metadata) (name : Text) : Option Value :=
  (m.find? fun e => isNamed name e.1).map Prod.snd

/-- Whether a mapping has a text key. -/
def has (m : Metadata) (name : Text) : Bool := (m.get? name).isSome

/-- Puts a value under a key.  An equal key keeps its place and its spelling and gets the new value;
a new key goes to the end. -/
def insert : Metadata → Value → Value → Metadata
  | [], k, v => [(k, v)]
  | e :: rest, k, v => if e.1.same k then (e.1, v) :: rest else e :: insert rest k v

/-- Whether a mapping has an equal key. -/
def hasKey (m : Metadata) (k : Value) : Bool := m.any fun e => e.1.same k

/-- The mapping that a list of entries makes when they are put in one after the other. -/
def ofEntries (es : List (Value × Value)) : Metadata :=
  es.foldl (fun m e => insert m e.1 e.2) []

/-- Whether two mappings are equal as sets of entries. -/
def same (m n : Metadata) : Bool := (Value.mapping m).same (.mapping n)

@[simp] theorem get?_nil (name : Text) : get? [] name = none := rfl

@[simp] theorem insert_nil (k v : Value) : insert [] k v = [(k, v)] := rfl

theorem insert_cons (e : Value × Value) (m : Metadata) (k v : Value) :
    insert (e :: m) k v = if e.1.same k then (e.1, v) :: m else e :: insert m k v := rfl

theorem get?_cons (e : Value × Value) (m : Metadata) (name : Text) :
    get? (e :: m) name = if isNamed name e.1 then some e.2 else get? m name := by
  cases h : isNamed name e.1 <;> simp [get?, List.find?, h]

theorem same_text_right (k : Value) (name : Text) : k.same (.text name) = isNamed name k := by
  cases k <;> simp [Value.same, isNamed]

/-- A text key finds what was last put under it, and other keys are not touched. -/
theorem get?_insert_text (m : Metadata) (a name : Text) (v : Value) :
    get? (insert m (.text a) v) name = if a = name then some v else get? m name := by
  induction m with
  | nil => by_cases h : a = name <;> simp [get?_cons, isNamed, h]
  | cons e m ih =>
    rw [insert_cons, same_text_right]
    cases ha : isNamed a e.1 with
    | true =>
      obtain ⟨k, w⟩ := e
      cases k <;> simp only [isNamed, Bool.false_eq_true] at ha
      obtain rfl := eq_of_beq ha
      rename_i t
      by_cases h : t = name <;> simp [get?_cons, isNamed, h]
    | false =>
      simp only [Bool.false_eq_true, if_false, get?_cons, ih]
      cases hn : isNamed name e.1 with
      | false => simp
      | true =>
        by_cases h : a = name
        · rw [h, hn] at ha
          exact absurd ha (by simp)
        · simp [h]

end Metadata

end MarkdownWeave
