import MarkdownWeave.Compile.Substitution
import MarkdownWeave.Proofs.Json.Reader
import MarkdownWeave.Proofs.Metadata.Equality

/-!
# What the text of a value says

A value that is no text is put into a body as JSON.  A reader of JSON finds in it all that the
value says, down to its items and entries: whole numbers that are small enough as integers, other
numbers as the doubles that they are, texts character for character.  Only tags are lost, and what
JSON has no form for: keys that are no texts become names, and doubles that are no numbers become
null.

The text is made by a writer that fails on mappings with compound keys.  It is not given the value
but a view of it, in which all keys are texts.  Keys with no text of their own get theirs from the
same writer, and an empty one if it fails; but it never does.

## Main definitions

* `Value.toJson` — what a value says in JSON.
* `Value.view` — what the writer is given.
* `Value.IsSound` — values whose numbers are doubles.

## Main results

* `Value.faithfulJson?_view` — **writing never fails**, neither for a value nor for a key.
* `Value.reads_json` — **a reader finds in the text of a value what the value says.**
* `render_faithful` — so a value that is no text is rendered faithfully, and nothing is fetched.
-/

namespace MarkdownWeave

/-! ### What a value says -/

/-- The number that a finite double is. -/
def Binary64.toRat? : Binary64 → Option ℚ
  | .finite negative m q => some (if negative then -magnitude m q else magnitude m q)
  | _ => none

/-- What a double says: an integer if it is a whole number below `2 ^ 53`, null if it is no number,
and itself otherwise. -/
def Json.ofDouble (x : Binary64) : Json :=
  match x.toRat? with
  | some r => if r.den = 1 ∧ |r| < 2 ^ 53 then .int r.num else .double x
  | none => .null

namespace Value

/-- The name of the member for a key: the key itself, the text of a scalar, or the JSON text of
anything else. -/
def memberName : Value → Text
  | text t => t
  | k => k.scalarText?.getD k.json

mutual

/-- What a value says in JSON. -/
def toJson : Value → Json
  | null => .null
  | bool b => .bool b
  | int n => .int n
  | float x => .ofDouble x
  | text t => .string t
  | sequence vs => .array (toJsonItems vs)
  | mapping m => .object (toJsonMembers m)
  | tagged _ v => toJson v
termination_by structural v => v

/-- What the items of a sequence say, in order. -/
def toJsonItems : List Value → List Json
  | [] => []
  | v :: vs => toJson v :: toJsonItems vs
termination_by structural vs => vs

/-- What the entries of a mapping say, in order. -/
def toJsonMembers : List (Value × Value) → List (Text × Json)
  | [] => []
  | e :: rest => toJsonMember e :: toJsonMembers rest
termination_by structural m => m

/-- What one entry says. -/
def toJsonMember : Value × Value → Text × Json
  | (k, v) => (memberName k, toJson v)
termination_by structural e => e

end

theorem toJsonItems_eq_map (vs : List Value) : toJsonItems vs = vs.map toJson := by
  induction vs with
  | nil => rfl
  | cons v vs ih => rw [toJsonItems, ih, List.map_cons]

theorem toJsonMembers_eq_map (m : Metadata) :
    toJsonMembers m = m.map fun e => (memberName e.1, toJson e.2) := by
  induction m with
  | nil => rfl
  | cons e m ih => rw [toJsonMembers, ih, List.map_cons, toJsonMember]

/-! ### The text, part by part -/

theorem jsonItems_eq_map (vs : List Value) : jsonItems vs = vs.map json := by
  induction vs with
  | nil => rfl
  | cons v vs ih => rw [jsonItems, ih, List.map_cons]

theorem jsonEntry_eq (k v : Value) : jsonEntry (k, v) = jsonMember (memberName k) (json v) := by
  rw [jsonEntry]
  cases k <;> rfl

theorem jsonMembers_eq_map (m : Metadata) :
    jsonMembers m = m.map fun e => jsonMember (memberName e.1) (json e.2) := by
  induction m with
  | nil => rfl
  | cons e m ih => rw [jsonMembers, ih, List.map_cons, jsonEntry_eq]

/-! ### The writer -/

mutual

/-- What the writer is given: a value without tags, in which small whole doubles are integers,
doubles that are no numbers are null, and all keys are texts. -/
def view : Value → Value
  | float x =>
    match x.smallInt? with
    | some n => int n
    | none => if x.isFinite then float x else null
  | sequence vs => sequence (viewItems vs)
  | mapping m => mapping (viewEntries m)
  | tagged _ v => view v
  | v => v
termination_by structural v => v

/-- The items of a sequence as the writer is given them. -/
def viewItems : List Value → List Value
  | [] => []
  | v :: vs => view v :: viewItems vs
termination_by structural vs => vs

/-- The entries of a mapping as the writer is given them. -/
def viewEntries : List (Value × Value) → List (Value × Value)
  | [] => []
  | e :: rest => viewEntry e :: viewEntries rest
termination_by structural m => m

/-- One entry as the writer is given it.  A key that is neither a text nor another scalar is written
before, and is empty if that fails. -/
def viewEntry : Value × Value → Value × Value
  | (k, v) =>
    let name :=
      match normalizeKey k with
      | text t => t
      | _ => ((view k).faithfulJson?).getD []
    (text name, view v)
termination_by structural e => e

end

theorem faithfulItems?_viewItems {vs : List Value}
    (h : ∀ v ∈ vs, v.view.faithfulJson? = some v.json) :
    faithfulItems? (viewItems vs) = some (jsonItems vs) := by
  induction vs with
  | nil => rfl
  | cons v vs ih =>
    obtain ⟨hv, hvs⟩ := List.forall_mem_cons.1 h
    rw [viewItems, faithfulItems?, hv, ih hvs]
    rfl

/-- The key that the writer is given is the name of the member. -/
theorem faithfulMember?_viewEntry {k v : Value} (hk : k.view.faithfulJson? = some k.json)
    (hv : v.view.faithfulJson? = some v.json) :
    faithfulMember? (viewEntry (k, v)) = some (jsonEntry (k, v)) := by
  rw [viewEntry, hk, faithfulMember?, hv, jsonEntry]
  cases normalizeKey k <;> rfl

theorem faithfulMembers?_viewEntries {m : Metadata}
    (h : ∀ e ∈ m, e.1.view.faithfulJson? = some e.1.json ∧ e.2.view.faithfulJson? = some e.2.json) :
    faithfulMembers? (viewEntries m) = some (jsonMembers m) := by
  induction m with
  | nil => rfl
  | cons e m ih =>
    obtain ⟨he, hm⟩ := List.forall_mem_cons.1 h
    rw [viewEntries, faithfulMembers?, faithfulMember?_viewEntry he.1 he.2, ih hm]
    rfl

/-- **Writing never fails**, neither for a value nor for a key. -/
theorem faithfulJson?_view (v : Value) : v.view.faithfulJson? = some v.json := by
  induction v using induction with
  | null => rfl
  | bool b => rfl
  | int n => rfl
  | float x =>
    rw [view, json, jsonFloat]
    cases x.smallInt? with
    | some n => rfl
    | none =>
      cases hx : x.isFinite with
      | true =>
        dsimp only
        rw [if_pos rfl, if_pos rfl, faithfulJson?, hx, if_pos rfl]
      | false => rfl
  | text t => rfl
  | sequence vs ih =>
    rw [view, faithfulJson?, faithfulItems?_viewItems ih]
    rfl
  | mapping m ih =>
    rw [view, faithfulJson?, faithfulMembers?_viewEntries ih]
    rfl
  | tagged t v ih => exact ih

/-! ### Reading the text -/

/-- Values whose floating-point numbers are doubles.  Those of keys do not matter. -/
inductive IsSound : Value → Prop
  /-- The null value has no doubles. -/
  | null : IsSound null
  /-- Truth values have no doubles. -/
  | bool (b : Bool) : IsSound (bool b)
  /-- Integers have no doubles. -/
  | int (n : Int) : IsSound (int n)
  /-- A floating-point number has to be a double. -/
  | float {x : Binary64} (h : x.IsDouble) : IsSound (float x)
  /-- Texts have no doubles. -/
  | text (t : Text) : IsSound (text t)
  /-- A sequence is sound if its items are. -/
  | sequence {vs : List Value} (h : ∀ v ∈ vs, IsSound v) : IsSound (sequence vs)
  /-- A mapping is sound if its values are. -/
  | mapping {m : Metadata} (h : ∀ e ∈ m, IsSound e.2) : IsSound (mapping m)
  /-- A tagged value is sound if its content is. -/
  | tagged (t : Text) {v : Value} (h : IsSound v) : IsSound (tagged t v)

/-- A finite double says that it is an integer if it is written as one. -/
theorem ofDouble_finite (negative : Bool) (m : Nat) (q : Int) :
    Json.ofDouble (.finite negative m q) =
      match Binary64.smallInt? (.finite negative m q) with
      | some n => .int n
      | none => .double (.finite negative m q) := by
  have hpos : 0 ≤ Binary64.magnitude m q := by
    rw [Binary64.magnitude]
    positivity
  have hprecision : Binary64.precision = 53 := rfl
  have habs : |Binary64.magnitude m q| = Binary64.magnitude m q := abs_of_nonneg hpos
  rw [Json.ofDouble, Binary64.toRat?, Binary64.smallInt?, hprecision]
  cases negative with
  | true =>
    simp only [if_true, abs_neg, habs, Rat.neg_den, Rat.neg_num]
    split_ifs <;> rfl
  | false =>
    simp only [Bool.false_eq_true, if_false, habs]
    split_ifs <;> rfl

/-- **A double is read as what it says.** -/
theorem reads_jsonFloat {x : Binary64} (h : x.IsDouble) (n : Nat) :
    Json.Reads (Json.value? (n + 1)) (jsonFloat x) (.ofDouble x) := by
  cases x with
  | nan => exact Json.reads_null n
  | infinite negative => exact Json.reads_null n
  | finite negative m q =>
    rw [jsonFloat, ofDouble_finite]
    cases hsmall : Binary64.smallInt? (.finite negative m q) with
    | some k => exact Json.reads_int n k
    | none =>
      have hm : m ≠ 0 := by
        rintro rfl
        simp [Binary64.smallInt?, Binary64.magnitude] at hsmall
      exact Json.reads_double n h hm negative

theorem length_le_of_mem {t : Text} {ts : List Text} (h : t ∈ ts) :
    t.length ≤ (Text.joinWith [','] ts).length := by
  induction ts with
  | nil => cases h
  | cons s ts ih =>
    cases ts with
    | nil => rw [List.mem_singleton.1 h, Text.joinWith_singleton]
    | cons s' ts =>
      rw [Text.joinWith_cons_cons, List.length_append, List.length_append]
      rcases List.mem_cons.1 h with rfl | h
      · omega
      · have := ih h
        omega

/-- The texts of items are shorter than that of the sequence. -/
theorem length_json_item_lt {vs : List Value} {v : Value} (h : v ∈ vs) :
    v.json.length < (sequence vs).json.length := by
  have hle := length_le_of_mem (List.mem_map_of_mem (f := json) h)
  rw [json, jsonItems_eq_map, jsonArray, List.cons_append, List.length_cons, List.length_append]
  omega

/-- The texts of values are shorter than that of the mapping. -/
theorem length_json_value_lt {m : Metadata} {e : Value × Value} (h : e ∈ m) :
    e.2.json.length < (mapping m).json.length := by
  have hle := length_le_of_mem
    (List.mem_map_of_mem (f := fun e : Value × Value => jsonMember (memberName e.1) (json e.2)) h)
  rw [jsonMember, List.length_append, List.length_cons] at hle
  rw [json, jsonMembers_eq_map, jsonObject, List.cons_append, List.length_cons, List.length_append]
  omega

/-- **A reader finds in the text of a value what the value says.**  The text is at least as long as
the value is deep. -/
theorem reads_json {v : Value} (h : v.IsSound) {n : Nat} (hn : v.json.length ≤ n) :
    Json.Reads (Json.value? (n + 1)) v.json v.toJson := by
  induction v using induction generalizing n with
  | null => exact Json.reads_null n
  | bool b => exact Json.reads_bool n b
  | int k => exact Json.reads_int n k
  | float x =>
    cases h with | float h =>
    exact reads_jsonFloat h n
  | text t => exact Json.reads_quoted n t
  | sequence vs ih =>
    cases h with | sequence h =>
    rw [json, toJson, jsonItems_eq_map, toJsonItems_eq_map]
    refine Json.reads_array (List.forall₂_map_left_iff.2 (List.forall₂_map_right_iff.2
      (List.forall₂_same.2 fun v hv => ?_)))
    have hlt := length_json_item_lt hv
    cases n with
    | zero => omega
    | succ n => exact ih v hv (h v hv) (by omega)
  | mapping m ih =>
    cases h with | mapping h =>
    rw [json, toJson, jsonMembers_eq_map, toJsonMembers_eq_map]
    refine Json.reads_object (List.forall₂_map_left_iff.2 (List.forall₂_map_right_iff.2
      (List.forall₂_same.2 fun e he => Json.reads_member ?_ (memberName e.1))))
    have hlt := length_json_value_lt he
    cases n with
    | zero => omega
    | succ n => exact (ih e he).2 (h e he) (by omega)
  | tagged t v ih =>
    cases h with | tagged _ h =>
    exact ih h hn

theorem read?_json {v : Value} (h : v.IsSound) : Json.read? v.json = some v.toJson :=
  Json.read?_of_reads (reads_json h (Nat.le_refl _))

end Value

/-! ### Rendering -/

/-- **A value that is no text is rendered faithfully, and nothing is fetched.**  Rendering succeeds
at once with a text that the writer makes without failing, for the value as for its keys, and a
reader of JSON finds in all of that text what the value says. -/
theorem render_faithful (answers : Answers) {v : Value} (hv : ∀ t, v ≠ .text t) (h : v.IsSound) :
    answers.render v = Traced.done v.json ∧ (∀ w : Value, w.view.faithfulJson? = some w.json) ∧
      Json.read? v.json = some v.toJson := by
  refine ⟨?_, Value.faithfulJson?_view, Value.read?_json h⟩
  cases v with
  | text t => exact absurd rfl (hv t)
  | _ => rfl

/-- A tagged mapping.  Its keys are a sequence, a number, a tagged text and a mapping, and in its
values there are doubles of all kinds and characters that have to be escaped. -/
def manifold : Value :=
  .tagged "t" (.mapping [
    (.sequence [.int 1, .text "a\"b"],
      .sequence [.float (.finite false 5404319552844595 (-54)), .float .nan,
        .float (.finite true 6755399441055744 (-51)), .float (.finite false 5000000000000000 1)]),
    (.float (.infinite true), .text "line\nend\x01"),
    (.tagged "k" (.text "x"), .null),
    (.mapping [(.null, .bool true)], .int (-7))])

/-- Its text. -/
def manifoldText : Text :=
  ("\x7b\"[1,\\\"a\\\\\\\"b\\\"]\":[0.3,null,-3,1e+16]," : String).toList ++
    ("\"-.inf\":\"line\\nend\\u0001\",\"\\\"x\\\"\":null," : String).toList ++
    ("\"\x7b\\\"null\\\":true\x7d\":-7\x7d" : String).toList

theorem isSound_manifold : manifold.IsSound := by
  have hthird : Binary64.Fits 5404319552844595 (-54) :=
    ⟨by decide, by decide, by decide, Or.inl (by decide)⟩
  have hthree : Binary64.Fits 6755399441055744 (-51) :=
    ⟨by decide, by decide, by decide, Or.inl (by decide)⟩
  have hlarge : Binary64.Fits 5000000000000000 1 :=
    ⟨by decide, by decide, by decide, Or.inl (by decide)⟩
  refine .tagged _ (.mapping ?_)
  simp only [List.forall_mem_cons, List.not_mem_nil, false_imp_iff, implies_true, and_true]
  refine ⟨.sequence ?_, .text _, .null, .int _⟩
  simp only [List.forall_mem_cons, List.not_mem_nil, false_imp_iff, implies_true, and_true]
  exact ⟨.float hthird, .float trivial, .float hthree, .float hlarge⟩

/-- All that it says is found again. -/
theorem render_manifold :
    Answers.render (fun path => .error (.documentNotFound path)) manifold =
        Traced.done manifoldText ∧
      Json.read? manifoldText = some (.object [
        ("[1,\"a\\\"b\"]", .array [.double (.finite false 5404319552844595 (-54)), .null,
          .int (-3), .double (.finite false 5000000000000000 1)]),
        ("-.inf", .string "line\nend\x01"),
        ("\"x\"", .null),
        ("\x7b\"null\":true\x7d", .int (-7))]) := by
  have htext : manifold.json = manifoldText := by decide +kernel
  have hthird : Json.ofDouble (.finite false 5404319552844595 (-54)) =
      .double (.finite false 5404319552844595 (-54)) := by
    have hsmall : Binary64.smallInt? (.finite false 5404319552844595 (-54)) = none := by
      decide +kernel
    rw [Value.ofDouble_finite, hsmall]
  have hthree : Json.ofDouble (.finite true 6755399441055744 (-51)) = .int (-3) := by
    have hsmall : Binary64.smallInt? (.finite true 6755399441055744 (-51)) = some (-3) := by
      decide +kernel
    rw [Value.ofDouble_finite, hsmall]
  have hlarge : Json.ofDouble (.finite false 5000000000000000 1) =
      .double (.finite false 5000000000000000 1) := by
    have hsmall : Binary64.smallInt? (.finite false 5000000000000000 1) = none := by
      decide +kernel
    rw [Value.ofDouble_finite, hsmall]
  obtain ⟨hdone, -, hread⟩ := render_faithful (fun path => .error (.documentNotFound path))
    (v := manifold) (by rintro t ⟨⟩) isSound_manifold
  rw [htext] at hdone hread
  refine ⟨hdone, hread.trans (congrArg some ?_)⟩
  simp only [manifold, Value.toJson, Value.toJsonMembers, Value.toJsonMember, Value.toJsonItems,
    hthird, hthree, hlarge]
  rfl

end MarkdownWeave
