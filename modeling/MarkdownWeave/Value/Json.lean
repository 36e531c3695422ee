import MarkdownWeave.Json.Quoted
import MarkdownWeave.Value.Normal

/-!
# Values as JSON

Two compact JSON texts of a metadata value.  The first is what a placeholder is replaced with: it
exists for every value, drops tags, and writes small whole doubles as integers.  The second shows
a value as it is, and does not exist where a key has no JSON form.

## Main definitions

* `Value.json` — the text that stands for a value in a body.
* `Value.faithfulJson?` — the text that shows a value with its tags and kinds of numbers.
-/

namespace MarkdownWeave

namespace Value

/-- How doubles are spelled in JSON. -/
def jsonFloatStyle : Binary64.Style := ⟨['+'], "null", "null"⟩

/-- JSON texts as the items of an array. -/
def jsonArray (items : List Text) : Text := '[' :: Text.joinWith [','] items ++ [']']

/-- JSON texts of members as an object. -/
def jsonObject (members : List Text) : Text := '{' :: Text.joinWith [','] members ++ ['}']

/-- One member of an object. -/
def jsonMember (name value : Text) : Text := Json.quoted name ++ ':' :: value

/-! ### For placeholders -/

/-- A double in a body: an integer if it is a small one, `null` if it is not finite. -/
def jsonFloat (x : Binary64) : Text :=
  match x.smallInt? with
  | some n => Text.ofInt n
  | none => if x.isFinite then x.text jsonFloatStyle else "null"

mutual

/-- The compact JSON text of a value; tags are dropped and keys become texts. -/
def json : Value → Text
  | null => "null"
  | bool b => boolText b
  | int n => Text.ofInt n
  | float x => jsonFloat x
  | text t => Json.quoted t
  | sequence vs => jsonArray (jsonItems vs)
  | mapping m => jsonObject (jsonMembers m)
  | tagged _ v => json v
termination_by structural v => v

/-- The JSON texts of the items of a sequence. -/
def jsonItems : List Value → List Text
  | [] => []
  | v :: vs => json v :: jsonItems vs
termination_by structural vs => vs

/-- The JSON texts of the entries of a mapping. -/
def jsonMembers : List (Value × Value) → List Text
  | [] => []
  | e :: rest => jsonEntry e :: jsonMembers rest
termination_by structural m => m

/-- The JSON text of one entry.  A key is its own text or the text of a scalar, and any other key
its JSON text. -/
def jsonEntry : Value × Value → Text
  | (k, v) =>
    let name :=
      match normalizeKey k with
      | text t => t
      | _ => json k
    jsonMember name (json v)
termination_by structural e => e

end

/-! ### As it is -/

/-- The name that a key has in JSON, if it has one: texts, truth values, integers and finite
doubles have. -/
def faithfulKey? : Value → Option Text
  | text t => some t
  | bool b => some (boolText b)
  | int n => some (Text.ofInt n)
  | float x => if x.isFinite then some (x.text jsonFloatStyle) else none
  | _ => none

mutual

/-- The compact JSON text of a value as it is; a tagged value is an object with one member.  There
is none if some key has no name in JSON. -/
def faithfulJson? : Value → Option Text
  | null => some "null"
  | bool b => some (boolText b)
  | int n => some (Text.ofInt n)
  | float x => some (if x.isFinite then x.text jsonFloatStyle else "null")
  | text t => some (Json.quoted t)
  | sequence vs => (faithfulItems? vs).map jsonArray
  | mapping m => (faithfulMembers? m).map jsonObject
  | tagged t v => (faithfulJson? v).map fun j => jsonObject [jsonMember ('!' :: t) j]
termination_by structural v => v

/-- The JSON texts of the items of a sequence. -/
def faithfulItems? : List Value → Option (List Text)
  | [] => some []
  | v :: vs => do return (← faithfulJson? v) :: (← faithfulItems? vs)
termination_by structural vs => vs

/-- The JSON texts of the entries of a mapping. -/
def faithfulMembers? : List (Value × Value) → Option (List Text)
  | [] => some []
  | e :: rest => do return (← faithfulMember? e) :: (← faithfulMembers? rest)
termination_by structural m => m

/-- The JSON text of one entry. -/
def faithfulMember? : Value × Value → Option Text
  | (k, v) => do return jsonMember (← faithfulKey? k) (← faithfulJson? v)
termination_by structural e => e

end

end Value

end MarkdownWeave
