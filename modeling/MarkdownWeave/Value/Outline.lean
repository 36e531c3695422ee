import MarkdownWeave.Text.Shown
import MarkdownWeave.Value.Normal

/-!
# Outlines of values

A text that shows the kinds and parts of a value.  It exists for every value, and is used where a
value has no JSON text of its own.

## Main definitions

* `Value.outline` — the outline of a value.
-/

namespace MarkdownWeave

namespace Value

/-- The outline of a number. -/
def outlineNumber (digits : Text) : Text := "Number(" ++ digits ++ [')']

mutual

/-- The outline of a value: its kind and, in brackets, its parts. -/
def outline : Value → Text
  | null => "Null"
  | bool b => "Bool(" ++ boolText b ++ [')']
  | int n => outlineNumber (Text.ofInt n)
  | float x => outlineNumber (floatText x)
  | text t => "String(" ++ Text.shown t ++ [')']
  | sequence vs => "Sequence [" ++ Text.joinWith [',', ' '] (outlineItems vs) ++ [']']
  | mapping m => "Mapping " ++ '{' :: Text.joinWith [',', ' '] (outlineEntries m) ++ ['}']
  | tagged t v => "TaggedValue " ++ '{' :: " tag: !" ++ t ++ ", value: " ++ outline v ++ [' ', '}']
termination_by structural v => v

/-- The outlines of the items of a sequence. -/
def outlineItems : List Value → List Text
  | [] => []
  | v :: vs => outline v :: outlineItems vs
termination_by structural vs => vs

/-- The outlines of the entries of a mapping. -/
def outlineEntries : List (Value × Value) → List Text
  | [] => []
  | e :: rest => outlineEntry e :: outlineEntries rest
termination_by structural m => m

/-- The outline of one entry; a scalar key is shown without its kind. -/
def outlineEntry : Value × Value → Text
  | (k, v) =>
    let key :=
      match k with
      | bool b => boolText b
      | int n => Text.ofInt n
      | float x => floatText x
      | text t => Text.shown t
      | _ => outline k
    key ++ ": " ++ outline v
termination_by structural e => e

end

end Value

end MarkdownWeave
