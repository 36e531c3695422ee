import MarkdownWeave.Value.Basic

/-!
# Plain scalars

What an unquoted YAML scalar stands for: null, a truth value, an integer, a double or a text.

## Main definitions

* `Yaml.Scalar` — what a plain scalar may stand for.
* `Yaml.resolve` — what a plain scalar does stand for.
-/

namespace MarkdownWeave

namespace Yaml

/-- What a plain scalar stands for. -/
inductive Scalar
  /-- The null value. -/
  | null
  /-- A truth value. -/
  | bool (b : Bool)
  /-- An integer that fits into 64 bits, signed or not. -/
  | int (n : Int)
  /-- An integer that fits into 128 bits and not into 64, which has no value. -/
  | wide
  /-- A double. -/
  | float (x : Binary64)
  /-- A text. -/
  | text

/-- Whether a scalar spells null. -/
def isNull (t : Text) : Bool :=
  t == ['~'] || t == ("null" : Text) || t == ("Null" : Text) || t == ("NULL" : Text)

/-- The truth value that a scalar spells. -/
def bool? (t : Text) : Option Bool :=
  if t == ("true" : Text) || t == ("True" : Text) || t == ("TRUE" : Text) then some true
  else if t == ("false" : Text) || t == ("False" : Text) || t == ("FALSE" : Text) then some false
  else none

/-- Whether digits begin with a zero and go on with more digits; such a scalar is a text. -/
def hasLeadingZero (t : Text) : Bool :=
  let digits :=
    match t with
    | '-' :: cs => cs
    | '+' :: cs => cs
    | _ => t
  match digits with
  | '0' :: c :: cs => (c :: cs).all Text.isDigit
  | _ => false

/-- The number that digits without a sign denote, in the base that their beginning announces. -/
def magnitude? : Text → Option Nat
  | '0' :: 'x' :: ds => Text.toNat? 16 ds
  | '0' :: 'o' :: ds => Text.toNat? 8 ds
  | '0' :: 'b' :: ds => Text.toNat? 2 ds
  | ds => if hasLeadingZero ds then none else Text.toNat? 10 ds

/-- The integer that a scalar spells, of whatever size. -/
def integer? : Text → Option Int
  | '-' :: ds => (magnitude? ds).map fun n => -(n : Int)
  | '+' :: ds => (magnitude? ds).map fun n => (n : Int)
  | ds => (magnitude? ds).map fun n => (n : Int)

/-- The double that a scalar spells: a decimal numeral of a finite one, or one of the names of
infinity and not-a-number. -/
def float? (t : Text) : Option Binary64 :=
  let isInfinity (u : Text) :=
    u == (".inf" : Text) || u == (".Inf" : Text) || u == (".INF" : Text)
  if t == (".nan" : Text) || t == (".NaN" : Text) || t == (".NAN" : Text) then some .nan
  else
    match t with
    | '-' :: u => if isInfinity u then some (.infinite true) else finite t
    | '+' :: u =>
      if isInfinity u then some (.infinite false)
      else if u.head? == some '+' || u.head? == some '-' then none
      else finite u
    | _ => if isInfinity t then some (.infinite false) else finite t
where
  /-- A numeral, if the double nearest to it is finite. -/
  finite (u : Text) : Option Binary64 := (Binary64.ofText? u).filter Binary64.isFinite

/-- The integers that have a value: those of 64 bits with or without a sign. -/
def fits64 (n : Int) : Bool := -(Int.pow 2 63) ≤ n && n < Int.pow 2 64

/-- The integers of 128 bits with or without a sign. -/
def fits128 (n : Int) : Bool := -(Int.pow 2 127) ≤ n && n < Int.pow 2 128

/-- What a plain scalar stands for, if it is no integer of at most 128 bits, null or truth value. -/
def resolveNumber (t : Text) : Scalar :=
  if hasLeadingZero t then .text
  else
    match float? t with
    | some x => .float x
    | none => .text

/-- What a plain scalar stands for.  Integers beyond 128 bits are read as doubles if they are
decimal, and as texts otherwise. -/
def resolve (t : Text) : Scalar :=
  if t.isEmpty || isNull t then .null
  else
    match bool? t with
    | some b => .bool b
    | none =>
      match integer? t with
      | some n => if fits64 n then .int n else if fits128 n then .wide else resolveNumber t
      | none => resolveNumber t

/-- Whether a plain scalar is the text that it spells. -/
def isText (t : Text) : Bool :=
  match resolve t with
  | .text => true
  | _ => false

end Yaml

end MarkdownWeave
