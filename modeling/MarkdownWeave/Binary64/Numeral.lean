import MarkdownWeave.Binary64.Basic

/-!
# Numerals of doubles

A double is written with the fewest decimal digits that read back as the same double, and among
those with the digits nearest to it.  It is positional from `10 ^ -5` up to `10 ^ 16` and in
scientific notation outside.

## Main definitions

* `Binary64.shortest` — the decimal with the fewest digits that reads back.
* `Binary64.Style`, `Binary64.text` — the written form.
* `Binary64.ofText?` — reading a decimal numeral.
-/

namespace MarkdownWeave

namespace Binary64

/-! ### The fewest digits -/

/-- The decimal number `digits · 10 ^ exponent`. -/
structure Decimal where
  /-- The significant digits. -/
  digits : Nat
  /-- The exponent of ten. -/
  exponent : Int
deriving DecidableEq

/-- Whether a rational rounds to the double with this mantissa and exponent.  The numbers half-way
to a neighbour do if the mantissa is even; below a power of two the neighbour is twice as near. -/
def roundsTo (m : Nat) (q : Int) (r : Rat) : Bool :=
  let v := magnitude m q
  let above : Rat := 2 ^ (q - 1)
  let below : Rat := if m = Nat.pow 2 (precision - 1) ∧ minExponent < q then 2 ^ (q - 2) else above
  if m % 2 = 0 then decide (v - below ≤ r) && decide (r ≤ v + above)
  else decide (v - below < r) && decide (r < v + above)

/-- Of the two neighbours of the double on the grid of multiples of `10 ^ k`, the one that rounds
to it; if both do, the nearer one, and of two equally near ones the even one. -/
def neighbour? (m : Nat) (q k : Int) : Option Nat :=
  let r := magnitude m q / 10 ^ k
  let d := r.floor.toNat
  let fits (n : Nat) := roundsTo m q ((n : Rat) * 10 ^ k)
  match fits d, fits (d + 1) with
  | true, true => some (roundEven r)
  | true, false => some d
  | false, true => some (d + 1)
  | false, false => none

/-- The number of digits before the decimal point of a positive rational that is above the least
double; negative for a number that begins with zeros behind the point. -/
def pointPosition (r : Rat) : Int :=
  (Text.ofNat (r * 10 ^ (330 : Nat)).floor.toNat).length - 330

/-- Looks for a neighbour on grids that are finer and finer, from `n` digits on. -/
def searchGrid (m : Nat) (q point : Int) : Nat → Nat → Decimal
  | 0, n => ⟨(magnitude m q / 10 ^ (point - n)).floor.toNat, point - n⟩
  | steps + 1, n =>
    match neighbour? m q (point - n) with
    | some d => if d = 10 then ⟨1, point - n + 1⟩ else ⟨d, point - n⟩
    | none => searchGrid m q point steps (n + 1)

/-- The decimal with the fewest digits that rounds to the double with mantissa `m` and exponent
`q`, and of those the nearest one.  Seventeen digits are always enough. -/
def shortest (m : Nat) (q : Int) : Decimal :=
  searchGrid m q (pointPosition (magnitude m q)) 17 1

/-! ### Writing -/

/-- What differs between the formats in which doubles are written. -/
structure Style where
  /-- The sign of an exponent that is not negative. -/
  plus : Text
  /-- The text for not-a-number. -/
  nan : Text
  /-- The text for infinity. -/
  infinity : Text

/-- A decimal laid out: positional if its point stands from four places before the first digit to
sixteen places behind it, scientific otherwise. -/
def Decimal.text (plus : Text) (d : Decimal) : Text :=
  let ds := Text.ofNat d.digits
  let point : Int := ds.length + d.exponent
  if -5 < point ∧ point ≤ 16 then
    if point ≤ 0 then "0." ++ List.replicate (-point).toNat '0' ++ ds
    else if ds.length ≤ point.toNat then
      ds ++ List.replicate (point.toNat - ds.length) '0' ++ ".0"
    else ds.take point.toNat ++ '.' :: ds.drop point.toNat
  else
    let fraction := ds.drop 1
    let e := point - 1
    ds.take 1 ++ (if fraction.isEmpty then [] else '.' :: fraction) ++
      'e' :: (if 0 ≤ e then plus else []) ++ Text.ofInt e

/-- The written form of a double. -/
def text (style : Style) : Binary64 → Text
  | .nan => style.nan
  | .infinite negative => (if negative then ['-'] else []) ++ style.infinity
  | .finite negative m q =>
    (if negative then ['-'] else []) ++
      if m = 0 then ("0.0" : Text) else (shortest m q).text style.plus

/-! ### Reading -/

/-- The exponent part of a numeral: nothing, or `e` and an integer. -/
def readExponent? : Text → Option Int
  | [] => some 0
  | c :: rest =>
    if c = 'e' ∨ c = 'E' then
      match rest with
      | '-' :: ds => if ds.all Text.isDigit then (Text.toNat? 10 ds).map fun n => -(n : Int) else none
      | '+' :: ds => if ds.all Text.isDigit then (Text.toNat? 10 ds).map fun n => (n : Int) else none
      | ds => if ds.all Text.isDigit then (Text.toNat? 10 ds).map fun n => (n : Int) else none
    else none

/-- Reads a numeral without a sign: digits with or without a decimal point, of which at least one
is there, and an exponent part. -/
def readMagnitude? (negative : Bool) (t : Text) : Option Binary64 :=
  let whole := t.takeWhile Text.isDigit
  let rest := t.dropWhile Text.isDigit
  let (fraction, rest) :=
    match rest with
    | '.' :: more => (more.takeWhile Text.isDigit, more.dropWhile Text.isDigit)
    | _ => ([], rest)
  match whole ++ fraction with
  | [] => none
  | d :: ds =>
    (readExponent? rest).map fun e =>
      ofDecimal negative (Text.decimalValue (d :: ds)) (e - fraction.length)

/-- The double that a decimal numeral with an optional sign denotes. -/
def ofText? : Text → Option Binary64
  | '-' :: t => readMagnitude? true t
  | '+' :: t => readMagnitude? false t
  | t => readMagnitude? false t

end Binary64

end MarkdownWeave
