import MarkdownWeave.Text.Basic

/-!
# Binary floating point

IEEE 754 double-precision numbers, kept as sign, mantissa and exponent, so that everything about
them is exact arithmetic.

## Main definitions

* `Binary64` — a double: not a number, an infinity, or `± mantissa · 2 ^ exponent`.
* `Binary64.ofRat` — the double nearest to a rational number, ties to the even mantissa.
* `Binary64.ofDecimal` — the double nearest to `digits · 10 ^ exponent`.
* `Binary64.same` — equality of numbers: the two zeros are equal, and so are all not-a-numbers.
-/

namespace MarkdownWeave

/-- A double-precision number.  A finite one stands for `± mantissa · 2 ^ exponent`. -/
inductive Binary64
  /-- Not a number. -/
  | nan
  /-- One of the two infinities. -/
  | infinite (negative : Bool)
  /-- A finite number by sign, mantissa and exponent of two. -/
  | finite (negative : Bool) (mantissa : Nat) (exponent : Int)
deriving DecidableEq, Inhabited

namespace Binary64

/-- The least exponent of two that a double can have. -/
def minExponent : Int := -1074

/-- The greatest exponent of two that a double can have. -/
def maxExponent : Int := 971

/-- The number of bits of a mantissa. -/
def precision : Nat := 53

/-- The zero of either sign. -/
def zero (negative : Bool) : Binary64 := .finite negative 0 minExponent

/-- Whether a double is neither infinite nor not-a-number. -/
def isFinite : Binary64 → Bool
  | .finite .. => true
  | _ => false

/-- The magnitude of the number with this mantissa and exponent. -/
def magnitude (mantissa : Nat) (exponent : Int) : Rat := (mantissa : Rat) * 2 ^ exponent

/-! ### Rounding -/

/-- The natural number nearest to a rational that is not negative; of two, the even one. -/
def roundEven (r : Rat) : Nat :=
  let n := r.floor.toNat
  let part := r - n
  if part < 1 / 2 then n
  else if 1 / 2 < part then n + 1
  else if n % 2 = 0 then n else n + 1

/-- The greatest power of two that is at most a positive rational, as an exponent. -/
def floorLog2 (r : Rat) : Int :=
  let k : Int := (r.num.toNat.log2 : Int) - r.den.log2
  if r < 2 ^ k then k - 1 else k

/-- The double nearest to a rational that is not negative, with the given sign put in front. -/
def ofRat (negative : Bool) (r : Rat) : Binary64 :=
  if r ≤ 0 then zero negative
  else
    let q := max (floorLog2 r - (precision - 1 : Nat)) minExponent
    let m := roundEven (r / 2 ^ q)
    let (m, q) := if m = Nat.pow 2 precision then (Nat.pow 2 (precision - 1), q + 1) else (m, q)
    if maxExponent < q then .infinite negative else .finite negative m q

/-- The double nearest to `digits · 10 ^ exponent`.  Numbers that are far outside the range of
doubles are told apart by the number of their digits, without computing the power. -/
def ofDecimal (negative : Bool) (digits : Nat) (exponent : Int) : Binary64 :=
  let size : Int := (Text.ofNat digits).length + exponent
  if digits = 0 ∨ size < -330 then zero negative
  else if 310 < size then .infinite negative
  else ofRat negative ((digits : Rat) * 10 ^ exponent)

/-! ### Equality of numbers -/

/-- Whether two doubles are the same number.  The zeros of both signs are, and so are two
not-a-numbers. -/
def same : Binary64 → Binary64 → Bool
  | .nan, .nan => true
  | .infinite a, .infinite b => a == b
  | .finite a m p, .finite b n q => (m == 0 && n == 0) || (a == b && m == n && p == q)
  | _, _ => false

@[simp] theorem same_refl (x : Binary64) : same x x = true := by
  cases x <;> simp [same]

theorem same_comm (x y : Binary64) : same x y = same y x := by
  cases x <;> cases y <;> grind [same]

theorem same_trans {x y z : Binary64} (h : same x y = true) (h' : same y z = true) :
    same x z = true := by
  cases x <;> cases y <;> simp [same] at h <;> cases z <;> simp [same] at h' ⊢ <;> grind

/-! ### Integers -/

/-- The integer that a finite double is, if it is one and smaller than `2 ^ 53` in magnitude. -/
def smallInt? : Binary64 → Option Int
  | .finite negative m q =>
    let r := magnitude m q
    if r.den = 1 ∧ r < 2 ^ precision then some (if negative then -r.num else r.num) else none
  | _ => none

end Binary64

end MarkdownWeave
