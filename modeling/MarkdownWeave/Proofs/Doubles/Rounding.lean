import Mathlib.Algebra.Order.Field.Power
import Mathlib.Data.Int.Log
import Mathlib.Data.Rat.Floor
import Mathlib.Tactic.FieldSimp
import Mathlib.Tactic.Linarith
import Mathlib.Tactic.NormNum
import Mathlib.Tactic.Positivity
import Mathlib.Tactic.Ring
import MarkdownWeave.Binary64.Numeral

/-!
# Rounding to doubles

A rational number rounds to a double if it lies between the points half-way to the neighbours of
the double, and on such a point if the mantissa is even.  Below a power of two the neighbour is
twice as near, so that the exponent is found to be smaller by one at first, and is put right when
the mantissa turns out to need one more bit.

## Main definitions

* `Binary64.Fits m q` — mantissa and exponent of a double.
* `Binary64.IsDouble` — what doubles there are.

## Main results

* `Binary64.floorLog2_eq_log` — the greatest power of two that is not above a number.
* `Binary64.ofRat_of_roundsTo` — **rounding gives the double that a number rounds to.**
* `Binary64.isDouble_ofRat` — and always some double.
-/

namespace MarkdownWeave

namespace Binary64

/-- A mantissa and an exponent of a double: all bits of the mantissa are in use, unless the exponent
is the least one. -/
structure Fits (m : Nat) (q : Int) : Prop where
  lt : m < 2 ^ 53
  min_le : minExponent ≤ q
  le_max : q ≤ maxExponent
  full : 2 ^ 52 ≤ m ∨ q = minExponent

/-- The doubles that there are. -/
def IsDouble : Binary64 → Prop
  | .finite _ m q => Fits m q
  | _ => True

theorem Fits.add_one_le {m : Nat} {q : Int} (h : Fits m q) : (m : ℚ) + 1 ≤ 2 ^ 53 := by
  exact_mod_cast h.lt

theorem one_le_cast {m : Nat} (hm : m ≠ 0) : (1 : ℚ) ≤ m :=
  Nat.one_le_cast.2 (Nat.one_le_iff_ne_zero.2 hm)

/-! ### The nearest natural number -/

theorem floor_toNat (r : ℚ) : r.floor.toNat = ⌊r⌋₊ := rfl

/-- A number rounds to a natural number that is less than half away, and to an even one also if it
is half away. -/
theorem roundEven_eq {r : ℚ} {n : Nat} (hr : 0 ≤ r) (hlow : n - 1 / 2 ≤ r) (hhigh : r ≤ n + 1 / 2)
    (htie : n % 2 = 0 ∨ (n - 1 / 2 < r ∧ r < n + 1 / 2)) : roundEven r = n := by
  have hle := Nat.floor_le hr
  have hlt := Nat.lt_floor_add_one r
  rw [roundEven, floor_toNat]
  generalize ⌊r⌋₊ = f at hle hlt ⊢
  have hn : n = f ∨ n = f + 1 := by
    have h1 : (f : ℚ) < n + 1 := by linarith
    have h2 : (n : ℚ) < f + 2 := by linarith
    norm_cast at h1 h2
    omega
  rcases hn with rfl | rfl
  · -- the rest is less than a half, or a half and the floor is even
    split_ifs with h1 h2 h3
    · rfl
    · linarith
    · rfl
    · rcases htie with heven | ⟨-, hstrict⟩
      · exact absurd heven h3
      · linarith
  · -- the rest is more than a half, or a half and the floor is odd
    push_cast at hlow hhigh htie
    split_ifs with h1 h2 h3
    · linarith
    · rfl
    · rcases htie with heven | ⟨hstrict, -⟩
      · omega
      · linarith
    · rfl

/-- Rounding does not leave what is bounded by natural numbers. -/
theorem roundEven_le {r : ℚ} {n : Nat} (h : r ≤ n) : roundEven r ≤ n := by
  have hfloor : ⌊r⌋₊ ≤ n := Nat.floor_le_of_le h
  have hpart : ⌊r⌋₊ = n → r - (⌊r⌋₊ : ℚ) ≤ 0 := by
    intro he
    rw [he]
    linarith
  rw [roundEven, floor_toNat]
  split_ifs with h1 h2 h3
  · exact hfloor
  · rcases Nat.lt_or_eq_of_le hfloor with hlt | he
    · exact hlt
    · linarith [hpart he]
  · exact hfloor
  · rcases Nat.lt_or_eq_of_le hfloor with hlt | he
    · exact hlt
    · linarith [hpart he]

theorem le_roundEven {r : ℚ} {n : Nat} (h : n ≤ r) : n ≤ roundEven r := by
  have hfloor : n ≤ ⌊r⌋₊ := Nat.le_floor h
  rw [roundEven, floor_toNat]
  split_ifs <;> omega

/-! ### The greatest power of two -/

theorem log_eq {r : ℚ} {k : Int} (hr : 0 < r) (hlow : 2 ^ k ≤ r) (hhigh : r < 2 ^ (k + 1)) :
    Int.log 2 r = k := by
  have h1 : k ≤ Int.log 2 r := (Int.zpow_le_iff_le_log (by decide) hr).1 (by exact_mod_cast hlow)
  have h2 : Int.log 2 r < k + 1 :=
    (Int.lt_zpow_iff_log_lt (by decide) hr).1 (by exact_mod_cast hhigh)
  omega

/-- The numbers of bits of numerator and denominator tell the power up to one. -/
theorem floorLog2_eq_log {r : ℚ} (hr : 0 < r) : floorLog2 r = Int.log 2 r := by
  have hnum : 0 < r.num := Rat.num_pos.2 hr
  have hnum_ne : r.num.toNat ≠ 0 := by omega
  have hden : (0 : ℚ) < r.den := by exact_mod_cast r.den_pos
  have hvalue : r * r.den = r.num.toNat := by
    rw [Rat.mul_den_eq_num, ← Int.cast_natCast, Int.toNat_of_nonneg hnum.le]
  have hnum_le : (2 : ℚ) ^ (r.num.toNat.log2 : Int) ≤ r.num.toNat := by
    exact_mod_cast Nat.log2_self_le hnum_ne
  have hnum_lt : (r.num.toNat : ℚ) < 2 ^ ((r.num.toNat.log2 : Int) + 1) := by
    exact_mod_cast @Nat.lt_log2_self r.num.toNat
  have hden_le : (2 : ℚ) ^ (r.den.log2 : Int) ≤ r.den := by
    exact_mod_cast Nat.log2_self_le r.den_nz
  have hden_lt : (r.den : ℚ) < 2 ^ ((r.den.log2 : Int) + 1) := by
    exact_mod_cast @Nat.lt_log2_self r.den
  rw [← hvalue] at hnum_le hnum_lt
  rw [floorLog2]
  generalize hk : (r.num.toNat.log2 : Int) - r.den.log2 = k
  have hlow : (2 : ℚ) ^ (k - 1) < r := by
    have hpow : (2 : ℚ) ^ (k - 1) * 2 ^ ((r.den.log2 : Int) + 1) =
        2 ^ (r.num.toNat.log2 : Int) := by
      rw [← zpow_add₀ (by norm_num)]
      congr 1
      omega
    nlinarith [zpow_pos (show (0 : ℚ) < 2 by norm_num) (k - 1)]
  have hhigh : r < (2 : ℚ) ^ (k + 1) := by
    have hpow : (2 : ℚ) ^ (k + 1) * 2 ^ (r.den.log2 : Int) =
        2 ^ ((r.num.toNat.log2 : Int) + 1) := by
      rw [← zpow_add₀ (by norm_num)]
      congr 1
      omega
    have hmul : r * r.den < 2 ^ (k + 1) * r.den := by
      nlinarith [zpow_pos (show (0 : ℚ) < 2 by norm_num) (k + 1)]
    exact lt_of_mul_lt_mul_right hmul hden.le
  split_ifs with h
  · exact (log_eq hr hlow.le (by rwa [sub_add_cancel])).symm
  · exact (log_eq hr (not_lt.1 h) hhigh).symm

/-! ### The numbers that round to a double -/

/-- Half the way down to the next smaller double, in units of the last place. -/
def halfBelow (m : Nat) (q : Int) : ℚ := if m = 2 ^ 52 ∧ minExponent < q then 1 / 4 else 1 / 2

theorem halfBelow_le (m : Nat) (q : Int) : halfBelow m q ≤ 1 / 2 := by
  rw [halfBelow]
  split_ifs <;> norm_num

/-- Numbers between the half ways round to a double, and with an even mantissa those on them. -/
theorem roundsTo_iff {m : Nat} {q : Int} {r : ℚ} : roundsTo m q r = true ↔
    (m - halfBelow m q ≤ r / 2 ^ q ∧ r / 2 ^ q ≤ m + 1 / 2) ∧
      (m % 2 = 0 ∨ (m - halfBelow m q < r / 2 ^ q ∧ r / 2 ^ q < m + 1 / 2)) := by
  have hu : (0 : ℚ) < 2 ^ q := zpow_pos (by norm_num) q
  have habove : (2 : ℚ) ^ (q - 1) = 1 / 2 * 2 ^ q := by
    rw [zpow_sub_one₀ (by norm_num)]
    ring
  have hbelow : (if m = Nat.pow 2 (precision - 1) ∧ minExponent < q then (2 : ℚ) ^ (q - 2)
      else 2 ^ (q - 1)) = halfBelow m q * 2 ^ q := by
    have hpow : Nat.pow 2 (precision - 1) = 2 ^ 52 := rfl
    rw [halfBelow, hpow]
    split_ifs
    · rw [zpow_sub₀ (by norm_num)]
      norm_num
      ring
    · exact habove
  rw [roundsTo]
  rw [hbelow, habove, magnitude, ← sub_mul, ← add_mul, le_div_iff₀ hu, div_le_iff₀ hu,
    lt_div_iff₀ hu, div_lt_iff₀ hu]
  split_ifs with heven
  · simp [heven]
  · have himp : ((m : ℚ) - halfBelow m q) * 2 ^ q < r ∧ r < ((m : ℚ) + 1 / 2) * 2 ^ q →
        ((m : ℚ) - halfBelow m q) * 2 ^ q ≤ r ∧ r ≤ ((m : ℚ) + 1 / 2) * 2 ^ q :=
      fun h => ⟨h.1.le, h.2.le⟩
    simp only [Bool.and_eq_true, decide_eq_true_eq, heven, false_or]
    exact (and_iff_right_of_imp himp).symm

section

variable {m : Nat} {q : Int} {r : ℚ}

/-- The exponent of the double nearest to a number. -/
def lastPlace (r : ℚ) : Int := max (Int.log 2 r - 52) minExponent

theorem ofRat_of_pos (negative : Bool) (hr : 0 < r) : ofRat negative r =
    if roundEven (r / 2 ^ lastPlace r) = 2 ^ 53 then
      if maxExponent < lastPlace r + 1 then .infinite negative
      else .finite negative (2 ^ 52) (lastPlace r + 1)
    else if maxExponent < lastPlace r then .infinite negative
    else .finite negative (roundEven (r / 2 ^ lastPlace r)) (lastPlace r) := by
  have hplace : max (floorLog2 r - (precision - 1 : Nat)) minExponent = lastPlace r := by
    rw [floorLog2_eq_log hr]
    rfl
  rw [ofRat, if_neg (not_le.2 hr), hplace]
  by_cases h : roundEven (r / 2 ^ lastPlace r) = 2 ^ 53
  · rw [if_pos h]
    simp only [h, precision, Nat.pow_eq, if_true]
  · rw [if_neg h]
    simp only [precision, Nat.pow_eq, h, if_false]

theorem div_two_zpow_lt_iff {k : Int} (hr : 0 < r) : r / 2 ^ q < 2 ^ k ↔ Int.log 2 r < k + q := by
  have hu : (0 : ℚ) < 2 ^ q := zpow_pos (by norm_num) q
  rw [div_lt_iff₀ hu, ← zpow_add₀ (by norm_num)]
  exact_mod_cast Int.lt_zpow_iff_log_lt (b := 2) (by decide) hr

/-- In units of its last place a number has at most as many bits as a mantissa. -/
theorem div_lastPlace_lt (hr : 0 < r) : r / 2 ^ lastPlace r < 2 ^ 53 := by
  have h : r / 2 ^ lastPlace r < 2 ^ (53 : Int) := by
    rw [div_two_zpow_lt_iff hr, lastPlace]
    omega
  exact_mod_cast h

/-- It has just as many, unless the last place is that of the least doubles. -/
theorem le_div_lastPlace (hr : 0 < r) :
    2 ^ 52 ≤ r / 2 ^ lastPlace r ∨ lastPlace r = minExponent := by
  rw [or_iff_not_imp_right]
  intro hmin
  have h : ¬ r / 2 ^ lastPlace r < 2 ^ (52 : Int) := by
    rw [div_two_zpow_lt_iff hr]
    rw [lastPlace] at hmin ⊢
    omega
  exact_mod_cast not_lt.1 h

/-- No other place is such that this holds. -/
theorem lastPlace_eq (hr : 0 < r) (hmin : minExponent ≤ q) (hlt : r / 2 ^ q < 2 ^ 53)
    (hfull : 2 ^ 52 ≤ r / 2 ^ q ∨ q = minExponent) : lastPlace r = q := by
  have hhigh : Int.log 2 r < 53 + q := (div_two_zpow_lt_iff hr).1 (by exact_mod_cast hlt)
  rw [lastPlace]
  rcases hfull with hge | he
  · have hlow : ¬ Int.log 2 r < 52 + q := by
      rw [← div_two_zpow_lt_iff hr, not_lt]
      exact_mod_cast hge
    omega
  · omega

/-- **Rounding gives the double that a number rounds to.** -/
theorem ofRat_of_roundsTo (h : Fits m q) (hm : m ≠ 0) (hr : roundsTo m q r = true)
    (negative : Bool) : ofRat negative r = .finite negative m q := by
  have hu : (0 : ℚ) < 2 ^ q := zpow_pos (by norm_num) q
  obtain ⟨⟨hlow, hhigh⟩, htie⟩ := roundsTo_iff.1 hr
  have hhalf := halfBelow_le m q
  have hmin := h.min_le
  have hmax := h.le_max
  have hm1 := one_le_cast hm
  have hm53 := h.add_one_le
  have hquot : 0 < r / 2 ^ q := by linarith
  have hpos : 0 < r := (div_pos_iff_of_pos_right hu).1 hquot
  rw [ofRat_of_pos negative hpos]
  by_cases hfull : 2 ^ 52 ≤ r / 2 ^ q ∨ q = minExponent
  · have hround : roundEven (r / 2 ^ q) = m := by
      refine roundEven_eq hquot.le (by linarith) hhigh ?_
      exact htie.imp_right fun hstrict => ⟨by linarith, hstrict.2⟩
    rw [lastPlace_eq hpos hmin (by linarith) hfull, hround, if_neg (Nat.ne_of_lt h.lt),
      if_neg (by omega)]
  · -- a number below a power of two that rounds to it: the mantissa needs one more bit
    rw [not_or, not_le] at hfull
    obtain ⟨hlt, hne⟩ := hfull
    have hm52 : m = 2 ^ 52 := by
      have hle : (m : ℚ) < 2 ^ 52 + 1 := by linarith
      exact Nat.le_antisymm (Nat.lt_succ_iff.1 (by exact_mod_cast hle)) (h.full.resolve_right hne)
    subst hm52
    have hscale : r / 2 ^ (q - 1) = 2 * (r / 2 ^ q) := by
      rw [zpow_sub_one₀ (by norm_num)]
      field_simp
    have hquarter : halfBelow (2 ^ 52) q = 1 / 4 := if_pos ⟨rfl, by omega⟩
    rw [hquarter] at hlow
    push_cast at hlow
    have hround : roundEven (r / 2 ^ (q - 1)) = 2 ^ 53 := by
      rw [hscale]
      refine roundEven_eq (by linarith) ?_ ?_ (Or.inl (by decide))
      · push_cast
        linarith
      · push_cast
        linarith
    have hlast : lastPlace r = q - 1 :=
      lastPlace_eq hpos (by omega) (by linarith) (Or.inl (by linarith))
    rw [hlast, hround, if_pos rfl, if_neg (by omega), sub_add_cancel]

theorem isDouble_zero (negative : Bool) : (zero negative).IsDouble :=
  ⟨by decide, Int.le_refl _, by decide, Or.inr rfl⟩

/-- **Rounding always gives a double.** -/
theorem isDouble_ofRat (negative : Bool) (r : ℚ) : (ofRat negative r).IsDouble := by
  rcases le_or_gt r 0 with hr | hr
  · rw [ofRat, if_pos hr]
    exact isDouble_zero negative
  · rw [ofRat_of_pos negative hr]
    have hle : roundEven (r / 2 ^ lastPlace r) ≤ 2 ^ 53 :=
      roundEven_le (by exact_mod_cast (div_lastPlace_lt hr).le)
    have hmin : minExponent ≤ lastPlace r := le_max_right _ _
    have hfull : 2 ^ 52 ≤ roundEven (r / 2 ^ lastPlace r) ∨ lastPlace r = minExponent :=
      (le_div_lastPlace hr).imp_left fun h => le_roundEven (by exact_mod_cast h)
    split_ifs with hcarry hmax hmax
    · trivial
    · exact ⟨by decide, by omega, by omega, Or.inl (Nat.le_refl _)⟩
    · trivial
    · exact ⟨by omega, hmin, by omega, hfull⟩

theorem isDouble_ofDecimal (negative : Bool) (digits : Nat) (exponent : Int) :
    (ofDecimal negative digits exponent).IsDouble := by
  rw [ofDecimal]
  split_ifs
  · exact isDouble_zero negative
  · trivial
  · exact isDouble_ofRat negative _

end

end Binary64

end MarkdownWeave
