import MarkdownWeave.Proofs.Doubles.Rounding
import MarkdownWeave.Proofs.Numerals

/-!
# Doubles read back

The decimal that is written for a double is one that rounds to it.  Coarse grids may have no such
number next to the double, but the grid of seventeen digits has: one of its points is at most half
a step away, and half a step is less than half the way to the next double.  The decimal that is
read is the one that was written, however its digits were laid out, so that reading gives the
double back.

## Main results

* `Binary64.roundsTo_shortest` — **the shortest decimal of a double rounds to it.**
* `Binary64.ofDecimal_of_roundsTo` — a decimal is read as the double that it rounds to.
* `Binary64.ofText?_text` — **a finite double is read back from its text.**
* `Binary64.isDouble_of_ofText?` — what is read is always a double.
-/

namespace MarkdownWeave

namespace Binary64

variable {m : Nat} {q : Int}

/-- The number that a decimal is. -/
def Decimal.value (d : Decimal) : ℚ := d.digits * 10 ^ d.exponent

/-! ### Points near a double -/

theorem magnitude_pos (hm : m ≠ 0) : 0 < magnitude m q := by
  have hm' : (0 : ℚ) < m := by exact_mod_cast Nat.pos_of_ne_zero hm
  exact mul_pos hm' (zpow_pos (by norm_num) q)

/-- Zero does not round to a double with digits. -/
theorem not_roundsTo_zero (hm : m ≠ 0) : roundsTo m q 0 = false := by
  have hm1 := one_le_cast hm
  have hhalf := halfBelow_le m q
  rw [← Bool.not_eq_true, roundsTo_iff, zero_div]
  rintro ⟨⟨hlow, -⟩, -⟩
  linarith

/-- What is nearer to a double than its `2 ^ 54`-th part rounds to it. -/
theorem roundsTo_of_near {r : ℚ} (h : Fits m q)
    (hr : |r - magnitude m q| < magnitude m q / 2 ^ 54) : roundsTo m q r = true := by
  have hu : (0 : ℚ) < 2 ^ q := zpow_pos (by norm_num) q
  have hm53 := h.add_one_le
  have hscaled : |r / 2 ^ q - m| < m / 2 ^ 54 := by
    have he : r / 2 ^ q - m = (r - magnitude m q) / 2 ^ q := by
      rw [magnitude]
      field_simp
    rw [he, abs_div, abs_of_pos hu, div_lt_iff₀ hu]
    rw [magnitude] at hr ⊢
    linarith
  obtain ⟨hlow, hhigh⟩ := abs_lt.1 hscaled
  -- below a power of two half the way down is just that part of it
  have hbelow : (m : ℚ) / 2 ^ 54 ≤ halfBelow m q := by
    rw [halfBelow]
    split_ifs with hpow
    · rw [hpow.1]
      norm_num
    · linarith
  have hstrict : (m : ℚ) - halfBelow m q < r / 2 ^ q ∧ r / 2 ^ q < m + 1 / 2 :=
    ⟨by linarith, by linarith⟩
  exact roundsTo_iff.2 ⟨⟨hstrict.1.le, hstrict.2.le⟩, Or.inr hstrict⟩

/-! ### The search -/

theorem roundEven_eq_floor_or (r : ℚ) : roundEven r = ⌊r⌋₊ ∨ roundEven r = ⌊r⌋₊ + 1 := by
  rw [roundEven, floor_toNat]
  split_ifs <;> simp

/-- What is found rounds to the double, and if nothing is then neither neighbour does. -/
theorem neighbour?_cases (m : Nat) (q k : Int) :
    (∃ n, neighbour? m q k = some n ∧ roundsTo m q (n * 10 ^ k) = true) ∨
      (neighbour? m q k = none ∧ roundsTo m q (⌊magnitude m q / 10 ^ k⌋₊ * 10 ^ k) = false ∧
        roundsTo m q ((⌊magnitude m q / 10 ^ k⌋₊ + 1 : Nat) * 10 ^ k) = false) := by
  have hround := roundEven_eq_floor_or (magnitude m q / 10 ^ k)
  rw [neighbour?, floor_toNat]
  generalize ⌊magnitude m q / 10 ^ k⌋₊ = d at hround
  split
  · next hd hd' =>
    refine Or.inl ⟨roundEven (magnitude m q / 10 ^ k), rfl, ?_⟩
    rcases hround with he | he
    · rw [he]
      exact hd
    · rw [he]
      exact hd'
  · next hd _ => exact Or.inl ⟨d, rfl, hd⟩
  · next _ hd' => exact Or.inl ⟨d + 1, rfl, hd'⟩
  · next hd hd' => exact Or.inr ⟨rfl, hd, hd'⟩

/-- On a grid that is fine enough a neighbour is found. -/
theorem neighbour?_ne_none {k : Int} (h : Fits m q) (hk : 10 ^ k * 10 ^ 16 ≤ magnitude m q) :
    neighbour? m q k ≠ none := by
  have hu : (0 : ℚ) < 10 ^ k := zpow_pos (by norm_num) k
  -- a point that is half a step away or less is near enough
  have hnear (n : Nat) (hn : |n - magnitude m q / 10 ^ k| ≤ 1 / 2) :
      roundsTo m q (n * 10 ^ k) = true := by
    refine roundsTo_of_near h ?_
    have he : n * 10 ^ k - magnitude m q = (n - magnitude m q / 10 ^ k) * 10 ^ k := by
      field_simp
    rw [he, abs_mul, abs_of_pos hu]
    calc |n - magnitude m q / 10 ^ k| * 10 ^ k ≤ 1 / 2 * 10 ^ k := by gcongr
      _ < 10 ^ k * 10 ^ 16 / 2 ^ 54 := by linarith
      _ ≤ magnitude m q / 2 ^ 54 := by gcongr
  have hpos : 0 ≤ magnitude m q / 10 ^ k := by
    refine div_nonneg (le_trans ?_ hk) hu.le
    positivity
  have hle := Nat.floor_le hpos
  have hlt := Nat.lt_floor_add_one (magnitude m q / 10 ^ k)
  rcases neighbour?_cases m q k with ⟨n, hn, -⟩ | ⟨-, hd, hd'⟩
  · rw [hn]
    exact Option.some_ne_none n
  · generalize ⌊magnitude m q / 10 ^ k⌋₊ = d at hd hd' hle hlt
    rcases le_or_gt (magnitude m q / 10 ^ k - d) (1 / 2) with hhalf | hhalf
    · have hnearer : |d - magnitude m q / 10 ^ k| ≤ 1 / 2 := by
        rwa [abs_sub_comm, abs_of_nonneg (by linarith)]
      rw [hnear d hnearer] at hd
      cases hd
    · have hnearer : |((d + 1 : Nat) : ℚ) - magnitude m q / 10 ^ k| ≤ 1 / 2 := by
        push_cast
        rw [abs_of_pos (by linarith)]
        linarith
      rw [hnear (d + 1) hnearer] at hd'
      cases hd'

/-- What a search comes to rounds to the double, if there is something to find. -/
theorem roundsTo_searchGrid {point : Int} {steps n : Nat}
    (h : ∃ i < steps, neighbour? m q (point - (n + i : Nat)) ≠ none) :
    roundsTo m q (searchGrid m q point steps n).value = true := by
  induction steps generalizing n with
  | zero =>
    obtain ⟨i, hi, -⟩ := h
    exact absurd hi (Nat.not_lt_zero i)
  | succ steps ih =>
    rw [searchGrid]
    rcases neighbour?_cases m q (point - n) with ⟨d, hfound, hd⟩ | ⟨hnone, -, -⟩
    · rw [hfound]
      dsimp only
      split_ifs with hten
      · rw [Decimal.value, Nat.cast_one, one_mul, zpow_add₀ (by norm_num), zpow_one, mul_comm]
        rwa [hten] at hd
      · exact hd
    · rw [hnone]
      refine ih ?_
      obtain ⟨i, hi, hne⟩ := h
      cases i with
      | zero => exact absurd hnone hne
      | succ i => exact ⟨i, by omega, by rwa [Nat.add_right_comm, Nat.add_assoc]⟩

/-! ### The first digit -/

/-- No double is smaller than the least one. -/
theorem le_magnitude (h : Fits m q) (hm : m ≠ 0) : 2 ^ minExponent ≤ magnitude m q := by
  have hm1 := one_le_cast hm
  calc (2 : ℚ) ^ minExponent ≤ 2 ^ q := zpow_le_zpow_right₀ (by norm_num) h.min_le
    _ ≤ m * 2 ^ q := le_mul_of_one_le_left (by positivity) hm1

/-- The digits of the least double begin less than `330` places behind the point. -/
theorem one_le_magnitude_mul (h : Fits m q) (hm : m ≠ 0) :
    1 ≤ magnitude m q * 10 ^ (330 : Nat) := by
  have hpow : (2 : ℚ) ^ 1074 ≤ 10 ^ 330 := by
    have hnat : 2 ^ 1074 ≤ 10 ^ 330 := by decide +kernel
    exact_mod_cast hnat
  have hone : (2 : ℚ) ^ minExponent * 2 ^ 1074 = 1 := by
    rw [minExponent, ← zpow_natCast, ← zpow_add₀ (by norm_num)]
    exact zpow_zero 2
  rw [← hone]
  exact mul_le_mul (le_magnitude h hm) hpow (pow_pos two_pos 1074).le (magnitude_pos hm).le

/-- The first digit stands where it is said to stand. -/
theorem ten_zpow_pointPosition_le (h : Fits m q) (hm : m ≠ 0) :
    10 ^ (pointPosition (magnitude m q) - 1) ≤ magnitude m q := by
  have hone := one_le_magnitude_mul h hm
  have hne : ⌊magnitude m q * 10 ^ (330 : Nat)⌋₊ ≠ 0 := Nat.pos_iff_ne_zero.1 (Nat.floor_pos.2 hone)
  have hle := Nat.floor_le (zero_le_one.trans hone)
  rw [pointPosition, floor_toNat]
  generalize ⌊magnitude m q * 10 ^ (330 : Nat)⌋₊ = n at hne hle
  have hlen := Text.length_ofNat_pos n
  have he : ((Text.ofNat n).length : Int) - 330 - 1 =
      (((Text.ofNat n).length - 1 : Nat) : Int) - (330 : Nat) := by omega
  rw [he, zpow_sub₀ (by norm_num), zpow_natCast, zpow_natCast, div_le_iff₀ (by positivity)]
  calc (10 : ℚ) ^ ((Text.ofNat n).length - 1) ≤ n := by exact_mod_cast Text.ten_pow_length_le hne
    _ ≤ magnitude m q * 10 ^ 330 := hle

/-- **The shortest decimal of a double rounds to it.** -/
theorem roundsTo_shortest (h : Fits m q) (hm : m ≠ 0) :
    roundsTo m q (shortest m q).value = true := by
  refine roundsTo_searchGrid ⟨16, by decide, neighbour?_ne_none h ?_⟩
  have he : (10 : ℚ) ^ (pointPosition (magnitude m q) - (1 + 16 : Nat)) * 10 ^ 16 =
      10 ^ (pointPosition (magnitude m q) - 1) := by
    rw [← zpow_natCast (10 : ℚ) 16, ← zpow_add₀ (by norm_num)]
    congr 1
    push_cast
    ring
  rw [he]
  exact ten_zpow_pointPosition_le h hm

theorem shortest_digits_ne_zero (h : Fits m q) (hm : m ≠ 0) : (shortest m q).digits ≠ 0 := by
  intro hzero
  have hround := roundsTo_shortest h hm
  rw [Decimal.value, hzero, Nat.cast_zero, zero_mul, not_roundsTo_zero hm] at hround
  cases hround

/-! ### Reading a decimal -/

/-- A number that rounds to a double other than zero lies between the powers of two at the ends of
their range. -/
theorem bounds_of_roundsTo {r : ℚ} (h : Fits m q) (hm : m ≠ 0) (hr : roundsTo m q r = true) :
    2 ^ (minExponent - 1) ≤ r ∧ r < 2 ^ (maxExponent + 53) := by
  have hu : (0 : ℚ) < 2 ^ q := zpow_pos (by norm_num) q
  obtain ⟨⟨hlow, hhigh⟩, -⟩ := roundsTo_iff.1 hr
  have hhalf := halfBelow_le m q
  have hm1 := one_le_cast hm
  have hm53 := h.add_one_le
  constructor
  · calc (2 : ℚ) ^ (minExponent - 1) ≤ 2 ^ (q - 1) :=
          zpow_le_zpow_right₀ (by norm_num) (by linarith [h.min_le])
      _ = 1 / 2 * 2 ^ q := by
          rw [zpow_sub_one₀ (by norm_num)]
          ring
      _ ≤ r := (le_div_iff₀ hu).1 (by linarith)
  · calc r < 2 ^ (53 : Int) * 2 ^ q := (div_lt_iff₀ hu).1 (by norm_num at hm53 ⊢; linarith)
      _ = 2 ^ (q + 53) := by rw [← zpow_add₀ (by norm_num), add_comm]
      _ ≤ 2 ^ (maxExponent + 53) := zpow_le_zpow_right₀ (by norm_num) (by linarith [h.le_max])

/-- A decimal lies between the powers of ten that the number of its digits tells. -/
theorem bounds_of_length {digits : Nat} (h : digits ≠ 0) (exponent : Int) :
    (10 : ℚ) ^ ((Text.ofNat digits).length + exponent - 1) ≤ digits * 10 ^ exponent ∧
      (digits : ℚ) * 10 ^ exponent < 10 ^ ((Text.ofNat digits).length + exponent) := by
  have hu : (0 : ℚ) < 10 ^ exponent := zpow_pos (by norm_num) exponent
  have hlen := Text.length_ofNat_pos digits
  have he : ((Text.ofNat digits).length : Int) + exponent - 1 =
      (((Text.ofNat digits).length - 1 : Nat) : Int) + exponent := by omega
  rw [he, zpow_add₀ (by norm_num), zpow_add₀ (by norm_num), zpow_natCast, zpow_natCast]
  constructor
  · gcongr
    exact_mod_cast Text.ten_pow_length_le h
  · gcongr
    exact_mod_cast Text.lt_ten_pow_length digits

/-- **A decimal is read as the double that it rounds to.** -/
theorem ofDecimal_of_roundsTo {digits : Nat} {exponent : Int} (h : Fits m q) (hm : m ≠ 0)
    (hr : roundsTo m q (digits * 10 ^ exponent) = true) (negative : Bool) :
    ofDecimal negative digits exponent = .finite negative m q := by
  have hdigits : digits ≠ 0 := by
    rintro rfl
    rw [Nat.cast_zero, zero_mul, not_roundsTo_zero hm] at hr
    cases hr
  obtain ⟨hlow, hhigh⟩ := bounds_of_roundsTo h hm hr
  obtain ⟨hlow', hhigh'⟩ := bounds_of_length hdigits exponent
  have hsmall : (10 : ℚ) ^ (-330 : Int) ≤ 2 ^ (minExponent - 1) := by
    have hnat : 2 ^ 1075 ≤ 10 ^ 330 := by decide +kernel
    have hpow : (2 : ℚ) ^ 1075 ≤ 10 ^ 330 := by exact_mod_cast hnat
    calc (10 : ℚ) ^ (-330 : Int) = (10 ^ 330)⁻¹ := zpow_neg_coe_of_pos 10 (Nat.succ_pos 329)
      _ ≤ (2 ^ 1075)⁻¹ := inv_anti₀ (pow_pos two_pos 1075) hpow
      _ = 2 ^ (minExponent - 1) := (zpow_neg_coe_of_pos 2 (Nat.succ_pos 1074)).symm
  have hlarge : (2 : ℚ) ^ (maxExponent + 53) ≤ 10 ^ (310 : Int) := by
    have hnat : 2 ^ 1024 ≤ 10 ^ 310 := by decide +kernel
    have hpow : (2 : ℚ) ^ 1024 ≤ 10 ^ 310 := by exact_mod_cast hnat
    calc (2 : ℚ) ^ (maxExponent + 53) = 2 ^ 1024 := zpow_natCast 2 1024
      _ ≤ 10 ^ 310 := hpow
      _ = 10 ^ (310 : Int) := (zpow_natCast 10 310).symm
  have hmin : -330 < (Text.ofNat digits).length + exponent := 
    (zpow_lt_zpow_iff_right₀ (by norm_num : (1 : ℚ) < 10)).1
      (lt_of_le_of_lt (hsmall.trans hlow) hhigh')
  have hmax : (Text.ofNat digits).length + exponent - 1 < 310 :=
    (zpow_lt_zpow_iff_right₀ (by norm_num : (1 : ℚ) < 10)).1
      (lt_of_le_of_lt hlow' (lt_of_lt_of_le hhigh hlarge))
  rw [ofDecimal, if_neg (by omega), if_neg (by omega)]
  exact ofRat_of_roundsTo h hm hr negative

/-! ### Reading a text -/

theorem readExponent?_minus (n : Nat) :
    readExponent? ('e' :: '-' :: Text.ofNat n) = some (-(n : Int)) := by
  rw [readExponent?, if_pos (Or.inl rfl), if_pos (Text.all_isDigit_ofNat n), Text.toNat?_ofNat]
  rfl

theorem readExponent?_plus (n : Nat) :
    readExponent? ('e' :: '+' :: Text.ofNat n) = some (n : Int) := by
  rw [readExponent?, if_pos (Or.inl rfl), if_pos (Text.all_isDigit_ofNat n), Text.toNat?_ofNat]
  rfl

theorem readExponent?_ofNat (n : Nat) : readExponent? ('e' :: Text.ofNat n) = some (n : Int) := by
  have hne {c : Char} (hc : Text.isDigit c = false) (t : Text) : Text.ofNat n = c :: t → False := by
    intro he
    have hdigit := Text.isDigit_of_mem_ofNat (he ▸ List.mem_cons_self : c ∈ Text.ofNat n)
    rw [hc] at hdigit
    cases hdigit
  rw [readExponent?, if_pos (Or.inl rfl), if_pos (Text.all_isDigit_ofNat n), Text.toNat?_ofNat]
  · rfl
  · exact hne rfl
  · exact hne rfl

section Layout

variable {d : Decimal} (l : d.Layout) {plus : Text}

/-- Powers of ten are read back, with or without a sign. -/
theorem readExponent?_powerText (hplus : plus = [] ∨ plus = ['+']) :
    readExponent? (l.powerText plus) = some (l.power.getD 0) := by
  rw [Decimal.Layout.powerText]
  cases l.power with
  | none => rfl
  | some e =>
    cases e with
    | ofNat n =>
      rcases hplus with rfl | rfl
      · exact readExponent?_ofNat n
      · exact readExponent?_plus n
    | negSucc n => exact readExponent?_minus (n + 1)

/-- However a decimal is laid out, its digits and its exponent are read, up to zeros behind the
digits. -/
theorem readMagnitude?_text (hplus : plus = [] ∨ plus = ['+']) (negative : Bool) :
    readMagnitude? negative (l.text plus) =
      some (ofDecimal negative (d.digits * 10 ^ l.behind) (d.exponent - l.behind)) := by
  obtain ⟨hwhole, hrest⟩ := l.takeWhile_dropWhile_text plus
  obtain ⟨hfraction, hpower⟩ := l.takeWhile_dropWhile_fraction plus
  have hread := readExponent?_powerText l hplus
  have hexponent : l.power.getD 0 - (l.fraction.length : Int) = d.exponent - l.behind := by
    rw [l.exponent_eq]
    omega
  have hne : l.whole ++ l.fraction ≠ [] := fun h => l.whole_ne_nil (List.append_eq_nil_iff.1 h).1
  rw [← hexponent, ← l.decimalValue_eq, readMagnitude?, hwhole, hrest, Decimal.Layout.fractionText]
  obtain ⟨c, cs, hds⟩ := List.exists_cons_of_ne_nil hne
  split_ifs with hempty
  · have hnil : l.fraction = [] := List.isEmpty_iff.1 hempty
    have hpoint (more : Text) : l.powerText plus = '.' :: more → False := by
      rw [Decimal.Layout.powerText]
      cases l.power with
      | none => simp
      | some e => simp
    rw [hnil] at hds
    rw [List.nil_append]
    simp only [hnil, hds, hread, Option.map_some]
  · simp only [List.cons_append, hfraction, hpower, hds, hread, Option.map_some]

/-- The text of a decimal begins with a digit. -/
theorem isDigit_of_head?_text (plus : Text) {c : Char} (hc : (l.text plus).head? = some c) :
    Text.isDigit c = true := by
  rw [Decimal.Layout.text, List.append_assoc, List.head?_append_of_ne_nil _ l.whole_ne_nil] at hc
  exact l.isDigit_of_mem (List.mem_append_left l.fraction (List.mem_of_mem_head? hc))

theorem ofText?_layout (hplus : plus = [] ∨ plus = ['+']) (negative : Bool) :
    ofText? ((if negative then ['-'] else []) ++ l.text plus) =
      some (ofDecimal negative (d.digits * 10 ^ l.behind) (d.exponent - l.behind)) := by
  cases negative with
  | true => exact readMagnitude?_text l hplus true
  | false =>
    have hne {c : Char} (hc : Text.isDigit c = false) (t : Text) :
        l.text plus = c :: t → False := by
      intro he
      rw [isDigit_of_head?_text l plus (by rw [he]; rfl)] at hc
      cases hc
    rw [if_neg Bool.false_ne_true, List.nil_append, ofText?, readMagnitude?_text l hplus]
    · exact hne rfl
    · exact hne rfl

end Layout

/-- **A finite double is read back from its text.** -/
theorem ofText?_text (style : Style) (hplus : style.plus = [] ∨ style.plus = ['+'])
    (h : Fits m q) (negative : Bool) :
    ofText? (text style (.finite negative m q)) = some (.finite negative m q) := by
  rw [text]
  by_cases hm : m = 0
  · -- zero has the least exponent
    subst hm
    obtain rfl : q = minExponent := h.full.resolve_left (by decide)
    rw [if_pos rfl]
    cases negative <;> decide
  · obtain ⟨l, hl⟩ := (shortest m q).exists_layout style.plus
    have hvalue : ((((shortest m q).digits * 10 ^ l.behind : Nat) : ℚ) *
        10 ^ ((shortest m q).exponent - l.behind)) = (shortest m q).value := by
      rw [Decimal.value, zpow_sub₀ (by norm_num)]
      push_cast
      field_simp
      rw [zpow_natCast]
    have hround := roundsTo_shortest h hm
    rw [← hvalue] at hround
    rw [if_neg hm, hl, ofText?_layout l hplus, ofDecimal_of_roundsTo h hm hround]

/-- What is read is always a double. -/
theorem isDouble_of_ofText? {t : Text} {x : Binary64} (h : ofText? t = some x) : x.IsDouble := by
  have hread {negative : Bool} {t : Text} (h : readMagnitude? negative t = some x) :
      x.IsDouble := by
    rw [readMagnitude?] at h
    dsimp only at h
    split at h
    · cases h
    · obtain ⟨e, -, rfl⟩ := Option.map_eq_some_iff.1 h
      exact isDouble_ofDecimal negative _ _
  rw [ofText?.eq_def] at h
  split at h
  · exact hread h
  · exact hread h
  · exact hread h

end Binary64

end MarkdownWeave
