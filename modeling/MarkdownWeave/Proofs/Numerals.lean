import Mathlib.Algebra.Ring.Nat
import Mathlib.Data.List.Basic
import Mathlib.Data.List.TakeWhile
import MarkdownWeave.Proofs.Lists
import MarkdownWeave.Value.Normal

/-!
# Numerals

A numeral is a text of digits.  A double is written as the digits of its shortest decimal, with a
point put somewhere among them or around them; in whatever way that happens, no digit is lost, and
few other characters are added.

## Main definitions

* `Binary64.Decimal.Layout` — the ways in which a decimal is laid out.
* `Value.isScalarChar` — the characters of the texts of numbers, truth values and null.

## Main results

* `Text.decimalValue_ofNat` — **a numeral is read as the number that it was written for.**
* `Binary64.Decimal.exists_layout` — **a decimal is laid out in one of these ways.**
* `Value.isScalarChar_of_mem` — no other characters are in the text of a scalar.
-/

namespace MarkdownWeave

namespace Text

/-! ### Natural numbers and integers -/

theorem isDigit_of_mem_ofNat {n : Nat} {c : Char} (h : c ∈ ofNat n) : isDigit c = true := by
  have hc : c.isDigit = true := Nat.isDigit_of_mem_toDigits (by decide) (by decide) h
  simpa [isDigit, Char.isDigit, Char.le_def] using hc

theorem all_isDigit_ofNat (n : Nat) : (ofNat n).all isDigit = true :=
  List.all_eq_true.2 fun _ => isDigit_of_mem_ofNat

theorem ofNat_ne_nil (n : Nat) : ofNat n ≠ [] := Nat.toDigits_ne_nil

theorem length_ofNat_pos (n : Nat) : 0 < (ofNat n).length := Nat.length_toDigits_pos

/-- A number is below the power of ten that has one digit more. -/
theorem lt_ten_pow_length (n : Nat) : n < 10 ^ (ofNat n).length :=
  (Nat.length_toDigits_le_iff (by decide) (length_ofNat_pos n)).1 (Nat.le_refl _)

/-- It reaches the power of ten that has as many digits. -/
theorem ten_pow_length_le {n : Nat} (hn : n ≠ 0) : 10 ^ ((ofNat n).length - 1) ≤ n := by
  have hlen := length_ofNat_pos n
  rcases Nat.eq_zero_or_pos ((ofNat n).length - 1) with he | hpos
  · rw [he]
    exact Nat.one_le_iff_ne_zero.2 hn
  · rw [← Nat.not_lt]
    intro hlt
    have hle : (ofNat n).length ≤ (ofNat n).length - 1 :=
      (Nat.length_toDigits_le_iff (by decide) hpos).2 hlt
    omega

/-- Only the numeral of zero begins with a zero. -/
theorem head?_ofNat_ne {n : Nat} (hn : n ≠ 0) : (ofNat n).head? ≠ some '0' := by
  induction n using Nat.strongRecOn with
  | ind n ih =>
    rw [ofNat]
    rcases Nat.lt_or_ge n 10 with hlt | hge
    · rw [Nat.toDigits_of_lt_base hlt]
      have hdigit : ∀ n < 10, n ≠ 0 → [n.digitChar].head? ≠ some '0' := by decide
      exact hdigit n hlt hn
    · have hfirst := ih (n / 10) (by omega) (by omega)
      rw [Nat.toDigits_of_base_le (by decide) hge, List.head?_append]
      rw [ofNat] at hfirst
      cases hhead : (Nat.toDigits 10 (n / 10)).head? with
      | none => exact absurd (List.head?_eq_none_iff.1 hhead) Nat.toDigits_ne_nil
      | some c => rwa [hhead] at hfirst

theorem digitValue?_of_isDigit {c : Char} (h : isDigit c = true) :
    digitValue? c = some (c.toNat - '0'.toNat) ∧ c.toNat - '0'.toNat < 10 := by
  refine ⟨by rw [digitValue?, if_pos h], ?_⟩
  simp only [isDigit, Bool.and_eq_true, decide_eq_true_eq, Char.le_def, UInt32.le_iff_toNat_le] at h
  show c.val.toNat - 48 < 10
  have : c.val.toNat ≤ 57 := h.2
  omega

/-- Digits are read one after the other. -/
theorem readDigits_of_isDigit {ds : Text} (h : ∀ c ∈ ds, isDigit c = true) (n : Nat) :
    readDigits 10 n ds = some (Nat.ofDigitChars 10 ds n) := by
  induction ds generalizing n with
  | nil => simp [readDigits]
  | cons c ds ih =>
    obtain ⟨hc, hds⟩ := List.forall_mem_cons.1 h
    obtain ⟨hvalue, hlt⟩ := digitValue?_of_isDigit hc
    simp only [readDigits, hvalue, if_pos hlt, ih hds, Nat.ofDigitChars_cons, Nat.mul_comm n 10]

theorem decimalValue_of_isDigit {ds : Text} (h : ∀ c ∈ ds, isDigit c = true) :
    decimalValue ds = Nat.ofDigitChars 10 ds 0 := by
  rw [decimalValue, readDigits_of_isDigit h, Option.getD_some]

/-- **A numeral is read as the number that it was written for.** -/
theorem decimalValue_ofNat (n : Nat) : decimalValue (ofNat n) = n := by
  rw [decimalValue_of_isDigit fun c => isDigit_of_mem_ofNat]
  exact Nat.ofDigitChars_ten_toDigits

theorem toNat?_ofNat (n : Nat) : toNat? 10 (ofNat n) = some n := by
  have hread := readDigits_of_isDigit (fun c => isDigit_of_mem_ofNat (n := n) (c := c)) 0
  rw [ofNat, Nat.ofDigitChars_ten_toDigits] at hread
  rw [ofNat]
  cases hds : Nat.toDigits 10 n with
  | nil => exact absurd hds Nat.toDigits_ne_nil
  | cons c cs => rwa [hds] at hread

theorem isDigit_or_eq_of_mem_ofInt {n : Int} {c : Char} (h : c ∈ ofInt n) :
    isDigit c = true ∨ c = '-' := by
  cases n with
  | ofNat n => exact Or.inl (isDigit_of_mem_ofNat h)
  | negSucc n =>
    rcases List.mem_cons.1 h with rfl | h
    · exact Or.inr rfl
    · exact Or.inl (isDigit_of_mem_ofNat h)

end Text

/-! ### Doubles -/

namespace Binary64

namespace Decimal

/-- A way to lay out a decimal: a whole part, a fraction and a power of ten.  The digits of both
parts are those of the decimal, with zeros around them. -/
structure Layout (d : Decimal) where
  /-- The digits before the point. -/
  whole : Text
  /-- The digits behind it. -/
  fraction : Text
  /-- The power of ten, if it is written. -/
  power : Option Int
  /-- How many zeros stand before the digits of the decimal. -/
  before : Nat
  /-- How many zeros stand behind them. -/
  behind : Nat
  whole_ne_nil : whole ≠ []
  digits_eq : whole ++ fraction =
    List.replicate before '0' ++ Text.ofNat d.digits ++ List.replicate behind '0'
  exponent_eq : d.exponent = power.getD 0 - fraction.length + behind
  /-- The whole part does not begin with a zero, if it is not a single one. -/
  before_eq : before = 0 ∨ whole = ['0']
  /-- It is not all that there is. -/
  not_whole : fraction ≠ [] ∨ power ≠ none

namespace Layout

variable {d : Decimal} (l : Layout d)

/-- The point and what is behind it; no point without a fraction. -/
def fractionText : Text := if l.fraction.isEmpty then [] else '.' :: l.fraction

/-- The power of ten, if it is written. -/
def powerText (plus : Text) : Text :=
  match l.power with
  | none => []
  | some e => 'e' :: ((if 0 ≤ e then plus else []) ++ Text.ofInt e)

/-- All of it. -/
def text (plus : Text) : Text := l.whole ++ l.fractionText ++ l.powerText plus

/-- Only digits are in both parts. -/
theorem isDigit_of_mem {c : Char} (hc : c ∈ l.whole ++ l.fraction) : Text.isDigit c = true := by
  rw [l.digits_eq, List.mem_append, List.mem_append] at hc
  rcases hc with (hc | hc) | hc
  · rw [List.eq_of_mem_replicate hc]
    rfl
  · exact Text.isDigit_of_mem_ofNat hc
  · rw [List.eq_of_mem_replicate hc]
    rfl

/-- They are read as the digits of the decimal, and zeros behind those count. -/
theorem decimalValue_eq : Text.decimalValue (l.whole ++ l.fraction) = d.digits * 10 ^ l.behind := by
  rw [Text.decimalValue_of_isDigit fun c => l.isDigit_of_mem, l.digits_eq, Nat.ofDigitChars_append,
    Nat.ofDigitChars_append, Nat.ofDigitChars_replicate_zero, Nat.ofDigitChars_replicate_zero,
    Nat.mul_zero, Text.ofNat, Nat.ofDigitChars_ten_toDigits, Nat.mul_comm]

/-- The whole part begins with a zero only if that is all of it. -/
theorem whole_eq_or_head?_ne (hd : d.digits ≠ 0) : l.whole = ['0'] ∨ l.whole.head? ≠ some '0' := by
  rcases l.before_eq with hbefore | hzero
  · have hhead := congrArg List.head? l.digits_eq
    rw [hbefore, List.replicate_zero, List.nil_append, List.head?_append_of_ne_nil _ l.whole_ne_nil,
      List.head?_append_of_ne_nil _ (Text.ofNat_ne_nil d.digits)] at hhead
    rw [hhead]
    exact Or.inr (Text.head?_ofNat_ne hd)
  · exact Or.inl hzero

/-- A power of ten does not begin with a digit. -/
theorem isDigit_eq_false_of_head?_powerText (plus : Text) :
    ∀ c, (l.powerText plus).head? = some c → Text.isDigit c = false := by
  rw [powerText]
  cases l.power with
  | none => simp
  | some e =>
    rintro c ⟨⟩
    rfl

/-- The digits at the beginning are the whole part. -/
theorem takeWhile_dropWhile_text (plus : Text) :
    (l.text plus).takeWhile Text.isDigit = l.whole ∧
      (l.text plus).dropWhile Text.isDigit = l.fractionText ++ l.powerText plus := by
  rw [text, List.append_assoc]
  refine takeWhile_dropWhile_append
    (fun c hc => l.isDigit_of_mem (List.mem_append_left l.fraction hc)) ?_
  rw [fractionText]
  split
  · exact l.isDigit_eq_false_of_head?_powerText plus
  · rintro c ⟨⟩
    rfl

/-- The digits behind the point are the fraction. -/
theorem takeWhile_dropWhile_fraction (plus : Text) :
    (l.fraction ++ l.powerText plus).takeWhile Text.isDigit = l.fraction ∧
      (l.fraction ++ l.powerText plus).dropWhile Text.isDigit = l.powerText plus :=
  takeWhile_dropWhile_append (fun _ hc => l.isDigit_of_mem (List.mem_append_right l.whole hc))
    (l.isDigit_eq_false_of_head?_powerText plus)

/-- Something is behind the whole part. -/
theorem fractionText_append_powerText_ne_nil (plus : Text) :
    l.fractionText ++ l.powerText plus ≠ [] := by
  rw [fractionText, powerText]
  rcases l.not_whole with hfraction | hpower
  · rw [if_neg (by simpa using hfraction)]
    exact List.cons_ne_nil _ _
  · cases he : l.power with
    | none => exact absurd he hpower
    | some e => simp

end Layout

/-- **A decimal is laid out in one of these ways.** -/
theorem exists_layout (plus : Text) (d : Decimal) : ∃ l : Layout d, d.text plus = l.text plus := by
  cases hds : Text.ofNat d.digits with
  | nil => exact absurd hds (Text.ofNat_ne_nil d.digits)
  | cons c b =>
    simp only [Decimal.text, hds]
    split
    · split
      · next hneg =>
        -- the point stands before all digits, with zeros between
        generalize hk : (-(((c :: b).length : Int) + d.exponent)).toNat = k
        refine ⟨⟨['0'], List.replicate k '0' ++ c :: b, none, k + 1, 0, List.cons_ne_nil _ _,
          ?digits, ?exponent, Or.inr rfl, Or.inl (by simp)⟩, ?text⟩
        case digits => simp [hds, List.replicate_succ]
        case exponent =>
          simp only [Option.getD_none, List.length_append, List.length_replicate]
          omega
        case text => simp [Layout.text, Layout.fractionText, Layout.powerText]
      · next hpos =>
        split
        · next hlong =>
          -- it stands behind all of them, with zeros between
          generalize hk : (((c :: b).length : Int) + d.exponent).toNat - (c :: b).length = k
          refine ⟨⟨(c :: b) ++ List.replicate k '0', ['0'], none, 0, k + 1, List.cons_ne_nil _ _,
            ?digits, ?exponent, Or.inl rfl, Or.inl (List.cons_ne_nil _ _)⟩, ?text⟩
          case digits => simp [hds, List.replicate_succ']
          case exponent =>
            simp only [Option.getD_none, List.length_singleton]
            omega
          case text => simp [Layout.text, Layout.fractionText, Layout.powerText]
        · next hshort =>
          -- it stands among them
          generalize hk : (((c :: b).length : Int) + d.exponent).toNat = k
          have hdrop : (c :: b).drop k ≠ [] := by
            rw [Ne, List.drop_eq_nil_iff]
            omega
          refine ⟨⟨(c :: b).take k, (c :: b).drop k, none, 0, 0, ?whole, ?digits, ?exponent,
            Or.inl rfl, Or.inl hdrop⟩, ?text⟩
          case whole =>
            rw [Ne, List.take_eq_nil_iff]
            simp only [reduceCtorEq, or_false]
            omega
          case digits => simp [hds]
          case exponent =>
            simp only [Option.getD_none, List.length_drop]
            omega
          case text =>
            rw [Layout.text, Layout.fractionText, if_neg (by simpa using hdrop)]
            simp [Layout.powerText]
    · -- it stands behind the first of them, and a power of ten follows
      refine ⟨⟨[c], b, some (((c :: b).length : Int) + d.exponent - 1), 0, 0,
        List.cons_ne_nil _ _, ?digits, ?exponent, Or.inl rfl, Or.inr (by simp)⟩, ?text⟩
      case digits => simp [hds]
      case exponent =>
        simp only [Option.getD_some, List.length_cons]
        omega
      case text => simp [Layout.text, Layout.fractionText, Layout.powerText]

end Decimal

section Characters

variable {p : Char → Prop} {plus : Text} (hdigit : ∀ c, Text.isDigit c = true → p c)
  (hpoint : p '.') (hminus : p '-') (hletter : p 'e') (hplus : ∀ c ∈ plus, p c)

include hdigit hpoint hminus hletter hplus

/-- Besides digits there is a point, the letter of an exponent, and its sign. -/
theorem Decimal.Layout.forall_mem {d : Decimal} (l : Layout d) : ∀ c ∈ l.text plus, p c := by
  have hds : ∀ c ∈ l.whole ++ l.fraction, p c := fun c hc => hdigit c (l.isDigit_of_mem hc)
  rw [List.forall_mem_append] at hds
  rw [text, List.forall_mem_append, List.forall_mem_append]
  refine ⟨⟨hds.1, ?_⟩, ?_⟩
  · rw [fractionText]
    split
    · simp
    · exact List.forall_mem_cons.2 ⟨hpoint, hds.2⟩
  · rw [powerText]
    split
    · simp
    · rw [List.forall_mem_cons, List.forall_mem_append]
      refine ⟨hletter, ?_, fun c hc => ?_⟩
      · split
        · exact hplus
        · simp
      · rcases Text.isDigit_or_eq_of_mem_ofInt hc with hc | rfl
        · exact hdigit c hc
        · exact hminus

theorem forall_mem_text {style : Style} (hstyle : style.plus = plus)
    (hnan : ∀ c ∈ style.nan, p c) (hinfinity : ∀ c ∈ style.infinity, p c) (x : Binary64) :
    ∀ c ∈ x.text style, p c := by
  have hsign (negative : Bool) : ∀ c ∈ (if negative then ['-'] else [] : Text), p c := by
    cases negative <;> simp [hminus]
  cases x with
  | nan => exact hnan
  | infinite negative => exact List.forall_mem_append.2 ⟨hsign negative, hinfinity⟩
  | finite negative m q =>
    refine List.forall_mem_append.2 ⟨hsign negative, ?_⟩
    split
    · simp [hdigit, hpoint, Text.isDigit]
    · subst hstyle
      obtain ⟨l, hl⟩ := (shortest m q).exists_layout style.plus
      rw [hl]
      exact l.forall_mem hdigit hpoint hminus hletter hplus

end Characters

end Binary64

namespace Value

/-- The characters of the texts of numbers, truth values and null. -/
def isScalarChar (c : Char) : Bool := Text.isDigit c || ("-.aefilnrstu" : Text).contains c

/-- No other characters are in the text of a scalar. -/
theorem isScalarChar_of_mem {v : Value} {t : Text} (h : v.scalarText? = some t) :
    ∀ c ∈ t, isScalarChar c = true := by
  cases v with
  | null =>
    cases h
    exact List.all_eq_true.1 rfl
  | bool b =>
    cases h
    cases b <;> exact List.all_eq_true.1 rfl
  | int n =>
    cases h
    intro c hc
    rcases Text.isDigit_or_eq_of_mem_ofInt hc with hc | rfl
    · simp [isScalarChar, hc]
    · rfl
  | float x =>
    cases h
    refine Binary64.forall_mem_text (p := fun c => isScalarChar c = true) (fun c hc => ?_) rfl rfl
      rfl ?_ rfl ?_ ?_ x
    · simp [isScalarChar, hc]
    · simp [floatStyle]
    · exact List.all_eq_true.1 rfl
    · exact List.all_eq_true.1 rfl
  | text t => cases h
  | sequence vs => cases h
  | mapping m => cases h
  | tagged tag v => cases h

end Value

end MarkdownWeave
