import Dragonfly.Numerals
import Mathlib.Algebra.Order.Field.Rat
import Mathlib.Algebra.Order.AbsoluteValue.Basic
import Mathlib.Algebra.Order.Field.Basic
import Mathlib.Tactic.FieldSimp
import Mathlib.Tactic.Positivity

/-!
# Rounding to doubles

A finite double is a rational number, and every rational number is rounded to the double
nearest to it, to the even one of two. A number that is too large for a double, and what is
no number at all, has no value here; the two zeros are one value.

A positive number that is at most one, and not so small that its double loses digits, keeps
its sign, and rounding changes it by no more than one part in 2^53.
-/

namespace Dragonfly.DoubleRounding

open FloatingPoint Numerals

/-- The rational number that a finite double is; infinities and what is not a number have none. -/
def value : Double → Option ℚ
  | .finite negative exponent fraction =>
      some ((withSign negative (significand 52 exponent fraction) : ℚ) *
        2 ^ max exponent.val 1 / 2 ^ scale 11 52)
  | _ => none

/-- The number that a rational number is rounded to, which has no value where the nearest double
is an infinity. -/
def rounded (number : ℚ) : Option ℚ :=
  value (nearestQuotient 11 52 (decide (number < 0)) number.num.natAbs number.den)

/-- A tenth is no double: the nearest one is a little larger. -/
example : rounded (1 / 10) = some (3602879701896397 / 36028797018963968) := by decide +kernel

/-- A quotient and the integer it is rounded to are at most one half apart. -/
theorem rounded_quotient_close (number : Nat) {divisor : Nat} (positive : 0 < divisor) :
    2 * (roundedQuotient number divisor * divisor) ≤ 2 * number + divisor ∧
      2 * number ≤ 2 * (roundedQuotient number divisor * divisor) + divisor := by
  have division := Nat.div_add_mod number divisor
  have remainder := Nat.mod_lt number positive
  rw [roundedQuotient, Nat.mul_comm]
  split
  · rw [Nat.mul_comm, Nat.mul_comm _ divisor, Nat.mul_add]
    omega
  · rw [Nat.mul_comm, Nat.mul_comm _ divisor]
    omega

/-- The leading digit of a quotient that is at most one. -/
theorem leading_exponent_small {number divisor : Nat} (positive : 0 < number)
    (small : number ≤ divisor) :
    ∃ places : Nat, leadingExponent 2 number divisor = -places ∧
      divisor ≤ number * 2 ^ places ∧ number * 2 ^ places < 2 * divisor := by
  rw [leadingExponent]
  by_cases whole : divisor ≤ number
  · obtain rfl := Nat.le_antisymm small whole
    refine ⟨0, ?_, by omega, by omega⟩
    rw [if_pos whole, Nat.div_self positive]
    rfl
  · rw [if_neg whole]
    have division := Nat.div_add_mod (divisor + number - 1) number
    have remainder := Nat.mod_lt (divisor + number - 1) positive
    have above := Nat.le_pow_clog Nat.one_lt_two ((divisor + number - 1) / number)
    generalize ceiled : (divisor + number - 1) / number = ceiling at division above
    have several : 1 < ceiling := by
      by_contra few
      have bounded : number * ceiling ≤ number * 1 := Nat.mul_le_mul_left _ (by omega)
      omega
    have below := Nat.pow_pred_clog_lt_self Nat.one_lt_two several
    have places : 0 < Nat.clog 2 ceiling := Nat.clog_pos Nat.one_lt_two several
    generalize Nat.clog 2 ceiling = count at above below places
    refine ⟨count, rfl, ?_, ?_⟩
    · have reached := Nat.mul_le_mul_left number above
      omega
    · obtain ⟨rest, rfl⟩ := Nat.exists_eq_succ_of_ne_zero (Nat.ne_of_gt places)
      have less : number * 2 ^ rest ≤ number * (ceiling - 1) :=
        Nat.mul_le_mul_left number (by rw [Nat.pred_succ] at below; omega)
      rw [Nat.mul_sub_one] at less
      rw [Nat.pow_succ, ← Nat.mul_assoc]
      omega

/-- The value of the fields of a normal double that is below two. A fraction of 2^52 carries
into the exponent. -/
theorem value_fields {exponent fraction : Nat} (normal : 0 < exponent) (small : exponent ≤ 1023)
    (bounded : fraction ≤ 2 ^ 52) :
    value (ofFields 11 52 false ((exponent * 2 ^ 52 + fraction) / 2 ^ 52)
        (exponent * 2 ^ 52 + fraction)) =
      some ((2 ^ 52 + fraction : ℚ) * 2 ^ exponent / 2 ^ scale 11 52) := by
  have finite (field rest : Nat) (present : 0 < field) (fits : field < 2047) (low : rest < 2 ^ 52)
      (same : exponent * 2 ^ 52 + fraction = field * 2 ^ 52 + rest) :
      value (ofFields 11 52 false ((exponent * 2 ^ 52 + fraction) / 2 ^ 52)
        (exponent * 2 ^ 52 + fraction)) =
        some ((2 ^ 52 + rest : ℚ) * 2 ^ field / 2 ^ scale 11 52) := by
    have quotient : (field * 2 ^ 52 + rest) / 2 ^ 52 = field := by omega
    have remainder : (field * 2 ^ 52 + rest) % 2 ^ 52 = rest := by omega
    have highest : max field 1 = field := by omega
    rw [same, quotient, ofFields, dif_pos (show field < 2 ^ 11 - 1 from fits), value]
    simp only [remainder, highest, significand, Nat.ne_of_gt present, if_false, withSign,
      Bool.false_eq_true]
    push_cast
    rfl
  by_cases whole : fraction = 2 ^ 52
  · subst whole
    rw [finite (exponent + 1) 0 (Nat.succ_pos _) (by omega) (by omega) (by omega), pow_succ]
    push_cast
    ring_nf
  · exact finite exponent fraction normal (by omega) (by omega) rfl

/-- The double nearest to a quotient that is at most one is its significand, which has all
its digits, moved down by as many places. -/
theorem nearest_small {number divisor lowest : Nat} (positive : 0 < number)
    (small : number ≤ divisor) (normal : lowest ≤ 1022) (scaled : divisor ≤ number * 2 ^ lowest) :
    ∃ places significant : Nat, value (nearestQuotient 11 52 false number divisor) =
        some ((significant : ℚ) / 2 ^ (52 + places)) ∧
      significant = roundedQuotient (number * 2 ^ (52 + places)) divisor ∧
      divisor ≤ number * 2 ^ places ∧ 0 < significant := by
  obtain ⟨places, leading, reached, below⟩ := leading_exponent_small positive small
  have few : places ≤ 1022 := by
    have less : number * 2 ^ places < number * 2 ^ (lowest + 1) :=
      calc number * 2 ^ places < 2 * divisor := below
        _ ≤ 2 * (number * 2 ^ lowest) := Nat.mul_le_mul_left 2 scaled
        _ = number * 2 ^ (lowest + 1) := by rw [Nat.pow_succ, Nat.mul_comm, Nat.mul_assoc]
    have fewer := (Nat.pow_lt_pow_iff_right Nat.one_lt_two).mp (Nat.lt_of_mul_lt_mul_left less)
    omega
  have lowest : max (leadingExponent 2 number divisor) (1 - bias 11) = -(places : Int) := by
    have biased : (bias 11 : Int) = 1023 := rfl
    rw [leading, biased]
    omega
  have moved : movedQuotient 2 number divisor (52 - -(places : Int)) =
      roundedQuotient (number * 2 ^ (52 + places)) divisor := by
    have up : (52 - -(places : Int)).toNat = 52 + places := by omega
    rw [movedQuotient, if_pos (by omega), up]
  have divides : 0 < divisor := Nat.lt_of_lt_of_le positive small
  obtain ⟨excess, shortfall⟩ := rounded_quotient_close (number * 2 ^ (52 + places)) divides
  have shifted : number * 2 ^ (52 + places) = 2 ^ 52 * (number * 2 ^ places) := by
    rw [Nat.pow_add]
    ring
  generalize rounds : roundedQuotient (number * 2 ^ (52 + places)) divisor = significant
    at moved excess shortfall
  have least : 2 ^ 52 ≤ significant := by
    by_contra less
    have short : significant * divisor ≤ (2 ^ 52 - 1) * divisor :=
      Nat.mul_le_mul_right divisor (by omega)
    omega
  have most : significant ≤ 2 ^ 53 := by
    by_contra more
    have long : (2 ^ 53 + 1) * divisor ≤ significant * divisor :=
      Nat.mul_le_mul_right divisor (by omega)
    omega
  obtain ⟨fraction, rfl⟩ := Nat.exists_eq_add_of_le least
  refine ⟨places, 2 ^ 52 + fraction, ?_, rounds.symm, reached, by omega⟩
  have field : (-(places : Int) + (bias 11 : Nat) - 1).toNat * 2 ^ 52 + (2 ^ 52 + fraction) =
      (1023 - places) * 2 ^ 52 + fraction := by
    have biased : (bias 11 : Int) = 1023 := rfl
    rw [biased]
    omega
  have fields : value (ofFields 11 52 false (((1023 - places) * 2 ^ 52 + fraction) / 2 ^ 52)
        ((1023 - places) * 2 ^ 52 + fraction)) =
      some ((2 ^ 52 + fraction : ℚ) * 2 ^ (1023 - places) / 2 ^ scale 11 52) :=
    value_fields (by omega) (by omega) (by omega)
  rw [nearestQuotient]
  simp only [lowest, Nat.cast_ofNat, moved, Nat.ne_of_gt positive, if_false, field]
  rw [fields]
  have total : scale 11 52 = 52 + places + (1023 - places) := by
    have all : scale 11 52 = 1075 := rfl
    rw [all]
    omega
  rw [total, pow_add _ (52 + places)]
  push_cast
  field_simp
  norm_num

/-- Rounding a number that is at most one, and not smaller than a normal double, leaves a
positive number, and changes it by at most one part in 2^53. -/
theorem rounded_close {number : ℚ} {lowest : Nat} (positive : 0 < number) (small : number ≤ 1)
    (normal : lowest ≤ 1022) (scaled : 1 ≤ number * 2 ^ lowest) :
    ∃ nearest, rounded number = some nearest ∧ 0 < nearest ∧
      |nearest - number| ≤ number / 2 ^ 53 := by
  have counted : 0 < number.num := Rat.num_pos.mpr positive
  have divides : (0 : ℚ) < number.den := Nat.cast_pos.mpr number.den_pos
  have fraction : number = (number.num.natAbs : ℚ) / number.den := by
    rw [Nat.cast_natAbs, abs_of_pos counted, Rat.num_div_den]
  have signed : decide (number < 0) = false := decide_eq_false (not_lt_of_gt positive)
  rw [rounded, signed]
  generalize number.num.natAbs = part at fraction
  generalize number.den = whole at fraction divides
  subst fraction
  have least : 0 < part := by
    rcases Nat.eq_zero_or_pos part with rfl | some
    · simp at positive
    · exact some
  have most : part ≤ whole := by
    rw [div_le_one divides] at small
    exact_mod_cast small
  have above : whole ≤ part * 2 ^ lowest := by
    rw [div_mul_eq_mul_div, one_le_div divides] at scaled
    exact_mod_cast scaled
  obtain ⟨places, significant, valued, rounds, reached, occurs⟩ :=
    nearest_small least most normal above
  have power : (0 : ℚ) < 2 ^ (52 + places) := by positivity
  refine ⟨_, valued, div_pos (Nat.cast_pos.mpr occurs) power, ?_⟩
  obtain ⟨excess, shortfall⟩ := rounded_quotient_close (part * 2 ^ (52 + places))
    (Nat.cast_pos.mp divides)
  rw [← rounds] at excess shortfall
  have distance : |(significant : ℚ) * whole - part * 2 ^ (52 + places)| ≤ whole / 2 := by
    have upper : (2 : ℚ) * (significant * whole) ≤ 2 * (part * 2 ^ (52 + places)) + whole := by
      exact_mod_cast excess
    have lower : (2 : ℚ) * (part * 2 ^ (52 + places)) ≤ 2 * (significant * whole) + whole := by
      exact_mod_cast shortfall
    rw [abs_le]
    constructor
    · linarith
    · linarith
  have leading : (whole : ℚ) ≤ part * 2 ^ places := by exact_mod_cast reached
  have apart : (significant : ℚ) / 2 ^ (52 + places) - part / whole =
      (significant * whole - part * 2 ^ (52 + places)) / (2 ^ (52 + places) * whole) := by
    field_simp
  rw [apart, abs_div, abs_of_pos (mul_pos power divides), div_le_div_iff₀ (mul_pos power divides)
    (by positivity), div_mul_eq_mul_div, le_div_iff₀ divides]
  calc |(significant : ℚ) * whole - part * 2 ^ (52 + places)| * 2 ^ 53 * whole
      ≤ (whole : ℚ) / 2 * 2 ^ 53 * whole := by gcongr
    _ = 2 ^ 52 * (whole : ℚ) * whole := by ring
    _ ≤ 2 ^ 52 * ((part : ℚ) * 2 ^ places) * whole := by gcongr
    _ = part * (2 ^ (52 + places) * whole) := by ring

end Dragonfly.DoubleRounding
