import Mathlib.Data.Nat.Basic
import Mathlib.Algebra.Order.Ring.Nat
import Mathlib.Tactic.Ring
import Mathlib.Tactic.Linarith

/-!
# Binary floating-point formats

A datum of an interchange format has a sign, an exponent field and a fraction field; all
patterns that are no number are one datum. A finite datum is its significand at the scale
of its exponent. An integer is rounded to the nearest datum, to the even one of two; a datum
that is an integer is the datum nearest to itself, up to the sign of zero.

Single precision is widened without loss, and a datum of double precision is narrowed exactly
when it comes from one of single precision.
-/

namespace Dragonfly.FloatingPoint

/-- A datum with so many bits in its exponent and its fraction. -/
inductive Datum (exponentBits fractionBits : Nat) where
  | nan
  | infinity (negative : Bool)
  | finite (negative : Bool) (exponent : Fin (2 ^ exponentBits - 1))
      (fraction : Fin (2 ^ fractionBits))
deriving DecidableEq

/-- The bit pattern of three fields: the sign on top, the exponent behind it, and the fraction
at the end. -/
def pattern (exponentBits fractionBits : Nat) (negative : Bool) (exponent fraction : Nat) : Nat :=
  (negative.toNat * 2 ^ exponentBits + exponent) * 2 ^ fractionBits + fraction

section Formats

variable {exponentBits fractionBits : Nat}

/-- The bit pattern of a datum. What is no number has the one with the sign and the highest
bit of the fraction. -/
def Datum.toBits : Datum exponentBits fractionBits → Nat
  | .nan => pattern exponentBits fractionBits true (2 ^ exponentBits - 1) (2 ^ (fractionBits - 1))
  | .infinity negative => pattern exponentBits fractionBits negative (2 ^ exponentBits - 1) 0
  | .finite negative exponent fraction =>
      pattern exponentBits fractionBits negative exponent fraction

/-- The datum with these fields; what is left of the fraction stands in its bits. -/
def ofFields (exponentBits fractionBits : Nat) (negative : Bool) (exponent fraction : Nat) :
    Datum exponentBits fractionBits :=
  if small : exponent < 2 ^ exponentBits - 1 then
    .finite negative ⟨exponent, small⟩
      ⟨fraction % 2 ^ fractionBits, Nat.mod_lt _ (Nat.two_pow_pos _)⟩
  else .infinity negative

/-- The datum of a bit pattern, whose fields are cut out of it; the patterns that are no number
are one datum. -/
def ofBits (exponentBits fractionBits bits : Nat) : Datum exponentBits fractionBits :=
  let negative := decide (bits / 2 ^ fractionBits / 2 ^ exponentBits % 2 = 1)
  let exponent := bits / 2 ^ fractionBits % 2 ^ exponentBits
  let fraction := bits % 2 ^ fractionBits
  if exponent = 2 ^ exponentBits - 1 ∧ fraction ≠ 0 then .nan
  else ofFields exponentBits fractionBits negative exponent fraction

/-- A zero without its sign, any other datum as it is. -/
def Datum.plain : Datum exponentBits fractionBits → Datum exponentBits fractionBits
  | .finite negative exponent fraction =>
      .finite (negative && decide (¬ (exponent.val = 0 ∧ fraction.val = 0))) exponent fraction
  | datum => datum

/-- The bias of a format: what is added to an exponent to make its field. -/
def bias (exponentBits : Nat) : Nat := 2 ^ (exponentBits - 1) - 1

/-- The significand of two fields, which has a one in front of the fraction unless the exponent
field is zero. -/
def significand (fractionBits exponent fraction : Nat) : Nat :=
  if exponent = 0 then fraction else 2 ^ fractionBits + fraction

/-- The exponent field of the unit in the last place. -/
def scale (exponentBits fractionBits : Nat) : Nat := bias exponentBits + fractionBits

/-- An integer of this sign and magnitude; both signs of zero are the same integer. -/
def withSign (negative : Bool) (magnitude : Nat) : Int :=
  if negative then -(magnitude : Int) else magnitude

/-- The integer a datum is, if it is one: its significand moved by its exponent leaves no rest. -/
def Datum.integral : Datum exponentBits fractionBits → Option Int
  | .finite negative exponent fraction =>
      if scale exponentBits fractionBits ≤ exponent then
        some (withSign negative (significand fractionBits exponent fraction *
          2 ^ (exponent.val - scale exponentBits fractionBits)))
      else if significand fractionBits exponent fraction %
          2 ^ (scale exponentBits fractionBits - max exponent.val 1) = 0 then
        some (withSign negative (significand fractionBits exponent fraction /
          2 ^ (scale exponentBits fractionBits - max exponent.val 1)))
      else none
  | _ => none

/-- A quotient rounded to the nearest integer, to the even one of two. -/
def roundedQuotient (number divisor : Nat) : Nat :=
  if divisor < 2 * (number % divisor) ∨
      (2 * (number % divisor) = divisor ∧ number / divisor % 2 = 1) then number / divisor + 1
  else number / divisor

/-- The datum nearest to a magnitude with a sign. A significand that is rounded up to the next
power of two carries into the exponent. -/
def nearestMagnitude (exponentBits fractionBits : Nat) (negative : Bool) (magnitude : Nat) :
    Datum exponentBits fractionBits :=
  let leading := magnitude.log2
  let rounded :=
    if leading ≤ fractionBits then magnitude * 2 ^ (fractionBits - leading)
    else roundedQuotient magnitude (2 ^ (leading - fractionBits))
  let fields :=
    if magnitude = 0 then 0
    else (leading + bias exponentBits - 1) * 2 ^ fractionBits + rounded
  ofFields exponentBits fractionBits negative (fields / 2 ^ fractionBits) fields

/-- The datum nearest to an integer, and the even one of two that are equally near. -/
def nearest (exponentBits fractionBits : Nat) (number : Int) : Datum exponentBits fractionBits :=
  nearestMagnitude exponentBits fractionBits (decide (number < 0)) number.natAbs

/-- The datum with these fields, whatever stands in front of the bits of the fraction. -/
theorem of_fields_remainder {negative : Bool} {exponent : Fin (2 ^ exponentBits - 1)}
    {fraction : Fin (2 ^ fractionBits)} {field : Nat}
    (left : field % 2 ^ fractionBits = fraction.val) :
    ofFields exponentBits fractionBits negative exponent field =
      .finite negative exponent fraction := by
  simp [ofFields, exponent.isLt, left]

/-- The fields of a finite datum make this datum again when they are put together. -/
@[simp] theorem of_fields_datum (negative : Bool) (exponent : Fin (2 ^ exponentBits - 1))
    (fraction : Fin (2 ^ fractionBits)) :
    ofFields exponentBits fractionBits negative exponent fraction =
      .finite negative exponent fraction :=
  of_fields_remainder (Nat.mod_eq_of_lt fraction.isLt)

/-- A datum that is put together from fields is a number or an infinity, never what is not a
number. -/
theorem of_fields_number (negative : Bool) (exponent fraction : Nat) :
    ofFields exponentBits fractionBits negative exponent fraction ≠ .nan := by
  intro same
  rw [ofFields] at same
  split at same
  · cases same
  · cases same

/-- The three fields are found again in a bit pattern, if each of them fits its place. -/
theorem pattern_fields (negative : Bool) {exponent fraction : Nat}
    (exponentFits : exponent < 2 ^ exponentBits) (fractionFits : fraction < 2 ^ fractionBits) :
    pattern exponentBits fractionBits negative exponent fraction / 2 ^ fractionBits /
        2 ^ exponentBits = negative.toNat ∧
      pattern exponentBits fractionBits negative exponent fraction / 2 ^ fractionBits %
        2 ^ exponentBits = exponent ∧
      pattern exponentBits fractionBits negative exponent fraction % 2 ^ fractionBits =
        fraction := by
  have upper : pattern exponentBits fractionBits negative exponent fraction / 2 ^ fractionBits =
      negative.toNat * 2 ^ exponentBits + exponent := by
    rw [pattern, Nat.mul_comm, Nat.mul_add_div (Nat.two_pow_pos _), Nat.div_eq_of_lt fractionFits,
      Nat.add_zero]
  refine ⟨?_, ?_, ?_⟩
  · rw [upper, Nat.mul_comm, Nat.mul_add_div (Nat.two_pow_pos _), Nat.div_eq_of_lt exponentFits,
      Nat.add_zero]
  · rw [upper, Nat.mul_comm, Nat.mul_add_mod, Nat.mod_eq_of_lt exponentFits]
  · rw [pattern, Nat.mul_comm, Nat.mul_add_mod, Nat.mod_eq_of_lt fractionFits]

/-- A datum is read back from its bit pattern; for what is not a number there must be a fraction
field to tell it from infinity. -/
theorem of_to_bits (fractionPresent : 0 < fractionBits) (datum : Datum exponentBits fractionBits) :
    ofBits exponentBits fractionBits datum.toBits = datum := by
  have top : 2 ^ exponentBits - 1 < 2 ^ exponentBits := Nat.sub_lt (Nat.two_pow_pos _) Nat.one_pos
  have sign (negative : Bool) : decide (negative.toNat % 2 = 1) = negative := by
    cases negative <;> rfl
  cases datum with
  | nan =>
    have half : 2 ^ (fractionBits - 1) < 2 ^ fractionBits :=
      Nat.pow_lt_pow_right (by omega) (by omega)
    obtain ⟨_, exponent, fraction⟩ := pattern_fields true top half
    simp [ofBits, Datum.toBits, exponent, fraction]
  | infinity negative =>
    obtain ⟨negated, exponent, fraction⟩ :=
      pattern_fields negative top (Nat.two_pow_pos fractionBits)
    simp [ofBits, Datum.toBits, exponent, fraction, negated, sign, ofFields]
  | finite negative exponent fraction =>
    obtain ⟨negated, exponentSame, fractionSame⟩ := pattern_fields negative
      (Nat.lt_of_lt_of_le exponent.isLt (Nat.le_of_lt top)) fraction.isLt
    have below : exponent.val ≠ 2 ^ exponentBits - 1 := Nat.ne_of_lt exponent.isLt
    simp [ofBits, Datum.toBits, exponentSame, fractionSame, negated, sign, below]

/-- A bit pattern fits into the bits of its three fields: one for the sign, and those of the
exponent and the fraction. -/
theorem to_bits_lt (fractionPresent : 0 < fractionBits) (datum : Datum exponentBits fractionBits) :
    datum.toBits < 2 ^ (exponentBits + fractionBits + 1) := by
  have bounded : ∀ (negative : Bool) (exponent fraction : Nat), exponent < 2 ^ exponentBits →
      fraction < 2 ^ fractionBits →
        pattern exponentBits fractionBits negative exponent fraction <
          2 ^ (exponentBits + fractionBits + 1) := by
    intro negative exponent fraction exponentFits fractionFits
    have signFits : negative.toNat ≤ 1 := Bool.toNat_le negative
    have leading : negative.toNat * 2 ^ exponentBits + exponent + 1 ≤ 2 * 2 ^ exponentBits := by
      nlinarith
    have whole : 2 ^ (exponentBits + fractionBits + 1) =
        2 * 2 ^ exponentBits * 2 ^ fractionBits := by
      rw [Nat.pow_succ, Nat.pow_add]
      ring
    rw [pattern, whole]
    nlinarith [Nat.mul_le_mul_right (2 ^ fractionBits) leading]
  have top : 2 ^ exponentBits - 1 < 2 ^ exponentBits := Nat.sub_lt (Nat.two_pow_pos _) Nat.one_pos
  cases datum with
  | nan =>
    exact bounded true _ _ top (Nat.pow_lt_pow_right (by omega) (by omega))
  | infinity negative => exact bounded negative _ _ top (Nat.two_pow_pos _)
  | finite negative exponent fraction =>
    exact bounded negative _ _ (Nat.lt_of_lt_of_le exponent.isLt (Nat.le_of_lt top)) fraction.isLt

/-! ## Integers -/

/-- A quotient without a remainder is not rounded: it is the exact quotient. -/
theorem rounded_quotient_exact (quotient : Nat) {divisor : Nat} (positive : 0 < divisor) :
    roundedQuotient (quotient * divisor) divisor = quotient := by
  have remainder : quotient * divisor % divisor = 0 := Nat.mul_mod_left quotient divisor
  have divided : quotient * divisor / divisor = quotient := Nat.mul_div_cancel quotient positive
  rw [roundedQuotient, remainder, divided, if_neg (by omega)]

/-- A significand with its leading bit is read off a magnitude of which it is a multiple or a
quotient by a power of two. -/
theorem nearest_fields {negative : Bool} {exponent : Fin (2 ^ exponentBits - 1)}
    {fraction : Fin (2 ^ fractionBits)} {magnitude leading : Nat} (present : magnitude ≠ 0)
    (highest : magnitude.log2 = leading)
    (aligned : exponent.val = leading + bias exponentBits)
    (scaled : magnitude * 2 ^ (fractionBits - leading) =
      (2 ^ fractionBits + fraction.val) * 2 ^ (leading - fractionBits)) (biased : 0 < exponent.val) :
    nearestMagnitude exponentBits fractionBits negative magnitude =
      .finite negative exponent fraction := by
  subst highest
  have rounded : (if magnitude.log2 ≤ fractionBits then
      magnitude * 2 ^ (fractionBits - magnitude.log2)
      else roundedQuotient magnitude (2 ^ (magnitude.log2 - fractionBits))) =
      2 ^ fractionBits + fraction.val := by
    split
    · rename_i within
      rw [scaled, Nat.sub_eq_zero_of_le within, Nat.pow_zero, Nat.mul_one]
    · rename_i beyond
      have whole : magnitude =
          (2 ^ fractionBits + fraction.val) * 2 ^ (magnitude.log2 - fractionBits) := by
        rw [← scaled, Nat.sub_eq_zero_of_le (Nat.le_of_not_le beyond), Nat.pow_zero, Nat.mul_one]
      calc roundedQuotient magnitude (2 ^ (magnitude.log2 - fractionBits))
          = roundedQuotient ((2 ^ fractionBits + fraction.val) *
              2 ^ (magnitude.log2 - fractionBits)) (2 ^ (magnitude.log2 - fractionBits)) := by
            rw [← whole]
        _ = 2 ^ fractionBits + fraction.val := rounded_quotient_exact _ (Nat.two_pow_pos _)
  have fields : (magnitude.log2 + bias exponentBits - 1) * 2 ^ fractionBits +
      (2 ^ fractionBits + fraction.val) = 2 ^ fractionBits * exponent.val + fraction.val := by
    rw [← aligned]
    obtain ⟨before, follows⟩ : ∃ before, exponent.val = before + 1 := ⟨exponent.val - 1, by omega⟩
    rw [follows, Nat.add_sub_cancel]
    ring
  have upper : (2 ^ fractionBits * exponent.val + fraction.val) / 2 ^ fractionBits =
      exponent.val := by
    rw [Nat.mul_add_div (Nat.two_pow_pos _), Nat.div_eq_of_lt fraction.isLt, Nat.add_zero]
  have lower : (2 ^ fractionBits * exponent.val + fraction.val) % 2 ^ fractionBits =
      fraction.val := by
    rw [Nat.mul_add_mod, Nat.mod_eq_of_lt fraction.isLt]
  rw [nearestMagnitude]
  simp only [rounded, if_neg present, fields, upper]
  exact of_fields_remainder lower

/-- The leading bit of a number with a leading bit and a rest, moved up. -/
theorem log_moved_up {bits rest : Nat} (small : rest < 2 ^ bits) (places : Nat) :
    ((2 ^ bits + rest) * 2 ^ places).log2 = bits + places := by
  have positive := Nat.two_pow_pos places
  have present : (2 ^ bits + rest) * 2 ^ places ≠ 0 := by positivity
  rw [Nat.log2_eq_iff present]
  constructor
  · rw [Nat.pow_add]
    exact Nat.mul_le_mul_right _ (Nat.le_add_right _ _)
  · rw [Nat.add_right_comm, Nat.pow_add, Nat.pow_succ]
    exact Nat.mul_lt_mul_of_pos_right (by omega) positive

/-- A number of which such a number is a multiple by a power of two has its leading bit so many
places below. -/
theorem log_moved_down {bits rest places magnitude : Nat} (small : rest < 2 ^ bits)
    (moved : magnitude * 2 ^ places = 2 ^ bits + rest) :
    places ≤ bits ∧ magnitude.log2 = bits - places := by
  have present : magnitude ≠ 0 := by
    rintro rfl
    have positive := Nat.two_pow_pos bits
    omega
  have shifted := Nat.log2_eq_iff present |>.mp rfl
  have highest : (magnitude * 2 ^ places).log2 = magnitude.log2 + places := by
    rw [Nat.log2_eq_iff (by positivity)]
    constructor
    · rw [Nat.pow_add]
      exact Nat.mul_le_mul_right _ shifted.1
    · rw [Nat.add_right_comm, Nat.pow_add]
      exact Nat.mul_lt_mul_of_pos_right shifted.2 (Nat.two_pow_pos places)
  have whole := log_moved_up small 0
  rw [Nat.pow_zero, Nat.mul_one, ← moved, highest] at whole
  omega

/-- The magnitude of a finite datum that is an integer: it is zero, or the datum is the one
nearest to it. -/
theorem integral_magnitude (biased : 0 < bias exponentBits) (fractionPresent : 0 < fractionBits)
    {negative : Bool} {exponent : Fin (2 ^ exponentBits - 1)} {fraction : Fin (2 ^ fractionBits)}
    {number : Int}
    (integral : (Datum.finite negative exponent fraction).integral = some number) :
    ∃ magnitude, number = withSign negative magnitude ∧
      ((magnitude = 0 ∧ exponent.val = 0 ∧ fraction.val = 0) ∨
        (magnitude ≠ 0 ∧ exponent.val ≠ 0 ∧
          nearestMagnitude exponentBits fractionBits negative magnitude =
            .finite negative exponent fraction)) := by
  have leadingBit := Nat.two_pow_pos fractionBits
  rw [Datum.integral] at integral
  split at integral
  · rename_i large
    refine ⟨_, (Option.some.inj integral).symm, .inr ?_⟩
    have normal : exponent.val ≠ 0 := by
      rw [scale] at large
      omega
    have highest := log_moved_up fraction.isLt (exponent.val - scale exponentBits fractionBits)
    rw [significand, if_neg normal]
    have present : (2 ^ fractionBits + fraction.val) *
        2 ^ (exponent.val - scale exponentBits fractionBits) ≠ 0 := by positivity
    refine ⟨present, normal, nearest_fields present highest ?_ ?_ (Nat.pos_of_ne_zero normal)⟩
    · rw [scale] at large ⊢
      omega
    · rw [Nat.sub_eq_zero_of_le (Nat.le_add_right _ _), Nat.add_sub_cancel_left, Nat.pow_zero,
        Nat.mul_one]
  · rename_i small
    split at integral
    · rename_i divided
      refine ⟨_, (Option.some.inj integral).symm, ?_⟩
      have moved := Nat.div_mul_cancel (Nat.dvd_of_mod_eq_zero divided)
      by_cases normal : exponent.val = 0
      · left
        rw [significand, if_pos normal] at divided moved ⊢
        rw [normal] at divided moved ⊢
        have vanishing : fraction.val = 0 := by
          by_contra present
          have reached := Nat.le_of_dvd (Nat.pos_of_ne_zero present) (Nat.dvd_of_mod_eq_zero divided)
          have beyond : 2 ^ fractionBits ≤
              2 ^ (scale exponentBits fractionBits - max 0 1) :=
            Nat.pow_le_pow_right (by omega) (by rw [scale]; omega)
          have bounded := fraction.isLt
          omega
        rw [vanishing]
        exact ⟨Nat.zero_div _, rfl, rfl⟩
      · right
        rw [significand, if_neg normal] at divided moved ⊢
        obtain ⟨within, highest⟩ := log_moved_down fraction.isLt moved
        have present : (2 ^ fractionBits + fraction.val) /
            2 ^ (scale exponentBits fractionBits - max exponent.val 1) ≠ 0 := by
          intro vanishing
          rw [vanishing, Nat.zero_mul] at moved
          omega
        refine ⟨present, normal, nearest_fields present highest ?_ ?_ (Nat.pos_of_ne_zero normal)⟩
        · rw [scale] at small within ⊢
          omega
        · rw [Nat.sub_sub_self within, moved, Nat.sub_eq_zero_of_le (Nat.sub_le _ _), Nat.pow_zero,
            Nat.mul_one]
    · cases integral

/-- A datum that is an integer is the one nearest to it, up to the sign of zero. -/
theorem nearest_integral (biased : 0 < bias exponentBits) (fractionPresent : 0 < fractionBits)
    {datum : Datum exponentBits fractionBits} {number : Int}
    (integral : datum.integral = some number) :
    nearest exponentBits fractionBits number = datum.plain := by
  cases datum with
  | nan => cases integral
  | infinity negative => cases integral
  | finite negative exponent fraction =>
    have leading := Nat.two_pow_pos fractionBits
    obtain ⟨magnitude, rfl, ⟨rfl, exponentZero, fractionZero⟩ | ⟨present, normal, near⟩⟩ :=
      integral_magnitude biased fractionPresent integral
    · have zero : withSign negative 0 = 0 := by cases negative <;> rfl
      have room : 0 < 2 ^ exponentBits - 1 := Nat.zero_lt_of_lt exponent.isLt
      obtain rfl : exponent = ⟨0, room⟩ := Fin.ext exponentZero
      obtain rfl : fraction = ⟨0, leading⟩ := Fin.ext fractionZero
      have cleared : ofFields exponentBits fractionBits false 0 0 =
          .finite false ⟨0, room⟩ ⟨0, leading⟩ :=
        of_fields_datum false ⟨0, room⟩ ⟨0, leading⟩
      simp [zero, nearest, nearestMagnitude, Datum.plain, cleared]
    · have sign : decide (withSign negative magnitude < 0) = negative := by
        cases negative
        · simp [withSign]
        · simp [withSign]
          omega
      have size : (withSign negative magnitude).natAbs = magnitude := by
        cases negative <;> simp [withSign]
      have signed : (negative && decide (¬ (exponent.val = 0 ∧ fraction.val = 0))) = negative := by
        simp [normal]
      rw [nearest, sign, size, near, Datum.plain, signed]

/-- The fields of the datum nearest to a magnitude that needs no rounding. -/
theorem nearest_exact (negative : Bool) {magnitude : Nat} (present : magnitude ≠ 0)
    (biased : 0 < bias exponentBits) (short : magnitude.log2 ≤ fractionBits)
    (room : bias exponentBits + fractionBits < 2 ^ exponentBits - 1) :
    ∃ (exponent : Fin (2 ^ exponentBits - 1)) (fraction : Fin (2 ^ fractionBits)),
      nearestMagnitude exponentBits fractionBits negative magnitude =
          .finite negative exponent fraction ∧
        exponent.val = magnitude.log2 + bias exponentBits ∧
        magnitude * 2 ^ (fractionBits - magnitude.log2) = 2 ^ fractionBits + fraction.val := by
  have highest := (Nat.log2_eq_iff present).mp rfl
  have leading : 2 ^ fractionBits ≤ magnitude * 2 ^ (fractionBits - magnitude.log2) := by
    calc 2 ^ fractionBits = 2 ^ magnitude.log2 * 2 ^ (fractionBits - magnitude.log2) := by
          rw [← Nat.pow_add, Nat.add_sub_cancel' short]
      _ ≤ _ := Nat.mul_le_mul_right _ highest.1
  have below : magnitude * 2 ^ (fractionBits - magnitude.log2) < 2 * 2 ^ fractionBits := by
    calc magnitude * 2 ^ (fractionBits - magnitude.log2)
        < 2 ^ (magnitude.log2 + 1) * 2 ^ (fractionBits - magnitude.log2) :=
          Nat.mul_lt_mul_of_pos_right highest.2 (Nat.two_pow_pos _)
      _ = 2 * 2 ^ fractionBits := by
          rw [← Nat.pow_add, ← Nat.pow_succ']
          congr 1
          omega
  obtain ⟨fraction, field⟩ := Nat.exists_eq_add_of_le leading
  have fits : fraction < 2 ^ fractionBits := by omega
  refine ⟨⟨magnitude.log2 + bias exponentBits, by omega⟩, ⟨fraction, fits⟩, ?_, rfl, field⟩
  refine nearest_fields present rfl rfl ?_ (Nat.lt_of_lt_of_le biased (Nat.le_add_left _ _))
  rw [field, Nat.sub_eq_zero_of_le short, Nat.pow_zero, Nat.mul_one]

/-- An integer of at most as many bits as a significand is the datum nearest to it. -/
theorem integral_nearest (biased : 0 < bias exponentBits) (fractionPresent : 0 < fractionBits)
    (room : bias exponentBits + fractionBits < 2 ^ exponentBits - 1) {number : Int}
    (short : number.natAbs < 2 ^ (fractionBits + 1)) :
    (nearest exponentBits fractionBits number).integral = some number := by
  have sign : withSign (decide (number < 0)) number.natAbs = number := by
    by_cases negative : number < 0
    · simp only [withSign, negative, decide_true, if_true]
      omega
    · simp only [withSign, negative, decide_false, Bool.false_eq_true, if_false]
      omega
  rw [nearest]
  by_cases zero : number.natAbs = 0
  · rw [zero] at sign ⊢
    have inside : 0 < 2 ^ exponentBits - 1 := Nat.zero_lt_of_lt room
    have datum : nearestMagnitude exponentBits fractionBits (decide (number < 0)) 0 =
        .finite (decide (number < 0)) ⟨0, inside⟩ ⟨0, Nat.two_pow_pos _⟩ := by
      rw [nearestMagnitude, if_pos rfl, Nat.zero_div]
      exact of_fields_datum _ (⟨0, inside⟩ : Fin (2 ^ exponentBits - 1))
        (⟨0, Nat.two_pow_pos _⟩ : Fin (2 ^ fractionBits))
    have low : ¬ scale exponentBits fractionBits ≤ 0 := by
      rw [scale]
      omega
    rw [datum, Datum.integral, if_neg low]
    simp only [significand, if_true, Nat.zero_mod, Nat.zero_div, sign]
  · have bits : number.natAbs.log2 ≤ fractionBits :=
      Nat.le_of_lt_succ ((Nat.log2_lt zero).mpr short)
    obtain ⟨exponent, fraction, datum, aligned, field⟩ :=
      nearest_exact (decide (number < 0)) zero biased bits room
    have normal : exponent.val ≠ 0 := by omega
    rw [datum, Datum.integral, significand, if_neg normal]
    by_cases whole : number.natAbs.log2 = fractionBits
    · have top : scale exponentBits fractionBits = exponent.val := by
        rw [scale]
        omega
      rw [whole, Nat.sub_self, Nat.pow_zero, Nat.mul_one] at field
      rw [if_pos (Nat.le_of_eq top), top, Nat.sub_self, Nat.pow_zero, Nat.mul_one, ← field, sign]
    · have below : ¬ scale exponentBits fractionBits ≤ exponent.val := by
        rw [scale]
        omega
      have places : scale exponentBits fractionBits - max exponent.val 1 =
          fractionBits - number.natAbs.log2 := by
        rw [scale]
        omega
      rw [if_neg below, places, ← field, if_pos (Nat.mul_mod_left _ _),
        Nat.mul_div_cancel _ (Nat.two_pow_pos _), sign]

/-- The datum nearest to an integer is a number or an infinity, never what is not a number. -/
theorem nearest_number (number : Int) : nearest exponentBits fractionBits number ≠ .nan := by
  exact of_fields_number _ _ _

end Formats

/-! ## Single and double precision -/

/-- The format of double precision, with eleven bits for the exponent and fifty-two for the
fraction. -/
abbrev Double := Datum 11 52

/-- The format of single precision, with eight bits for the exponent and twenty-three for the
fraction. -/
abbrev Single := Datum 8 23

/-- A datum of single precision in double precision. A fraction without a leading bit is moved
up to have one. -/
def widen : Single → Double
  | .nan => .nan
  | .infinity negative => .infinity negative
  | .finite negative exponent fraction =>
      if exponent.val ≠ 0 then
        ofFields 11 52 negative (exponent.val + 896) (fraction.val * 2 ^ 29)
      else if fraction.val = 0 then ofFields 11 52 negative 0 0
      else
        ofFields 11 52 negative (fraction.val.log2 + 874)
          (fraction.val * 2 ^ (52 - fraction.val.log2))

/-- The datum of single precision a datum of double precision comes from. -/
def narrow : Double → Option Single
  | .nan => none
  | .infinity negative => some (.infinity negative)
  | .finite negative exponent fraction =>
      if exponent.val = 0 then
        if fraction.val = 0 then some (ofFields 8 23 negative 0 0) else none
      else if 897 ≤ exponent.val ∧ exponent.val ≤ 1150 then
        if fraction.val % 2 ^ 29 = 0 then
          some (ofFields 8 23 negative (exponent.val - 896) (fraction.val / 2 ^ 29))
        else none
      else if 874 ≤ exponent.val ∧ exponent.val ≤ 896 then
        if (2 ^ 52 + fraction.val) % 2 ^ (926 - exponent.val) = 0 then
          some (ofFields 8 23 negative 0 ((2 ^ 52 + fraction.val) / 2 ^ (926 - exponent.val)))
        else none
      else none

/-- A significand that is a multiple of a high power of two leaves a short quotient. -/
theorem small_quotient {fraction quotient places : Nat} (bounded : fraction < 2 ^ 52)
    (whole : quotient * 2 ^ places = 2 ^ 52 + fraction) (high : 30 ≤ places) :
    quotient < 8388608 := by
  have large : 2 ^ 30 ≤ 2 ^ places := Nat.pow_le_pow_right (by decide) high
  by_contra long
  have product : 8388608 * 2 ^ 30 ≤ quotient * 2 ^ places :=
    Nat.mul_le_mul (Nat.le_of_not_lt long) large
  omega

/-- Widening the datum with these fields: the exponent gets the other bias, and a fraction
without a one in front of it is moved until there is one. -/
theorem widen_fields {negative : Bool} {exponent fraction : Nat} (exponentFits : exponent < 255)
    (fractionFits : fraction < 8388608) :
    widen (ofFields 8 23 negative exponent fraction) =
      if exponent ≠ 0 then ofFields 11 52 negative (exponent + 896) (fraction * 2 ^ 29)
      else if fraction = 0 then ofFields 11 52 negative 0 0
      else ofFields 11 52 negative (fraction.log2 + 874) (fraction * 2 ^ (52 - fraction.log2)) := by
  have datum : ofFields 8 23 negative exponent fraction =
      .finite negative ⟨exponent, exponentFits⟩ ⟨fraction, fractionFits⟩ :=
    of_fields_datum negative (⟨exponent, exponentFits⟩ : Fin (2 ^ 8 - 1))
      (⟨fraction, fractionFits⟩ : Fin (2 ^ 23))
  rw [datum, widen]

/-- A datum that was narrowed is widened to what it was. -/
theorem widen_narrow {datum : Double} {single : Single} (narrowed : narrow datum = some single) :
    widen single = datum := by
  cases datum with
  | nan => cases narrowed
  | infinity negative =>
    obtain rfl := Option.some.inj narrowed
    rfl
  | finite negative exponent fraction =>
    have bounded : fraction.val < 4503599627370496 := fraction.isLt
    rw [narrow] at narrowed
    split_ifs at narrowed with zero cleared normal multiple subnormal divided
    · obtain rfl := Option.some.inj narrowed
      rw [widen_fields (by omega) (by omega), if_neg (not_not.mpr rfl), if_pos rfl]
      have datum := of_fields_datum negative exponent fraction
      rwa [zero, cleared] at datum
    · obtain rfl := Option.some.inj narrowed
      have whole := Nat.div_mul_cancel (Nat.dvd_of_mod_eq_zero multiple)
      rw [widen_fields (by omega) (by omega), if_pos (by omega), whole, Nat.sub_add_cancel (by omega),
        of_fields_datum]
    · obtain rfl := Option.some.inj narrowed
      have whole := Nat.div_mul_cancel (Nat.dvd_of_mod_eq_zero divided)
      obtain ⟨within, highest⟩ := log_moved_down fraction.isLt whole
      have small := small_quotient fraction.isLt whole (by omega : 30 ≤ 926 - exponent.val)
      have present : (2 ^ 52 + fraction.val) / 2 ^ (926 - exponent.val) ≠ 0 := by
        intro vanishing
        rw [vanishing, Nat.zero_mul] at whole
        omega
      have left : (2 ^ 52 + fraction.val) % 2 ^ 52 = fraction.val := by omega
      have field : 52 - (926 - exponent.val) + 874 = exponent.val := by omega
      rw [widen_fields (by omega) small, if_neg (not_not.mpr rfl), if_neg present, highest,
        Nat.sub_sub_self within, whole, field]
      exact of_fields_remainder left

end Dragonfly.FloatingPoint
