import Dragonfly.Libc
import Mathlib.Tactic.Ring

/-!
# Records written and read by a format of numbers

A format is a list of bytes that stand for themselves and of numbers of a record, each with a
width and bounds. Writing fills a number up with zeros to its width. Reading skips the space
before a number, takes digits while the width and the upper bound leave room, and checks the
bounds; it stores each number before it goes on, so that a text that does not match leaves a
record that is half overwritten.
-/

namespace Dragonfly.FieldFormat

/-- A piece of a format: a byte that stands for itself, or a number of the record with its
bounds, its width, and the field it is loaded from and stored to. -/
inductive Directive (Record : Type) where
  | literal (byte : Byte)
  | number (low high width : Nat) (load : Record → Int) (store : Record → Int → Record)

/-- The byte of a decimal digit, counted on from the byte of `"0"`. -/
def digitByte (digit : Nat) : Byte := UInt8.ofNat (48 + digit)

/-- The last digits of a number, as many as the width says. -/
def digits : Nat → Nat → List Byte
  | 0, _ => []
  | width + 1, value => digitByte (value / 10 ^ width % 10) :: digits width value

/-- A number filled up with zeros; one with more digits than the width has them all. -/
def padded (width : Nat) (value : Int) : List Byte :=
  if 0 ≤ value ∧ value < 10 ^ width then digits width value.toNat
  else (toString value).toUTF8.toList

/-- The function `isdigit` in the C locale: the ten decimal digits and nothing else. -/
def isDigit (byte : Byte) : Bool := 48 ≤ byte.toNat && byte.toNat ≤ 57

/-- The function `isspace` in the C locale: the blank and the five control characters from
tabulator to carriage return. -/
def isSpace (byte : Byte) : Bool := byte.toNat = 32 || 9 ≤ byte.toNat && byte.toNat ≤ 13

/-- The digits behind the first, while the width and the bound leave room. -/
def moreDigits (high : Nat) : Nat → Nat → List Byte → Nat × List Byte
  | width + 1, value, byte :: rest =>
      if value * 10 ≤ high ∧ isDigit byte = true then
        moreDigits high width (value * 10 + (byte.toNat - 48)) rest
      else (value, byte :: rest)
  | _, value, text => (value, text)

/-- Read a number within its bounds: space in front of it is skipped, a digit must follow, and
what the digits make must lie between the bounds. -/
def readNumber (low high width : Nat) (text : List Byte) : Option (Nat × List Byte) :=
  match text.dropWhile isSpace with
  | [] => none
  | byte :: rest =>
      if isDigit byte then
        let (value, rest) := moreDigits high (width - 1) (byte.toNat - 48) rest
        if low ≤ value ∧ value ≤ high then some (value, rest) else none
      else none

section Records

variable {Record : Type}

/-- What a record is written as under a format: the literal bytes as they stand, and each number
filled up with zeros to its width. -/
def write : List (Directive Record) → Record → List Byte
  | [], _ => []
  | .literal byte :: format, record => byte :: write format record
  | .number _ _ width load _ :: format, record => padded width (load record) ++ write format record

/-- The record behind a read of a text; a text that does not match ends the read. -/
def read : List (Directive Record) → List Byte → Record → Record
  | [], _, record => record
  | .literal _ :: _, [], record => record
  | .literal byte :: format, other :: text, record =>
      if other = byte then read format text record else record
  | .number low high width _ store :: format, text, record =>
      match readNumber low high width text with
      | none => record
      | some (value, rest) => read format rest (store record value)

/-- The numbers of a format carried from one record to another. -/
def carry : List (Directive Record) → Record → Record → Record
  | [], _, record => record
  | .literal _ :: format, source, record => carry format source record
  | .number _ _ _ load store :: format, source, record =>
      carry format source (store record (load source))

/-- The numbers of a record keep to their bounds, and these to the widths. -/
def Fits : List (Directive Record) → Record → Prop
  | [], _ => True
  | .literal _ :: format, record => Fits format record
  | .number low high width load _ :: format, record =>
      (low ≤ load record ∧ load record ≤ high ∧ high < 10 ^ width ∧ 0 < width) ∧
        Fits format record

end Records

/-! ## Digits -/

/-- The byte of a digit below ten is a digit again, and its value is that digit. -/
theorem digit_byte {digit : Nat} (small : digit < 10) :
    isDigit (digitByte digit) = true ∧ (digitByte digit).toNat - 48 = digit := by
  have byte : (digitByte digit).toNat = 48 + digit := by
    rw [digitByte, UInt8.toNat_ofNat']
    omega
  rw [isDigit, byte]
  exact ⟨by simp; omega, by omega⟩

/-- The byte of a digit is no space, so a number that was written begins where the reader looks
for it. -/
theorem digit_no_space {digit : Nat} (small : digit < 10) : isSpace (digitByte digit) = false := by
  have byte : (digitByte digit).toNat = 48 + digit := by
    rw [digitByte, UInt8.toNat_ofNat']
    omega
  rw [isSpace, byte]
  simp
  omega

/-- A number modulo a power of ten is its first digit at the place of that power, and the digits
below it. -/
theorem value_split (width value : Nat) :
    value % 10 ^ (width + 1) = value / 10 ^ width % 10 * 10 ^ width + value % 10 ^ width := by
  rw [Nat.pow_succ, Nat.mod_mul, Nat.mul_comm (10 ^ width), Nat.add_comm]

/-- All the digits of a number are taken that does not exceed the bound with what precedes
them. -/
theorem more_digits_written {high : Nat} (width value first : Nat) (rest : List Byte)
    (bounded : first * 10 ^ width + value % 10 ^ width ≤ high) :
    moreDigits high width first (digits width value ++ rest) =
      (first * 10 ^ width + value % 10 ^ width, rest) := by
  induction width generalizing first with
  | zero =>
    rw [digits, List.nil_append, Nat.pow_zero, Nat.mod_one, Nat.mul_one, Nat.add_zero]
    cases rest <;> rfl
  | succ width inductionHypothesis =>
    have small : value / 10 ^ width % 10 < 10 := Nat.mod_lt _ (by decide)
    obtain ⟨isOne, itsValue⟩ := digit_byte small
    have total : (first * 10 + value / 10 ^ width % 10) * 10 ^ width + value % 10 ^ width =
        first * 10 ^ (width + 1) + value % 10 ^ (width + 1) := by
      rw [value_split, Nat.pow_succ]
      ring
    have room : first * 10 ≤ high := by
      have positive : 1 ≤ 10 ^ width := Nat.one_le_pow _ _ (by decide)
      calc first * 10 = first * 10 * 1 := (Nat.mul_one _).symm
        _ ≤ first * 10 * 10 ^ width := Nat.mul_le_mul_left _ positive
        _ = first * 10 ^ (width + 1) := by rw [Nat.pow_succ]; ring
        _ ≤ high := Nat.le_trans (Nat.le_add_right _ _) bounded
    rw [digits, List.cons_append, moreDigits, if_pos ⟨room, isOne⟩, itsValue,
      inductionHypothesis _ (total ▸ bounded), total]

/-- A number that lies within its bounds is read again as it was written, whatever stands behind
it, if its width has room for all numbers up to the upper bound. -/
theorem number_written {low high width : Nat} {value : Int} (rest : List Byte)
    (least : low ≤ value) (most : value ≤ high) (narrow : high < 10 ^ width) (wide : 0 < width) :
    readNumber low high width (padded width value ++ rest) = some (value.toNat, rest) := by
  obtain ⟨number, rfl⟩ : ∃ number : Nat, value = number := Int.eq_ofNat_of_zero_le (by omega)
  obtain ⟨below, rfl⟩ : ∃ below, width = below + 1 := ⟨width - 1, by omega⟩
  have inside : number < 10 ^ (below + 1) := by omega
  have fits : (0 : Int) ≤ number ∧ (number : Int) < 10 ^ (below + 1) :=
    ⟨Int.natCast_nonneg _, by exact_mod_cast inside⟩
  have small : number / 10 ^ below % 10 < 10 := Nat.mod_lt _ (by decide)
  have whole : number / 10 ^ below % 10 * 10 ^ below + number % 10 ^ below = number := by
    rw [← value_split, Nat.mod_eq_of_lt inside]
  have taken := @more_digits_written high below number (number / 10 ^ below % 10) rest (by omega)
  obtain ⟨isOne, itsValue⟩ := digit_byte small
  rw [padded, if_pos fits, Int.toNat_natCast, digits, List.cons_append, readNumber,
    List.dropWhile_cons_of_neg (by simp [digit_no_space small])]
  simp only [isOne, if_true, itsValue, Nat.add_sub_cancel, taken, whole]
  exact if_pos ⟨by omega, by omega⟩

/-- A record written under one format behind another is what each of them writes, one text
behind the other. -/
theorem write_append {Record : Type} (first second : List (Directive Record)) (record : Record) :
    write (first ++ second) record = write first record ++ write second record := by
  induction first with
  | nil => rfl
  | cons directive first inductionHypothesis =>
    cases directive with
    | literal byte => rw [List.cons_append, write, inductionHypothesis, write, List.cons_append]
    | number low high width load store =>
      rw [List.cons_append, write, inductionHypothesis, write, List.append_assoc]

/-- What was written is read again: the numbers are carried over. -/
theorem read_write {Record : Type} {format : List (Directive Record)} {source : Record}
    (fits : Fits format source) (rest : List Byte) (target : Record) :
    read format (write format source ++ rest) target = carry format source target := by
  induction format generalizing target with
  | nil => rfl
  | cons directive format inductionHypothesis =>
    cases directive with
    | literal byte =>
      rw [write, List.cons_append, read, if_pos rfl, carry]
      exact inductionHypothesis fits target
    | number low high width load store =>
      obtain ⟨⟨least, most, narrow, wide⟩, remaining⟩ := fits
      have nonnegative : ((load source).toNat : Int) = load source := Int.toNat_of_nonneg (by omega)
      rw [write, List.append_assoc, read, number_written _ least most narrow wide, carry]
      simp only [nonnegative]
      exact inductionHypothesis remaining _

end Dragonfly.FieldFormat
