import Dragonfly.FloatingPoint
import Mathlib.Data.Nat.Digits.Lemmas
import Mathlib.Data.Nat.Log
import Mathlib.Data.List.TakeWhile
import Mathlib.Tactic.IntervalCases

/-!
# Numerals of the C library

`strtod` reads the longest numeral in front of a text and rounds what it says to the nearest
datum; the conversion `%g` of `printf` writes a datum with a number of significant digits,
without the zeros behind the last of them. The locale is that of C.

Numbers are quotients of natural numbers, so rounding is exact. A numeral that is written is
read back as the number it says, and integers of no more digits than the precision are read
back as they were.
-/

namespace Dragonfly.Numerals

open FloatingPoint

/-! ## Quotients -/

/-- The exponent of the leading digit of a positive quotient. -/
def leadingExponent (base number divisor : Nat) : Int :=
  if divisor ≤ number then Nat.log base (number / divisor)
  else -(Nat.clog base ((divisor + number - 1) / number) : Nat)

/-- A quotient moved by so many places and rounded, to the even one of two. -/
def movedQuotient (base number divisor : Nat) (places : Int) : Nat :=
  if 0 ≤ places then roundedQuotient (number * base ^ places.toNat) divisor
  else roundedQuotient number (divisor * base ^ (-places).toNat)

/-- The datum nearest to a quotient with a sign. A significand that is rounded up to the next
power of two carries into the exponent; small quotients have the lowest exponent. -/
def nearestQuotient (exponentBits fractionBits : Nat) (negative : Bool) (number divisor : Nat) :
    Datum exponentBits fractionBits :=
  let leading := max (leadingExponent 2 number divisor) (1 - bias exponentBits)
  let rounded := movedQuotient 2 number divisor (fractionBits - leading)
  let fields :=
    if number = 0 then 0
    else (leading + bias exponentBits - 1).toNat * 2 ^ fractionBits + rounded
  ofFields exponentBits fractionBits negative (fields / 2 ^ fractionBits) fields

/-- The number of these digits to this base moved by so many places, rounded. -/
def nearestMoved (exponentBits fractionBits base : Nat) (negative : Bool) (number : Nat)
    (places : Int) : Datum exponentBits fractionBits :=
  if 0 ≤ places then
    nearestQuotient exponentBits fractionBits negative (number * base ^ places.toNat) 1
  else nearestQuotient exponentBits fractionBits negative number (base ^ (-places).toNat)

/-! ## Characters -/

/-- The function `isspace` of the C locale: the blank and the five control characters from
tabulator to carriage return. -/
def isSpace (byte : UInt8) : Bool := byte == 32 || (9 ≤ byte && byte ≤ 13)

/-- The function `isdigit` of the C locale: the ten decimal digits. -/
def isDigit (byte : UInt8) : Bool := 48 ≤ byte && byte ≤ 57

/-- The function `isxdigit` of the C locale: the decimal digits and the letters from a to f, in
either case. -/
def isHexDigit (byte : UInt8) : Bool :=
  isDigit byte || (65 ≤ byte && byte ≤ 70) || (97 ≤ byte && byte ≤ 102)

/-- A letter as a small one; every other byte stays as it is. -/
def lower (byte : UInt8) : UInt8 := if 65 ≤ byte ∧ byte ≤ 90 then byte + 32 else byte

/-- The value of a digit, which for the letters of hexadecimal digits begins with ten. -/
def digitValue (byte : UInt8) : Nat :=
  if isDigit byte then byte.toNat - 48 else (lower byte).toNat - 87

/-- The number some digits spell, the first one the highest. -/
def digitsValue (base : Nat) (digits : List UInt8) : Nat :=
  Nat.ofDigits base (digits.map digitValue).reverse

/-- A text begins with these small letters, in either case. -/
def beginsWith (letters text : List UInt8) : Bool :=
  (text.take letters.length).map lower == letters

/-! ## `strtod` -/

/-- The sign of a number, and how many bytes of the text it takes; a number without one is
positive. -/
def readSign : List UInt8 → Bool × Nat
  | 45 :: _ => (true, 1)
  | 43 :: _ => (false, 1)
  | _ => (false, 0)

/-- An exponent behind this letter, and how many bytes it takes. -/
def readExponent (letter : UInt8) : List UInt8 → Int × Nat
  | [] => (0, 0)
  | first :: text =>
      if lower first = letter then
        let (negative, sign) := readSign text
        let digits := (text.drop sign).takeWhile isDigit
        if digits.isEmpty then (0, 0)
        else (withSign negative (digitsValue 10 digits), 1 + sign + digits.length)
      else (0, 0)

/-- Digits with a point among them: those in front of it, those behind it, and how many bytes
they take. -/
def readDigits (isDigit : UInt8 → Bool) (text : List UInt8) :
    List UInt8 × List UInt8 × Nat :=
  let whole := text.takeWhile isDigit
  match text.drop whole.length with
  | 46 :: behind =>
      let fraction := behind.takeWhile isDigit
      (whole, fraction, whole.length + 1 + fraction.length)
  | _ => (whole, [], whole.length)

/-- A decimal number, and how many bytes of the text it takes, if there is at least one digit. -/
def readDecimal (negative : Bool) (text : List UInt8) : Option (Datum 11 52 × Nat) :=
  let (whole, fraction, used) := readDigits isDigit text
  if whole.isEmpty && fraction.isEmpty then none
  else
    let (exponent, more) := readExponent 101 (text.drop used)
    some (nearestMoved 11 52 10 negative (digitsValue 10 (whole ++ fraction))
      (exponent - fraction.length), used + more)

/-- A hexadecimal number behind its `0x`, and how many bytes it takes with it. The exponent is
one of two. -/
def readHexadecimal (negative : Bool) (text : List UInt8) : Option (Datum 11 52 × Nat) :=
  let (whole, fraction, used) := readDigits isHexDigit (text.drop 2)
  if beginsWith [48, 120] text && !(whole.isEmpty && fraction.isEmpty) then
    let (exponent, more) := readExponent 112 (text.drop (2 + used))
    some (nearestMoved 11 52 2 negative (digitsValue 16 (whole ++ fraction))
      (exponent - 4 * fraction.length), 2 + used + more)
  else none

/-- How many bytes the letters in parentheses behind `nan` take, which is none unless both
parentheses are there. -/
def readPayload : List UInt8 → Nat
  | 40 :: text =>
      let letters := text.takeWhile fun byte =>
        isDigit byte || (97 ≤ lower byte && lower byte ≤ 122) || byte == 95
      match text.drop letters.length with
      | 41 :: _ => letters.length + 2
      | _ => 0
  | _ => 0

/-- A number behind its sign, and how many bytes it takes. -/
def readUnsigned (negative : Bool) (text : List UInt8) : Option (Datum 11 52 × Nat) :=
  if beginsWith [105, 110, 102, 105, 110, 105, 116, 121] text then some (.infinity negative, 8)
  else if beginsWith [105, 110, 102] text then some (.infinity negative, 3)
  else if beginsWith [110, 97, 110] text then some (.nan, 3 + readPayload (text.drop 3))
  else (readHexadecimal negative text).or (readDecimal negative text)

/-- `strtod`: the number, and how many bytes it takes; none if there is no number. -/
def strtod (text : List UInt8) : Datum 11 52 × Nat :=
  let blanks := (text.takeWhile isSpace).length
  let (negative, sign) := readSign (text.drop blanks)
  match readUnsigned negative (text.drop (blanks + sign)) with
  | some (number, used) => (number, blanks + sign + used)
  | none => (nearestQuotient 11 52 false 0 1, 0)

/-! ## `printf` -/

/-- The decimal digits of a number, the highest one first; zero has the one digit zero. -/
def digits (number : Nat) : List UInt8 :=
  if number = 0 then [48] else ((Nat.digits 10 number).map fun digit => UInt8.ofNat (48 + digit)).reverse

/-- Digits without the zeros at their end, which are the significant ones behind a point. -/
def significant (digits : List UInt8) : List UInt8 :=
  (digits.reverse.dropWhile fun digit => digit == 48).reverse

/-- A numeral: the digits in front of and behind the point, and the exponent. -/
structure Numeral where
  negative : Bool
  whole : List UInt8
  fraction : List UInt8
  exponent : Option Int

/-- An exponent has a sign and at least two digits. -/
def exponentText (exponent : Int) : List UInt8 :=
  (if exponent < 0 then 45 else 43) ::
    (if exponent.natAbs < 10 then 48 :: digits exponent.natAbs else digits exponent.natAbs)

/-- The point and the digits behind it, or nothing where there are no such digits. -/
def pointText (fraction : List UInt8) : List UInt8 :=
  if fraction.isEmpty then [] else 46 :: fraction

/-- The letter in front of an exponent and the exponent, or nothing where there is none. -/
def suffixText : Option Int → List UInt8
  | none => []
  | some exponent => 101 :: exponentText exponent

/-- The text of a numeral behind its sign: the whole part, the fraction and the exponent. -/
def Numeral.unsigned (numeral : Numeral) : List UInt8 :=
  numeral.whole ++ (pointText numeral.fraction ++ suffixText numeral.exponent)

/-- The text of a numeral, with a minus in front of it where it is negative. -/
def Numeral.text (numeral : Numeral) : List UInt8 :=
  (if numeral.negative then [45] else []) ++ numeral.unsigned

/-- The numeral of `%g` for significant digits with this exponent of the first: `%e` where the
exponent is below -4 or not below the precision, otherwise `%f`. -/
def numeralG (precision : Nat) (negative : Bool) (text : List UInt8) (exponent : Int) : Numeral :=
  if exponent < -4 ∨ (precision : Int) ≤ exponent then
    ⟨negative, text.take 1, text.drop 1, some exponent⟩
  else if 0 ≤ exponent then
    ⟨negative, text.take (exponent.toNat + 1) ++
      List.replicate (exponent.toNat + 1 - text.length) 48, text.drop (exponent.toNat + 1), none⟩
  else ⟨negative, [48], List.replicate ((-exponent).toNat - 1) 48 ++ text, none⟩

/-- The numeral of a positive quotient. A quotient that is rounded up to the next power of ten
has the exponent of that. -/
def quotientNumeral (precision : Nat) (negative : Bool) (number divisor : Nat) : Numeral :=
  let exponent := leadingExponent 10 number divisor
  let rounded := movedQuotient 10 number divisor (precision - 1 - exponent)
  if rounded = 10 ^ precision then
    numeralG precision negative (significant (digits rounded)) (exponent + 1)
  else numeralG precision negative (significant (digits rounded)) exponent

/-- The numeral that is written for a finite datum of double precision, with so many significant
digits. -/
def finiteNumeral (precision : Nat) (negative : Bool) (exponent fraction : Nat) : Numeral :=
  let magnitude := significand 52 exponent fraction
  let places := max exponent 1
  if magnitude = 0 then ⟨negative, [48], [], none⟩
  else if scale 11 52 ≤ places then
    quotientNumeral precision negative (magnitude * 2 ^ (places - scale 11 52)) 1
  else quotientNumeral precision negative magnitude (2 ^ (scale 11 52 - places))

/-- The conversion `%g` with a precision: the numeral of a finite datum, and the words for the
others. -/
def formatG (precision : Nat) : Datum 11 52 → List UInt8
  | .nan => [110, 97, 110]
  | .infinity false => [105, 110, 102]
  | .infinity true => [45, 105, 110, 102]
  | .finite negative exponent fraction => (finiteNumeral precision negative exponent fraction).text

/-! ## Rounding -/

/-- A natural number as a quotient is rounded as one. -/
theorem nearest_quotient_one {exponentBits fractionBits : Nat} (biased : 0 < bias exponentBits)
    (negative : Bool) (number : Nat) :
    nearestQuotient exponentBits fractionBits negative number 1 =
      nearestMagnitude exponentBits fractionBits negative number := by
  by_cases zero : number = 0
  · rw [nearestQuotient, nearestMagnitude, if_pos zero]
    simp only [if_pos zero]
  · have highest : leadingExponent 2 number 1 = number.log2 := by
      rw [leadingExponent, if_pos (by omega), Nat.div_one, ← Nat.log2_eq_log_two]
    have leading : max (leadingExponent 2 number 1) (1 - bias exponentBits) = number.log2 := by
      rw [highest]
      omega
    have rounded : movedQuotient 2 number 1 (fractionBits - number.log2) =
        if number.log2 ≤ fractionBits then number * 2 ^ (fractionBits - number.log2)
        else roundedQuotient number (2 ^ (number.log2 - fractionBits)) := by
      rw [movedQuotient]
      by_cases within : number.log2 ≤ fractionBits
      · have places : ((fractionBits : Int) - number.log2).toNat =
            fractionBits - number.log2 := by omega
        have exact := rounded_quotient_exact (number * 2 ^ (fractionBits - number.log2))
          Nat.one_pos
        rw [Nat.mul_one] at exact
        rw [if_pos (by omega), if_pos within, places, exact]
      · have places : (-((fractionBits : Int) - number.log2)).toNat =
            number.log2 - fractionBits := by omega
        rw [if_neg (by omega), if_neg within, places, Nat.one_mul]
    have exponent : ((number.log2 : Int) + bias exponentBits - 1).toNat =
        number.log2 + bias exponentBits - 1 := by omega
    rw [nearestQuotient, nearestMagnitude]
    simp only [leading, rounded, exponent]

/-! ## Digits -/

/-- The byte of a digit below ten is a digit, and its value is this digit. -/
theorem digit_text {digit : Nat} (small : digit < 10) :
    isDigit (UInt8.ofNat (48 + digit)) = true ∧ digitValue (UInt8.ofNat (48 + digit)) = digit := by
  interval_cases digit <;> exact ⟨rfl, rfl⟩

/-- All bytes of the digits of a number are decimal digits. -/
theorem digits_digits (number : Nat) : ∀ digit ∈ digits number, isDigit digit = true := by
  intro digit listed
  rw [digits] at listed
  split at listed
  · rw [List.mem_singleton.mp listed]
    rfl
  · obtain ⟨value, among, rfl⟩ := List.mem_map.mp (List.mem_reverse.mp listed)
    exact (digit_text (Nat.digits_lt_base (by decide) among)).1

/-- The digits of a number, read as a decimal number, spell this number. -/
theorem digits_value (number : Nat) : digitsValue 10 (digits number) = number := by
  rw [digits, digitsValue]
  split
  · rename_i zero
    rw [zero]
    rfl
  · rw [List.map_reverse, List.reverse_reverse, List.map_map]
    have same : (Nat.digits 10 number).map (digitValue ∘ fun digit => UInt8.ofNat (48 + digit)) =
        Nat.digits 10 number := by
      conv => rhs; rw [← List.map_id (Nat.digits 10 number)]
      exact List.map_congr_left fun digit listed =>
        (digit_text (Nat.digits_lt_base (by decide) listed)).2
    rw [same, Nat.ofDigits_digits]

/-- A number has at least one digit, also where it is zero. -/
theorem digits_nonempty (number : Nat) : digits number ≠ [] := by
  rw [digits]
  split
  · exact List.cons_ne_nil _ _
  · rename_i positive
    rw [Ne, List.reverse_eq_nil_iff, List.map_eq_nil_iff, Nat.digits_eq_nil_iff_eq_zero]
    exact positive

/-- A number other than zero has one digit more than its logarithm to the base ten. -/
theorem digits_length {number : Nat} (positive : number ≠ 0) :
    (digits number).length = Nat.log 10 number + 1 := by
  rw [digits, if_neg positive, List.length_reverse, List.length_map,
    Nat.length_digits 10 number (by decide) positive]

/-- A number that is multiplied by a power of ten has so many zeros behind its digits. -/
theorem digits_moved {number : Nat} (positive : number ≠ 0) (places : Nat) :
    digits (number * 10 ^ places) = digits number ++ List.replicate places 48 := by
  have moved : number * 10 ^ places ≠ 0 := by positivity
  rw [digits, if_neg moved, digits, if_neg positive, Nat.mul_comm,
    Nat.digits_base_pow_mul (by decide) (Nat.pos_of_ne_zero positive), List.map_append,
    List.reverse_append, List.map_replicate, List.reverse_replicate]
  rfl

/-- Zeros behind digits do not change which of the digits are significant. -/
theorem significant_zeros (digits : List UInt8) (places : Nat) :
    significant (digits ++ List.replicate places 48) = significant digits := by
  rw [significant, significant, List.reverse_append, List.reverse_replicate]
  congr 1
  induction places with
  | zero => rfl
  | succ places inductionHypothesis =>
    rw [List.replicate_succ, List.cons_append, List.dropWhile_cons]
    exact inductionHypothesis

/-- What is not significant of the digits is zeros, so they are found again by adding these. -/
theorem significant_padded (digits : List UInt8) :
    significant digits ++ List.replicate (digits.length - (significant digits).length) 48 =
      digits := by
  have split : digits.reverse.takeWhile (fun digit => digit == 48) ++
      digits.reverse.dropWhile (fun digit => digit == 48) = digits.reverse :=
    List.takeWhile_append_dropWhile
  have zeros : digits.reverse.takeWhile (fun digit => digit == 48) =
      List.replicate (digits.reverse.takeWhile fun digit => digit == 48).length 48 := by
    rw [List.eq_replicate_iff]
    exact ⟨rfl, fun digit listed => by simpa using List.mem_takeWhile_imp listed⟩
  have whole : digits = significant digits ++
      List.replicate (digits.reverse.takeWhile fun digit => digit == 48).length 48 := by
    conv => lhs; rw [← List.reverse_reverse digits, ← split, List.reverse_append, zeros,
      List.reverse_replicate]
    rfl
  have length := congrArg List.length whole
  rw [List.length_append, List.length_replicate] at length
  have places : digits.length - (significant digits).length =
      (digits.reverse.takeWhile fun digit => digit == 48).length := by omega
  rw [places]
  exact whole.symm

/-! ## Reading what was written -/

/-- A text with which no decimal numeral goes on: it begins with no digit, no point and no
letter of an exponent. -/
def Ends (text : List UInt8) : Prop :=
  ∀ byte ∈ text.head?, isDigit byte = false ∧ byte ≠ 46 ∧ lower byte ≠ 101 ∧ lower byte ≠ 120

/-- A numeral of digits, with one in front of the point. -/
structure Numeral.Proper (numeral : Numeral) : Prop where
  nonempty : numeral.whole ≠ []
  whole : ∀ digit ∈ numeral.whole, isDigit digit = true
  fraction : ∀ digit ∈ numeral.fraction, isDigit digit = true

/-- The number a numeral says: its digits as an integer, moved by its exponent and its fraction,
and rounded. -/
def Numeral.number (numeral : Numeral) : Datum 11 52 :=
  nearestMoved 11 52 10 numeral.negative (digitsValue 10 (numeral.whole ++ numeral.fraction))
    (numeral.exponent.getD 0 - numeral.fraction.length)

/-- Digits are taken up to the first byte that is none, and no further. -/
theorem take_digits {digits rest : List UInt8} (all : ∀ digit ∈ digits, isDigit digit = true)
    (ends : ∀ byte ∈ rest.head?, isDigit byte = false) :
    (digits ++ rest).takeWhile isDigit = digits := by
  rw [List.takeWhile_append_of_pos all]
  cases rest with
  | nil => exact List.append_nil digits
  | cons byte rest =>
    rw [List.takeWhile_cons, ends byte rfl]
    exact List.append_nil digits

/-- Digits with a point among them are read as the whole part and the fraction of a number. -/
theorem read_digits_text {whole fraction : List UInt8} (rest : List UInt8)
    (wholeDigits : ∀ digit ∈ whole, isDigit digit = true)
    (fractionDigits : ∀ digit ∈ fraction, isDigit digit = true)
    (ends : ∀ byte ∈ rest.head?, isDigit byte = false ∧ byte ≠ 46) :
    readDigits isDigit (whole ++ (pointText fraction ++ rest)) =
      (whole, fraction, whole.length + (pointText fraction).length) := by
  cases fraction with
  | nil =>
    have taken := take_digits wholeDigits fun byte first => (ends byte first).1
    rw [pointText, List.isEmpty_nil, if_pos rfl, List.nil_append, readDigits]
    simp only [taken, List.drop_left]
    cases rest with
    | nil => rfl
    | cons byte rest =>
      have other := (ends byte rfl).2
      split
      · rename_i behind same
        cases same
        exact absurd rfl other
      · rfl
  | cons digit fraction =>
    have point : ∀ byte ∈ (46 :: (digit :: fraction ++ rest) : List UInt8).head?,
        isDigit byte = false := by
      intro byte first
      cases first
      rfl
    have taken := take_digits wholeDigits point
    have behind := take_digits fractionDigits fun byte first => (ends byte first).1
    rw [pointText, List.isEmpty_cons, if_neg Bool.false_ne_true, List.cons_append, readDigits]
    simp only [taken, List.drop_left, behind, List.length_cons]
    congr 2
    omega

/-- Every digit is the byte of a value below ten. -/
theorem digit_cases {byte : UInt8} (digit : isDigit byte = true) :
    ∃ value, value < 10 ∧ byte = UInt8.ofNat (48 + value) := by
  rw [isDigit, Bool.and_eq_true, decide_eq_true_eq, decide_eq_true_eq] at digit
  have low : 48 ≤ byte.toNat := UInt8.le_iff_toNat_le.mp digit.1
  have high : byte.toNat ≤ 57 := UInt8.le_iff_toNat_le.mp digit.2
  refine ⟨byte.toNat - 48, by omega, ?_⟩
  rw [Nat.add_sub_cancel' low, UInt8.ofNat_toNat]

/-- A digit is no blank, no sign and no letter. -/
theorem digit_plain {byte : UInt8} (digit : isDigit byte = true) :
    isSpace byte = false ∧ readSign (byte :: []) = (false, 0) ∧ lower byte ≠ 105 ∧
      lower byte ≠ 110 ∧ lower byte ≠ 120 := by
  obtain ⟨value, small, rfl⟩ := digit_cases digit
  interval_cases value <;> exact ⟨rfl, rfl, by decide, by decide, by decide⟩

/-- The sign of a number is read off its first byte and off nothing else. -/
theorem read_sign_first (byte : UInt8) (text : List UInt8) :
    readSign (byte :: text) = readSign [byte] := by
  by_cases minus : byte = 45
  · rw [minus]
    rfl
  · by_cases plus : byte = 43
    · rw [plus]
      rfl
    · rw [readSign, readSign]
      · rintro text ⟨rfl, _⟩
        exact minus rfl
      · rintro text ⟨rfl, _⟩
        exact plus rfl
      · rintro text ⟨rfl, _⟩
        exact minus rfl
      · rintro text ⟨rfl, _⟩
        exact plus rfl

/-- A text with another first letter does not begin with these. -/
theorem begins_with_other {first letter : UInt8} {text letters : List UInt8}
    (other : lower first ≠ letter) : beginsWith (letter :: letters) (first :: text) = false := by
  rw [beginsWith, List.length_cons, List.take_succ_cons, List.map_cons, beq_eq_false_iff_ne]
  intro same
  exact other (List.cons.inj same).1

/-- The parts of an exponent are read: the letter in either case, a sign or none, and digits. -/
theorem read_exponent_parts {letter : UInt8} {sign digits rest : List UInt8} {negative : Bool}
    (small : lower letter = 101)
    (signed : (sign = [] ∧ negative = false) ∨ (sign = [43] ∧ negative = false) ∨
      (sign = [45] ∧ negative = true))
    (nonempty : digits ≠ []) (all : ∀ digit ∈ digits, isDigit digit = true)
    (ends : ∀ byte ∈ rest.head?, isDigit byte = false) :
    readExponent 101 (letter :: (sign ++ digits) ++ rest) =
      (withSign negative (digitsValue 10 digits), (letter :: (sign ++ digits)).length) := by
  obtain ⟨first, others, rfl⟩ := List.exists_cons_of_ne_nil nonempty
  have taken := take_digits all ends
  have plain := (digit_plain (all first List.mem_cons_self)).2.1
  have read : readSign (sign ++ (first :: others ++ rest)) = (negative, sign.length) := by
    obtain ⟨rfl, rfl⟩ | ⟨rfl, rfl⟩ | ⟨rfl, rfl⟩ := signed
    · rw [List.nil_append, List.cons_append, read_sign_first]
      exact plain
    · rfl
    · rfl
  rw [List.cons_append, List.append_assoc, readExponent, if_pos small, read]
  simp only [List.drop_left, taken, List.isEmpty_cons, Bool.false_eq_true, if_false,
    List.length_cons, List.length_append]
  congr 1
  omega

/-- The text of an exponent has a sign and at least two digits, which spell it. -/
theorem exponent_text_parts (exponent : Int) :
    ∃ sign spelled negative, exponentText exponent = sign ++ spelled ∧
      ((sign = [] ∧ negative = false) ∨ (sign = [43] ∧ negative = false) ∨
        (sign = [45] ∧ negative = true)) ∧ spelled ≠ [] ∧
      (∀ digit ∈ spelled, isDigit digit = true) ∧
      withSign negative (digitsValue 10 spelled) = exponent := by
  obtain ⟨spelled, shape, nonempty, all, value⟩ : ∃ spelled : List UInt8,
      exponentText exponent = (if exponent < 0 then 45 else 43) :: spelled ∧ spelled ≠ [] ∧
        (∀ digit ∈ spelled, isDigit digit = true) ∧ digitsValue 10 spelled = exponent.natAbs := by
    refine ⟨_, rfl, ?_⟩
    split
    · refine ⟨List.cons_ne_nil _ _, fun digit listed => ?_, ?_⟩
      · obtain rfl | listed := List.mem_cons.mp listed
        · rfl
        · exact digits_digits _ digit listed
      · have spelled := digits_value exponent.natAbs
        rw [digitsValue] at spelled ⊢
        rw [List.map_cons, List.reverse_cons, Nat.ofDigits_append, spelled, Nat.ofDigits_singleton]
        exact Nat.add_zero _
    · exact ⟨digits_nonempty _, digits_digits _, digits_value _⟩
  by_cases negative : exponent < 0
  · refine ⟨[45], spelled, true, ?_, .inr (.inr ⟨rfl, rfl⟩), nonempty, all, ?_⟩
    · rw [shape, if_pos negative]
      rfl
    · rw [value, withSign, if_pos rfl]
      omega
  · refine ⟨[43], spelled, false, ?_, .inr (.inl ⟨rfl, rfl⟩), nonempty, all, ?_⟩
    · rw [shape, if_neg negative]
      rfl
    · rw [value, withSign, if_neg Bool.false_ne_true]
      omega

/-- An exponent that was written is read again, with all of its bytes. -/
theorem read_exponent_text (exponent : Int) {rest : List UInt8}
    (ends : ∀ byte ∈ rest.head?, isDigit byte = false) :
    readExponent 101 (101 :: exponentText exponent ++ rest) =
      (exponent, (101 :: exponentText exponent).length) := by
  obtain ⟨sign, spelled, negative, shape, signed, nonempty, all, value⟩ :=
    exponent_text_parts exponent
  have letter : lower 101 = 101 := by decide
  have parts := read_exponent_parts letter signed nonempty all ends
  rw [value, ← shape] at parts
  exact parts

/-- What stands behind the digits in front of the point does not go on with them, and is no
letter of a hexadecimal number. -/
theorem suffix_ends (exponent : Option Int) {rest : List UInt8} (ends : Ends rest) :
    ∀ byte ∈ (suffixText exponent ++ rest).head?,
      isDigit byte = false ∧ byte ≠ 46 ∧ lower byte ≠ 120 := by
  intro byte first
  cases exponent with
  | none =>
    obtain ⟨digit, point, _, letter⟩ := ends byte first
    exact ⟨digit, point, letter⟩
  | some exponent =>
    cases first
    exact ⟨rfl, by decide, by decide⟩

/-- The exponent of a numeral that was written is read again, and none where it has none. -/
theorem read_suffix (exponent : Option Int) {rest : List UInt8} (ends : Ends rest) :
    readExponent 101 (suffixText exponent ++ rest) =
      (exponent.getD 0, (suffixText exponent).length) := by
  cases exponent with
  | none =>
    cases rest with
    | nil => rfl
    | cons byte rest =>
      have other := (ends byte rfl).2.2.1
      rw [suffixText, List.nil_append, readExponent, if_neg other]
      rfl
  | some exponent => exact read_exponent_text exponent fun byte first => (ends byte first).1

section Parts

variable {negative : Bool} {whole fraction suffix rest : List UInt8} {exponent : Int}

/-- The parts of a numeral behind its sign are read. -/
theorem read_unsigned_parts (negative : Bool) (nonempty : whole ≠ [])
    (wholeDigits : ∀ digit ∈ whole, isDigit digit = true)
    (fractionDigits : ∀ digit ∈ fraction, isDigit digit = true)
    (behind : ∀ byte ∈ (suffix ++ rest).head?,
      isDigit byte = false ∧ byte ≠ 46 ∧ lower byte ≠ 120)
    (moved : readExponent 101 (suffix ++ rest) = (exponent, suffix.length)) :
    readUnsigned negative (whole ++ (pointText fraction ++ (suffix ++ rest))) =
      some (nearestMoved 11 52 10 negative (digitsValue 10 (whole ++ fraction))
        (exponent - fraction.length), (whole ++ (pointText fraction ++ suffix)).length) := by
  have parts := read_digits_text (suffix ++ rest) wholeDigits fractionDigits
    fun byte first => ⟨(behind byte first).1, (behind byte first).2.1⟩
  have decimal : readDecimal negative (whole ++ (pointText fraction ++ (suffix ++ rest))) =
      some (nearestMoved 11 52 10 negative (digitsValue 10 (whole ++ fraction))
        (exponent - fraction.length),
        whole.length + (pointText fraction).length + suffix.length) := by
    have dropped : (whole ++ (pointText fraction ++ (suffix ++ rest))).drop
        (whole.length + (pointText fraction).length) = suffix ++ rest := by
      rw [← List.append_assoc, ← List.length_append, List.drop_left]
    have some : whole.isEmpty = false := List.isEmpty_eq_false_iff.mpr nonempty
    rw [readDecimal, parts]
    simp only [some, Bool.false_and, Bool.false_eq_true, if_false, dropped, moved]
  obtain ⟨first, others, rfl⟩ := List.exists_cons_of_ne_nil nonempty
  obtain ⟨_, _, notI, notN, _⟩ := digit_plain (wholeDigits first List.mem_cons_self)
  have hexadecimal : readHexadecimal negative
      (first :: others ++ (pointText fraction ++ (suffix ++ rest))) = none := by
    have second : ∀ byte ∈ (others ++ (pointText fraction ++ (suffix ++ rest))).head?,
        lower byte ≠ 120 := by
      intro byte next
      cases others with
      | cons digit others =>
        cases next
        exact (digit_plain (wholeDigits byte (by simp))).2.2.2.2
      | nil =>
        cases fraction with
        | cons digit fraction =>
          cases next
          decide
        | nil => exact (behind byte next).2.2
    have other : beginsWith [48, 120]
        (first :: others ++ (pointText fraction ++ (suffix ++ rest))) = false := by
      rw [beginsWith, beq_eq_false_iff_ne]
      intro same
      cases following : others ++ (pointText fraction ++ (suffix ++ rest)) with
      | nil =>
        rw [List.cons_append, following] at same
        exact absurd (congrArg List.length same) (by simp)
      | cons byte later =>
        rw [List.cons_append, following] at same
        exact second byte (by rw [following]; rfl) (List.cons.inj (List.cons.inj same).2).1
    rw [readHexadecimal, other]
    rfl
  rw [readUnsigned, List.cons_append, begins_with_other notI, begins_with_other notI,
    begins_with_other notN]
  rw [List.cons_append] at hexadecimal decimal
  simp only [Bool.false_eq_true, if_false, hexadecimal, decimal, Option.none_or,
    List.length_append, Nat.add_assoc]

/-- The parts of a numeral are read as the number they say, whatever follows that they do not go
on with. -/
theorem strtod_parts (nonempty : whole ≠ [])
    (wholeDigits : ∀ digit ∈ whole, isDigit digit = true)
    (fractionDigits : ∀ digit ∈ fraction, isDigit digit = true)
    (behind : ∀ byte ∈ (suffix ++ rest).head?,
      isDigit byte = false ∧ byte ≠ 46 ∧ lower byte ≠ 120)
    (moved : readExponent 101 (suffix ++ rest) = (exponent, suffix.length)) :
    strtod ((if negative then [45] else []) ++ (whole ++ (pointText fraction ++ suffix)) ++ rest) =
      (nearestMoved 11 52 10 negative (digitsValue 10 (whole ++ fraction))
        (exponent - fraction.length),
        ((if negative then [45] else []) ++ (whole ++ (pointText fraction ++ suffix))).length) := by
  have unsigned := read_unsigned_parts negative nonempty wholeDigits fractionDigits behind moved
  obtain ⟨first, others, shape⟩ := List.exists_cons_of_ne_nil nonempty
  obtain ⟨noBlank, noSign, _⟩ := digit_plain (wholeDigits first (by rw [shape]; simp))
  have joined : whole ++ (pointText fraction ++ suffix) ++ rest =
      whole ++ (pointText fraction ++ (suffix ++ rest)) := by simp only [List.append_assoc]
  obtain ⟨later, begins⟩ : ∃ later,
      whole ++ (pointText fraction ++ (suffix ++ rest)) = first :: later := by
    rw [shape]
    exact ⟨_, rfl⟩
  cases negative with
  | true =>
    have blanks : (45 :: (whole ++ (pointText fraction ++ (suffix ++ rest)))).takeWhile isSpace =
        [] := rfl
    have minus : readSign (45 :: (whole ++ (pointText fraction ++ (suffix ++ rest)))) =
        (true, 1) := rfl
    rw [if_pos rfl, List.append_assoc, joined, List.singleton_append, strtod]
    simp only [blanks, List.length_nil, List.drop_zero, minus, Nat.zero_add, List.drop_succ_cons,
      unsigned, List.length_append, List.length_cons]
  | false =>
    have blanks : (whole ++ (pointText fraction ++ (suffix ++ rest))).takeWhile isSpace = [] := by
      rw [begins, List.takeWhile_cons, noBlank]
      rfl
    have plain : readSign (whole ++ (pointText fraction ++ (suffix ++ rest))) = (false, 0) := by
      rw [begins, read_sign_first, noSign]
    rw [if_neg Bool.false_ne_true, List.nil_append, joined, strtod]
    simp only [blanks, List.length_nil, List.drop_zero, plain, Nat.zero_add, unsigned]

end Parts

/-! ## Writing -/

/-- A quotient, moved so that it has as many digits as are written, is not below the least
number with so many digits. -/
theorem leading_exponent_le (base : Nat) {precision number divisor : Nat} (large : 1 < base)
    (positive : number ≠ 0) (divides : divisor ≠ 0) (some : 0 < precision) :
    base ^ (precision - 1) ≤ movedQuotient base number divisor
      (precision - 1 - leadingExponent base number divisor) := by
  have rounded (number divisor : Nat) : number / divisor ≤ roundedQuotient number divisor := by
    rw [roundedQuotient]
    split <;> omega
  have below {number divisor : Nat} (positive : 0 < divisor)
      (bounded : base ^ (precision - 1) * divisor ≤ number) :
      base ^ (precision - 1) ≤ roundedQuotient number divisor :=
    le_trans ((Nat.le_div_iff_mul_le positive).mpr bounded) (rounded number divisor)
  have power (places : Nat) : 0 < base ^ places := Nat.pow_pos (by omega)
  rw [leadingExponent]
  by_cases whole : divisor ≤ number
  · rw [if_pos whole]
    have quotient : number / divisor ≠ 0 := (Nat.div_pos whole (Nat.pos_of_ne_zero divides)).ne'
    have leading : base ^ Nat.log base (number / divisor) * divisor ≤ number :=
      (Nat.le_div_iff_mul_le (Nat.pos_of_ne_zero divides)).mp (Nat.pow_log_le_self base quotient)
    generalize Nat.log base (number / divisor) = exponent at leading
    rw [movedQuotient]
    by_cases up : exponent + 1 ≤ precision
    · have places : ((precision : Int) - 1 - exponent).toNat = precision - 1 - exponent := by omega
      rw [if_pos (by omega), places]
      apply below (Nat.pos_of_ne_zero divides)
      calc base ^ (precision - 1) * divisor
          = base ^ exponent * divisor * base ^ (precision - 1 - exponent) := by
            rw [Nat.mul_right_comm, ← Nat.pow_add]
            congr 2
            omega
        _ ≤ number * base ^ (precision - 1 - exponent) := Nat.mul_le_mul_right _ leading
    · have places : (-((precision : Int) - 1 - exponent)).toNat = exponent - (precision - 1) := by
        omega
      rw [if_neg (by omega), places]
      apply below (Nat.mul_pos (Nat.pos_of_ne_zero divides) (power _))
      calc base ^ (precision - 1) * (divisor * base ^ (exponent - (precision - 1)))
          = base ^ exponent * divisor := by
            rw [Nat.mul_comm divisor, ← Nat.mul_assoc, ← Nat.pow_add]
            congr 2
            omega
        _ ≤ number := leading
  · rw [if_neg whole]
    have reached : divisor ≤ number * base ^ Nat.clog base ((divisor + number - 1) / number) := by
      have above := Nat.le_pow_clog large ((divisor + number - 1) / number)
      have ceiling : divisor ≤ number * ((divisor + number - 1) / number) := by
        have division := Nat.div_add_mod (divisor + number - 1) number
        have remainder := Nat.mod_lt (divisor + number - 1) (Nat.pos_of_ne_zero positive)
        omega
      exact le_trans ceiling (Nat.mul_le_mul_left number above)
    generalize Nat.clog base ((divisor + number - 1) / number) = places at reached
    have moves : ((precision : Int) - 1 - -(places : Int)).toNat = precision - 1 + places := by
      omega
    rw [movedQuotient, if_pos (by omega), moves]
    apply below (Nat.pos_of_ne_zero divides)
    calc base ^ (precision - 1) * divisor
        ≤ base ^ (precision - 1) * (number * base ^ places) := Nat.mul_le_mul_left _ reached
      _ = number * base ^ (precision - 1 + places) := by rw [Nat.pow_add]; ring

/-- A number that is not zero has a significant digit. -/
theorem significant_nonempty {number : Nat} (positive : number ≠ 0) :
    significant (digits number) ≠ [] := by
  intro empty
  have padded := significant_padded (digits number)
  have value := digits_value number
  rw [empty, List.nil_append] at padded
  rw [← padded, digitsValue, List.map_replicate, List.reverse_replicate] at value
  have zero : Nat.ofDigits 10 (List.replicate ((digits number).length - ([] : List UInt8).length)
      (digitValue 48)) = 0 := Nat.ofDigits_replicate_zero
  omega

/-- The significant digits of a number are decimal digits. -/
theorem significant_digits (number : Nat) :
    ∀ digit ∈ significant (digits number), isDigit digit = true := by
  intro digit listed
  apply digits_digits number digit
  rw [significant] at listed
  exact List.mem_reverse.mp ((List.dropWhile_suffix _).subset (List.mem_reverse.mp listed))

/-- The first digit of a number that is not zero is none. -/
theorem digits_leading {number : Nat} (positive : number ≠ 0) :
    (digits number).head? ≠ some 48 := by
  have digitsSome : Nat.digits 10 number ≠ [] := Nat.digits_ne_nil_iff_ne_zero.mpr positive
  have last := Nat.getLast_digit_ne_zero 10 positive
  have small := Nat.digits_lt_base (b := 10) (m := number) (by decide)
    (List.getLast_mem digitsSome)
  rw [digits, if_neg positive, List.head?_reverse, List.getLast?_map,
    List.getLast?_eq_some_getLast digitsSome]
  intro zero
  have same : UInt8.ofNat (48 + (Nat.digits 10 number).getLast digitsSome) = 48 :=
    Option.some.inj zero
  have spelled := (digit_text small).2
  rw [same] at spelled
  exact last spelled.symm

/-- The first significant digit of a number other than zero is not a zero. -/
theorem significant_leading {number : Nat} (positive : number ≠ 0) :
    (significant (digits number)).head? ≠ some 48 := by
  have padded := significant_padded (digits number)
  have leading := digits_leading positive
  obtain ⟨first, others, shape⟩ := List.exists_cons_of_ne_nil (significant_nonempty positive)
  rw [shape] at padded ⊢
  rw [← padded] at leading
  exact leading

/-- A numeral does not begin with a zero unless it is the only digit in front of the point. -/
def Numeral.Leads (numeral : Numeral) : Prop :=
  numeral.whole = [48] ∨ numeral.whole.head? ≠ some 48

/-- The numeral of significant digits leads with the first of them. -/
theorem numeral_g_leads {precision : Nat} {negative : Bool} {text : List UInt8} {exponent : Int}
    (nonempty : text ≠ []) (leading : text.head? ≠ some 48) :
    (numeralG precision negative text exponent).Leads := by
  obtain ⟨first, others, rfl⟩ := List.exists_cons_of_ne_nil nonempty
  rw [numeralG]
  split
  · exact .inr leading
  · split
    · exact .inr leading
    · exact .inl rfl

/-- The numeral that `%g` makes of significant digits is a proper one: it has digits, and digits
only, in each of its parts. -/
theorem numeral_g_proper {precision : Nat} {negative : Bool} {text : List UInt8} {exponent : Int}
    (nonempty : text ≠ []) (all : ∀ digit ∈ text, isDigit digit = true) :
    (numeralG precision negative text exponent).Proper := by
  obtain ⟨first, others, rfl⟩ := List.exists_cons_of_ne_nil nonempty
  have zeros (count : Nat) : ∀ digit ∈ List.replicate count (48 : UInt8), isDigit digit = true := by
    intro digit listed
    rw [List.eq_of_mem_replicate listed]
    rfl
  rw [numeralG]
  split
  · exact ⟨List.cons_ne_nil _ _, fun digit listed => all digit (List.mem_of_mem_take listed),
      fun digit listed => all digit (List.mem_of_mem_drop listed)⟩
  · split
    · refine ⟨List.cons_ne_nil _ _, fun digit listed => ?_,
        fun digit listed => all digit (List.mem_of_mem_drop listed)⟩
      obtain front | padding := List.mem_append.mp listed
      · exact all digit (List.mem_of_mem_take front)
      · exact zeros _ digit padding
    · refine ⟨List.cons_ne_nil _ _, fun digit listed => ?_, fun digit listed => ?_⟩
      · rw [List.mem_singleton.mp listed]
        rfl
      · obtain padding | digits := List.mem_append.mp listed
        · exact zeros _ digit padding
        · exact all digit digits

/-- The numeral of a quotient is a proper one, and no superfluous zero leads it. -/
theorem quotient_numeral_proper {precision number divisor : Nat} {negative : Bool}
    (positive : number ≠ 0) (divides : divisor ≠ 0) (some : 0 < precision) :
    (quotientNumeral precision negative number divisor).Proper ∧
      (quotientNumeral precision negative number divisor).Leads := by
  have leading := leading_exponent_le 10 (by decide) positive divides some
  have power : 0 < 10 ^ (precision - 1) := Nat.pow_pos (by decide)
  have rounded : movedQuotient 10 number divisor
      (precision - 1 - leadingExponent 10 number divisor) ≠ 0 := by omega
  have present := significant_nonempty rounded
  have leads := significant_leading rounded
  rw [quotientNumeral]
  split
  · exact ⟨numeral_g_proper present (significant_digits _), numeral_g_leads present leads⟩
  · exact ⟨numeral_g_proper present (significant_digits _), numeral_g_leads present leads⟩

/-- The numeral of a finite datum is a proper one. -/
theorem finite_numeral_proper {precision exponent fraction : Nat} {negative : Bool}
    (some : 0 < precision) : (finiteNumeral precision negative exponent fraction).Proper ∧
      (finiteNumeral precision negative exponent fraction).Leads := by
  rw [finiteNumeral]
  split
  · refine ⟨⟨List.cons_ne_nil _ _, fun digit listed => ?_, fun digit listed => ?_⟩, .inl rfl⟩
    · rw [List.mem_singleton.mp listed]
      rfl
    · cases listed
  · rename_i positive
    split
    · exact quotient_numeral_proper (Nat.mul_ne_zero positive (Nat.two_pow_pos _).ne') one_ne_zero
        some
    · exact quotient_numeral_proper positive (Nat.two_pow_pos _).ne' some

/-- The significant digits of a number are not more than its digits. -/
theorem significant_length_le (digits : List UInt8) :
    (significant digits).length ≤ digits.length := by
  have length := congrArg List.length (significant_padded digits)
  rw [List.length_append] at length
  omega

/-- An integer of no more digits than the precision is written with its digits. -/
theorem quotient_numeral_integer {precision number divisor : Nat} (negative : Bool)
    (positive : number ≠ 0) (short : number < 10 ^ precision) (divides : 0 < divisor) :
    quotientNumeral precision negative (number * divisor) divisor =
      ⟨negative, digits number, [], none⟩ := by
  have exponent : leadingExponent 10 (number * divisor) divisor = (Nat.log 10 number : Nat) := by
    rw [leadingExponent, if_pos (Nat.le_mul_of_pos_left divisor (Nat.pos_of_ne_zero positive)),
      Nat.mul_div_cancel number divides]
  have within : Nat.log 10 number < precision := Nat.log_lt_of_lt_pow positive short
  have rounded : movedQuotient 10 (number * divisor) divisor
      (precision - 1 - (Nat.log 10 number : Nat)) =
      number * 10 ^ (precision - 1 - Nat.log 10 number) := by
    have places : ((precision : Int) - 1 - (Nat.log 10 number : Nat)).toNat =
        precision - 1 - Nat.log 10 number := by omega
    rw [movedQuotient, if_pos (by omega), places, Nat.mul_right_comm]
    exact rounded_quotient_exact _ divides
  have below : number * 10 ^ (precision - 1 - Nat.log 10 number) < 10 ^ precision := by
    calc number * 10 ^ (precision - 1 - Nat.log 10 number)
        < 10 ^ (Nat.log 10 number + 1) * 10 ^ (precision - 1 - Nat.log 10 number) :=
          Nat.mul_lt_mul_of_pos_right (Nat.lt_pow_succ_log_self (by decide) number)
            (Nat.pow_pos (by decide))
      _ = 10 ^ precision := by
          rw [← Nat.pow_add]
          congr 1
          omega
  have length := digits_length positive
  have fewer := significant_length_le (digits number)
  have padded := significant_padded (digits number)
  have plain : ¬ (((Nat.log 10 number : Nat) : Int) < -4 ∨
      (precision : Int) ≤ (Nat.log 10 number : Nat)) := by omega
  rw [quotientNumeral, exponent, rounded, if_neg (Nat.ne_of_lt below), digits_moved positive,
    significant_zeros, numeralG, if_neg plain, if_pos (by omega), Int.toNat_natCast]
  rw [length] at fewer padded
  rw [List.take_of_length_le fewer, List.drop_of_length_le fewer, padded]

/-- An integral datum of no more digits than the precision is written with its digits. -/
theorem finite_numeral_integer {precision : Nat} {negative : Bool} {exponent : Fin (2 ^ 11 - 1)}
    {fraction : Fin (2 ^ 52)} {number : Int}
    (integral : (Datum.finite negative exponent fraction : Datum 11 52).integral = some number)
    (short : number.natAbs < 10 ^ precision) :
    finiteNumeral precision negative exponent fraction =
      ⟨negative, digits number.natAbs, [], none⟩ := by
  have size (magnitude : Nat) : (withSign negative magnitude).natAbs = magnitude := by
    cases negative <;> simp [withSign]
  have scaled : scale 11 52 = 1075 := rfl
  rw [Datum.integral] at integral
  rw [finiteNumeral]
  split at integral
  · rename_i large
    rw [scaled] at large
    have whole : max exponent.val 1 = exponent.val := by omega
    obtain rfl := Option.some.inj integral
    rw [size] at short ⊢
    have present : significand 52 exponent fraction ≠ 0 := by
      rw [significand, if_neg (by omega)]
      positivity
    have moved : significand 52 exponent fraction * 2 ^ (exponent.val - scale 11 52) ≠ 0 :=
      Nat.mul_ne_zero present (Nat.two_pow_pos _).ne'
    have written := quotient_numeral_integer negative moved short Nat.one_pos
    rw [Nat.mul_one] at written
    rw [if_neg present, whole, if_pos (by rw [scaled]; exact large), written]
  · rename_i small
    rw [scaled] at small
    split at integral
    · rename_i divided
      obtain rfl := Option.some.inj integral
      rw [size] at short ⊢
      have whole := Nat.div_mul_cancel (Nat.dvd_of_mod_eq_zero divided)
      by_cases zero : significand 52 exponent fraction = 0
      · rw [if_pos zero, zero, Nat.zero_div]
        rfl
      · have quotient : significand 52 exponent fraction /
            2 ^ (scale 11 52 - max exponent.val 1) ≠ 0 := by
          intro vanishing
          rw [vanishing, Nat.zero_mul] at whole
          exact zero whole.symm
        have written := quotient_numeral_integer negative quotient short
          (Nat.two_pow_pos (scale 11 52 - max exponent.val 1))
        rw [whole] at written
        rw [if_neg zero, if_neg (by rw [scaled]; omega), written]
    · cases integral

/-- A numeral consists of digits, signs, a point and a letter. -/
theorem numeral_bytes {numeral : Numeral} (proper : numeral.Proper) :
    ∀ byte ∈ numeral.text,
      isDigit byte = true ∨ byte = 45 ∨ byte = 43 ∨ byte = 46 ∨ byte = 101 := by
  intro byte listed
  simp only [Numeral.text, Numeral.unsigned, List.mem_append] at listed
  obtain sign | whole | point | suffix := listed
  · split at sign
    · exact .inr (.inl (List.mem_singleton.mp sign))
    · cases sign
  · exact .inl (proper.whole byte whole)
  · rw [pointText] at point
    split at point
    · cases point
    · obtain rfl | fraction := List.mem_cons.mp point
      · simp
      · exact .inl (proper.fraction byte fraction)
  · cases some : numeral.exponent with
    | none =>
      rw [some] at suffix
      cases suffix
    | some exponent =>
      obtain ⟨sign, spelled, negative, shape, signed, _, all, _⟩ := exponent_text_parts exponent
      rw [some, suffixText, shape, List.mem_cons, List.mem_append] at suffix
      obtain rfl | sign' | digit := suffix
      · simp
      · obtain ⟨rfl, _⟩ | ⟨rfl, _⟩ | ⟨rfl, _⟩ := signed
        · cases sign'
        · exact .inr (.inr (.inl (List.mem_singleton.mp sign')))
        · exact .inr (.inl (List.mem_singleton.mp sign'))
      · exact .inl (all byte digit)

/-- An integral datum of no more digits than the precision is read back as it was. -/
theorem number_integer {precision : Nat} {negative : Bool} {exponent : Fin (2 ^ 11 - 1)}
    {fraction : Fin (2 ^ 52)} {number : Int}
    (integral : (Datum.finite negative exponent fraction : Datum 11 52).integral = some number)
    (short : number.natAbs < 10 ^ precision) :
    (finiteNumeral precision negative exponent fraction).number =
      .finite negative exponent fraction := by
  rw [finite_numeral_integer integral short, Numeral.number]
  simp only [List.append_nil, digits_value, Option.getD_none, List.length_nil, Nat.cast_zero,
    sub_zero, nearestMoved, le_refl, if_true, Int.toNat_zero, Nat.pow_zero, Nat.mul_one]
  rw [nearest_quotient_one (by decide)]
  obtain ⟨magnitude, rfl, ⟨rfl, exponentZero, fractionZero⟩ | ⟨_, _, near⟩⟩ :=
    integral_magnitude (by decide) (by decide) integral
  · obtain rfl : exponent = ⟨0, by decide⟩ := Fin.ext exponentZero
    obtain rfl : fraction = ⟨0, by decide⟩ := Fin.ext fractionZero
    cases negative <;> rfl
  · have size : (withSign negative magnitude).natAbs = magnitude := by
      cases negative <;> simp [withSign]
    rw [size, near]

end Dragonfly.Numerals
