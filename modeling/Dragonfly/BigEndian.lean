import Mathlib.Data.Nat.Digits.Defs
import Mathlib.Tactic.Ring

/-!
# Numbers in a fixed number of bytes, most significant byte first

A natural number is cut to the bytes it is given, and read back when it fits. A signed
number stands as its two's complement.
-/

namespace Dragonfly.BigEndian

/-- A natural number in some bytes, most significant byte first; what does not fit into them is
cut off. -/
def toBytes : Nat → Nat → List UInt8
  | 0, _ => []
  | width + 1, number => UInt8.ofNat (number / 256 ^ width % 256) :: toBytes width number

/-- The natural number some bytes spell, the first byte being the most significant one. -/
def ofBytes : List UInt8 → Nat
  | [] => 0
  | byte :: rest => byte.toNat * 256 ^ rest.length + ofBytes rest

/-- The two's complement of a number in some bytes: its remainder modulo the number of values
these bytes have. -/
def complement (width : Nat) (number : Int) : Nat := (number % (256 ^ width : Nat)).toNat

/-- The signed number some bytes spell. The upper half of their values stands for the negative
numbers. -/
def signed (bytes : List UInt8) : Int :=
  if 2 * ofBytes bytes < 256 ^ bytes.length then (ofBytes bytes : Int)
  else (ofBytes bytes : Int) - (256 ^ bytes.length : Nat)

@[simp] theorem to_bytes_length (width number : Nat) : (toBytes width number).length = width := by
  induction width with
  | zero => rfl
  | succ width inductionHypothesis => rw [toBytes, List.length_cons, inductionHypothesis]

/-- A number of any size leaves its remainder in the bytes it was cut to: the rest of it is
lost. -/
theorem of_to_bytes (width number : Nat) : ofBytes (toBytes width number) = number % 256 ^ width := by
  induction width with
  | zero => rw [toBytes, ofBytes, Nat.pow_zero, Nat.mod_one]
  | succ width inductionHypothesis =>
    have digit : (UInt8.ofNat (number / 256 ^ width % 256)).toNat = number / 256 ^ width % 256 := by
      rw [UInt8.toNat_ofNat']
      omega
    rw [toBytes, ofBytes, to_bytes_length, inductionHypothesis, digit, Nat.pow_succ, Nat.mod_mul]
    ring

/-- A natural number that fits into the bytes it is given is read back from them unchanged. -/
theorem of_to_bytes_fitting {width number : Nat} (fits : number < 256 ^ width) :
    ofBytes (toBytes width number) = number := by
  rw [of_to_bytes, Nat.mod_eq_of_lt fits]

/-- A signed number that fits into the bytes it is given is read back from its two's complement
unchanged. -/
theorem signed_complement {width : Nat} {number : Int}
    (lower : -(256 ^ width : Nat) ≤ 2 * number) (upper : 2 * number < (256 ^ width : Nat)) :
    signed (toBytes width (complement width number)) = number := by
  have positive : (0 : Int) < (256 ^ width : Nat) := by positivity
  have bounded := Int.emod_lt_of_pos number positive
  have natural := Int.emod_nonneg number (ne_of_gt positive)
  have fits : complement width number < 256 ^ width := by
    rw [complement]
    omega
  have spelled : (complement width number : Int) = number % (256 ^ width : Nat) :=
    Int.toNat_of_nonneg natural
  rw [signed, of_to_bytes_fitting fits, to_bytes_length]
  rcases lt_or_ge number 0 with negative | nonnegative
  · have wrapped : number % (256 ^ width : Nat) = number + (256 ^ width : Nat) := by
      rw [← Int.add_emod_right, Int.emod_eq_of_lt (by omega) (by omega)]
    rw [if_neg (by omega), spelled, wrapped]
    omega
  · have kept : number % (256 ^ width : Nat) = number :=
      Int.emod_eq_of_lt nonnegative (by omega)
    rw [if_pos (by omega), spelled, kept]

end Dragonfly.BigEndian
