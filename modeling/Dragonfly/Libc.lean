import Mathlib.Data.List.TakeDrop
import Mathlib.Data.List.GetD
import Mathlib.Data.List.Infix
import Mathlib.Data.List.TakeWhile

/-!
# The C library functions the engine calls on bytes

Memory is a list of bytes. An `int` is a mathematical integer within its range
together with its four bytes in memory, least significant first. A C string is
what precedes the first zero byte. `strcasecmp` and `strndup` follow the C
locale; reading past an allocation yields bytes nothing is known about.

A function of the engine is a map from its program points to the operation it
performs there; the answer of the operation decides where it continues.
-/

namespace Dragonfly

/-- One `char` of memory, taken without its sign; the functions here compare bytes only for
equality and by this value. -/
abbrev Byte := UInt8

/-- The error numbers the engine distinguishes after a failed system call. On the
supported systems `EWOULDBLOCK` is `EAGAIN`. -/
inductive Errno where
  | eagain
  | etimedout
  | eintr
  | other (code : Nat)
deriving DecidableEq

/-- Where a function goes after an operation. `exit` ends the process. -/
inductive Outcome (Point Result : Type) where
  | goto (point : Point)
  | ret (result : Result)
  | exit

/-- The byte `'\n'`, which ends a line of a log and of a text file. -/
def newline : Byte := 10

/-- The four bytes of an `int` in memory; negative values are two's complement. -/
def intBytes (value : Int) : List Byte :=
  [UInt8.ofNat (value % 256).toNat, UInt8.ofNat (value / 256 % 256).toNat,
    UInt8.ofNat (value / 65536 % 256).toNat, UInt8.ofNat (value / 16777216 % 256).toNat]

/-- The unsigned number the bytes spell, least significant byte first. -/
def littleEndian : List Byte → Nat
  | [] => 0
  | byte :: rest => byte.toNat + 256 * littleEndian rest

/-- The `int` stored in four bytes, least significant byte first, in two's complement. -/
def intOfBytes (bytes : List Byte) : Int :=
  if littleEndian bytes < 2147483648 then (littleEndian bytes : Int)
  else (littleEndian bytes : Int) - 4294967296

/-- The value of an `int` variable after its first bytes were overwritten. -/
def overwriteInt (value : Int) (bytes : List Byte) : Int :=
  intOfBytes (bytes ++ (intBytes value).drop bytes.length)

@[simp] theorem int_bytes_length (value : Int) : (intBytes value).length = 4 := rfl

/-- The four digits to the base 256 of an integer spell it up to a multiple of `2 ^ 32`. -/
theorem digits_spell (value : Int) :
    value % 256 + 256 * (value / 256 % 256 + 256 * (value / 65536 % 256 +
      256 * (value / 16777216 % 256))) = value % 4294967296 := by
  omega

/-- The bytes of an `int` spell it modulo `2 ^ 32`. -/
theorem little_endian_int_bytes (value : Int) :
    (littleEndian (intBytes value) : Int) = value % 4294967296 := by
  have byteValue (part : Int) :
      ((UInt8.ofNat (part % 256).toNat).toNat : Int) = part % 256 := by
    rw [UInt8.toNat_ofNat']
    omega
  rw [← digits_spell]
  simp only [intBytes, littleEndian, Int.natCast_add, Int.natCast_mul, byteValue]
  simp

/-- Storing an `int` in its four bytes and reading it back returns it, for every value of the
type. -/
theorem int_round_trip (value : Int) (lower : -2147483648 ≤ value) (upper : value < 2147483648) :
    intOfBytes (intBytes value) = value := by
  have spelled := little_endian_int_bytes value
  rw [intOfBytes]
  split <;> omega

/-- Overwriting all four bytes leaves nothing of the old value. -/
theorem overwrite_whole (old : Int) (value : Int) (lower : -2147483648 ≤ value)
    (upper : value < 2147483648) : overwriteInt old (intBytes value) = value := by
  have dropped : (intBytes old).drop (intBytes value).length = [] := rfl
  rw [overwriteInt, dropped, List.append_nil, int_round_trip value lower upper]

/-- The C string at the start of a stretch of memory. -/
def cString (memory : List Byte) : List Byte := memory.takeWhile (fun byte => decide (byte ≠ 0))

/-- The function `tolower` of the C locale, which changes the twenty-six upper-case letters and
nothing else. -/
def toLower (byte : Byte) : Byte := if 65 ≤ byte ∧ byte ≤ 90 then byte + 32 else byte

/-- Compare two strings byte by byte after folding case; a missing byte is the
terminator. -/
def compareFolded : List Byte → List Byte → Int
  | [], [] => 0
  | [], byte :: _ => -((toLower byte).toNat : Int)
  | byte :: _, [] => ((toLower byte).toNat : Int)
  | left :: lefts, right :: rights =>
      if toLower left = toLower right then compareFolded lefts rights
      else ((toLower left).toNat : Int) - ((toLower right).toNat : Int)

/-- The function `strcasecmp`: two C strings compared byte by byte, each byte in lower case. It
is zero where they are equal but for the case of letters. -/
def strcasecmp (left right : List Byte) : Int := compareFolded (cString left) (cString right)

/-- The value of a byte in lower case: the upper-case letters are moved by thirty-two, and
nothing else is moved. -/
theorem to_lower_value (byte : Byte) : (toLower byte).toNat =
    if 65 ≤ byte.toNat ∧ byte.toNat ≤ 90 then byte.toNat + 32 else byte.toNat := by
  have letter : (65 ≤ byte ∧ byte ≤ 90) ↔ 65 ≤ byte.toNat ∧ byte.toNat ≤ 90 := by
    rw [UInt8.le_iff_toNat_le, UInt8.le_iff_toNat_le]
    rfl
  by_cases upper : 65 ≤ byte.toNat ∧ byte.toNat ≤ 90
  · rw [toLower, if_pos (letter.mpr upper), if_pos upper, UInt8.toNat_add]
    change (byte.toNat + 32) % 256 = byte.toNat + 32
    omega
  · rw [toLower, if_neg (upper ∘ letter.mp), if_neg upper]

/-- A byte other than the terminator is not the terminator in lower case either. -/
theorem to_lower_nonzero (byte : Byte) (nonzero : byte ≠ 0) : (toLower byte).toNat ≠ 0 := by
  have positive : byte.toNat ≠ 0 := fun zero => nonzero (UInt8.toNat_inj.mp zero)
  rw [to_lower_value]
  split
  · omega
  · exact positive

/-- Strings without zero bytes compare equal exactly when their folded bytes agree. -/
theorem compare_folded_zero_iff (left right : List Byte) (leftString : 0 ∉ left)
    (rightString : 0 ∉ right) :
    compareFolded left right = 0 ↔ left.map toLower = right.map toLower := by
  induction left generalizing right with
  | nil =>
    cases right with
    | nil => simp [compareFolded]
    | cons byte rest =>
      have nonzero := to_lower_nonzero byte (fun zero => rightString (zero ▸ List.mem_cons_self))
      simp only [compareFolded, List.map_nil, List.map_cons, reduceCtorEq, iff_false]
      omega
  | cons byte rest inductionHypothesis =>
    cases right with
    | nil =>
      have nonzero := to_lower_nonzero byte (fun zero => leftString (zero ▸ List.mem_cons_self))
      simp only [compareFolded, List.map_nil, List.map_cons, reduceCtorEq, iff_false]
      omega
    | cons other others =>
      have tail := inductionHypothesis others
        (fun present => leftString (List.mem_cons_of_mem _ present))
        (fun present => rightString (List.mem_cons_of_mem _ present))
      by_cases same : toLower byte = toLower other
      · simp [compareFolded, same, tail]
      · have different : (toLower byte).toNat ≠ (toLower other).toNat :=
          fun equal => same (UInt8.toNat_inj.mp equal)
        simp only [compareFolded, same, if_false, List.map_cons, List.cons.injEq, false_and,
          iff_false]
        omega

/-- No C string contains its terminator, because it ends in front of the first one. -/
theorem zero_not_mem_cString (memory : List Byte) : 0 ∉ cString memory := by
  intro present
  have kept : (cString memory).all (fun byte => decide (byte ≠ 0)) = true := List.all_takeWhile
  have nonzero := List.all_eq_true.mp kept 0 present
  simp at nonzero

/-- `strcasecmp` returns zero exactly for strings that agree up to case. -/
theorem strcasecmp_zero_iff (left right : List Byte) :
    strcasecmp left right = 0 ↔ (cString left).map toLower = (cString right).map toLower :=
  compare_folded_zero_iff _ _ (zero_not_mem_cString left) (zero_not_mem_cString right)

/-- A byte string without zero bytes is its own C string, whatever follows the
terminator. -/
theorem cString_terminated (text after : List Byte) (string : 0 ∉ text) :
    cString (text ++ 0 :: after) = text := by
  induction text with
  | nil => simp [cString]
  | cons byte rest inductionHypothesis =>
    have nonzero : byte ≠ 0 := fun zero => string (zero ▸ List.mem_cons_self)
    have tail := inductionHypothesis (fun present => string (List.mem_cons_of_mem _ present))
    simpa [cString, nonzero] using tail

/-- Bytes without a zero byte are a C string as a whole. -/
theorem cString_whole (text : List Byte) (string : 0 ∉ text) : cString text = text := by
  rw [cString, List.takeWhile_eq_self_iff]
  intro byte listed
  exact decide_eq_true fun zero => string (zero ▸ listed)

/-- A zero byte behind a C string is its end. -/
theorem cString_zero (text : List Byte) : cString (text ++ [0]) = cString text := by
  induction text with
  | nil => rfl
  | cons byte rest inductionHypothesis =>
    rw [cString, cString] at inductionHypothesis
    rw [cString, cString, List.cons_append, List.takeWhile_cons, List.takeWhile_cons,
      inductionHypothesis]

/-- The function `strnlen`: the length of the C string, but no more than a bound, behind which
nothing is read. -/
def strnlen (memory : List Byte) (max : Nat) : Nat := (cString (memory.take max)).length

/-- The length of a string that is terminated within the bound. -/
theorem strnlen_terminated {text : List Byte} {max : Nat} (string : 0 ∉ text)
    (short : text.length < max) : strnlen (text ++ [0]) max = text.length := by
  have inside : (text ++ [0]).length ≤ max := by
    rw [List.length_append, List.length_singleton]
    omega
  rw [strnlen, List.take_of_length_le inside, cString_terminated text [] string]

/-- A string that is not terminated within the bound is as long as that. -/
theorem strnlen_long {text : List Byte} {max : Nat} (string : 0 ∉ text)
    (long : max ≤ text.length) : strnlen (text ++ [0]) max = max := by
  have front : (text ++ [0]).take max = text.take max := by
    rw [List.take_append, Nat.sub_eq_zero_of_le long, List.take_zero, List.append_nil]
  have whole : cString (text.take max) = text.take max :=
    cString_whole _ fun present => string (List.mem_of_mem_take present)
  rw [strnlen, front, whole, List.length_take, Nat.min_eq_left long]

/-- `strndup`: the allocation holds the bytes before the first zero byte, at most
`count` of them, and a terminator. -/
def strndup (source : List Byte) (count : Nat) : List Byte := cString (source.take count) ++ [0]

/-- The bytes a reader of `count` bytes finds at an allocation; what lies beyond
the allocation is not determined by it. -/
def readMemory (allocation : List Byte) (beyond : Nat → Byte) (count : Nat) : List Byte :=
  (List.range count).map (fun index => allocation.getD index (beyond index))

/-- Reading an allocation, or the front of one, yields what it holds. -/
theorem read_memory_front (front rest : List Byte) (beyond : Nat → Byte) :
    readMemory (front ++ rest) beyond front.length = front := by
  apply List.ext_getElem
  · simp [readMemory]
  · intro index _ inside
    simp [readMemory, List.getD_eq_getElem?_getD, List.getElem?_append_left inside,
      List.getElem?_eq_getElem inside]

/-- A copy made by `strndup` reads like its source whatever lies beyond it exactly
when the source has no zero byte, or one at its very end. -/
theorem strndup_intact_iff (source : List Byte) :
    (∀ beyond, readMemory (strndup source source.length) beyond source.length = source) ↔
      0 ∉ source.dropLast := by
  rw [strndup, List.take_length]
  by_cases present : 0 ∈ source
  · obtain ⟨text, after, rfl, string⟩ := List.eq_append_cons_of_mem present
    rw [cString_terminated text after string]
    cases after with
    | nil =>
      have early : 0 ∉ (text ++ [0]).dropLast := by simpa using string
      simp only [early, not_false_eq_true, iff_true]
      intro beyond
      have front := read_memory_front (text ++ [0]) [] beyond
      rwa [List.append_nil] at front
    | cons byte rest =>
      have early : 0 ∈ (text ++ 0 :: byte :: rest).dropLast := by simp
      simp only [early, not_true_eq_false, iff_false]
      intro intact
      -- the byte behind the terminator is whatever the allocation is followed by
      have foreign := congrArg (fun bytes => bytes[text.length + 1]?) (intact fun _ => byte + 1)
      simp [readMemory, List.getD_eq_getElem?_getD] at foreign
  · have whole := cString_whole source present
    have intact (beyond : Nat → Byte) :
        readMemory (source ++ [0]) beyond source.length = source :=
      read_memory_front source [0] beyond
    have absent : 0 ∉ source.dropLast := fun early => present (List.mem_of_mem_dropLast early)
    simp [whole, intact, absent]

end Dragonfly
