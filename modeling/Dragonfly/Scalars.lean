import Dragonfly.Events

/-!
# Booleans, small integers and short strings in `mp_pack` and `mp_unpack`

The values the encoder writes behind a single byte: a boolean, an integer below
128 and a string of less than 32 bytes. On these the encoder and the decoder of
`lua_cmsgpack.c` are given in full, and unpacking returns what was packed. The
strings are taken to be no numerals.
-/

namespace Dragonfly.Scalars

open Events

/-- A Lua value that is encoded behind a single byte: a boolean, a small integer, or a short
string. -/
inductive Scalar where
  | boolean (value : Bool)
  | integer (value : Fin 128)
  | string (bytes : { bytes : List Byte // bytes.length < 32 })
deriving DecidableEq

/-- What `mp_encode_lua_bool`, `mp_encode_int` and `mp_encode_bytes` write for these values. -/
def encode : Scalar → List Byte
  | .boolean value => [if value then 0xc3 else 0xc2]
  | .integer value => [UInt8.ofNat value.val]
  | .string bytes => UInt8.ofNat (0xa0 + bytes.val.length) :: bytes.val

/-- The function `mp_pack` on these values: their encodings, one behind the other. -/
def mpPack (values : List Scalar) : List Byte := values.flatMap encode

/-- The function `mp_decode_to_lua_type` on the encodings of these values, which returns what
follows the value as well. -/
def decode : List Byte → Option (Scalar × List Byte)
  | first :: rest =>
      if first = 0xc3 then some (.boolean true, rest)
      else if first = 0xc2 then some (.boolean false, rest)
      else if small : first.toNat < 128 then some (.integer ⟨first.toNat, small⟩, rest)
      else if 0xa0 ≤ first.toNat ∧ first.toNat < 0xc0 ∧ first.toNat - 0xa0 ≤ rest.length then
        some (.string ⟨rest.take (first.toNat % 32), by
          rw [List.length_take]
          omega⟩, rest.drop (first.toNat % 32))
      else none
  | [] => none

/-- The loop of `mp_unpack_full`; each round consumes at least one byte. -/
def unpackLoop : Nat → List Byte → Option (List Scalar)
  | _, [] => some []
  | 0, _ :: _ => none
  | fuel + 1, bytes => do
      let (value, rest) ← decode bytes
      let values ← unpackLoop fuel rest
      return value :: values

/-- The function `mp_unpack` on the encodings of these values: as many values as there are. -/
def mpUnpack (bytes : List Byte) : Option (List Scalar) := unpackLoop bytes.length bytes

/-- The function `lua_tolstring`: a string is its bytes, an integer its decimal digits, and a
boolean no string. -/
def scalarString : Scalar → Option (List Byte)
  | .boolean _ => none
  | .integer value => some (Config.bytesOf (toString value.val))
  | .string bytes => some bytes.val

/-- The function `lua_tointeger`: an integer is itself, and anything else is taken for zero. -/
def scalarInteger : Scalar → Int
  | .integer value => value.val
  | _ => 0

/-- Lua restricted to these values, as the scripts of the examples use it. -/
def scalars : Lua Scalar where
  toString := scalarString
  toInteger := scalarInteger
  pack := mpPack
  unpack := mpUnpack

/-- The string of a text that is short enough to be encoded behind a single byte. -/
def text (letters : String) (short : (Config.bytesOf letters).length < 32) : Scalar :=
  .string ⟨Config.bytesOf letters, short⟩

/-- The string `"a"`, which is the tag in most of the examples. -/
def letterA : Scalar := text "a" (by decide)

/-- A value is decoded from its encoding, whatever follows there, and what follows is left. -/
theorem decode_encode (value : Scalar) (rest : List Byte) :
    decode (encode value ++ rest) = some (value, rest) := by
  cases value with
  | boolean value => cases value <;> rfl
  | integer value =>
    have read : (UInt8.ofNat value.val).toNat = value.val := by
      rw [UInt8.toNat_ofNat']
      omega
    have notTrue : UInt8.ofNat value.val ≠ 0xc3 := fun same => by
      have large : value.val = 0xc3 := read ▸ congrArg UInt8.toNat same
      omega
    have notFalse : UInt8.ofNat value.val ≠ 0xc2 := fun same => by
      have large : value.val = 0xc2 := read ▸ congrArg UInt8.toNat same
      omega
    simp [encode, decode, notTrue, notFalse, read]
  | string bytes =>
    obtain ⟨bytes, short⟩ := bytes
    have read : (UInt8.ofNat (0xa0 + bytes.length)).toNat = 0xa0 + bytes.length := by
      rw [UInt8.toNat_ofNat']
      omega
    have notTrue : UInt8.ofNat (0xa0 + bytes.length) ≠ 0xc3 := fun same => by
      have large : 0xa0 + bytes.length = 0xc3 := read ▸ congrArg UInt8.toNat same
      omega
    have notFalse : UInt8.ofNat (0xa0 + bytes.length) ≠ 0xc2 := fun same => by
      have large : 0xa0 + bytes.length = 0xc2 := read ▸ congrArg UInt8.toNat same
      omega
    have length : (0xa0 + bytes.length) % 32 = bytes.length := by omega
    have inside : 0xa0 ≤ 0xa0 + bytes.length ∧ 0xa0 + bytes.length < 0xc0 ∧
        0xa0 + bytes.length - 0xa0 ≤ (bytes ++ rest).length := by
      rw [List.length_append]
      omega
    have large : ¬ 0xa0 + bytes.length < 128 := by omega
    simp only [encode, List.cons_append, decode, notTrue, notFalse, if_false, read, large, dif_neg,
      not_false_eq_true, inside, and_self, if_true, length, List.take_left, List.drop_left]

/-- The encoding of each of these values has at least one byte. -/
theorem encode_nonempty (value : Scalar) : 0 < (encode value).length := by
  cases value <;> simp [encode]

/-- Unpacking the encodings of several values returns these values, in their order. -/
theorem unpack_pack (values : List Scalar) : mpUnpack (mpPack values) = some values := by
  have enough : ∀ fuel, (mpPack values).length ≤ fuel →
      unpackLoop fuel (mpPack values) = some values := by
    induction values with
    | nil =>
      intro fuel _
      cases fuel <;> rfl
    | cons value rest inductionHypothesis =>
      intro fuel bounded
      have nonempty := encode_nonempty value
      have split : mpPack (value :: rest) = encode value ++ mpPack rest := rfl
      rw [split, List.length_append] at bounded
      cases fuel with
      | zero => omega
      | succ fuel =>
        have later := inductionHypothesis fuel (by omega)
        rw [split]
        cases front : encode value ++ mpPack rest with
        | nil =>
          have empty := congrArg List.length front
          simp only [List.length_append, List.length_nil] at empty
          omega
        | cons first tail =>
          rw [unpackLoop, ← front, decode_encode]
          · simp [later]
          · simp
  exact enough _ (Nat.le_refl _)

end Dragonfly.Scalars
