import Dragonfly.BigEndian
import Dragonfly.LuaValues

/-!
# `lua_cmsgpack.c`: packing and unpacking Lua values

`mp_pack` writes the encodings of its arguments one behind the other; `mp_unpack` decodes as
many values as there are. What is no data is encoded as nil, and so is a table inside 16
others. A number that is a 64-bit integer is encoded as one, any other in single precision
where that loses nothing.

A string is decoded through a cursor, of which the bytes that are left are kept. Lua has no
entry under `nil`, so a map with such a key raises an error, as missing bytes and an unknown
first byte do.

Lua grants a C function a limited number of stack slots, and the functions ask for them with
`luaL_checkstack`, so each is given the number of slots that are free. An argument, a value
that is returned and the keys and tables around the value at hand take one slot each. Memory
and the stack of the thread as a whole are taken to suffice, and tables to have no metatables.
-/

namespace Dragonfly.MessagePack

open BigEndian FloatingPoint LuaValues

/-! ## Encoding -/

/-- `LUACMSGPACK_MAX_NESTING`, the number of tables around a table that is encoded as nil. -/
def maxNesting : Nat := 16

/-- `LUAI_MAXCSTACK` of Lua, the number of slots that a C function is granted. -/
def maxCStack : Nat := 8000

/-- The header of something with a size: one byte for small sizes, otherwise a byte that tells in
how many bytes the size follows. -/
def sizedHeader (fixed : Nat) (fixedSizes : Nat) (sizes : List (Nat × Byte)) (largest : Nat × Byte)
    (size : Nat) : List Byte :=
  if size < fixedSizes then [UInt8.ofNat (fixed + size)]
  else
    match sizes.find? fun (width, _) => decide (size < 256 ^ width) with
    | some (width, first) => first :: toBytes width size
    | none => largest.2 :: toBytes largest.1 size

/-- The function `mp_encode_bytes`: a header with the number of the bytes, and the bytes
themselves. -/
def mpEncodeBytes (bytes : List Byte) : List Byte :=
  sizedHeader 0xa0 32 [(1, 0xd9), (2, 0xda)] (4, 0xdb) bytes.length ++ bytes

/-- The function `mp_encode_array`: the header of an array of this size, whose elements follow. -/
def mpEncodeArray (size : Nat) : List Byte := sizedHeader 0x90 16 [(2, 0xdc)] (4, 0xdd) size

/-- The function `mp_encode_map`: the header of a map of this many pairs, which follow. -/
def mpEncodeMap (size : Nat) : List Byte := sizedHeader 0x80 16 [(2, 0xde)] (4, 0xdf) size

/-- The function `mp_encode_double`: a number that single precision represents without loss
takes four bytes, any other eight. -/
def mpEncodeDouble (number : Double) : List Byte :=
  match narrow number with
  | some single => 0xca :: toBytes 4 single.toBits
  | none => 0xcb :: toBytes 8 number.toBits

/-- The function `mp_encode_int`: the shortest of the encodings that have room for the integer,
with or without a sign. -/
def mpEncodeInt (number : Int) : List Byte :=
  if 0 ≤ number then
    if number ≤ 127 then toBytes 1 number.toNat
    else if number ≤ 0xff then 0xcc :: toBytes 1 number.toNat
    else if number ≤ 0xffff then 0xcd :: toBytes 2 number.toNat
    else if number ≤ 0xffffffff then 0xce :: toBytes 4 number.toNat
    else 0xcf :: toBytes 8 number.toNat
  else
    if -32 ≤ number then toBytes 1 (complement 1 number)
    else if -128 ≤ number then 0xd0 :: toBytes 1 (complement 1 number)
    else if -32768 ≤ number then 0xd1 :: toBytes 2 (complement 2 number)
    else if -2147483648 ≤ number then 0xd2 :: toBytes 4 (complement 4 number)
    else 0xd3 :: toBytes 8 (complement 8 number)

/-- The 64-bit integer that a number is, if it is one, by the macro `IS_INT64_EQUIVALENT`. -/
def int64Equivalent (number : Double) : Option Int :=
  number.integral.filter fun whole =>
    decide (-9223372036854775808 ≤ whole ∧ whole < 9223372036854775808)

/-- The function `mp_encode_lua_number`: a number that is a 64-bit integer is encoded as one,
any other in floating point. -/
def mpEncodeLuaNumber (number : Double) : List Byte :=
  match int64Equivalent number with
  | some whole => mpEncodeInt whole
  | none => mpEncodeDouble number

/-- The function `mp_encode_lua_bool`: each of the two booleans is a single byte. -/
def mpEncodeLuaBool (value : Bool) : List Byte := [if value then 0xc3 else 0xc2]

/-- The function `mp_encode_lua_null`: what has no value in the format is the single byte of
nil. -/
def mpEncodeLuaNull : List Byte := [0xc0]

/-- The index a key is in the loop of `table_is_an_array`: positive and an `int`. -/
def arrayIndex : Value → Option Nat
  | .number value =>
      match value.integral with
      | some whole => if 0 < whole ∧ whole < 2147483648 then some whole.toNat else none
      | none => none
  | _ => none

/-- `table_is_an_array`: all keys are indices, and the highest is their number. -/
def tableIsAnArray (entries : Entries) : Bool :=
  match entries.mapM fun entry => arrayIndex entry.1 with
  | some indices => indices.foldl max 0 == entries.length
  | none => false

/-- The function `mp_encode_lua_table_as_array`: the size, and the values under the indices from
one to the size. -/
def mpEncodeLuaTableAsArray (encode : Value → List Byte) (entries : Entries) : List Byte :=
  mpEncodeArray entries.length ++
    (List.range entries.length).flatMap fun before => encode (rawGet entries (index (before + 1)))

/-- The function `mp_encode_lua_table_as_map`: the number of the entries, and each of them as
its key and its value. -/
def mpEncodeLuaTableAsMap (encode : Value → List Byte) (entries : Entries) : List Byte :=
  mpEncodeMap entries.length ++ entries.flatMap fun entry => encode entry.1 ++ encode entry.2

/-- The function `mp_encode_lua_table`: a table whose keys are the indices from one to its size
is an array, any other a map. -/
def mpEncodeLuaTable (encode : Value → List Byte) (entries : Entries) : List Byte :=
  if tableIsAnArray entries then mpEncodeLuaTableAsArray encode entries
  else mpEncodeLuaTableAsMap encode entries

/-- `mp_encode_lua_type`; `room` is how far `level` is below its limit. -/
def mpEncodeLuaType : Nat → Value → List Byte
  | _, .string bytes => mpEncodeBytes bytes
  | _, .boolean value => mpEncodeLuaBool value
  | _, .number value => mpEncodeLuaNumber value
  | room + 1, .table entries => mpEncodeLuaTable (mpEncodeLuaType room) entries
  | 0, .table _ => mpEncodeLuaNull
  | _, .nil => mpEncodeLuaNull
  | _, .null => mpEncodeLuaNull
  | _, .other _ => mpEncodeLuaNull

/-- Whether `luaL_checkstack` grants all slots that encoding a value asks for, where `free`
slots are left above it. An element of an array stands above its table, and so does a value
of a map above its key; a key is encoded as a copy above both. -/
def fits : Nat → Nat → Value → Bool
  | free, room + 1, .table entries =>
      if tableIsAnArray entries then
        decide (1 ≤ free) && (List.range entries.length).all fun before =>
          fits (free - 1) room (rawGet entries (index (before + 1)))
      else
        decide (3 ≤ free) && entries.all fun entry =>
          fits (free - 3) room entry.1 && fits (free - 2) room entry.2
  | _, _, _ => true

/-- `mp_pack`; it raises an error without an argument, with more than can be doubled on the
stack, and where a table asks for a slot that is not free. An argument is encoded as a copy
above all arguments and the encodings of those before it. -/
def mpPack (arguments : List Value) : Option (List Byte) :=
  let nargs := arguments.length
  if nargs = 0 ∨ maxCStack < nargs + nargs then none
  else if arguments.zipIdx.all fun (value, before) =>
      fits (maxCStack - (nargs + before + 1)) maxNesting value then
    some (arguments.flatMap (mpEncodeLuaType maxNesting))
  else none

/-! ## Decoding -/

/-- Where `luaL_checkstack` finds no free slot. Its messages are "too many return values at
once; use unpack_one or unpack_limit instead.", "in function mp_decode_to_lua_array" and "in
function mp_unpack_full". -/
inductive Overflow where
  | returnValues
  | decodeToLuaArray
  | unpackFull
deriving DecidableEq

/-- Why a message cannot be unpacked: the two errors of the cursor, the two of `lua_settable`
and that of `luaL_checkstack`. -/
inductive Failure where
  | missingBytes
  | badFormat
  | nilIndex
  | nanIndex
  | overflow (function : Overflow)
deriving DecidableEq

/-- Take bytes from the front of the cursor, which fails where there are not so many. -/
def consume (count : Nat) (bytes : List Byte) : Except Failure (List Byte × List Byte) :=
  if bytes.length < count then .error .missingBytes
  else .ok (bytes.take count, bytes.drop count)

/-- What the first byte of a value tells. The number is that of the bytes that follow it. -/
inductive Format where
  | unsigned (width : Nat)
  | integer (width : Nat)
  | nil
  | boolean (value : Bool)
  | float
  | double
  | raw (width : Nat)
  | array (width : Nat)
  | hash (width : Nat)
  | positiveFixnum
  | negativeFixnum
  | fixRaw
  | fixArray
  | fixMap
  | unknown
deriving DecidableEq

/-- The cases of `mp_decode_to_lua_type`: what the first byte of an encoding says about the rest
of it. -/
def format (first : Byte) : Format :=
  match first.toNat with
  | 0xcc => .unsigned 1
  | 0xd0 => .integer 1
  | 0xcd => .unsigned 2
  | 0xd1 => .integer 2
  | 0xce => .unsigned 4
  | 0xd2 => .integer 4
  | 0xcf => .unsigned 8
  | 0xd3 => .integer 8
  | 0xc0 => .nil
  | 0xc3 => .boolean true
  | 0xc2 => .boolean false
  | 0xca => .float
  | 0xcb => .double
  | 0xd9 => .raw 1
  | 0xda => .raw 2
  | 0xdb => .raw 4
  | 0xdc => .array 2
  | 0xdd => .array 4
  | 0xde => .hash 2
  | 0xdf => .hash 4
  | value =>
      if value / 128 = 0 then .positiveFixnum
      else if value / 32 = 7 then .negativeFixnum
      else if value / 32 = 5 then .fixRaw
      else if value / 16 = 9 then .fixArray
      else if value / 16 = 8 then .fixMap
      else .unknown

/-- The call of `lua_settable` on a table without a metatable, which is an error where the key
is nil or no number. -/
def setTable (entries : Entries) (key value : Value) : Except Failure Entries :=
  match key with
  | .nil => .error .nilIndex
  | .number .nan => .error .nanIndex
  | key => .ok (rawSet entries key value)

/-- The integer that `lua_pushunsigned` pushes. `lua_Integer` has a sign, so eight bytes with
the highest bit set make a negative one. -/
def pushedUnsigned (bytes : List Byte) : Int :=
  if bytes.length = 8 then signed bytes else ofBytes bytes

/-- The number that `lua_pushinteger` pushes: the one of double precision that is nearest to the
integer. -/
def pushedInteger (number : Int) : Value := .number (nearest 11 52 number)

section Containers

variable (decode decodeKey : List Byte → Except Failure (Value × List Byte))

/-- The loop of `mp_decode_to_lua_array`, which stores the values under the indices from a first
one on. -/
def mpDecodeToLuaArray : Nat → Nat → Entries → List Byte → Except Failure (Entries × List Byte)
  | 0, _, entries, bytes => .ok (entries, bytes)
  | left + 1, position, entries, bytes => do
      let (value, bytes) ← decode bytes
      let entries ← setTable entries (index position) value
      mpDecodeToLuaArray left (position + 1) entries bytes

/-- The loop of `mp_decode_to_lua_hash`, which stores each value under the key in front of it. -/
def mpDecodeToLuaHash : Nat → Entries → List Byte → Except Failure (Entries × List Byte)
  | 0, entries, bytes => .ok (entries, bytes)
  | left + 1, entries, bytes => do
      let (key, bytes) ← decodeKey bytes
      let (value, bytes) ← decode bytes
      let entries ← setTable entries key value
      mpDecodeToLuaHash left entries bytes

/-- The table that a loop has filled, with the bytes behind its last value or pair. -/
def decodedTable (loop : Except Failure (Entries × List Byte)) :
    Except Failure (Value × List Byte) :=
  loop.map fun (entries, bytes) => (.table entries, bytes)

/-- The function `mp_decode_to_lua_array` behind its table, with so many slots free above it:
the elements need at least one. -/
def decodedArray (free size : Nat) (bytes : List Byte) : Except Failure (Value × List Byte) :=
  if free = 0 then .error (.overflow .decodeToLuaArray)
  else decodedTable (mpDecodeToLuaArray decode size 1 [] bytes)

/-- A value behind its first byte, with so many free slots above it. An element of an array is
decoded above its table and its index, a value of a map above its table and its key, and a
key above its table. -/
def mpDecodeBehind (free : Nat) (first : Byte) (bytes : List Byte) :
    Except Failure (Value × List Byte) :=
  match format first with
  | .unsigned width => do
      let (field, bytes) ← consume width bytes
      .ok (pushedInteger (pushedUnsigned field), bytes)
  | .integer width => do
      let (field, bytes) ← consume width bytes
      .ok (pushedInteger (signed field), bytes)
  | .nil => .ok (.nil, bytes)
  | .boolean value => .ok (.boolean value, bytes)
  | .float => do
      let (field, bytes) ← consume 4 bytes
      .ok (.number (widen (ofBits 8 23 (ofBytes field))), bytes)
  | .double => do
      let (field, bytes) ← consume 8 bytes
      .ok (.number (ofBits 11 52 (ofBytes field)), bytes)
  | .raw width => do
      let (field, bytes) ← consume width bytes
      let (text, bytes) ← consume (ofBytes field) bytes
      .ok (.string text, bytes)
  | .array width => do
      let (field, bytes) ← consume width bytes
      decodedArray decode free (ofBytes field) bytes
  | .hash width => do
      let (field, bytes) ← consume width bytes
      decodedTable (mpDecodeToLuaHash decode decodeKey (ofBytes field) [] bytes)
  | .positiveFixnum => .ok (pushedInteger first.toNat, bytes)
  | .negativeFixnum => .ok (pushedInteger (signed [first]), bytes)
  | .fixRaw => do
      let (text, bytes) ← consume (first.toNat % 32) bytes
      .ok (.string text, bytes)
  | .fixArray => decodedArray decode free (first.toNat % 16) bytes
  | .fixMap => decodedTable (mpDecodeToLuaHash decode decodeKey (first.toNat % 16) [] bytes)
  | .unknown => .error .badFormat

end Containers

/-- `mp_decode_to_lua_type`, with so many free slots. The value takes one of them, and what is
inside it is decoded with those that are left. -/
def mpDecodeToLuaType : Nat → List Byte → Except Failure (Value × List Byte)
  | _, [] => .error .missingBytes
  | 0, _ :: _ => .error (.overflow .returnValues)
  | 1, first :: bytes => mpDecodeBehind (mpDecodeToLuaType 0) (mpDecodeToLuaType 0) 0 first bytes
  | free + 2, first :: bytes =>
      mpDecodeBehind (mpDecodeToLuaType free) (mpDecodeToLuaType (free + 1)) (free + 1) first bytes

/-- The loop of `mp_unpack_full`, with the free slots and with what is left of the limit and of
the bytes. -/
def unpackLoop : Nat → Nat → List Byte → Except Failure (List Value × List Byte)
  | _, _, [] => .ok ([], [])
  | _, 0, bytes => .ok ([], bytes)
  | free, limit + 1, bytes => do
      let (value, bytes) ← mpDecodeToLuaType free bytes
      let (values, bytes) ← unpackLoop (free - 1) limit bytes
      .ok (value :: values, bytes)

/-- Why a call of an unpacking function is refused because of its arguments, or fails while it
decodes. -/
inductive UnpackError where
  | invalidRequest
  | offsetBeyondLength
  | failure (failure : Failure)
deriving DecidableEq

/-- The constant `INT_MAX`: how many values are unpacked when all of them are asked for. -/
def intMax : Nat := 2147483647

/-- `mp_unpack_full`, with so many arguments on the stack: the values, and the next offset
where a part was asked for, which takes a slot as well. -/
def mpUnpackFull (arguments : Nat) (message : List Byte) (limit offset : Int) :
    Except UnpackError (List Value × Option Int) :=
  let decodeAll := limit = 0 ∧ offset = 0
  if offset < 0 ∨ limit < 0 then .error .invalidRequest
  else if (message.length : Int) < offset then .error .offsetBeyondLength
  else
    match unpackLoop (maxCStack - arguments) (if decodeAll then intMax else limit.toNat)
        (message.drop offset.toNat) with
    | .error failure => .error (.failure failure)
    | .ok (values, left) =>
        if decodeAll then .ok (values, none)
        else if maxCStack ≤ arguments + values.length then
          .error (.failure (.overflow .unpackFull))
        else .ok (values, some (if left = [] then -1 else message.length - left.length))

/-- `mp_unpack` with so many further arguments behind the message, which stay on the stack. -/
def mpUnpackBehind (further : Nat) (message : List Byte) : Except UnpackError (List Value) :=
  (mpUnpackFull (further + 1) message 0 0).map Prod.fst

/-- The function `mp_unpack` when it is called with a message only, as `lua_analyzer_loop` does. -/
def mpUnpack (message : List Byte) : Except UnpackError (List Value) := mpUnpackBehind 0 message

end Dragonfly.MessagePack
