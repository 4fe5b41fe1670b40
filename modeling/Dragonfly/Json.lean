import Dragonfly.Config
import Dragonfly.LuaValues
import Dragonfly.Numerals

/-!
# `lua-cjson.c`: encoding and decoding JSON

`cjson.encode` writes a value into a buffer or raises an error; `cjson.decode` reads the tokens
of a text up to its first zero byte and makes a value of them or raises an error. The
configuration is the one a module starts with, which no script of the repository changes, and
the locale is that of C.

A place in the text is what stands from there on, so an error carries the text behind its
place, from which the character it names is counted. Lua's stack and memory are taken to
suffice, tables to have no metatables, and the encoder's buffer to be able to grow: its size is
an `int` that is doubled, so it has room for 2^30 bytes.
-/

namespace Dragonfly.Json

open Config FloatingPoint LuaValues Numerals

/-! ## Configuration -/

/-- The constant `DEFAULT_SPARSE_RATIO`: how many times as long as the number of its items an
array may be. -/
def sparseRatio : Nat := 2

/-- The constant `DEFAULT_SPARSE_SAFE`: an array that is no longer than this is never too
sparse. -/
def sparseSafe : Nat := 10

/-- The constant `DEFAULT_ENCODE_MAX_DEPTH`: how deep the tables of an encoded value may be
nested. -/
def encodeMaxDepth : Nat := 1000

/-- The constant `DEFAULT_DECODE_MAX_DEPTH`: how deep the arrays and objects of a decoded text
may be nested. -/
def decodeMaxDepth : Nat := 1000

/-- The constant `DEFAULT_ENCODE_NUMBER_PRECISION`: how many significant digits of a number are
written. -/
def encodeNumberPrecision : Nat := 14

/-! ## Encoding -/

/-- Why a value cannot be encoded; the value is the one whose type the error names. What happens
is undefined where a number above `INT_MAX` is converted to an `int`: for a key that is so large,
and for the room a very long string is given in the buffer. -/
inductive EncodeError where
  | cannotSerialise (value : Value) (reason : String)
  | excessiveNesting (depth : Nat)
  | undefined

/-- The digit of a hexadecimal number in lower case, as `%x` writes it. -/
def hexDigit (value : Nat) : Byte := UInt8.ofNat (if value < 10 then 48 + value else 87 + value)

/-- The table `char2escape`: what stands for a byte inside the quotes of a string, where it does
not stand for itself. -/
def char2escape (byte : Byte) : Option (List Byte) :=
  match byte.toNat with
  | 8 => some (bytesOf "\\b")
  | 9 => some (bytesOf "\\t")
  | 10 => some (bytesOf "\\n")
  | 12 => some (bytesOf "\\f")
  | 13 => some (bytesOf "\\r")
  | 34 => some (bytesOf "\\\"")
  | 47 => some (bytesOf "\\/")
  | 92 => some (bytesOf "\\\\")
  | 127 => some (bytesOf "\\u007f")
  | value =>
      if value < 32 then some (bytesOf "\\u00" ++ [hexDigit (value / 16), hexDigit (value % 16)])
      else none

/-- The constant `INT_MAX`, with 32 bits: the largest value of an `int`. -/
def intMax : Nat := 2147483647

/-- The string between its quotes, each byte that needs it as its escape. -/
def quoted (text : List Byte) : List Byte :=
  34 :: text.flatMap (fun byte => (char2escape byte).getD [byte]) ++ [34]

/-- `json_append_string`. The room that is made in the buffer, six bytes for each byte and two for
the quotes, is counted in an `int`; above its range too little is made, and bytes are written
behind the buffer. -/
def jsonAppendString (text : List Byte) : Except EncodeError (List Byte) :=
  if intMax < text.length * 6 + 2 then .error .undefined else .ok (quoted text)

/-- The keys of an array: the integers from 1 on, and infinity, which is above `INT_MAX`. -/
def arrayKey : Value → Option Nat
  | .number (.infinity false) => some (intMax + 1)
  | .number value =>
      match value.integral with
      | some whole => if 1 ≤ whole then some whole.toNat else none
      | none => none
  | _ => none

/-- The loop of `lua_array_length`: the highest key and the number of entries, or none if one
has another key. -/
def luaArrayLoop : Entries → Nat → Nat → Except EncodeError (Option (Nat × Nat))
  | [], highest, items => .ok (some (highest, items))
  | entry :: rest, highest, items =>
      match arrayKey entry.1 with
      | none => .ok none
      | some key =>
          if intMax < key then .error .undefined
          else luaArrayLoop rest (max highest key) (items + 1)

/-- The function `lua_array_length`: the length of a table whose keys are all positive integers,
and none for an object. An array with too few items for its length is an error. -/
def luaArrayLength (entries : Entries) : Except EncodeError (Option Nat) := do
  match ← luaArrayLoop entries 0 0 with
  | none => .ok none
  | some (highest, items) =>
      if items * sparseRatio < highest ∧ sparseSafe < highest then
        .error (.cannotSerialise (.table entries) "excessively sparse array")
      else .ok (some highest)

/-- The function `json_append_number`, which writes a number with fourteen significant digits
and refuses what is none, or infinite. -/
def jsonAppendNumber (value : Double) : Except EncodeError (List Byte) :=
  match value with
  | .finite _ _ _ => .ok (formatG encodeNumberPrecision value)
  | _ => .error (.cannotSerialise (.number value) "must not be NaN or Inf")

/-- Texts with a comma between each two of them, as the items of an array and the members of an
object are written. -/
def separated : List (List Byte) → List Byte
  | [] => []
  | [text] => text
  | text :: next :: texts => text ++ 44 :: separated (next :: texts)

/-- The key of an entry as it is written, between quotes and with the colon behind it. Only
numbers and strings can be keys. -/
def jsonAppendKey (key : Value) : Except EncodeError (List Byte) :=
  match key with
  | .number value => do
      let text ← jsonAppendNumber value
      .ok (34 :: text ++ bytesOf "\":")
  | .string text => do
      let text ← jsonAppendString text
      .ok (text ++ bytesOf ":")
  | key => .error (.cannotSerialise key "table key must be a number or string")

section Containers

variable (append : Value → Except EncodeError (List Byte))

/-- The function `json_append_array`: the values under the indices from one to the length,
missing ones as they are read, between brackets. -/
def jsonAppendArray (entries : Entries) (length : Nat) : Except EncodeError (List Byte) := do
  let texts ← (List.range length).mapM fun before => append (rawGet entries (index (before + 1)))
  .ok (91 :: separated texts ++ [93])

/-- The function `json_append_object`: the entries in the order of the table, each as its key
and its value, between braces. -/
def jsonAppendObject (entries : Entries) : Except EncodeError (List Byte) := do
  let texts ← entries.mapM fun entry => do
    let key ← jsonAppendKey entry.1
    let value ← append entry.2
    .ok (key ++ value)
  .ok (123 :: separated texts ++ [125])

/-- The part of `json_append_data` for a table: it is written as an array if it has a length,
and as an object if it has none or is empty. -/
def jsonAppendTable (entries : Entries) : Except EncodeError (List Byte) := do
  match ← luaArrayLength entries with
  | some (length + 1) => jsonAppendArray append entries (length + 1)
  | _ => jsonAppendObject append entries

end Containers

/-- The function `json_append_data`, which writes a value by its type. The room is how far the
depth is below its limit; a table takes one of it. -/
def jsonAppendData : Nat → Value → Except EncodeError (List Byte)
  | _, .string text => jsonAppendString text
  | _, .number value => jsonAppendNumber value
  | _, .boolean true => .ok (bytesOf "true")
  | _, .boolean false => .ok (bytesOf "false")
  | room + 1, .table entries => jsonAppendTable (jsonAppendData room) entries
  | 0, .table _ => .error (.excessiveNesting (encodeMaxDepth + 1))
  | _, .nil => .ok (bytesOf "null")
  | _, .null => .ok (bytesOf "null")
  | _, .other identity => .error (.cannotSerialise (.other identity) "type not supported")

/-- The function `json_encode`, which is `cjson.encode`: it writes a value as a JSON text, or
raises an error for a value that has none. -/
def jsonEncode (value : Value) : Except EncodeError (List Byte) :=
  jsonAppendData encodeMaxDepth value

/-! ## Tokens -/

/-- A token of a JSON text, with the text of a string and the value of a number; an error
carries its reason. -/
inductive Token where
  | objBegin
  | objEnd
  | arrBegin
  | arrEnd
  | string (text : List Byte)
  | number (value : Double)
  | boolean (value : Bool)
  | null
  | colon
  | comma
  | finish
  | error (reason : String)

/-- The name that `json_token_type_name` gives to a token for an error message, which for an
error is its reason. -/
def Token.name : Token → String
  | .objBegin => "T_OBJ_BEGIN"
  | .objEnd => "T_OBJ_END"
  | .arrBegin => "T_ARR_BEGIN"
  | .arrEnd => "T_ARR_END"
  | .string _ => "T_STRING"
  | .number _ => "T_NUMBER"
  | .boolean _ => "T_BOOLEAN"
  | .null => "T_NULL"
  | .colon => "T_COLON"
  | .comma => "T_COMMA"
  | .finish => "T_END"
  | .error reason => reason

/-- What a token begins with: a token of one character, the end, a blank, or more to look at. -/
inductive Opening where
  | single (token : Token)
  | finish
  | whitespace
  | error
  | unknown

/-- The table `ch2token`: what a byte is at the beginning of a token. Of what is more than one
byte long only the beginning is known. -/
def ch2token (byte : Byte) : Opening :=
  match byte.toNat with
  | 123 => .single .objBegin
  | 125 => .single .objEnd
  | 91 => .single .arrBegin
  | 93 => .single .arrEnd
  | 44 => .single .comma
  | 58 => .single .colon
  | 0 => .finish
  | 32 | 9 | 10 | 13 => .whitespace
  | 102 | 105 | 73 | 110 | 78 | 116 | 34 | 43 | 45 => .unknown
  | _ => if isDigit byte then .unknown else .error

/-- The bytes that are skipped between tokens: blanks, tabulators, newlines and carriage
returns. -/
def isWhitespace (byte : Byte) : Bool :=
  match ch2token byte with
  | .whitespace => true
  | _ => false

/-- The table `escape2char`: the byte that an escape of one letter stands for, and none for a
letter that is no escape. -/
def escape2char (byte : Byte) : Option Byte :=
  match byte.toNat with
  | 34 => some 34
  | 92 => some 92
  | 47 => some 47
  | 98 => some 8
  | 116 => some 9
  | 110 => some 10
  | 102 => some 12
  | 114 => some 13
  | 117 => some 117
  | _ => none

/-- The function `hexdigit2int`: the value of a hexadecimal digit in either case, and none for
any other byte. -/
def hexdigit2int (byte : Byte) : Option Nat :=
  if isDigit byte then some (byte.toNat - 48)
  else if 97 ≤ lower byte ∧ lower byte ≤ 102 then some ((lower byte).toNat - 87)
  else none

/-- The function `decode_hex4`: the value of four hexadecimal digits. A digit that is missing
counts as none. -/
def decodeHex4 : List Byte → Option Nat
  | first :: second :: third :: fourth :: _ => do
      let first ← hexdigit2int first
      let second ← hexdigit2int second
      let third ← hexdigit2int third
      let fourth ← hexdigit2int fourth
      some (first * 4096 + second * 256 + third * 16 + fourth)
  | _ => none

/-- The function `codepoint_to_utf8`, for the code points that UTF-16 encodes: the bytes of a
code point in UTF-8, one to four of them. -/
def codepointToUtf8 (codepoint : Nat) : List Byte :=
  if codepoint ≤ 0x7f then [UInt8.ofNat codepoint]
  else if codepoint ≤ 0x7ff then
    [UInt8.ofNat (0xc0 + codepoint / 64), UInt8.ofNat (0x80 + codepoint % 64)]
  else if codepoint ≤ 0xffff then
    [UInt8.ofNat (0xe0 + codepoint / 4096), UInt8.ofNat (0x80 + codepoint / 64 % 64),
      UInt8.ofNat (0x80 + codepoint % 64)]
  else
    [UInt8.ofNat (0xf0 + codepoint / 262144), UInt8.ofNat (0x80 + codepoint / 4096 % 64),
      UInt8.ofNat (0x80 + codepoint / 64 % 64), UInt8.ofNat (0x80 + codepoint % 64)]

/-- `json_append_unicode_escape`: the bytes of an escape, and how many it takes, from its
backslash on. The second half of a surrogate pair is a second escape. -/
def jsonAppendUnicodeEscape (text : List Byte) : Option (List Byte × Nat) := do
  let codepoint ← decodeHex4 (text.drop 2)
  if codepoint / 2048 = 27 then
    if codepoint / 1024 % 2 = 1 then none
    else if (text.drop 6).take 2 ≠ bytesOf "\\u" then none
    else
      let low ← decodeHex4 (text.drop 8)
      if low / 1024 ≠ 55 then none
      else some (codepointToUtf8 (codepoint % 1024 * 1024 + low % 1024 + 65536), 12)
  else some (codepointToUtf8 codepoint, 6)

/-- The loop of `json_next_string_token`, where so many bytes of an escape are still to be
skipped: the string and what is behind its final quote, or the reason and the place of an
error. -/
def jsonNextString : Nat → List Byte → Except (String × List Byte) (List Byte × List Byte)
  | _, [] => .error ("unexpected end of string", [])
  | skipped + 1, _ :: rest => jsonNextString skipped rest
  | 0, byte :: rest =>
      if byte = 34 then .ok ([], rest)
      else if byte = 92 then
        match escape2char (rest.headD 0) with
        | none => .error ("invalid escape code", byte :: rest)
        | some 117 =>
            match jsonAppendUnicodeEscape (byte :: rest) with
            | none => .error ("invalid unicode escape code", byte :: rest)
            | some (bytes, used) =>
                (jsonNextString (used - 1) rest).map fun (text, rest) => (bytes ++ text, rest)
        | some character =>
            (jsonNextString 1 rest).map fun (text, rest) => (character :: text, rest)
      else (jsonNextString 0 rest).map fun (text, rest) => (byte :: text, rest)

/-- `json_is_invalid_number`: a numeral of `strtod` that JSON does not have. A `char` has a
sign. -/
def jsonIsInvalidNumber (text : List Byte) : Bool :=
  if text.headD 0 = 43 then true
  else
    let unsigned := if text.headD 0 = 45 then text.drop 1 else text
    let first := unsigned.headD 0
    let second := (unsigned.drop 1).headD 0
    if first = 48 then second = 120 || second = 88 || isDigit second
    else if first ≤ 57 ∨ 128 ≤ first then false
    else beginsWith (bytesOf "inf") unsigned || beginsWith (bytesOf "nan") unsigned

/-- A token, the text from its place on, and the text behind it. -/
structure Reading where
  token : Token
  place : List Byte
  rest : List Byte

/-- The function `json_set_token_error`: the token is an error with this reason at this place,
and nothing was taken. -/
def jsonSetTokenError (reason : String) (place : List Byte) : Reading :=
  ⟨.error reason, place, place⟩

/-- The function `json_next_number_token`, which takes what `strtod` reads; where that is
nothing the number is invalid. -/
def jsonNextNumberToken (text : List Byte) : Reading :=
  let (value, used) := strtod text
  if used = 0 then jsonSetTokenError "invalid number" text
  else ⟨.number value, text, text.drop used⟩

/-- The function `json_next_string_token` behind the opening quote, up to the closing one or an
error. -/
def jsonNextStringToken (place text : List Byte) : Reading :=
  match jsonNextString 0 text with
  | .ok (string, rest) => ⟨.string string, place, rest⟩
  | .error (reason, place) => jsonSetTokenError reason place

/-- A text begins with a word, as the three literals of JSON are recognised. -/
def startsWith (word : String) (text : List Byte) : Bool := (bytesOf word).isPrefixOf text

/-- The function `json_next_token` behind the blanks: the first byte says what the token is, and
for a string, a number or a word the bytes behind it are read too. -/
def jsonToken : List Byte → Reading
  | [] => ⟨.finish, [], []⟩
  | ch :: behind =>
      match ch2token ch with
      | .error | .whitespace => jsonSetTokenError "invalid token" (ch :: behind)
      | .finish => ⟨.finish, ch :: behind, ch :: behind⟩
      | .single token => ⟨token, ch :: behind, behind⟩
      | .unknown =>
          if ch = 34 then jsonNextStringToken (ch :: behind) behind
          else if ch = 45 ∨ isDigit ch then jsonNextNumberToken (ch :: behind)
          else if startsWith "true" (ch :: behind) then
            ⟨.boolean true, ch :: behind, behind.drop 3⟩
          else if startsWith "false" (ch :: behind) then
            ⟨.boolean false, ch :: behind, behind.drop 4⟩
          else if startsWith "null" (ch :: behind) then ⟨.null, ch :: behind, behind.drop 3⟩
          else if jsonIsInvalidNumber (ch :: behind) then jsonNextNumberToken (ch :: behind)
          else jsonSetTokenError "invalid token" (ch :: behind)

/-- The function `json_next_token`: it skips the blanks and reads the token behind them. -/
def jsonNextToken (text : List Byte) : Reading := jsonToken (text.dropWhile isWhitespace)

/-! ## Decoding -/

/-- Why a text cannot be decoded, with the text from the place of the error on. -/
inductive DecodeError where
  | unsupported
  | expected (what found : String) (place : List Byte)
  | nested (depth : Nat) (place : List Byte)

/-- The message of an error in a text of this many bytes. -/
def DecodeError.message (length : Nat) : DecodeError → String
  | .unsupported => "JSON parser does not support UTF-16 or UTF-32"
  | .expected what found place =>
      "Expected " ++ what ++ " but found " ++ found ++ " at character " ++
        toString (length - place.length + 1)
  | .nested depth place =>
      "Found too many nested data structures (" ++ toString depth ++ ") at character " ++
        toString (length - place.length)

/-- The function `json_throw_parse_error`: an error that names what was expected, and the token
that was found at its place. -/
def jsonThrowParseError {Result : Type} (what : String) (reading : Reading) :
    Except DecodeError Result := .error (.expected what reading.token.name reading.place)

section Containers

variable (process : Reading → Except DecodeError (Value × List Byte))

/-- The loop of `json_parse_object_context`, from a token on, with a bound on how often it goes
round. A pair takes bytes, so the number of bytes is bound enough. -/
def jsonParseMembers : Nat → Reading → Entries → Except DecodeError (Value × List Byte)
  | 0, reading, _ => jsonThrowParseError "object key string" reading
  | bound + 1, reading, entries =>
      match reading.token with
      | .string key =>
          let colon := jsonNextToken reading.rest
          match colon.token with
          | .colon => do
              let (value, rest) ← process (jsonNextToken colon.rest)
              let stored := rawSet entries (.string key) value
              let next := jsonNextToken rest
              match next.token with
              | .objEnd => .ok (.table stored, next.rest)
              | .comma => jsonParseMembers bound (jsonNextToken next.rest) stored
              | _ => jsonThrowParseError "comma or object end" next
          | _ => jsonThrowParseError "colon" colon
      | _ => jsonThrowParseError "object key string" reading

/-- The function `json_parse_object_context` behind the opening brace: an empty object, or
members up to the closing brace. -/
def jsonParseObjectContext (text : List Byte) : Except DecodeError (Value × List Byte) :=
  let reading := jsonNextToken text
  match reading.token with
  | .objEnd => .ok (.table [], reading.rest)
  | _ => jsonParseMembers process (text.length + 1) reading []

/-- The loop of `json_parse_array_context` from a token and an index on: it stores a value under
the index, and goes on behind a comma. -/
def jsonParseElements :
    Nat → Nat → Reading → Entries → Except DecodeError (Value × List Byte)
  | 0, _, reading, _ => jsonThrowParseError "value" reading
  | bound + 1, position, reading, entries => do
      let (value, rest) ← process reading
      let stored := rawSet entries (index position) value
      let next := jsonNextToken rest
      match next.token with
      | .arrEnd => .ok (.table stored, next.rest)
      | .comma => jsonParseElements bound (position + 1) (jsonNextToken next.rest) stored
      | _ => jsonThrowParseError "comma or array end" next

/-- The function `json_parse_array_context` behind the opening bracket: an empty array, or
elements up to the closing bracket. -/
def jsonParseArrayContext (text : List Byte) : Except DecodeError (Value × List Byte) :=
  let reading := jsonNextToken text
  match reading.token with
  | .arrEnd => .ok (.table [], reading.rest)
  | _ => jsonParseElements process (text.length + 1) 1 reading []

end Containers

/-- The function `json_process_value`, which makes a value of a token. The room is how far the
depth is below its limit; an array or an object takes one of it. -/
def jsonProcessValue : Nat → Reading → Except DecodeError (Value × List Byte)
  | room, reading =>
      match reading.token with
      | .string text => .ok (.string text, reading.rest)
      | .number value => .ok (.number value, reading.rest)
      | .boolean value => .ok (.boolean value, reading.rest)
      | .null => .ok (.null, reading.rest)
      | .objBegin =>
          match room with
          | 0 => .error (.nested (decodeMaxDepth + 1) reading.rest)
          | room + 1 => jsonParseObjectContext (jsonProcessValue room) reading.rest
      | .arrBegin =>
          match room with
          | 0 => .error (.nested (decodeMaxDepth + 1) reading.rest)
          | room + 1 => jsonParseArrayContext (jsonProcessValue room) reading.rest
      | _ => jsonThrowParseError "value" reading

/-- The function `json_decode` of a C string: one value, behind which only blanks may follow up
to the end of the text. -/
def jsonDecodeText (text : List Byte) : Except DecodeError Value := do
  let (value, rest) ← jsonProcessValue decodeMaxDepth (jsonNextToken text)
  let last := jsonNextToken rest
  match last.token with
  | .finish => .ok value
  | _ => jsonThrowParseError "the end" last

/-- `json_decode`. A text with a zero byte in front or behind the first one is taken for one of
two or four bytes a character. -/
def jsonDecode (data : List Byte) : Except DecodeError Value :=
  if 2 ≤ data.length ∧ 0 ∈ data.take 2 then .error .unsupported
  else jsonDecodeText (cString data)

end Dragonfly.Json
