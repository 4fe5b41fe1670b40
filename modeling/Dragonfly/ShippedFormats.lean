import Dragonfly.JsonReencoding
import Dragonfly.PackedEvents
import Dragonfly.ShippedSurvival

/-!
# The shipped scripts with the repository's `cjson` and `cmsgpack`

The runs of the shipped filter, analyzers and output where the decoder and the encoder are those
of `lua-cjson.c`, and the messages between the threads those of `lua_cmsgpack.c`. Which lines get
through is then a matter of their bytes, of the decoded value, of its numbers and of the length of
its encoding, which is the message to the output.
-/

namespace Dragonfly.ShippedFormats

open Config Events Flywheel Json JsonGrammar LuaValues MessagePack Shipped
open Stages (Stack first_exception)

/-! ## Both libraries -/

/-- The bytes of a number that is alone in a text. -/
def numeralOf (text : List Byte) : List Byte :=
  ((cString text).dropWhile isWhitespace).takeWhile fun byte => !isWhitespace byte

/-- The decoded value of a text as the scripts see it. Whether a table is an object is told from
the first character of the text, as an empty table does not show it. -/
def decodedOf (text : List Byte) : Value → Decoded Entries
  | .table entries => if startsObject text then .object entries else .array entries
  | .string bytes => .string bytes
  | .number _ => .number (numeralOf text)
  | .boolean value => .boolean value
  | _ => .null

/-- A decoded value as one of Lua, in the form the encoder gets it. -/
def valueOf : Decoded Entries → Value
  | .object entries => .table entries
  | .array entries => .table entries
  | .string bytes => .string bytes
  | .number numeral => .number (Numerals.strtod numeral).1
  | .boolean value => .boolean value
  | .null => .null

/-- The library `cjson` as the scripts use it: its decoder, its encoder, and the access to the
fields of a table. -/
def cjson : Cjson Entries where
  decode := fun text => (jsonDecode text).toOption.map (decodedOf text)
  encode := fun eve => (jsonEncode (valueOf eve)).toOption
  getString := fun entries key =>
    match rawGet entries (.string key) with
    | .string bytes => some bytes
    | _ => none
  setTrue := fun entries key => rawSet entries (.string key) (.boolean true)

/-- The object that an analyzer encodes: as it was decoded, or with the mark `mle` stored in it. -/
def recordOf (kind : Kind) (entries : Entries) : Entries :=
  match kind with
  | .alert => entries
  | .nsm => rawSet entries (.string (bytesOf "mle")) (.boolean true)

section Runs

variable {toInteger : Value → Int} {startStack : Kind → Stack Value} {lines : List (List Byte)}

/-- What an analyzer sends to the log for a line: a JSON text that means its record of the decoded
object, with the numbers rounded. -/
def Logged (kind : Kind) (line text : List Byte) : Prop :=
  ∃ entries, jsonDecode line = .ok (.table entries) ∧ startsObject line = true ∧
    Document standard encodeMaxDepth text
      (settled encodeMaxDepth (.table (recordOf kind entries)))

end Runs

end Dragonfly.ShippedFormats
