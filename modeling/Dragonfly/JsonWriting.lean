import Dragonfly.JsonReading

/-!
# What `cjson.encode` writes is JSON

An encoding is a text of the grammar, without blanks and with tables nested no deeper than the
encoder goes. It means the value that was encoded, except that the table of an object has
strings as keys, that what is nil becomes `null`, and that a number is the nearest one to its
first digits. So decoding an encoding returns that value.
-/

namespace Dragonfly.Json

open Config FloatingPoint JsonGrammar LuaValues Numerals

/-! ## What an encoding means -/

/-- The number that the digits written for a number spell, which is the number itself where
these digits suffice. -/
def writtenNumber : Double → Double
  | .finite negative exponent fraction =>
      (finiteNumeral encodeNumberPrecision negative exponent fraction).number
  | value => value

/-- The string that a key is written as: a string is written as it is, and a number with its
digits. -/
def writtenKey : Value → List Byte
  | .number value => formatG encodeNumberPrecision value
  | .string text => text
  | _ => []

/-- What the encoding of a value means to a reader of JSON, as far down as its tables are
nested. -/
def written : Nat → Value → Value
  | _, .string text => .string text
  | _, .number value => .number (writtenNumber value)
  | _, .boolean value => .boolean value
  | room + 1, .table entries =>
      match luaArrayLength entries with
      | .ok (some (length + 1)) =>
          .table (numbered 1 ((List.range (length + 1)).map fun before =>
            written room (rawGet entries (index (before + 1)))))
      | _ =>
          .table (objectTable (entries.map fun entry =>
            (writtenKey entry.1, written room entry.2)))
  | 0, .table entries => .table entries
  | _, .nil => .null
  | _, .null => .null
  | _, .other identity => .other identity

/-! ## Strings -/

/-- A digit below sixteen is written as a hexadecimal digit of the grammar, with the same value. -/
theorem hex_digit_written {value : Nat} (small : value < 16) : HexDigit (hexDigit value) value := by
  rw [hexDigit]
  split
  · rename_i digit
    exact .digit digit
  · rename_i letter
    have shape : 87 + value = 97 + (value - 10) := by omega
    have number : value = 10 + (value - 10) := by omega
    rw [shape]
    conv => rhs; rw [number]
    exact .lower (by omega)

/-- A byte is written as itself, as an escape or as a Unicode escape. -/
theorem char_written (byte : Byte) :
    (char2escape byte = none ∧ 32 ≤ byte ∧ byte ≠ 34 ∧ byte ≠ 92) ∨
      (∃ letter, char2escape byte = some [92, letter] ∧ Escape letter byte) ∨
      ∃ digits, char2escape byte = some (92 :: 117 :: digits) ∧ Unit digits byte.toNat ∧
        byte.toNat < 128 := by
  have known {value : Nat} (here : byte.toNat = value) : byte = UInt8.ofNat value := by
    rw [← here, UInt8.ofNat_toNat]
  rw [char2escape]
  split
  case h_1 here => exact .inr (.inl ⟨98, rfl, known here ▸ .backspace⟩)
  case h_2 here => exact .inr (.inl ⟨116, rfl, known here ▸ .tab⟩)
  case h_3 here => exact .inr (.inl ⟨110, rfl, known here ▸ .line⟩)
  case h_4 here => exact .inr (.inl ⟨102, rfl, known here ▸ .feed⟩)
  case h_5 here => exact .inr (.inl ⟨114, rfl, known here ▸ .carriage⟩)
  case h_6 here => exact .inr (.inl ⟨34, rfl, known here ▸ .quote⟩)
  case h_7 here => exact .inr (.inl ⟨47, rfl, known here ▸ .slash⟩)
  case h_8 here => exact .inr (.inl ⟨92, rfl, known here ▸ .backslash⟩)
  case h_9 here =>
    have seven : HexDigit 55 7 := hex_digit_written (by decide : 7 < 16)
    have fifteen : HexDigit 102 15 := hex_digit_written (by decide : 15 < 16)
    have zero : HexDigit 48 0 := hex_digit_written (by decide : 0 < 16)
    rw [here]
    exact .inr (.inr ⟨[48, 48, 55, 102], rfl, .mk zero zero seven fifteen, by omega⟩)
  case h_10 notQuote _ notBackslash _ =>
    split
    · rename_i control
      have zero : HexDigit 48 0 := hex_digit_written (by decide : 0 < 16)
      have spelled := Unit.mk zero zero (hex_digit_written (by omega : byte.toNat / 16 < 16))
        (hex_digit_written (by omega : byte.toNat % 16 < 16))
      have value : ((0 * 16 + 0) * 16 + byte.toNat / 16) * 16 + byte.toNat % 16 = byte.toNat := by
        omega
      rw [value] at spelled
      exact .inr (.inr ⟨_, rfl, spelled, by omega⟩)
    · rename_i control
      refine .inl ⟨rfl, ?_, ?_, ?_⟩
      · rw [UInt8.le_iff_toNat_le]
        exact Nat.le_of_not_lt control
      · rintro rfl
        exact notQuote rfl
      · rintro rfl
        exact notBackslash rfl

/-- The bytes of a string are written between its quotes. -/
theorem string_written (text : List Byte) :
    Characters standard (text.flatMap fun byte => (char2escape byte).getD [byte]) text := by
  induction text with
  | nil => exact .nil
  | cons byte text inductionHypothesis =>
    rw [List.flatMap_cons]
    obtain ⟨plain, control, quote, backslash⟩ | ⟨letter, escape, escaped⟩ |
      ⟨digits, escape, spelled, small⟩ := char_written byte
    · rw [plain]
      exact .plain control quote backslash inductionHypothesis
    · rw [escape]
      exact .escape escaped inductionHypothesis
    · have character : utf8 byte.toNat = [byte] := by
        rw [utf8, if_pos (by omega), UInt8.ofNat_toNat]
      have written := Characters.unit spelled (.inl (by omega)) inductionHypothesis
      rw [character] at written
      rw [escape]
      exact written

/-- A string that is not too long is written between its quotes. -/
theorem append_string_ok {bytes text : List Byte} (appended : jsonAppendString bytes = .ok text) :
    text = quoted bytes := by
  rw [jsonAppendString] at appended
  split at appended
  · cases appended
  · exact (Except.ok.inj appended).symm

/-! ## Numbers -/

/-- A numeral that is proper and does not begin with a superfluous zero is a number of the
grammar. -/
theorem numeral_written {numeral : Numeral} (proper : numeral.Proper) (leads : numeral.Leads) :
    Number numeral.text numeral.number := by
  have moved : Exponent (suffixText numeral.exponent) (numeral.exponent.getD 0) := by
    cases numeral.exponent with
    | none => exact .none
    | some exponent =>
      obtain ⟨sign, spelled, negative, shape, signed, nonempty, all, value⟩ :=
        exponent_text_parts exponent
      have letter : lower 101 = 101 := by decide
      have suffix := Exponent.some letter signed nonempty all
      rw [value, ← shape] at suffix
      exact suffix
  exact .mk proper.nonempty leads proper.whole proper.fraction moved

/-- A number that is written is a number of the grammar, and means the number with the digits
that were written. -/
theorem number_written {value : Double} {text : List Byte}
    (appended : jsonAppendNumber value = .ok text) :
    text = formatG encodeNumberPrecision value ∧ Number text (writtenNumber value) := by
  cases value with
  | nan => cases appended
  | infinity negative => cases appended
  | finite negative exponent fraction =>
    cases appended
    obtain ⟨proper, leads⟩ :
        (finiteNumeral encodeNumberPrecision negative exponent fraction).Proper ∧
        (finiteNumeral encodeNumberPrecision negative exponent fraction).Leads :=
      finite_numeral_proper (by decide)
    exact ⟨rfl, numeral_written proper leads⟩

/-- What `printf` writes of a number stands for itself between the quotes of a string, so a
number can be a key. -/
theorem format_characters (negative : Bool) (exponent : Fin (2 ^ 11 - 1))
    (fraction : Fin (2 ^ 52)) :
    Characters standard (formatG encodeNumberPrecision (.finite negative exponent fraction))
      (formatG encodeNumberPrecision (.finite negative exponent fraction)) := by
  have plain : ∀ text : List Byte, (∀ byte ∈ text, isDigit byte = true ∨ byte = 45 ∨ byte = 43 ∨
      byte = 46 ∨ byte = 101) → Characters standard text text := by
    intro text all
    induction text with
    | nil => exact .nil
    | cons byte text inductionHypothesis =>
      have bytes : ∀ byte : Byte, (isDigit byte = true ∨ byte = 45 ∨ byte = 43 ∨ byte = 46 ∨
          byte = 101) → 32 ≤ byte ∧ byte ≠ 34 ∧ byte ≠ 92 := all_bytes (by decide +kernel)
      obtain ⟨control, quote, backslash⟩ := bytes byte (all byte List.mem_cons_self)
      exact .plain control quote backslash
        (inductionHypothesis fun other listed => all other (List.mem_cons_of_mem _ listed))
  exact plain _ (numeral_bytes (finite_numeral_proper (by decide)).1)

/-! ## Tables -/

/-- Texts of values with commas between them are elements of the grammar, without any blanks. -/
theorem elements_written {spells : List Byte → Value → Prop} {texts : List (List Byte)}
    {values : List Value} (each : List.Forall₂ spells texts values) (nonempty : texts ≠ []) :
    Elements spells (separated texts) values := by
  have none : Blanks [] := by
    intro byte listed
    cases listed
  induction each with
  | nil => exact absurd rfl nonempty
  | @cons text value texts values here others inductionHypothesis =>
    cases others with
    | nil =>
      have last := Elements.last none here none
      rw [List.nil_append, List.append_nil] at last
      exact last
    | cons next later =>
      have more := Elements.more none here none (inductionHypothesis (List.cons_ne_nil _ _))
      rw [List.nil_append, List.nil_append] at more
      exact more

/-- Texts of members with commas between them are members of the grammar, without any blanks. -/
theorem members_written {spells : List Byte → Value → Prop} {texts : List (List Byte)}
    {pairs : List (List Byte × Value)} (each : List.Forall₂ (Member standard spells) texts pairs)
    (nonempty : texts ≠ []) : Members standard spells (separated texts) pairs := by
  induction each with
  | nil => exact absurd rfl nonempty
  | cons here others inductionHypothesis =>
    cases others with
    | nil => exact .last here
    | cons next later => exact .more here (inductionHypothesis (List.cons_ne_nil _ _))

/-- A key, a colon and a value are a pair of the grammar. -/
theorem member_written {spells : List Byte → Value → Prop} {key value : Value}
    {name text : List Byte} (appended : jsonAppendKey key = .ok name)
    (spelled : spells text value) :
    Member standard spells (name ++ text) (writtenKey key, value) := by
  have none : Blanks [] := by
    intro byte listed
    cases listed
  have member {key meaning : List Byte} (characters : Characters standard key meaning) :
      Member standard spells (34 :: (key ++ 34 :: 58 :: text)) (meaning, value) := by
    have pair := Member.mk none characters none none spelled none
    rw [List.nil_append, List.nil_append, List.nil_append, List.append_nil] at pair
    exact pair
  cases key with
  | string key =>
    obtain ⟨string, escaped, last⟩ := bind_ok_iff.mp appended
    cases last
    rw [append_string_ok escaped]
    have pair := member (string_written key)
    have joined : quoted key ++ bytesOf ":" ++ text =
        34 :: ((key.flatMap fun byte => (char2escape byte).getD [byte]) ++ 34 :: 58 :: text) := by
      rw [quoted, List.append_assoc, List.append_assoc]
      rfl
    rw [joined]
    exact pair
  | number number =>
    obtain ⟨numeral, formatted, last⟩ := bind_ok_iff.mp appended
    cases last
    cases number with
    | nan => cases formatted
    | infinity negative => cases formatted
    | finite negative exponent fraction =>
      cases formatted
      have pair := member (format_characters negative exponent fraction)
      have joined (numeral : List Byte) : 34 :: numeral ++ bytesOf "\":" ++ text =
          34 :: (numeral ++ 34 :: 58 :: text) := by
        rw [List.append_assoc]
        rfl
      rw [joined]
      exact pair
  | _ => cases appended

/-! ## Values -/

section Tables

variable {append : Value → Except EncodeError (List Byte)} {spells : List Byte → Value → Prop}
  {meaning : Value → Value}

/-- The pairs of an object are written as members of the grammar, if what is written of their
values means what it should. -/
theorem pairs_written (each : ∀ value text, append value = .ok text → spells text (meaning value))
    {entries : Entries} {texts : List (List Byte)}
    (appended : List.Forall₂ (fun (entry : Value × Value) text =>
      (do
        let key ← jsonAppendKey entry.1
        let value ← append entry.2
        Except.ok (key ++ value)) = .ok text) entries texts) :
    List.Forall₂ (Member standard spells) texts
      (entries.map fun entry => (writtenKey entry.1, meaning entry.2)) := by
  induction appended with
  | nil => exact .nil
  | cons here others inductionHypothesis =>
    obtain ⟨name, key, later⟩ := bind_ok_iff.mp here
    obtain ⟨text, value, last⟩ := bind_ok_iff.mp later
    cases last
    exact .cons (member_written key (each _ _ value)) inductionHypothesis

/-- The elements of an array are written as texts of the grammar, if what is written of each of
them means what it should. -/
theorem values_written (each : ∀ value text, append value = .ok text → spells text (meaning value))
    {positions : List Nat} {element : Nat → Value} {texts : List (List Byte)}
    (appended : List.Forall₂ (fun position text => append (element position) = .ok text)
      positions texts) :
    List.Forall₂ spells texts (positions.map fun position => meaning (element position)) := by
  induction appended with
  | nil => exact .nil
  | cons here others inductionHypothesis => exact .cons (each _ _ here) inductionHypothesis

/-- An object is written as members of the grammar between braces, or as nothing between them
where it has no entries. -/
theorem object_written (each : ∀ value text, append value = .ok text → spells text (meaning value))
    {entries : Entries} {text : List Byte} (appended : jsonAppendObject append entries = .ok text) :
    ∃ inner, text = 123 :: (inner ++ [125]) ∧
      ((Blanks inner ∧ entries = []) ∨ Members standard spells inner
        (entries.map fun entry => (writtenKey entry.1, meaning entry.2))) := by
  obtain ⟨texts, pairs, last⟩ := bind_ok_iff.mp appended
  cases last
  have each := pairs_written each (traverse_ok_iff.mp pairs)
  refine ⟨separated texts, rfl, ?_⟩
  cases entries with
  | nil =>
    cases each
    exact .inl ⟨fun byte listed => (List.not_mem_nil listed).elim, rfl⟩
  | cons entry entries =>
    refine .inr (members_written each ?_)
    rintro rfl
    cases each

/-- An array is written as elements of the grammar between brackets; its length is at least one. -/
theorem array_written (each : ∀ value text, append value = .ok text → spells text (meaning value))
    {entries : Entries} {length : Nat} {text : List Byte}
    (appended : jsonAppendArray append entries (length + 1) = .ok text) :
    ∃ inner, text = 91 :: (inner ++ [93]) ∧ Elements spells inner
      ((List.range (length + 1)).map fun before =>
        meaning (rawGet entries (index (before + 1)))) := by
  obtain ⟨texts, values, last⟩ := bind_ok_iff.mp appended
  cases last
  have each := values_written each (traverse_ok_iff.mp values)
  refine ⟨separated texts, rfl, elements_written each ?_⟩
  rintro rfl
  rw [List.range_succ_eq_map] at each
  cases each

end Tables

/-- What is written of a value spells what it means. -/
theorem data_written (room : Nat) (value : Value) (text : List Byte)
    (appended : jsonAppendData room value = .ok text) :
    Spells standard room text (written room value) := by
  have scalar {room : Nat} {text : List Byte} {value : Value}
      (spelled : Scalar standard text value) :
      Spells standard room text value := by
    cases room with
    | zero => exact spelled
    | succ room => exact .inl spelled
  have string {bytes text : List Byte} (appended : jsonAppendString bytes = .ok text) :
      Scalar standard text (.string bytes) := by
    rw [append_string_ok appended]
    exact .string (string_written bytes)
  induction room generalizing value text with
  | zero =>
    cases value with
    | nil => cases appended; exact .null
    | boolean value => cases value <;> cases appended <;> constructor
    | number value => exact .number (number_written appended).2
    | string text => exact string appended
    | table entries => cases appended
    | null => cases appended; exact .null
    | other identity => cases appended
  | succ room inductionHypothesis =>
    cases value with
    | nil => cases appended; exact scalar .null
    | boolean value => cases value <;> cases appended <;> exact scalar (by constructor)
    | number value => exact scalar (.number (number_written appended).2)
    | string text => exact scalar (string appended)
    | null => cases appended; exact scalar .null
    | other identity => cases appended
    | table entries =>
      obtain ⟨length, measured, later⟩ := bind_ok_iff.mp appended
      have object (later : jsonAppendObject (jsonAppendData room) entries = .ok text) :
          Spells standard (room + 1) text (.table (objectTable (entries.map fun entry =>
            (writtenKey entry.1, written room entry.2)))) := by
        obtain ⟨inner, shape, content⟩ := object_written inductionHypothesis later
        refine .inr (.inr ⟨inner, _, shape, rfl, content.imp_left ?_⟩)
        rintro ⟨blanks, rfl⟩
        exact ⟨blanks, rfl⟩
      rw [written, measured]
      match length with
      | none => exact object later
      | some 0 => exact object later
      | some (length + 1) =>
        obtain ⟨inner, shape, elements⟩ := array_written inductionHypothesis later
        exact .inr (.inl ⟨inner, _, shape, rfl, .inr elements⟩)

/-- What `cjson.encode` writes of a value is a JSON text of what it means. -/
theorem json_written {value : Value} {text : List Byte} (encoded : jsonEncode value = .ok text) :
    Document standard encodeMaxDepth text (written encodeMaxDepth value) := by
  have none : Blanks [] := by
    intro byte listed
    cases listed
  have document := Document.mk none (data_written encodeMaxDepth value text encoded) none
  rw [List.nil_append, List.append_nil] at document
  exact document

/-- What `cjson.encode` writes of a value is a JSON text, and decoding it returns what the encoding
means. A text of this size fits the buffer of the encoder, with what it reserves for a string. -/
theorem json_read_back {value : Value} {text : List Byte} (encoded : jsonEncode value = .ok text)
    (short : text.length < 134217728) :
    Document standard encodeMaxDepth text (written encodeMaxDepth value) ∧
      jsonDecode text = .ok (written encodeMaxDepth value) := by
  have document := json_written encoded
  refine ⟨document, ?_⟩
  rw [decode_clean (document_clean document)]
  exact document_read (document_lenient document) (by omega)

/-- The law at work for an object of one pair: `{"a":true}` is decoded to the table that has
`true` under `"a"`. -/
theorem json_read_back_object :
    jsonDecode [123, 34, 97, 34, 58, 116, 114, 117, 101, 125] =
      .ok (.table [(.string [97], .boolean true)]) := by
  have encoded : jsonEncode (.table [(.string [97], .boolean true)]) =
      .ok [123, 34, 97, 34, 58, 116, 114, 117, 101, 125] := rfl
  exact (json_read_back encoded (by decide)).2

end Dragonfly.Json
