import Dragonfly.Json
import Dragonfly.JsonGrammar
import Dragonfly.NumeralFronts

/-!
# `cjson.decode` reads JSON

The decoder reads a dialect of JSON, in which any byte may stand for itself in a string and any
numeral of `strtod` is a number. Every text of the dialect is decoded to the value it means:
blanks are skipped, a numeral is taken as a whole, an escape is the character it means, and a
table is filled element by element. The bound on the nesting is the one of the decoder. JSON is
part of the dialect.
-/

namespace Dragonfly.Json

open JsonGrammar LuaValues Numerals

/-- The dialect of the decoder. A numeral of `strtod` is a number unless a blank or a point is in
front. -/
def lenient : Dialect where
  Plain _ := True
  Numeral text value :=
    (∃ first others, text = first :: others ∧ isSpace first = false ∧ first ≠ 46) ∧
      strtod text = (value, text.length)

/-! ## Bytes -/

/-- What holds of the 256 bytes holds of a byte. -/
theorem all_bytes {holds : Byte → Prop} (check : ∀ value : Fin 256, holds (UInt8.ofNat value))
    (byte : Byte) : holds byte := by
  have checked := check ⟨byte.toNat, byte.toNat_lt⟩
  rwa [UInt8.ofNat_toNat] at checked

/-- The bytes the decoder skips between tokens are the blanks of the grammar. -/
theorem whitespace_iff (byte : Byte) : isWhitespace byte = true ↔ Blank byte := by
  have listed : ∀ byte : Byte,
      isWhitespace byte = true ↔ (byte = 32 ∨ byte = 9 ∨ byte = 10 ∨ byte = 13) :=
    all_bytes (by decide +kernel)
  exact listed byte

/-- A token stands behind the blanks in front of it. -/
theorem next_token_blanks {front : List Byte} (blanks : Blanks front) (text : List Byte) :
    jsonNextToken (front ++ text) = jsonNextToken text := by
  rw [jsonNextToken, jsonNextToken]
  congr 1
  induction front with
  | nil => rw [List.nil_append]
  | cons byte front inductionHypothesis =>
    have blank : isWhitespace byte = true :=
      (whitespace_iff byte).mpr (blanks byte List.mem_cons_self)
    rw [List.cons_append, List.dropWhile_cons, if_pos blank]
    exact inductionHypothesis fun other listed => blanks other (List.mem_cons_of_mem _ listed)

/-- A text that is not empty and does not begin with a blank, as the texts of values are. -/
def Begins (text : List Byte) : Prop :=
  ∃ first others, text = first :: others ∧ isWhitespace first = false

/-- Where no blank is in front, the token that is read is the one that stands there. -/
theorem next_token_begins {text : List Byte} (begins : Begins text) (rest : List Byte) :
    jsonNextToken (text ++ rest) = jsonToken (text ++ rest) := by
  obtain ⟨first, others, rfl, blank⟩ := begins
  rw [jsonNextToken, List.cons_append, List.dropWhile_cons, blank]
  rfl

/-- Where a numeral ends in front of a text, it also ends in front of blanks and that text. -/
theorem stops_blanks {back : List Byte} (blanks : Blanks back) {rest : List Byte}
    (stops : Stops rest) : Stops (back ++ rest) := by
  cases back with
  | nil => exact stops
  | cons byte back =>
    intro first head
    obtain rfl : byte = first := Option.some.inj head
    obtain rfl | rfl | rfl | rfl := blanks byte List.mem_cons_self
    · exact ⟨rfl, by decide, by decide⟩
    · exact ⟨rfl, by decide, by decide⟩
    · exact ⟨rfl, by decide, by decide⟩
    · exact ⟨rfl, by decide, by decide⟩

/-- No numeral goes on with a comma or a closing bracket. -/
theorem stops_token {byte : Byte} (token : byte = 44 ∨ byte = 93 ∨ byte = 125) (rest : List Byte) :
    Stops (byte :: rest) := by
  intro first head
  obtain rfl : byte = first := Option.some.inj head
  obtain rfl | rfl | rfl := token
  · exact ⟨rfl, by decide, by decide⟩
  · exact ⟨rfl, by decide, by decide⟩
  · exact ⟨rfl, by decide, by decide⟩

/-! ## Strings -/

/-- The bytes of an escape are skipped once its character was read, and the string goes on
behind them. -/
theorem next_string_skips (front rest : List Byte) :
    jsonNextString front.length (front ++ rest) = jsonNextString 0 rest := by
  induction front with
  | nil => rfl
  | cons byte front inductionHypothesis =>
    rw [List.length_cons, List.cons_append, jsonNextString]
    exact inductionHypothesis

/-- A hexadecimal digit of the grammar has its value under `hexdigit2int`, which is smaller than
sixteen. -/
theorem hex_digit_value {byte : Byte} {value : Nat} (digit : HexDigit byte value) :
    hexdigit2int byte = some value ∧ value < 16 := by
  cases digit with
  | digit small =>
    have all : ∀ value : Fin 10, hexdigit2int (UInt8.ofNat (48 + value.val)) = some value.val := by
      decide
    exact ⟨all ⟨value, small⟩, by omega⟩
  | @upper above small =>
    have all : ∀ above : Fin 6,
        hexdigit2int (UInt8.ofNat (65 + above.val)) = some (10 + above.val) := by decide
    exact ⟨all ⟨above, small⟩, by omega⟩
  | @lower above small =>
    have all : ∀ above : Fin 6,
        hexdigit2int (UInt8.ofNat (97 + above.val)) = some (10 + above.val) := by decide
    exact ⟨all ⟨above, small⟩, by omega⟩

/-- Four hexadecimal digits of the grammar are read as the number they spell, whatever stands
behind them. -/
theorem unit_read {digits : List Byte} {value : Nat} (spelled : Unit digits value)
    (rest : List Byte) :
    decodeHex4 (digits ++ rest) = some value ∧ digits.length = 4 ∧ value < 65536 := by
  cases spelled with
  | mk one two three four =>
    obtain ⟨first, firstSmall⟩ := hex_digit_value one
    obtain ⟨second, secondSmall⟩ := hex_digit_value two
    obtain ⟨third, thirdSmall⟩ := hex_digit_value three
    obtain ⟨fourth, fourthSmall⟩ := hex_digit_value four
    refine ⟨?_, rfl, by omega⟩
    simp only [List.cons_append, List.nil_append, decodeHex4, first, second, third, fourth,
      Option.bind_eq_bind, Option.bind_some, Option.some.injEq]
    ring

/-- The function `codepoint_to_utf8` makes of a code point the bytes it has in UTF-8. -/
theorem codepoint_utf8 (codepoint : Nat) : codepointToUtf8 codepoint = utf8 codepoint := by
  rw [codepointToUtf8, utf8]
  split_ifs <;> first | rfl | omega

/-- A letter that is an escape of the grammar is one of the table `escape2char`, with the same
meaning. -/
theorem escape_read {letter character : Byte} (escaped : Escape letter character) :
    escape2char letter = some character ∧ character ≠ 117 := by
  cases escaped <;> exact ⟨rfl, by decide⟩

/-- The character behind a backslash is taken for the one it means. -/
theorem next_string_escape {letter character : Byte} (escaped : Escape letter character)
    (text : List Byte) :
    jsonNextString 0 (92 :: letter :: text) =
      (jsonNextString 0 text).map fun taken => (character :: taken.1, taken.2) := by
  obtain ⟨found, other⟩ := escape_read escaped
  have skips := next_string_skips [letter] text
  rw [jsonNextString, if_neg (by decide), if_pos rfl, List.headD_cons, found]
  split
  · rename_i absent
    cases absent
  · rename_i same
    exact absurd (Option.some.inj same) other
  · rename_i meant _ same
    obtain rfl := Option.some.inj same
    exact congrArg _ skips

/-- A Unicode escape is taken for the bytes of its character. -/
theorem next_string_unicode {front bytes : List Byte} {text : List Byte}
    (found : jsonAppendUnicodeEscape (92 :: 117 :: (front ++ text)) =
      some (bytes, front.length + 2)) :
    jsonNextString 0 (92 :: 117 :: (front ++ text)) =
      (jsonNextString 0 text).map fun taken => (bytes ++ taken.1, taken.2) := by
  have letter : escape2char ((117 :: (front ++ text)).headD 0) = some 117 := rfl
  have skips := next_string_skips (117 :: front) text
  rw [jsonNextString, if_neg (by decide), if_pos rfl, letter]
  simp only [found]
  exact congrArg _ skips

/-- What stands between the quotes of a string is read. -/
theorem characters_read {dialect : Dialect} {text meaning : List Byte}
    (characters : Characters dialect text meaning)
    (rest : List Byte) : jsonNextString 0 (text ++ 34 :: rest) = .ok (meaning, rest) := by
  induction characters with
  | nil => rfl
  | plain _ quote backslash _ inductionHypothesis =>
    rw [List.cons_append, jsonNextString, if_neg quote, if_neg backslash, inductionHypothesis]
    rfl
  | escape escaped _ inductionHypothesis =>
    rw [List.cons_append, List.cons_append, next_string_escape escaped, inductionHypothesis]
    rfl
  | @unit digits text meaning character spelled scalar _ inductionHypothesis =>
    obtain ⟨read, four, _⟩ := unit_read spelled (text ++ 34 :: rest)
    have found : jsonAppendUnicodeEscape (92 :: 117 :: (digits ++ (text ++ 34 :: rest))) =
        some (utf8 character, digits.length + 2) := by
      have plain : ¬ character / 2048 = 27 := by omega
      rw [jsonAppendUnicodeEscape, List.drop_succ_cons, List.drop_succ_cons, List.drop_zero, read,
        four, ← codepoint_utf8]
      simp only [Option.bind_eq_bind, Option.bind_some, if_neg plain]
    rw [List.cons_append, List.cons_append, List.append_assoc, next_string_unicode found,
      inductionHypothesis]
    rfl
  | @pair digits others text meaning high low first second highSmall lowSmall _
      inductionHypothesis =>
    obtain ⟨read, four, _⟩ := unit_read first (92 :: 117 :: (others ++ (text ++ 34 :: rest)))
    obtain ⟨readLow, fourLow, _⟩ := unit_read second (text ++ 34 :: rest)
    have joined : digits ++ 92 :: 117 :: (others ++ text) ++ 34 :: rest =
        (digits ++ 92 :: 117 :: others) ++ (text ++ 34 :: rest) := by
      simp only [List.append_assoc, List.cons_append]
    have found : jsonAppendUnicodeEscape
        (92 :: 117 :: ((digits ++ 92 :: 117 :: others) ++ (text ++ 34 :: rest))) =
        some (utf8 (0x10000 + high * 0x400 + low),
          (digits ++ 92 :: 117 :: others).length + 2) := by
      have shape : (digits ++ 92 :: 117 :: others) ++ (text ++ 34 :: rest) =
          digits ++ 92 :: 117 :: (others ++ (text ++ 34 :: rest)) := by
        simp only [List.append_assoc, List.cons_append]
      have surrogate : (0xd800 + high) / 2048 = 27 := by omega
      have notLow : ¬ (0xd800 + high) / 1024 % 2 = 1 := by omega
      have isLow : ¬ (0xdc00 + low) / 1024 ≠ 55 := by omega
      have behind :
          (92 :: 117 :: (digits ++ 92 :: 117 :: (others ++ (text ++ 34 :: rest)))).drop 6 =
          92 :: 117 :: (others ++ (text ++ 34 :: rest)) := by
        rw [List.drop_succ_cons, List.drop_succ_cons, ← four, List.drop_left]
      have escape : ¬ ((92 :: 117 :: (others ++ (text ++ 34 :: rest))).take 2 ≠
          Config.bytesOf "\\u") := by
        rw [List.take_succ_cons, List.take_succ_cons, List.take_zero]
        decide
      have further :
          (92 :: 117 :: (digits ++ 92 :: 117 :: (others ++ (text ++ 34 :: rest)))).drop 8 =
          others ++ (text ++ 34 :: rest) := by
        have twice := List.drop_drop (l := 92 :: 117 ::
          (digits ++ 92 :: 117 :: (others ++ (text ++ 34 :: rest)))) (i := 2) (j := 6)
        rw [← twice, behind]
        rfl
      have character : (0xd800 + high) % 1024 * 1024 + (0xdc00 + low) % 1024 + 65536 =
          0x10000 + high * 0x400 + low := by omega
      rw [shape, jsonAppendUnicodeEscape, behind, further, List.drop_succ_cons,
        List.drop_succ_cons, List.drop_zero, read, readLow]
      simp only [Option.bind_eq_bind, Option.bind_some, if_pos surrogate, if_neg notLow,
        if_neg escape, if_neg isLow, character, codepoint_utf8, List.length_append, four,
        List.length_cons, fourLow]
    rw [List.cons_append, List.cons_append, joined, next_string_unicode found,
      inductionHypothesis]
    rfl

/-! ## Numbers -/

/-- The exponent of a number of JSON is read by `strtod` to its last digit, with its sign and
its value. -/
theorem exponent_read {suffix : List Byte} {exponent : Int} (moved : Exponent suffix exponent) :
    readExponent 101 (suffix ++ []) = (exponent, suffix.length) ∧
      ∀ byte ∈ (suffix ++ []).head?, isDigit byte = false ∧ byte ≠ 46 ∧ lower byte ≠ 120 := by
  have ends : Ends [] := by
    intro byte first
    cases first
  cases moved with
  | none => exact ⟨read_suffix none ends, suffix_ends none ends⟩
  | @some letter sign digits negative small signed nonempty all =>
    refine ⟨read_exponent_parts small signed nonempty all fun byte first => (ends byte first).1, ?_⟩
    intro byte head
    obtain rfl : letter = byte := Option.some.inj head
    have letters : ∀ letter : Byte, lower letter = 101 → isDigit letter = false ∧ letter ≠ 46 :=
      all_bytes (by decide +kernel)
    obtain ⟨digit, point⟩ := letters letter small
    exact ⟨digit, point, by rw [small]; decide⟩

/-- A digit or a minus sign begins a number: it is no blank, no quote and no token of its own,
and no point. -/
theorem number_opening {byte : Byte} (number : byte = 45 ∨ isDigit byte = true) :
    isSpace byte = false ∧ isWhitespace byte = false ∧ ch2token byte = .unknown ∧ byte ≠ 34 ∧
      byte ≠ 46 := by
  obtain rfl | digit := number
  · exact ⟨rfl, rfl, rfl, by decide, by decide⟩
  · obtain ⟨value, small, rfl⟩ := digit_cases digit
    interval_cases value <;> exact ⟨rfl, rfl, rfl, by decide, by decide⟩

/-- A number of JSON is a numeral of the decoder's dialect, with the same value. -/
theorem number_lenient {text : List Byte} {value : FloatingPoint.Double}
    (number : Number text value) : lenient.Numeral text value := by
  cases number with
  | @mk negative whole fraction suffix exponent nonempty leading wholeDigits fractionDigits moved =>
    obtain ⟨read, behind⟩ := exponent_read moved
    have all : strtod ((if negative then [45] else []) ++
        (whole ++ (pointText fraction ++ suffix)) ++ []) = _ :=
      strtod_parts nonempty wholeDigits fractionDigits behind read
    rw [List.append_nil] at all
    refine ⟨?_, all⟩
    obtain ⟨first, others, rfl⟩ := List.exists_cons_of_ne_nil nonempty
    cases negative with
    | true => exact ⟨45, _, rfl, rfl, by decide⟩
    | false =>
      obtain ⟨blank, _, _, _, point⟩ := number_opening (.inr (wholeDigits first List.mem_cons_self))
      exact ⟨first, _, rfl, blank, point⟩

/-- A number without a sign begins with a digit or a point, or is a word. -/
theorem unsigned_opening {negative : Bool} {first : Byte} {others : List Byte}
    {found : FloatingPoint.Double × Nat} (point : first ≠ 46)
    (read : readUnsigned negative (first :: others) = some found) :
    isDigit first = true ∨ beginsWith [105, 110, 102] (first :: others) = true ∨
      beginsWith [110, 97, 110] (first :: others) = true := by
  by_cases digit : isDigit first = true
  · exact .inl digit
  refine .inr ?_
  rw [Bool.not_eq_true] at digit
  have none : readDigits isDigit (first :: others) = ([], [], 0) := by
    refine read_digits_whole isDigit ?_ fun byte head => ?_
    · rw [List.takeWhile_cons, digit]
      rfl
    · cases head
      exact point
  have zero : lower first ≠ 48 := by
    intro zero
    have zeros : ∀ byte : Byte, lower byte = 48 → isDigit byte = true :=
      all_bytes (by decide +kernel)
    rw [zeros first zero] at digit
    cases digit
  have hexadecimal : readHexadecimal negative (first :: others) = .none := by
    rw [readHexadecimal, begins_with_other zero]
    rfl
  rw [readUnsigned, hexadecimal, read_decimal_parts none] at read
  split_ifs at read with infinity short nan empty
  · have longer : beginsWith ([105, 110, 102] ++ [105, 110, 105, 116, 121]) (first :: others) =
        true := infinity
    exact .inl (begins_with_fewer longer)
  · exact .inl short
  · exact .inr nan
  · cases read
  · exact absurd rfl empty

/-- Which numerals there are: with a sign, with a digit in front, and the words. -/
theorem numeral_opening {first : Byte} {others : List Byte} {value : FloatingPoint.Double}
    (blank : isSpace first = false) (point : first ≠ 46)
    (read : strtod (first :: others) = (value, (first :: others).length)) :
    (first = 45 ∨ isDigit first = true) ∨ first = 43 ∨
      beginsWith [105, 110, 102] (first :: others) = true ∨
      beginsWith [110, 97, 110] (first :: others) = true := by
  by_cases minus : first = 45
  · exact .inl (.inl minus)
  by_cases plus : first = 43
  · exact .inr (.inl plus)
  have plain : ∀ byte ∈ (first :: others).head?, isSpace byte = false := by
    intro byte head
    cases head
    exact blank
  rw [strtod_plain plain, read_sign_byte, if_neg minus, if_neg plus, List.drop_zero] at read
  cases unsigned : readUnsigned false (first :: others) with
  | none =>
    rw [unsigned] at read
    exact absurd (congrArg Prod.snd read) (by simp)
  | some found =>
    obtain digit | word := unsigned_opening point unsigned
    · exact .inl (.inr digit)
    · exact .inr (.inr word)

/-- A word of letters does not begin with another letter. -/
theorem starts_other {word : String} {letter first : Byte} {letters text : List Byte}
    (spelled : Config.bytesOf word = letter :: letters) (other : first ≠ letter) :
    startsWith word (first :: text) = false := by
  rw [startsWith, spelled, List.isPrefixOf, beq_eq_false_iff_ne.mpr other.symm, Bool.false_and]

/-- A number that JSON does not have is a token. -/
theorem invalid_token {first : Byte} {others : List Byte} (kind : ch2token first = .unknown)
    (quote : first ≠ 34) (opening : ¬ (first = 45 ∨ isDigit first = true))
    (words : ∀ word ∈ ["true", "false", "null"], startsWith word (first :: others) = false)
    (invalid : jsonIsInvalidNumber (first :: others) = true) :
    jsonToken (first :: others) = jsonNextNumberToken (first :: others) := by
  have notTrue := words "true" (by decide)
  have notFalse := words "false" (by decide)
  have notNull := words "null" (by decide)
  rw [jsonToken, kind]
  simp only [if_neg quote, if_neg opening, notTrue, notFalse, notNull, invalid, if_true,
    Bool.false_eq_true, if_false]

/-- A sign in front of a number that JSON does not have. -/
theorem plus_token (others : List Byte) :
    jsonToken (43 :: others) = jsonNextNumberToken (43 :: others) := by
  apply invalid_token rfl (by decide) (by decide)
  · intro word listed
    obtain rfl | rfl | rfl : word = "true" ∨ word = "false" ∨ word = "null" := by
      simpa using listed
    · exact starts_other rfl (by decide)
    · exact starts_other rfl (by decide)
    · exact starts_other rfl (by decide)
  · rfl

/-- The first two letters of a word that was found, in whatever case, stand at the front of the
text. -/
theorem word_letters {first one two : Byte} {others letters : List Byte}
    (begins : beginsWith (one :: two :: letters) (first :: others) = true) :
    lower first = one ∧ ∃ second later, others = second :: later ∧ lower second = two := by
  have same := beq_iff_eq.mp begins
  rw [List.length_cons, List.take_succ_cons, List.map_cons, List.length_cons] at same
  obtain ⟨here, behind⟩ := List.cons.inj same
  refine ⟨here, ?_⟩
  cases others with
  | nil => cases behind
  | cons second later =>
    rw [List.take_succ_cons, List.map_cons] at behind
    exact ⟨second, later, rfl, (List.cons.inj behind).1⟩

/-- The words for infinity and for what is no number, which JSON does not have, are read by the
decoder as numbers. -/
theorem word_token {first : Byte} {others : List Byte}
    (word : beginsWith [105, 110, 102] (first :: others) = true ∨
      beginsWith [110, 97, 110] (first :: others) = true) :
    jsonToken (first :: others) = jsonNextNumberToken (first :: others) ∧
      isWhitespace first = false := by
  have cases : ∀ byte : Byte, lower byte = 105 ∨ lower byte = 110 →
      byte = 73 ∨ byte = 105 ∨ byte = 78 ∨ byte = 110 := all_bytes (by decide +kernel)
  have letter : lower first = 105 ∨ lower first = 110 :=
    word.imp (fun inf => (word_letters inf).1) fun nan => (word_letters nan).1
  have found : (beginsWith (Config.bytesOf "inf") (first :: others) ||
      beginsWith (Config.bytesOf "nan") (first :: others)) = true := by
    rw [Bool.or_eq_true]
    exact word
  have notNull : startsWith "null" (first :: others) = false := by
    obtain inf | nan := word
    · apply starts_other rfl
      rintro rfl
      exact absurd (word_letters inf).1 (by decide)
    · obtain ⟨_, second, later, rfl, two⟩ := word_letters nan
      have other : second ≠ 117 := by
        rintro rfl
        exact absurd two (by decide)
      have spelled : Config.bytesOf "null" = [110, 117, 108, 108] := rfl
      rw [startsWith, spelled, List.isPrefixOf, List.isPrefixOf, beq_eq_false_iff_ne.mpr other.symm,
        Bool.false_and, Bool.and_false]
  have plain : first ≠ 116 ∧ first ≠ 102 := by
    constructor
    · rintro rfl
      exact absurd letter (by decide)
    · rintro rfl
      exact absurd letter (by decide)
  have words : ∀ word ∈ ["true", "false", "null"], startsWith word (first :: others) = false := by
    intro word listed
    obtain rfl | rfl | rfl : word = "true" ∨ word = "false" ∨ word = "null" := by
      simpa using listed
    · exact starts_other rfl plain.1
    · exact starts_other rfl plain.2
    · exact notNull
  obtain rfl | rfl | rfl | rfl := cases first letter
  · exact ⟨invalid_token rfl (by decide) (by decide) words found, rfl⟩
  · exact ⟨invalid_token rfl (by decide) (by decide) words found, rfl⟩
  · exact ⟨invalid_token rfl (by decide) (by decide) words found, rfl⟩
  · exact ⟨invalid_token rfl (by decide) (by decide) words found, rfl⟩

/-- A numeral of the dialect is read as one token, if what stands behind it does not go on with
the numeral. -/
theorem numeral_token {text : List Byte} {value : FloatingPoint.Double}
    (numeral : lenient.Numeral text value) {rest : List Byte} (stops : Stops rest) :
    jsonToken (text ++ rest) = ⟨.number value, text ++ rest, rest⟩ ∧ Begins text := by
  obtain ⟨⟨first, others, rfl, blank, point⟩, alone⟩ := numeral
  have read : strtod (first :: others ++ rest) = (value, (first :: others).length) :=
    (strtod_stops first others blank stops).trans alone
  have number : jsonNextNumberToken (first :: others ++ rest) =
      ⟨.number value, first :: others ++ rest, rest⟩ := by
    rw [jsonNextNumberToken, read]
    simp only [List.length_cons, Nat.succ_ne_zero, if_false]
    rw [← List.length_cons, List.drop_left]
  obtain opening | plus | word := numeral_opening blank point alone
  · obtain ⟨_, white, kind, quote, _⟩ := number_opening opening
    refine ⟨?_, ⟨first, others, rfl, white⟩⟩
    rw [← number, List.cons_append, jsonToken, kind]
    simp only [if_neg quote, if_pos opening]
  · subst plus
    refine ⟨?_, ⟨43, others, rfl, rfl⟩⟩
    rw [← number]
    exact plus_token (others ++ rest)
  · have longer : beginsWith [105, 110, 102] (first :: (others ++ rest)) = true ∨
        beginsWith [110, 97, 110] (first :: (others ++ rest)) = true := by
      refine word.imp (fun begins => ?_) fun begins => ?_
      · rw [← List.cons_append, begins_with_front _ _ _ (begins_with_length begins)]
        exact begins
      · rw [← List.cons_append, begins_with_front _ _ _ (begins_with_length begins)]
        exact begins
    obtain ⟨token, white⟩ := word_token longer
    exact ⟨token.trans number, first, others, rfl, white⟩

/-! ## Values -/

/-- A scalar of the dialect is decoded to its value, and what is left is what stands behind it. -/
theorem scalar_read {text : List Byte} {value : Value} (scalar : Scalar lenient text value)
    (room : Nat) {rest : List Byte} (stops : Stops rest) :
    jsonProcessValue room (jsonToken (text ++ rest)) = .ok (value, rest) := by
  cases scalar with
  | @string text meaning characters =>
    have read := characters_read characters rest
    have token : jsonToken (34 :: text ++ [34] ++ rest) =
        ⟨.string meaning, 34 :: text ++ [34] ++ rest, rest⟩ := by
      have opening : ch2token 34 = .unknown := rfl
      have joined : text ++ [34] ++ rest = text ++ 34 :: rest := by
        rw [List.append_assoc, List.singleton_append]
      rw [List.cons_append, List.cons_append, joined, jsonToken, opening]
      simp only [if_true, jsonNextStringToken, read]
    rw [token]
    cases room <;> rfl
  | number numeral =>
    rw [(numeral_token numeral stops).1]
    cases room <;> rfl
  | true => cases room <;> rfl
  | false => cases room <;> rfl
  | null => cases room <;> rfl

/-- A value without a table begins with no blank and is not nil. -/
theorem scalar_begins {text : List Byte} {value : Value} (scalar : Scalar lenient text value) :
    Begins text ∧ value.isNil = false := by
  cases scalar with
  | string characters => exact ⟨⟨34, _, rfl, rfl⟩, rfl⟩
  | number numeral => exact ⟨(numeral_token numeral stops_nil).2, rfl⟩
  | true => exact ⟨⟨116, _, rfl, rfl⟩, rfl⟩
  | false => exact ⟨⟨102, _, rfl, rfl⟩, rfl⟩
  | null => exact ⟨⟨110, _, rfl, rfl⟩, rfl⟩

section Containers

variable {dialect : Dialect} {spells : List Byte → Value → Prop}
  {process : Reading → Except DecodeError (Value × List Byte)}

/-- What a decoder of values does on the values a grammar spells. -/
structure Processes (spells : List Byte → Value → Prop)
    (process : Reading → Except DecodeError (Value × List Byte)) : Prop where
  begins : ∀ {text value}, spells text value → Begins text
  present : ∀ {text value}, spells text value → value.isNil = false
  read : ∀ {text value}, spells text value → ∀ {rest}, Stops rest →
    process (jsonToken (text ++ rest)) = .ok (value, rest)

/-- A value with blanks in front of it and behind it is decoded. -/
theorem Processes.padded (processes : Processes spells process) {front text back : List Byte}
    {value : Value} (before : Blanks front) (spelled : spells text value) (after : Blanks back)
    {rest : List Byte} (stops : Stops rest) :
    process (jsonNextToken (front ++ (text ++ (back ++ rest)))) = .ok (value, back ++ rest) := by
  rw [next_token_blanks before, next_token_begins (processes.begins spelled)]
  exact processes.read spelled (stops_blanks after stops)

/-- A token of one character is read behind blanks, and what is left begins behind its
character. -/
theorem single_token {byte : Byte} {token : Token} (single : ch2token byte = .single token)
    {back : List Byte} (blanks : Blanks back) (rest : List Byte) :
    jsonNextToken (back ++ byte :: rest) = ⟨token, byte :: rest, rest⟩ := by
  have begins : Begins [byte] := by
    refine ⟨byte, [], rfl, ?_⟩
    rw [isWhitespace, single]
  have token := next_token_begins begins rest
  rw [List.singleton_append] at token
  rw [next_token_blanks blanks, token, jsonToken, single]

/-- There are no more values among elements than bytes in their text, so the loop over an array
has enough rounds. -/
theorem Processes.count (processes : Processes spells process) {inner : List Byte}
    {values : List Value} (elements : Elements spells inner values) :
    values.length ≤ inner.length := by
  induction elements with
  | last before spelled after =>
    obtain ⟨first, others, rfl, _⟩ := processes.begins spelled
    simp only [List.length_append, List.length_cons, List.length_nil]
    omega
  | more before spelled after others inductionHypothesis =>
    simp only [List.length_append, List.length_cons]
    omega

/-- One more value at the end of an array is one more entry, under the index behind the last
one. -/
theorem numbered_concat (first : Nat) (values : List Value) (value : Value) :
    numbered first (values ++ [value]) =
      numbered first values ++ [(index (first + values.length), value)] := by
  induction values generalizing first with
  | nil => rfl
  | cons before values inductionHypothesis =>
    have position : first + 1 + values.length = first + (values.length + 1) := by omega
    rw [List.cons_append, numbered, inductionHypothesis, numbered, List.length_cons,
      List.cons_append, position]

/-- An index behind those of the values of an array is the key of none of them. -/
theorem numbered_fresh {first : Nat} {values : List Value} {position : Nat}
    (behind : first + values.length ≤ position) (bounded : position < 9007199254740992) :
    ∀ entry ∈ numbered first values, sameKey (index position) entry.1 = false := by
  induction values generalizing first with
  | nil =>
    intro entry listed
    cases listed
  | cons value values inductionHypothesis =>
    rw [List.length_cons] at behind
    intro entry listed
    obtain rfl | later := List.mem_cons.mp listed
    · rw [Bool.eq_false_iff, Ne, same_index_iff bounded (by omega)]
      omega
    · have shifted : first + 1 + values.length ≤ position := by omega
      exact inductionHypothesis shifted entry later

/-- A value that is stored under the index behind the last one of an array is its new last
entry. -/
theorem stored_next {values : List Value} {value : Value} (present : value.isNil = false)
    (bounded : values.length + 1 < 9007199254740992) :
    rawSet (numbered 1 values) (index (values.length + 1)) value =
      numbered 1 (values ++ [value]) := by
  have behind : 1 + values.length ≤ values.length + 1 := by omega
  have fresh := numbered_fresh behind bounded
  rw [raw_set_fresh value fresh, numbered_concat, Nat.add_comm 1]
  simp [present]

/-- The loop over an array, with some values read already, reads the elements of the text and
stores each of them under its index. -/
theorem Processes.elements (processes : Processes spells process) {inner : List Byte}
    {values : List Value} (elements : Elements spells inner values) {bound : Nat}
    (enough : values.length ≤ bound) (done : List Value)
    (short : done.length + values.length < 9007199254740992) (rest : List Byte) :
    jsonParseElements process bound (done.length + 1) (jsonNextToken (inner ++ 93 :: rest))
        (numbered 1 done) = .ok (.table (numbered 1 (done ++ values)), rest) := by
  induction elements generalizing bound done with
  | @last front text back value before spelled after =>
    obtain ⟨bound, rfl⟩ : ∃ less, bound = less + 1 := ⟨bound - 1, by
      rw [List.length_singleton] at enough
      omega⟩
    have value := processes.padded before spelled after (stops_token (.inr (.inl rfl)) rest)
    have close := single_token (rfl : ch2token 93 = .single .arrEnd) after rest
    rw [List.length_singleton] at short
    have joined : front ++ (text ++ back) ++ 93 :: rest =
        front ++ (text ++ (back ++ 93 :: rest)) := by
      simp only [List.append_assoc]
    rw [joined, jsonParseElements, value, ok_bind]
    simp only [close, stored_next (processes.present spelled) short]
  | @more front text back later value values before spelled after others inductionHypothesis =>
    obtain ⟨bound, rfl⟩ : ∃ less, bound = less + 1 := ⟨bound - 1, by
      rw [List.length_cons] at enough
      omega⟩
    rw [List.length_cons] at enough short
    have here := processes.padded before spelled after
      (stops_token (.inl rfl) (later ++ 93 :: rest))
    have comma := single_token (rfl : ch2token 44 = .single .comma) after (later ++ 93 :: rest)
    have joined : front ++ (text ++ (back ++ 44 :: later)) ++ 93 :: rest =
        front ++ (text ++ (back ++ 44 :: (later ++ 93 :: rest))) := by
      simp only [List.append_assoc, List.cons_append]
    have fewer : values.length ≤ bound := by omega
    have continued := inductionHypothesis fewer (done ++ [value]) (by
      rw [List.length_append, List.length_singleton]
      omega)
    rw [List.length_append, List.length_singleton, List.append_assoc, List.singleton_append]
      at continued
    have bounded : done.length + 1 < 9007199254740992 := by omega
    rw [joined, jsonParseElements, here, ok_bind]
    simp only [comma, stored_next (processes.present spelled) bounded, continued]

/-- A string of the dialect is read as one token behind blanks, and its text is the meaning of
its characters. -/
theorem string_token {front key meaning : List Byte} (blanks : Blanks front)
    (characters : Characters dialect key meaning) (rest : List Byte) :
    ∃ place, jsonNextToken (front ++ 34 :: (key ++ 34 :: rest)) =
      ⟨.string meaning, place, rest⟩ := by
  have begins : Begins [34] := ⟨34, [], rfl, rfl⟩
  have token := next_token_begins begins (key ++ 34 :: rest)
  have opening : ch2token 34 = .unknown := rfl
  rw [List.singleton_append] at token
  refine ⟨34 :: (key ++ 34 :: rest), ?_⟩
  rw [next_token_blanks blanks, token, jsonToken, opening]
  simp only [if_true, jsonNextStringToken, characters_read characters rest]

/-- The table with the pairs stored one after the other. -/
def storePairs (entries : Entries) (pairs : List (List Byte × Value)) : Entries :=
  pairs.foldl (fun entries pair => rawSet entries (.string pair.1) pair.2) entries

/-- The loop over an object reads a pair and goes on behind it. -/
theorem Processes.member (processes : Processes spells process) {text : List Byte}
    {pair : List Byte × Value} (member : Member dialect spells text pair) (bound : Nat)
    (entries : Entries) {closing : Byte} (closes : closing = 44 ∨ closing = 93 ∨ closing = 125)
    {token : Token} (single : ch2token closing = .single token) (rest : List Byte) :
    jsonParseMembers process (bound + 1) (jsonNextToken (text ++ closing :: rest)) entries =
      match token with
      | .objEnd => .ok (.table (rawSet entries (.string pair.1) pair.2), rest)
      | .comma => jsonParseMembers process bound (jsonNextToken rest)
          (rawSet entries (.string pair.1) pair.2)
      | _ => jsonThrowParseError "comma or object end" ⟨token, closing :: rest, rest⟩ := by
  cases member with
  | @mk front key meaning back before text after value frontBlank characters backBlank
      beforeBlank spelled afterBlank =>
    have joined : front ++ (34 :: (key ++ 34 :: (back ++ 58 :: (before ++ (text ++ after))))) ++
        closing :: rest =
        front ++ 34 :: (key ++ 34 ::
          (back ++ 58 :: (before ++ (text ++ (after ++ closing :: rest))))) := by
      simp only [List.append_assoc, List.cons_append]
    obtain ⟨place, name⟩ := string_token frontBlank characters
      (back ++ 58 :: (before ++ (text ++ (after ++ closing :: rest))))
    have colon := single_token (rfl : ch2token 58 = .single .colon) backBlank
      (before ++ (text ++ (after ++ closing :: rest)))
    have value := processes.padded beforeBlank spelled afterBlank (stops_token closes rest)
    have close := single_token single afterBlank rest
    rw [joined, name, jsonParseMembers]
    simp only [colon, value, ok_bind, close]
    cases token <;> rfl

/-- There are no more pairs among members than bytes in their text, so the loop over an object
has enough rounds. -/
theorem count_members {inner : List Byte} {pairs : List (List Byte × Value)}
    (members : Members dialect spells inner pairs) : pairs.length ≤ inner.length := by
  have nonempty {text : List Byte} {pair : List Byte × Value}
      (member : Member dialect spells text pair) :
      0 < text.length := by
    cases member with
    | mk frontBlank characters backBlank beforeBlank spelled afterBlank =>
      simp only [List.length_append, List.length_cons]
      omega
  induction members with
  | last member =>
    have some := nonempty member
    rw [List.length_singleton]
    exact some
  | more member others inductionHypothesis =>
    simp only [List.length_append, List.length_cons]
    omega

/-- The loop over an object, with some pairs read already, reads the members of the text and
stores the value of each under its key. -/
theorem Processes.members (processes : Processes spells process) {inner : List Byte}
    {pairs : List (List Byte × Value)} (members : Members dialect spells inner pairs) {bound : Nat}
    (enough : pairs.length ≤ bound) (entries : Entries) (rest : List Byte) :
    jsonParseMembers process bound (jsonNextToken (inner ++ 125 :: rest)) entries =
      .ok (.table (storePairs entries pairs), rest) := by
  induction members generalizing bound entries with
  | last member =>
    obtain ⟨bound, rfl⟩ : ∃ less, bound = less + 1 := ⟨bound - 1, by
      rw [List.length_singleton] at enough
      omega⟩
    exact processes.member member bound entries (.inr (.inr rfl)) rfl rest
  | @more text later pair pairs member others inductionHypothesis =>
    obtain ⟨bound, rfl⟩ : ∃ less, bound = less + 1 := ⟨bound - 1, by
      rw [List.length_cons] at enough
      omega⟩
    rw [List.length_cons] at enough
    have here := processes.member member bound entries (.inl rfl)
      (rfl : ch2token 44 = .single .comma) (later ++ 125 :: rest)
    have fewer : pairs.length ≤ bound := by omega
    rw [List.append_assoc, List.cons_append, here]
    exact inductionHypothesis fewer _

/-- An array of the dialect is decoded to the table of its values, if these are decoded and a
closing bracket is refused as a value. -/
theorem Processes.array (processes : Processes spells process) (refuses : ∀ reading : Reading,
      reading.token = .arrEnd → ∃ error, process reading = .error error)
    {inner : List Byte} {values : List Value}
    (content : (Blanks inner ∧ values = []) ∨ Elements spells inner values)
    (short : values.length < 9007199254740992) (rest : List Byte) :
    jsonParseArrayContext process (inner ++ 93 :: rest) =
      .ok (.table (numbered 1 values), rest) := by
  rw [jsonParseArrayContext]
  obtain ⟨blanks, rfl⟩ | elements := content
  · have close := single_token (rfl : ch2token 93 = .single .arrEnd) blanks rest
    simp only [close]
    rfl
  · have enough : values.length ≤ (inner ++ 93 :: rest).length + 1 := by
      have count := processes.count elements
      rw [List.length_append]
      omega
    have loop := processes.elements elements enough [] (by
      rw [List.length_nil]
      omega) rest
    rw [List.length_nil, Nat.zero_add, List.nil_append] at loop
    -- the first token is one of a value
    have value : ∃ taken, process (jsonNextToken (inner ++ 93 :: rest)) = .ok taken := by
      cases elements with
      | @last front text back value before spelled after =>
        rw [List.append_assoc, List.append_assoc]
        exact ⟨_, processes.padded before spelled after (stops_token (.inr (.inl rfl)) rest)⟩
      | @more front text back later value values before spelled after others =>
        rw [List.append_assoc, List.append_assoc, List.append_assoc, List.cons_append]
        exact ⟨_, processes.padded before spelled after (stops_token (.inl rfl) _)⟩
    obtain ⟨taken, value⟩ := value
    split
    · rename_i closes
      obtain ⟨error, failed⟩ := refuses _ closes
      rw [failed] at value
      cases value
    · exact loop

/-- An object of the dialect is decoded to the table of its pairs, if its values are decoded. -/
theorem Processes.object (processes : Processes spells process) {inner : List Byte}
    {pairs : List (List Byte × Value)}
    (content : (Blanks inner ∧ pairs = []) ∨ Members dialect spells inner pairs)
    (rest : List Byte) :
    jsonParseObjectContext process (inner ++ 125 :: rest) =
      .ok (.table (objectTable pairs), rest) := by
  rw [jsonParseObjectContext]
  obtain ⟨blanks, rfl⟩ | members := content
  · have close := single_token (rfl : ch2token 125 = .single .objEnd) blanks rest
    simp only [close]
    rfl
  · have enough : pairs.length ≤ (inner ++ 125 :: rest).length + 1 := by
      have count := count_members members
      rw [List.length_append]
      omega
    have loop := processes.members members enough [] rest
    have name : ∃ text place behind, jsonNextToken (inner ++ 125 :: rest) =
        ⟨.string text, place, behind⟩ := by
      have first {text : List Byte} {pair : List Byte × Value}
          (member : Member dialect spells text pair)
          (rest : List Byte) : ∃ name place behind, jsonNextToken (text ++ rest) =
            ⟨.string name, place, behind⟩ := by
        cases member with
        | mk frontBlank characters backBlank beforeBlank spelled afterBlank =>
          rw [List.append_assoc, List.cons_append, List.append_assoc, List.cons_append]
          obtain ⟨place, token⟩ := string_token frontBlank characters _
          exact ⟨_, place, _, token⟩
      cases members with
      | last member => exact first member (125 :: rest)
      | more member others =>
        rw [List.append_assoc, List.cons_append]
        exact first member _
    obtain ⟨text, place, behind, name⟩ := name
    rw [name] at loop ⊢
    exact loop

end Containers

/-! ## Texts -/

/-- The decoder refuses a closing bracket where a value must stand, so no value begins with one. -/
theorem refuses_closing (room : Nat) (reading : Reading) (closes : reading.token = .arrEnd) :
    ∃ error, jsonProcessValue room reading = .error error := by
  obtain ⟨token, place, rest⟩ := reading
  obtain rfl : token = .arrEnd := closes
  cases room with
  | zero => exact ⟨_, rfl⟩
  | succ room => exact ⟨_, rfl⟩

/-- What a grammar spells with fewer bytes than so many. -/
def Within (size : Nat) (spells : List Byte → Value → Prop) (text : List Byte) (value : Value) :
    Prop :=
  text.length < size ∧ spells text value

/-- Where no room is left for tables only scalars are spelled, and these the decoder reads. -/
theorem scalar_processes (size room : Nat) :
    Processes (Within size (Scalar lenient)) (jsonProcessValue room) where
  begins spelled := (scalar_begins spelled.2).1
  present spelled := (scalar_begins spelled.2).2
  read spelled _ stops := scalar_read spelled.2 room stops

/-- What is spelled with room for so many tables inside each other is decoded. -/
theorem spells_processes (size : Nat) (small : size ≤ 9007199254740992) (room : Nat) :
    Processes (Within size (Spells lenient room)) (jsonProcessValue room) := by
  induction room with
  | zero => exact scalar_processes size 0
  | succ room inductionHypothesis =>
    have arrayOpens : ch2token 91 = .single .arrBegin := rfl
    have objectOpens : ch2token 123 = .single .objBegin := rfl
    refine ⟨?_, ?_, ?_⟩
    · rintro text value ⟨_, scalar | ⟨inner, values, rfl, _⟩ | ⟨inner, pairs, rfl, _⟩⟩
      · exact (scalar_begins scalar).1
      · exact ⟨91, _, rfl, rfl⟩
      · exact ⟨123, _, rfl, rfl⟩
    · rintro text value ⟨_, scalar | ⟨inner, values, _, rfl, _⟩ | ⟨inner, pairs, _, rfl, _⟩⟩
      · exact (scalar_begins scalar).2
      · rfl
      · rfl
    · rintro text value ⟨short, scalar | ⟨inner, values, rfl, rfl, content⟩ |
        ⟨inner, pairs, rfl, rfl, content⟩⟩ rest stops
      · exact scalar_read scalar (room + 1) stops
      · rw [List.length_cons, List.length_append] at short
        have inside : inner.length < size := by omega
        have within : (Blanks inner ∧ values = []) ∨
            Elements (Within size (Spells lenient room)) inner values :=
          content.imp_right fun elements => elements.imp fun text value within spelled =>
            ⟨lt_of_le_of_lt within inside, spelled⟩
        have few : values.length < 9007199254740992 := by
          obtain ⟨_, rfl⟩ | elements := within
          · exact Nat.succ_pos _
          · have count := inductionHypothesis.count elements
            omega
        have read := inductionHypothesis.array (refuses_closing room) within few rest
        have joined : 91 :: (inner ++ [93]) ++ rest = 91 :: (inner ++ 93 :: rest) := by
          simp only [List.append_assoc, List.cons_append, List.nil_append]
        rw [joined, jsonToken, arrayOpens]
        exact read
      · rw [List.length_cons, List.length_append] at short
        have inside : inner.length < size := by omega
        have within : (Blanks inner ∧ pairs = []) ∨
            Members lenient (Within size (Spells lenient room)) inner pairs :=
          content.imp_right fun members => members.imp id fun text value within spelled =>
            ⟨lt_of_le_of_lt within inside, spelled⟩
        have read := inductionHypothesis.object within rest
        have joined : 123 :: (inner ++ [125]) ++ rest = 123 :: (inner ++ 125 :: rest) := by
          simp only [List.append_assoc, List.cons_append, List.nil_append]
        rw [joined, jsonToken, objectOpens]
        exact read

/-- A text of the grammar is decoded to the value it means. -/
theorem document_read {text : List Byte} {value : Value}
    (document : Document lenient decodeMaxDepth text value) (short : text.length < 2147483648) :
    jsonDecodeText text = .ok value := by
  cases document with
  | @mk front text back value before spelled after =>
    simp only [List.length_append] at short
    have processes := spells_processes 2147483648 (by decide) decodeMaxDepth
    have inside : Within 2147483648 (Spells lenient decodeMaxDepth) text value :=
      ⟨by omega, spelled⟩
    have read := processes.padded before inside after stops_nil
    rw [List.append_nil] at read
    have finish : jsonNextToken back = ⟨.finish, [], []⟩ := by
      have behind := next_token_blanks after []
      rw [List.append_nil] at behind
      rw [behind]
      rfl
    rw [jsonDecodeText, read, ok_bind]
    simp only [finish]

/-! ## Zero bytes -/

/-- A text without zero bytes, which as a C string is not cut anywhere. -/
def Clean (text : List Byte) : Prop := ∀ byte ∈ text, byte ≠ 0

/-- Two texts one behind the other have no zero byte exactly if neither of them has one. -/
@[simp] theorem clean_append (front back : List Byte) :
    Clean (front ++ back) ↔ Clean front ∧ Clean back := by
  simp only [Clean, List.forall_mem_append]

/-- A text behind a byte has no zero byte exactly if neither that byte nor the text has one. -/
@[simp] theorem clean_cons (byte : Byte) (text : List Byte) :
    Clean (byte :: text) ↔ byte ≠ 0 ∧ Clean text := by
  simp only [Clean, List.forall_mem_cons]

/-- The empty text has no zero byte, since it has no byte at all. -/
@[simp] theorem clean_nil : Clean [] := by
  intro byte listed
  cases listed

/-- Blanks are no zero bytes, so a text of blanks has none. -/
theorem blanks_clean {text : List Byte} (blanks : Blanks text) : Clean text := by
  intro byte listed
  obtain rfl | rfl | rfl | rfl := blanks byte listed <;> decide

/-- Digits are no zero bytes, so a text of digits has none. -/
theorem digits_clean {text : List Byte} (all : ∀ digit ∈ text, isDigit digit = true) :
    Clean text := by
  intro byte listed
  rintro rfl
  exact absurd (all 0 listed) (by decide)

/-- A number of JSON consists of digits, signs, a point and the letter of its exponent, and has
no zero byte. -/
theorem number_clean {text : List Byte} {value : FloatingPoint.Double}
    (number : Number text value) : Clean text := by
  cases number with
  | @mk negative whole fraction suffix exponent nonempty leading wholeDigits fractionDigits moved =>
    have sign : Clean (if negative then [45] else []) := by
      cases negative with
      | true => simp
      | false => exact clean_nil
    have point : Clean (pointText fraction) := by
      rw [pointText]
      split
      · exact clean_nil
      · exact (clean_cons 46 fraction).mpr ⟨by decide, digits_clean fractionDigits⟩
    have suffix : Clean suffix := by
      cases moved with
      | none => exact clean_nil
      | @some letter sign digits negative small signed nonempty all =>
        have letters : letter ≠ 0 := by
          rintro rfl
          exact absurd small (by decide)
        have signs : Clean sign := by
          obtain ⟨rfl, _⟩ | ⟨rfl, _⟩ | ⟨rfl, _⟩ := signed <;> simp
        simp only [clean_cons, clean_append]
        exact ⟨letters, signs, digits_clean all⟩
    simp only [clean_append]
    exact ⟨sign, digits_clean wholeDigits, point, suffix⟩

/-- The text of four hexadecimal digits has no zero byte, because none of its digits is one. -/
theorem unit_clean {digits : List Byte} {value : Nat} (spelled : Unit digits value) :
    Clean digits := by
  have digit {byte : Byte} {value : Nat} (digit : HexDigit byte value) : byte ≠ 0 := by
    rintro rfl
    cases (hex_digit_value digit).1
  cases spelled with
  | mk one two three four => simp [digit one, digit two, digit three, digit four]

/-- What stands between the quotes of a string of JSON has no zero byte; a zero is written as an
escape. -/
theorem characters_clean {text meaning : List Byte}
    (characters : Characters standard text meaning) :
    Clean text := by
  induction characters with
  | nil => exact clean_nil
  | plain itself _ _ _ inductionHypothesis =>
    refine (clean_cons _ _).mpr ⟨?_, inductionHypothesis⟩
    rintro rfl
    exact absurd itself (by decide : ¬ (32 : Byte) ≤ 0)
  | escape escaped _ inductionHypothesis => cases escaped <;> simp [inductionHypothesis]
  | unit spelled _ _ inductionHypothesis => simp [unit_clean spelled, inductionHypothesis]
  | pair first second _ _ _ inductionHypothesis =>
    simp [unit_clean first, unit_clean second, inductionHypothesis]

/-- The text of a scalar of JSON has no zero byte, be it a string, a number or a word. -/
theorem scalar_clean {text : List Byte} {value : Value} (scalar : Scalar standard text value) :
    Clean text := by
  cases scalar with
  | string characters => simp [characters_clean characters]
  | number number => exact number_clean number
  | true => simp
  | false => simp
  | null => simp

/-- Elements whose own texts have no zero byte have none together with their commas and blanks. -/
theorem elements_clean {spells : List Byte → Value → Prop}
    (clean : ∀ text value, spells text value → Clean text) {inner : List Byte}
    {values : List Value} (elements : Elements spells inner values) : Clean inner := by
  induction elements with
  | last before spelled after =>
    simp [blanks_clean before, clean _ _ spelled, blanks_clean after]
  | more before spelled after _ inductionHypothesis =>
    simp [blanks_clean before, clean _ _ spelled, blanks_clean after, inductionHypothesis]

/-- Members whose values have no zero byte in their texts have none together with their keys,
colons, commas and blanks. -/
theorem members_clean {spells : List Byte → Value → Prop}
    (clean : ∀ text value, spells text value → Clean text) {inner : List Byte}
    {pairs : List (List Byte × Value)} (members : Members standard spells inner pairs) :
    Clean inner := by
  have inside {text : List Byte} {pair : List Byte × Value}
      (member : Member standard spells text pair) :
      Clean text := by
    cases member with
    | mk frontBlank characters backBlank beforeBlank spelled afterBlank =>
      simp [blanks_clean frontBlank, characters_clean characters, blanks_clean backBlank,
        blanks_clean beforeBlank, clean _ _ spelled, blanks_clean afterBlank]
  induction members with
  | last member => exact inside member
  | more member _ inductionHypothesis => simp [inside member, inductionHypothesis]

/-- The text of a value of JSON has no zero byte, by induction on how deep its tables are
nested. -/
theorem spells_clean (room : Nat) (text : List Byte) (value : Value)
    (spelled : Spells standard room text value) : Clean text := by
  induction room generalizing text value with
  | zero => exact scalar_clean spelled
  | succ room inductionHypothesis =>
    obtain scalar | ⟨inner, values, rfl, _, content⟩ | ⟨inner, pairs, rfl, _, content⟩ := spelled
    · exact scalar_clean scalar
    · have inside : Clean inner := by
        obtain ⟨blanks, _⟩ | elements := content
        · exact blanks_clean blanks
        · exact elements_clean inductionHypothesis elements
      simp [inside]
    · have inside : Clean inner := by
        obtain ⟨blanks, _⟩ | members := content
        · exact blanks_clean blanks
        · exact members_clean inductionHypothesis members
      simp [inside]

/-- A JSON text has no zero byte, so the decoder, which reads a C string, reads all of it. -/
theorem document_clean {room : Nat} {text : List Byte} {value : Value}
    (document : Document standard room text value) : Clean text := by
  cases document with
  | mk before spelled after =>
    simp [blanks_clean before, spells_clean _ _ _ spelled, blanks_clean after]

/-- A text without a zero byte is decoded as a whole. -/
theorem decode_clean {text : List Byte} (clean : Clean text) :
    jsonDecode text = jsonDecodeText text := by
  have plain : ¬ (2 ≤ text.length ∧ 0 ∈ text.take 2) := by
    rintro ⟨_, zero⟩
    exact clean 0 (List.mem_of_mem_take zero) rfl
  rw [jsonDecode, if_neg plain, cString_whole]
  exact fun zero => clean 0 zero rfl

/-! ## JSON -/

/-- The characters of a JSON string are characters of the decoder's dialect, with the same
meaning. -/
theorem characters_lenient {text meaning : List Byte}
    (characters : Characters standard text meaning) : Characters lenient text meaning := by
  induction characters with
  | nil => exact .nil
  | plain _ quote backslash _ inductionHypothesis =>
    exact .plain trivial quote backslash inductionHypothesis
  | escape escaped _ inductionHypothesis => exact .escape escaped inductionHypothesis
  | unit spelled scalar _ inductionHypothesis => exact .unit spelled scalar inductionHypothesis
  | pair first second highSmall lowSmall _ inductionHypothesis =>
    exact .pair first second highSmall lowSmall inductionHypothesis

/-- The scalars of JSON are scalars of the decoder's dialect, with the same value. -/
theorem scalar_lenient {text : List Byte} {value : Value} (scalar : Scalar standard text value) :
    Scalar lenient text value := by
  cases scalar with
  | string characters => exact .string (characters_lenient characters)
  | number number => exact .number (number_lenient number)
  | true => exact .true
  | false => exact .false
  | null => exact .null

/-- What JSON spells the decoder takes for the same value. -/
theorem spells_lenient {room : Nat} (text : List Byte) (value : Value)
    (spelled : Spells standard room text value) : Spells lenient room text value := by
  induction room generalizing text value with
  | zero => exact scalar_lenient spelled
  | succ room inductionHypothesis =>
    obtain scalar | ⟨inner, values, shape, same, content⟩ | ⟨inner, pairs, shape, same, content⟩ :=
      spelled
    · exact .inl (scalar_lenient scalar)
    · refine .inr (.inl ⟨inner, values, shape, same, content.imp_right fun elements => ?_⟩)
      exact elements.imp fun text value _ => inductionHypothesis text value
    · refine .inr (.inr ⟨inner, pairs, shape, same, content.imp_right fun members => ?_⟩)
      exact members.imp characters_lenient fun text value _ => inductionHypothesis text value

/-- A JSON text is a text of the decoder's dialect, with the same value. -/
theorem document_lenient {room : Nat} {text : List Byte} {value : Value}
    (document : Document standard room text value) : Document lenient room text value := by
  cases document with
  | mk before spelled after => exact .mk before (spells_lenient _ _ spelled) after

/-- Every JSON text, with tables nested no deeper than the decoder goes, is decoded to the value
it means. -/
theorem json_decoded {text : List Byte} {value : Value}
    (document : Document standard decodeMaxDepth text value) (short : text.length < 2147483648) :
    jsonDecode text = .ok value := by
  rw [decode_clean (document_clean document)]
  exact document_read (document_lenient document) short

/-- The law at work for an array of one element: `[true]` is decoded to the table that has
`true` under the index one. -/
theorem json_decoded_array :
    jsonDecode [91, 116, 114, 117, 101, 93] = .ok (.table (numbered 1 [.boolean true])) := by
  have none : Blanks [] := by
    intro byte listed
    cases listed
  have spelled : Spells standard 999 [116, 114, 117, 101] (.boolean true) := .inl .true
  have elements := Elements.last none spelled none
  have array : Spells standard decodeMaxDepth [91, 116, 114, 117, 101, 93]
      (.table (numbered 1 [.boolean true])) :=
    .inr (.inl ⟨[116, 114, 117, 101], [.boolean true], rfl, rfl, .inr elements⟩)
  exact json_decoded (Document.mk none array none) (by decide)

end Dragonfly.Json
