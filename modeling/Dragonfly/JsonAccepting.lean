import Dragonfly.JsonReading

/-!
# Which texts `cjson.decode` accepts

A text that is decoded is one of the decoder's dialect: every token takes some bytes in front of
what is left, and the loops put a value together from the bytes of its parts. With the other
direction the decoder accepts exactly the texts of its dialect, each with its meaning.
-/

namespace Dragonfly.Json

open JsonGrammar LuaValues Numerals

/-! ## Strings -/

/-- A hexadecimal digit with a value is one of the grammar. -/
theorem hex_digit_read {byte : Byte} {value : Nat} (read : hexdigit2int byte = some value) :
    HexDigit byte value := by
  have digits : ∀ byte : Byte, ∀ value ∈ hexdigit2int byte,
      (value < 10 ∧ byte = UInt8.ofNat (48 + value)) ∨
        (value - 10 < 6 ∧ 10 ≤ value ∧ byte = UInt8.ofNat (55 + value)) ∨
        (value - 10 < 6 ∧ 10 ≤ value ∧ byte = UInt8.ofNat (87 + value)) :=
    all_bytes (by decide +kernel)
  obtain ⟨small, rfl⟩ | ⟨small, large, rfl⟩ | ⟨small, large, rfl⟩ := digits byte value read
  · exact .digit small
  · have upper := HexDigit.upper small
    have shape : 65 + (value - 10) = 55 + value := by omega
    rwa [shape, Nat.add_sub_cancel' large] at upper
  · have lower := HexDigit.lower small
    have shape : 97 + (value - 10) = 87 + value := by omega
    rwa [shape, Nat.add_sub_cancel' large] at lower

/-- Four hexadecimal digits that are read stand at the front of the text, and spell the code
unit that was read. -/
theorem hex4_taken {text : List Byte} {value : Nat} (read : decodeHex4 text = some value) :
    ∃ digits rest, text = digits ++ rest ∧ Unit digits value ∧ digits.length = 4 := by
  match text, read with
  | first :: second :: third :: fourth :: rest, read =>
    simp only [decodeHex4, Option.bind_eq_bind, Option.bind_eq_some_iff, Option.some.injEq] at read
    obtain ⟨highest, one, high, two, low, three, lowest, four, value⟩ := read
    refine ⟨[first, second, third, fourth], rest, rfl, ?_, rfl⟩
    have spelled := Unit.mk (hex_digit_read one) (hex_digit_read two) (hex_digit_read three)
      (hex_digit_read four)
    have same : ((highest * 16 + high) * 16 + low) * 16 + lowest =
        highest * 4096 + high * 256 + low * 16 + lowest := by ring
    rw [same] at spelled
    rwa [← value]

/-- The letter of a Unicode escape stands for no byte by itself, while the letters of the other
escapes do. -/
theorem escape_taken {letter character : Byte} (read : escape2char letter = some character) :
    (letter = 117 ∧ character = 117) ∨ (character ≠ 117 ∧ Escape letter character) := by
  have known {value : Nat} (here : letter.toNat = value) : letter = UInt8.ofNat value := by
    rw [← here, UInt8.ofNat_toNat]
  unfold escape2char at read
  split at read
  case h_1 here => cases read; exact .inr ⟨by decide, known here ▸ .quote⟩
  case h_2 here => cases read; exact .inr ⟨by decide, known here ▸ .backslash⟩
  case h_3 here => cases read; exact .inr ⟨by decide, known here ▸ .slash⟩
  case h_4 here => cases read; exact .inr ⟨by decide, known here ▸ .backspace⟩
  case h_5 here => cases read; exact .inr ⟨by decide, known here ▸ .tab⟩
  case h_6 here => cases read; exact .inr ⟨by decide, known here ▸ .line⟩
  case h_7 here => cases read; exact .inr ⟨by decide, known here ▸ .feed⟩
  case h_8 here => cases read; exact .inr ⟨by decide, known here ▸ .carriage⟩
  case h_9 here => cases read; exact .inl ⟨known here, rfl⟩
  case h_10 => cases read

/-- What a Unicode escape takes: one unit, or a pair of surrogates. -/
theorem unicode_taken {behind bytes : List Byte} {used : Nat}
    (read : jsonAppendUnicodeEscape (92 :: 117 :: behind) = some (bytes, used)) :
    ∃ front rest, behind = front ++ rest ∧ used = front.length + 2 ∧
      ∀ {text meaning}, Characters lenient text meaning →
        Characters lenient (92 :: 117 :: (front ++ text)) (bytes ++ meaning) := by
  obtain ⟨codepoint, hex, later⟩ := Option.bind_eq_some_iff.mp read
  have there : decodeHex4 behind = some codepoint := hex
  obtain ⟨digits, rest, rfl, spelled, four⟩ := hex4_taken there
  have bounded := (unit_read spelled []).2.2
  have behindSix : (92 :: 117 :: (digits ++ rest)).drop 6 = rest := by
    rw [List.drop_succ_cons, List.drop_succ_cons, ← four, List.drop_left]
  have behindEight : (92 :: 117 :: (digits ++ rest)).drop 8 = rest.drop 2 := by
    have twice : ((92 :: 117 :: (digits ++ rest)).drop 6).drop 2 = _ := List.drop_drop
    rw [behindSix] at twice
    exact twice.symm
  rw [behindSix, behindEight] at later
  split_ifs at later with surrogate isLow escape
  · -- a pair of surrogates
    obtain ⟨low, hexLow, last⟩ := Option.bind_eq_some_iff.mp later
    split_ifs at last with isLow'
    obtain ⟨others, rear, split, spelledLow, fourLow⟩ := hex4_taken hexLow
    have taken : rest = 92 :: 117 :: (others ++ rear) := by
      rw [← List.take_append_drop 2 rest, not_ne_iff.mp escape, split]
      rfl
    obtain ⟨rfl, rfl⟩ : codepointToUtf8 (codepoint % 1024 * 1024 + low % 1024 + 65536) = bytes ∧
        12 = used := by simpa using last
    refine ⟨digits ++ 92 :: 117 :: others, rear, by rw [taken]; simp, by simp [four, fourLow], ?_⟩
    intro text meaning characters
    have high : codepoint = 0xd800 + (codepoint - 0xd800) := by omega
    have lower : low = 0xdc00 + (low - 0xdc00) := by omega
    have character : codepoint % 1024 * 1024 + low % 1024 + 65536 =
        0x10000 + (codepoint - 0xd800) * 0x400 + (low - 0xdc00) := by omega
    have boundedLow := (unit_read spelledLow []).2.2
    rw [high] at spelled
    rw [lower] at spelledLow
    have pair := Characters.pair spelled spelledLow (by omega) (by omega) characters
    rw [codepoint_utf8, character]
    simpa using pair
  · -- a character of the basic plane
    obtain ⟨rfl, rfl⟩ : codepointToUtf8 codepoint = bytes ∧ 6 = used := by simpa using later
    refine ⟨digits, rest, rfl, by rw [four], fun characters => ?_⟩
    rw [codepoint_utf8]
    exact .unit spelled (by omega) characters

/-- The bytes of a string up to its quote are characters of the dialect. -/
theorem next_string_taken {skipped : Nat} {text meaning rest : List Byte}
    (read : jsonNextString skipped text = .ok (meaning, rest)) :
    ∃ passed front, text = passed ++ (front ++ 34 :: rest) ∧ passed.length = skipped ∧
      Characters lenient front meaning := by
  induction text generalizing skipped meaning with
  | nil => cases skipped <;> cases read
  | cons byte text inductionHypothesis =>
    cases skipped with
    | succ skipped =>
      obtain ⟨passed, front, shape, length, characters⟩ := inductionHypothesis read
      exact ⟨byte :: passed, front, by rw [shape]; rfl, by rw [List.length_cons, length],
        characters⟩
    | zero =>
      rw [jsonNextString] at read
      split_ifs at read with quote backslash
      · cases read
        exact ⟨[], [], by rw [quote]; rfl, rfl, .nil⟩
      · cases escape : escape2char (text.headD 0) with
        | none =>
          rw [escape] at read
          cases read
        | some character =>
          rw [escape] at read
          obtain ⟨letter, others, rfl⟩ : ∃ letter others, text = letter :: others := by
            cases text with
            | nil => cases escape
            | cons letter others => exact ⟨letter, others, rfl⟩
          rw [List.headD_cons] at escape
          obtain ⟨rfl, rfl⟩ | ⟨other, escaped⟩ := escape_taken escape
          · -- the letter of a Unicode escape
            dsimp only at read
            subst backslash
            cases unicode : jsonAppendUnicodeEscape (92 :: 117 :: others) with
            | none =>
              rw [unicode] at read
              cases read
            | some taken =>
              obtain ⟨bytes, used⟩ := taken
              rw [unicode] at read
              obtain ⟨⟨later, behind⟩, found, same⟩ := map_ok_iff.mp read
              obtain ⟨rfl, last⟩ := Prod.mk.inj same
              obtain rfl : rest = behind := last.symm
              obtain ⟨digits, rear, split, length, spelled⟩ := unicode_taken unicode
              obtain ⟨passed, front, shape, skips, characters⟩ := inductionHypothesis found
              have lengths : (117 :: digits).length = passed.length := by
                rw [List.length_cons, skips]
                omega
              have whole : 117 :: digits ++ rear = passed ++ (front ++ 34 :: rest) := by
                rw [← shape, split]
                rfl
              obtain ⟨_, rfl⟩ := List.append_inj whole lengths
              refine ⟨[], 92 :: 117 :: (digits ++ front), ?_, rfl, spelled characters⟩
              rw [split]
              simp
          · -- the letter of another escape
            have plain : (jsonNextString 1 (letter :: others)).map
                (fun taken => (character :: taken.1, taken.2)) = .ok (meaning, rest) := by
              split at read
              · rename_i same
                cases same
              · rename_i same
                exact absurd (Option.some.inj same) other
              · rename_i same
                rw [← Option.some.inj same] at read
                exact read
            obtain ⟨⟨later, behind⟩, found, same⟩ := map_ok_iff.mp plain
            obtain ⟨rfl, last⟩ := Prod.mk.inj same
            obtain rfl : rest = behind := last.symm
            obtain ⟨passed, front, shape, skips, characters⟩ := inductionHypothesis found
            obtain ⟨head, rfl⟩ := List.length_eq_one_iff.mp skips
            obtain ⟨rfl, rfl⟩ := List.cons.inj shape
            subst backslash
            exact ⟨[], 92 :: letter :: front, rfl, rfl, .escape escaped characters⟩
      · obtain ⟨⟨later, behind⟩, found, same⟩ := map_ok_iff.mp read
        cases same
        obtain ⟨passed, front, rfl, length, characters⟩ := inductionHypothesis found
        rw [List.eq_nil_of_length_eq_zero length]
        exact ⟨[], byte :: front, rfl, rfl, .plain trivial quote backslash characters⟩

/-! ## Tokens -/

/-- The bytes that a token takes of a text in the dialect of the decoder: one byte, a string
with its quotes, a numeral, or a word. -/
inductive Taken : Token → List Byte → Prop
  | single {byte : Byte} {token : Token} (single : ch2token byte = .single token) :
      Taken token [byte]
  | string {text meaning : List Byte} (characters : Characters lenient text meaning) :
      Taken (.string meaning) (34 :: text ++ [34])
  | number {text : List Byte} {value : FloatingPoint.Double}
      (numeral : lenient.Numeral text value) : Taken (.number value) text
  | true : Taken (.boolean true) [116, 114, 117, 101]
  | false : Taken (.boolean false) [102, 97, 108, 115, 101]
  | null : Taken .null [110, 117, 108, 108]

/-- The token of a reading takes the bytes in front of what is left, unless it is the end of the
text or an error. -/
def Reading.Takes (reading : Reading) (text : List Byte) : Prop :=
  (∃ front, text = front ++ reading.rest ∧ Taken reading.token front) ∨
    (reading.token = .finish ∧ (text = [] ∨ text.head? = some 0)) ∨
    ∃ reason, reading.token = .error reason

/-- A word that a text was found to begin with stands in front of what is left of the text. -/
theorem starts_split {word : String} {text : List Byte} (begins : startsWith word text = true) :
    text = Config.bytesOf word ++ text.drop (Config.bytesOf word).length :=
  (List.prefix_iff_eq_append.mp (List.isPrefixOf_iff_prefix.mp begins)).symm

/-- A number token takes a numeral of the dialect from the front of the text, if it begins with
neither a blank nor a point. -/
theorem number_taken {first : Byte} {others : List Byte} (blank : isSpace first = false)
    (point : first ≠ 46) :
    (jsonNextNumberToken (first :: others)).Takes (first :: others) := by
  rw [jsonNextNumberToken]
  rcases read : strtod (first :: others) with ⟨value, used⟩
  dsimp only
  split
  · exact .inr (.inr ⟨_, rfl⟩)
  · rename_i some
    have plain : ∀ byte ∈ (first :: others).head?, isSpace byte = false := by
      intro byte head
      cases head
      exact blank
    have inside := strtod_length plain
    rw [read] at inside
    obtain ⟨used, rfl⟩ : ∃ less, used = less + 1 := ⟨used - 1, by omega⟩
    have length : (first :: others.take used).length = used + 1 := by
      rw [List.length_cons] at inside
      rw [List.length_cons, List.length_take, Nat.min_eq_left (Nat.le_of_succ_le_succ inside)]
    have split : first :: others.take used ++ (first :: others).drop (used + 1) =
        first :: others := List.take_append_drop (used + 1) (first :: others)
    refine .inl ⟨first :: others.take used, split.symm, .number ⟨⟨first, _, rfl, blank, point⟩, ?_⟩⟩
    rw [← split, ← length] at read
    exact (strtod_front blank read).trans (by rw [length])

/-- Only a zero byte ends a text, and a token to look at begins with no blank and no point. -/
theorem opening_byte (byte : Byte) :
    (ch2token byte = .finish → byte = 0) ∧
      (ch2token byte = .unknown → isSpace byte = false ∧ byte ≠ 46) := by
  have check : ∀ byte : Byte, (match ch2token byte with
      | .finish => byte == 0
      | .unknown => !isSpace byte && byte != 46
      | _ => true) = true := all_bytes (by decide +kernel)
  have here := check byte
  constructor
  · intro kind
    rw [kind] at here
    exact beq_iff_eq.mp here
  · intro kind
    rw [kind, Bool.and_eq_true, Bool.not_eq_true', bne_iff_ne] at here
    exact here

/-- A token takes the bytes in front of what is left. -/
theorem token_takes (text : List Byte) : (jsonToken text).Takes text := by
  cases text with
  | nil => exact .inr (.inl ⟨rfl, .inl rfl⟩)
  | cons first others =>
    have error (reason : String) (place : List Byte) :
        (jsonSetTokenError reason place).Takes (first :: others) := .inr (.inr ⟨reason, rfl⟩)
    rw [jsonToken]
    cases kind : ch2token first with
    | error => exact error _ _
    | whitespace => exact error _ _
    | finish =>
      obtain rfl := (opening_byte first).1 kind
      exact .inr (.inl ⟨rfl, .inr rfl⟩)
    | single token => exact .inl ⟨[first], rfl, .single kind⟩
    | unknown =>
      dsimp only
      split_ifs with quote opening isTrue isFalse isNull invalid
      · rw [jsonNextStringToken]
        split
        · rename_i meaning rest read
          obtain ⟨passed, front, rfl, none, characters⟩ := next_string_taken read
          rw [List.eq_nil_of_length_eq_zero none, quote]
          exact .inl ⟨34 :: front ++ [34], by simp, .string characters⟩
        · exact error _ _
      · obtain ⟨blank, _, _, _, point⟩ := number_opening opening
        exact number_taken blank point
      · exact .inl ⟨_, starts_split isTrue, .true⟩
      · exact .inl ⟨_, starts_split isFalse, .false⟩
      · exact .inl ⟨_, starts_split isNull, .null⟩
      · obtain ⟨blank, point⟩ := (opening_byte first).2 kind
        exact number_taken blank point
      · exact error _ _

/-- The blanks in front of a token are skipped, and the token is read behind them. -/
theorem next_token_skips (text : List Byte) :
    ∃ front behind, text = front ++ behind ∧ Blanks front ∧
      jsonNextToken text = jsonToken behind := by
  refine ⟨text.takeWhile isWhitespace, text.dropWhile isWhitespace,
    List.takeWhile_append_dropWhile.symm, fun byte listed => ?_, rfl⟩
  exact (whitespace_iff byte).mp (List.mem_takeWhile_imp listed)

/-- The byte that a token of one byte consists of, as it stands in the text. -/
def Token.byte : Token → Option Byte
  | .objBegin => some 123
  | .objEnd => some 125
  | .arrBegin => some 91
  | .arrEnd => some 93
  | .comma => some 44
  | .colon => some 58
  | _ => none

/-- The table of tokens has each token of one byte under that byte and no other. -/
theorem single_byte {byte : Byte} {token : Token} (single : ch2token byte = .single token) :
    token.byte = some byte := by
  have check : ∀ byte : Byte, (match ch2token byte with
      | .single token => token.byte == some byte
      | _ => true) = true := all_bytes (by decide +kernel)
  have here := check byte
  rw [single] at here
  exact beq_iff_eq.mp here

/-- A token of one byte that was read stands in the text behind blanks, and behind it comes what
is left. -/
theorem single_taken {text : List Byte} {token : Token} {byte : Byte}
    (read : (jsonNextToken text).token = token) (known : token.byte = some byte) :
    ∃ front, text = front ++ byte :: (jsonNextToken text).rest ∧ Blanks front := by
  obtain ⟨front, behind, split, blanks, same⟩ := next_token_skips text
  rw [same] at read ⊢
  refine ⟨front, ?_, blanks⟩
  obtain ⟨here, shape, taken⟩ | ⟨finish, _⟩ | ⟨reason, failed⟩ := token_takes behind
  · have one : here = [byte] := by
      rw [read] at taken
      cases taken with
      | single single => rw [Option.some.inj ((single_byte single).symm.trans known)]
      | string characters => cases known
      | number numeral => cases known
      | true => cases known
      | false => cases known
      | null => cases known
    rw [split]
    conv_lhs => rw [shape, one]
    rfl
  · rw [← read, finish] at known
    cases known
  · rw [← read, failed] at known
    cases known

/-- A string token that was read stands in the text behind blanks, between its quotes, and its
characters spell its meaning. -/
theorem string_taken {text meaning : List Byte}
    (read : (jsonNextToken text).token = .string meaning) :
    ∃ front key, text = front ++ 34 :: (key ++ 34 :: (jsonNextToken text).rest) ∧ Blanks front ∧
      Characters lenient key meaning := by
  obtain ⟨front, behind, split, blanks, same⟩ := next_token_skips text
  rw [same] at read ⊢
  obtain ⟨here, shape, taken⟩ | ⟨finish, _⟩ | ⟨reason, failed⟩ := token_takes behind
  · rw [read] at taken
    cases taken with
    | single single => cases single_byte single
    | @string key _ characters =>
      refine ⟨front, key, ?_, blanks, characters⟩
      rw [split]
      conv_lhs => rw [shape]
      simp
  · rw [finish] at read
    cases read
  · rw [failed] at read
    cases read

/-! ## Tables -/

section Containers

variable {spells : List Byte → Value → Prop}
  {process : Reading → Except DecodeError (Value × List Byte)}

/-- What a decoder of values accepts is spelled behind blanks. -/
structure Accepts (spells : List Byte → Value → Prop)
    (process : Reading → Except DecodeError (Value × List Byte)) : Prop where
  present : ∀ {text value}, spells text value → value.isNil = false
  nonempty : ∀ {text value}, spells text value → text ≠ []
  taken : ∀ {text value rest}, text.length < 9007199254740992 →
    process (jsonNextToken text) = .ok (value, rest) →
    ∃ front middle, text = front ++ (middle ++ rest) ∧ Blanks front ∧ spells middle value

/-- What the loop over an array accepts are elements up to the bracket. -/
theorem Accepts.elements (accepts : Accepts spells process) {bound : Nat} {text rest : List Byte}
    {value : Value} (done : List Value) (short : done.length + text.length < 9007199254740992)
    (read : jsonParseElements process bound (done.length + 1) (jsonNextToken text)
      (numbered 1 done) = .ok (value, rest)) :
    ∃ inner values, text = inner ++ 93 :: rest ∧ Elements spells inner values ∧
      value = .table (numbered 1 (done ++ values)) := by
  induction bound generalizing text done with
  | zero => cases read
  | succ bound inductionHypothesis =>
    obtain ⟨⟨element, behind⟩, here, later⟩ := bind_ok_iff.mp read
    obtain ⟨front, middle, rfl, before, spelled⟩ := accepts.taken (by omega) here
    have positive := List.length_pos_of_ne_nil (accepts.nonempty spelled)
    simp only [List.length_append] at short
    dsimp only at later
    rw [stored_next (accepts.present spelled) (by omega)] at later
    split at later
    · rename_i closes
      obtain ⟨back, shape, after⟩ := single_taken closes rfl
      cases later
      refine ⟨front ++ (middle ++ back), [element], ?_, .last before spelled after, rfl⟩
      conv_lhs => rw [shape]
      simp
    · rename_i comma
      obtain ⟨back, shape, after⟩ := single_taken comma rfl
      have lengths := congrArg List.length shape
      rw [List.length_append, List.length_cons] at lengths
      have length : (done ++ [element]).length = done.length + 1 := by simp
      rw [← length] at later
      obtain ⟨inner, values, split, others, same⟩ := inductionHypothesis (done ++ [element])
        (by omega) later
      refine ⟨front ++ (middle ++ (back ++ 44 :: inner)), element :: values, ?_,
        .more before spelled after others, ?_⟩
      · conv_lhs => rw [shape, split]
        simp
      · rw [same, List.append_assoc, List.singleton_append]
    · cases later

/-- What the loop over an object accepts are pairs up to the brace. -/
theorem Accepts.members (accepts : Accepts spells process) {bound : Nat} {text rest : List Byte}
    {value : Value} {entries : Entries} (short : text.length < 9007199254740992)
    (read : jsonParseMembers process bound (jsonNextToken text) entries = .ok (value, rest)) :
    ∃ inner pairs, text = inner ++ 125 :: rest ∧ Members lenient spells inner pairs ∧
      value = .table (storePairs entries pairs) := by
  induction bound generalizing text entries with
  | zero => cases read
  | succ bound inductionHypothesis =>
    rw [jsonParseMembers] at read
    split at read
    · rename_i meaning name
      obtain ⟨front, key, shape, frontBlank, characters⟩ := string_taken name
      dsimp only at read
      split at read
      · rename_i colon
        obtain ⟨back, behindKey, backBlank⟩ := single_taken colon rfl
        obtain ⟨⟨element, behind⟩, here, later⟩ := bind_ok_iff.mp read
        have fewer : (jsonNextToken (jsonNextToken text).rest).rest.length < text.length := by
          have first := congrArg List.length shape
          have second := congrArg List.length behindKey
          simp only [List.length_append, List.length_cons] at first second
          omega
        obtain ⟨before, middle, behindColon, beforeBlank, spelled⟩ :=
          accepts.taken (lt_trans fewer short) here
        dsimp only at later
        split at later
        · rename_i closes
          obtain ⟨after, behindValue, afterBlank⟩ := single_taken closes rfl
          cases later
          refine ⟨front ++ (34 :: (key ++ 34 :: (back ++ 58 :: (before ++ (middle ++ after))))),
            [(meaning, element)], ?_,
            .last (.mk frontBlank characters backBlank beforeBlank spelled afterBlank), rfl⟩
          conv_lhs => rw [shape, behindKey, behindColon, behindValue]
          simp
        · rename_i comma
          obtain ⟨after, behindValue, afterBlank⟩ := single_taken comma rfl
          have less : (jsonNextToken behind).rest.length < text.length := by
            have third := congrArg List.length behindColon
            have fourth := congrArg List.length behindValue
            simp only [List.length_append, List.length_cons] at third fourth
            omega
          obtain ⟨inner, pairs, split, others, same⟩ :=
            inductionHypothesis (lt_trans less short) later
          refine ⟨front ++ (34 :: (key ++ 34 :: (back ++ 58 :: (before ++ (middle ++ after))))) ++
            44 :: inner, (meaning, element) :: pairs, ?_,
            .more (.mk frontBlank characters backBlank beforeBlank spelled afterBlank) others, same⟩
          conv_lhs => rw [shape, behindKey, behindColon, behindValue, split]
          simp
        · cases later
      · cases read
    · cases read

/-- What is accepted as an array is one: elements with commas between them, or blanks only, in
front of the closing bracket. -/
theorem Accepts.array (accepts : Accepts spells process) {text rest : List Byte} {value : Value}
    (short : text.length < 9007199254740992)
    (read : jsonParseArrayContext process text = .ok (value, rest)) :
    ∃ inner values, text = inner ++ 93 :: rest ∧ value = .table (numbered 1 values) ∧
      ((Blanks inner ∧ values = []) ∨ Elements spells inner values) := by
  rw [jsonParseArrayContext] at read
  split at read
  · rename_i closes
    obtain ⟨front, shape, blanks⟩ := single_taken closes rfl
    cases read
    exact ⟨front, [], shape, rfl, .inl ⟨blanks, rfl⟩⟩
  · obtain ⟨inner, values, shape, elements, same⟩ := accepts.elements []
      (by rw [List.length_nil]; omega) read
    exact ⟨inner, values, shape, same, .inr elements⟩

/-- What is accepted as an object is one: members with commas between them, or blanks only, in
front of the closing brace. -/
theorem Accepts.object (accepts : Accepts spells process) {text rest : List Byte} {value : Value}
    (short : text.length < 9007199254740992)
    (read : jsonParseObjectContext process text = .ok (value, rest)) :
    ∃ inner pairs, text = inner ++ 125 :: rest ∧ value = .table (objectTable pairs) ∧
      ((Blanks inner ∧ pairs = []) ∨ Members lenient spells inner pairs) := by
  rw [jsonParseObjectContext] at read
  split at read
  · rename_i closes
    obtain ⟨front, shape, blanks⟩ := single_taken closes rfl
    cases read
    exact ⟨front, [], shape, rfl, .inl ⟨blanks, rfl⟩⟩
  · obtain ⟨inner, pairs, shape, members, same⟩ := accepts.members short read
    exact ⟨inner, pairs, shape, same, .inr members⟩

end Containers

/-! ## Values -/

/-- What is spelled by a text is a value other than nil, and the text has at least one byte. -/
theorem spells_present {room : Nat} {text : List Byte} {value : Value}
    (spelled : Spells lenient room text value) : value.isNil = false ∧ text ≠ [] := by
  have scalar (scalar : Scalar lenient text value) : value.isNil = false ∧ text ≠ [] := by
    obtain ⟨⟨first, others, rfl, _⟩, present⟩ := scalar_begins scalar
    exact ⟨present, List.cons_ne_nil _ _⟩
  cases room with
  | zero => exact scalar spelled
  | succ room =>
    obtain found | ⟨inner, values, rfl, rfl, _⟩ | ⟨inner, pairs, rfl, rfl, _⟩ := spelled
    · exact scalar found
    · exact ⟨rfl, List.cons_ne_nil _ _⟩
    · exact ⟨rfl, List.cons_ne_nil _ _⟩

/-- The value that a token is by itself, which brackets, braces and separators do not have. -/
def Token.value : Token → Option Value
  | .string text => some (.string text)
  | .number value => some (.number value)
  | .boolean value => some (.boolean value)
  | .null => some .null
  | _ => none

/-- A token that is a value by itself takes a scalar of the dialect with that value. -/
theorem scalar_taken {token : Token} {text : List Byte} {value : Value}
    (taken : Taken token text) (means : token.value = some value) :
    Scalar lenient text value := by
  cases taken with
  | single single =>
    have byte := single_byte single
    cases token <;> first | (cases byte; done) | cases means
  | string characters => cases means; exact .string characters
  | number numeral => cases means; exact .number numeral
  | true => cases means; exact .true
  | false => cases means; exact .false
  | null => cases means; exact .null

/-- A value is a token, or a table that a bracket or a brace opens. -/
theorem process_value_cases {room : Nat} {reading : Reading} {value : Value} {rest : List Byte}
    (read : jsonProcessValue room reading = .ok (value, rest)) :
    (reading.token.value = some value ∧ reading.rest = rest) ∨
      ∃ less, room = less + 1 ∧
        ((reading.token = .objBegin ∧
            jsonParseObjectContext (jsonProcessValue less) reading.rest = .ok (value, rest)) ∨
          (reading.token = .arrBegin ∧
            jsonParseArrayContext (jsonProcessValue less) reading.rest = .ok (value, rest))) := by
  obtain ⟨token, place, behind⟩ := reading
  unfold jsonProcessValue at read
  cases token with
  | string text => cases read; exact .inl ⟨rfl, rfl⟩
  | number number => cases read; exact .inl ⟨rfl, rfl⟩
  | boolean boolean => cases read; exact .inl ⟨rfl, rfl⟩
  | null => cases read; exact .inl ⟨rfl, rfl⟩
  | objBegin =>
    cases room with
    | zero => cases read
    | succ room => exact .inr ⟨room, rfl, .inl ⟨rfl, read⟩⟩
  | arrBegin =>
    cases room with
    | zero => cases read
    | succ room => exact .inr ⟨room, rfl, .inr ⟨rfl, read⟩⟩
  | _ => cases read

/-- A token that is a value is spelled behind blanks. -/
theorem plain_taken {room : Nat} {text : List Byte} {value : Value}
    (means : (jsonNextToken text).token.value = some value) :
    ∃ front middle, text = front ++ (middle ++ (jsonNextToken text).rest) ∧ Blanks front ∧
      Spells lenient room middle value := by
  obtain ⟨front, behind, split, blanks, same⟩ := next_token_skips text
  rw [same] at means ⊢
  obtain ⟨here, shape, taken⟩ | ⟨finish, _⟩ | ⟨reason, failed⟩ := token_takes behind
  · have scalar := scalar_taken taken means
    refine ⟨front, here, by rw [← shape]; exact split, blanks, ?_⟩
    cases room with
    | zero => exact scalar
    | succ room => exact .inl scalar
  · rw [finish] at means
    cases means
  · rw [failed] at means
    cases means

/-- What the decoder of values accepts is spelled by its dialect. -/
theorem value_accepts (room : Nat) :
    Accepts (Spells lenient room) (jsonProcessValue room) := by
  induction room with
  | zero =>
    refine ⟨fun spelled => (spells_present spelled).1,
      fun spelled => (spells_present spelled).2, ?_⟩
    intro text value rest _ read
    obtain ⟨means, rfl⟩ | ⟨less, impossible, _⟩ := process_value_cases read
    · exact plain_taken means
    · cases impossible
  | succ room inductionHypothesis =>
    refine ⟨fun spelled => (spells_present spelled).1,
      fun spelled => (spells_present spelled).2, ?_⟩
    intro text value rest short read
    obtain ⟨means, rfl⟩ | ⟨less, same, ⟨opens, later⟩ | ⟨opens, later⟩⟩ := process_value_cases read
    · exact plain_taken means
    · obtain rfl := Nat.succ.inj same
      obtain ⟨front, shape, blanks⟩ := single_taken opens rfl
      have lengths := congrArg List.length shape
      rw [List.length_append, List.length_cons] at lengths
      obtain ⟨inner, pairs, split, means, content⟩ := inductionHypothesis.object (by omega) later
      refine ⟨front, 123 :: (inner ++ [125]), ?_, blanks, .inr (.inr ⟨inner, pairs, rfl, means,
        content⟩)⟩
      conv_lhs => rw [shape, split]
      simp
    · obtain rfl := Nat.succ.inj same
      obtain ⟨front, shape, blanks⟩ := single_taken opens rfl
      have lengths := congrArg List.length shape
      rw [List.length_append, List.length_cons] at lengths
      obtain ⟨inner, values, split, means, content⟩ := inductionHypothesis.array (by omega) later
      refine ⟨front, 91 :: (inner ++ [93]), ?_, blanks, .inr (.inl ⟨inner, values, rfl, means,
        content⟩)⟩
      conv_lhs => rw [shape, split]
      simp

/-- A text without zero bytes that is decoded is one of the dialect. -/
theorem document_taken {text : List Byte} {value : Value} (clean : Clean text)
    (short : text.length < 9007199254740992) (read : jsonDecodeText text = .ok value) :
    Document lenient decodeMaxDepth text value := by
  obtain ⟨⟨found, rest⟩, here, later⟩ := bind_ok_iff.mp read
  obtain ⟨front, middle, shape, before, spelled⟩ :=
    (value_accepts decodeMaxDepth).taken short here
  dsimp only at later
  split at later
  · rename_i finish
    cases later
    have blanks : Blanks rest := by
      obtain ⟨back, behind, split, blanks, same⟩ := next_token_skips rest
      rw [same] at finish
      obtain ⟨here, _, taken⟩ | ⟨_, rfl | zero⟩ | ⟨reason, failed⟩ := token_takes behind
      · rw [finish] at taken
        cases taken with
        | single single => cases single_byte single
      · rw [split, List.append_nil]
        exact blanks
      · obtain ⟨others, rfl⟩ := List.head?_eq_some_iff.mp zero
        refine absurd rfl (clean 0 ?_)
        rw [shape, split]
        simp
      · rw [finish] at failed
        cases failed
    rw [shape]
    exact .mk before spelled blanks
  · cases later

/-- The decoder accepts exactly the texts of its dialect up to the first zero byte, unless there is
a zero byte among the first two, and decodes each to the value it means. -/
theorem decoded_iff {data : List Byte} {value : Value} (short : data.length < 2147483648) :
    jsonDecode data = .ok value ↔
      ¬ (2 ≤ data.length ∧ 0 ∈ data.take 2) ∧
        Document lenient decodeMaxDepth (cString data) value := by
  have clean : Clean (cString data) := fun byte listed zero =>
    zero_not_mem_cString data (zero ▸ listed)
  have inside : (cString data).length ≤ data.length := (List.takeWhile_prefix _).length_le
  rw [jsonDecode]
  by_cases wide : 2 ≤ data.length ∧ 0 ∈ data.take 2
  · rw [if_pos wide]
    exact iff_of_false (fun read => by cases read) fun accepted => accepted.1 wide
  · rw [if_neg wide]
    constructor
    · exact fun read => ⟨wide, document_taken clean (by omega) read⟩
    · exact fun accepted => document_read accepted.2 (by omega)

/-- A string with a line break in it, which no JSON text has, and a zero byte behind it. -/
theorem decoded_iff_line : jsonDecode [34, 10, 34, 0] = .ok (.string [10]) := by
  have none : Blanks [] := by
    intro byte listed
    cases listed
  have characters : Characters lenient [10] [10] :=
    .plain trivial (by decide) (by decide) .nil
  have spelled : Spells lenient decodeMaxDepth [34, 10, 34] (.string [10]) :=
    .inl (.string characters)
  exact (decoded_iff (by decide)).mpr ⟨by decide, Document.mk none spelled none⟩

end Dragonfly.Json
