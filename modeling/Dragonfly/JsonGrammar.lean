import Dragonfly.LuaValues
import Dragonfly.Numerals

/-!
# JSON texts and what they mean in Lua

The grammar of JSON on bytes, every text with the value it means: an object is a table with
strings as keys, where a later pair replaces an earlier one with the same key, an array is a
table with its elements from index 1 on, and a number is the nearest datum of double precision.
The bytes of a string stand for themselves and need not be characters in UTF-8, as a string of
Lua need not. An escape means a Unicode character in UTF-8, one beyond the basic plane being a
pair of surrogates; a surrogate without its other half is no character, and a string with one
means nothing here. Nesting is bounded.

A parser may take more for a number, or more bytes for themselves in a string. So the grammar is
given for any dialect, of which that of JSON is one.
-/

namespace Dragonfly.JsonGrammar

open FloatingPoint LuaValues Numerals

/-! ## Numbers -/

/-- The exponent of a number, with the letter in front of it and its value; a number may have
none. -/
inductive Exponent : List UInt8 → Int → Prop
  | none : Exponent [] 0
  | some {letter : UInt8} {sign digits : List UInt8} {negative : Bool}
      (small : lower letter = 101)
      (signed : (sign = [] ∧ negative = false) ∨ (sign = [43] ∧ negative = false) ∨
        (sign = [45] ∧ negative = true))
      (nonempty : digits ≠ []) (all : ∀ digit ∈ digits, isDigit digit = true) :
      Exponent (letter :: (sign ++ digits)) (withSign negative (digitsValue 10 digits))

/-- A number. The digits in front of the point do not begin with a zero unless it is the only
one. -/
inductive Number : List UInt8 → Double → Prop
  | mk {negative : Bool} {whole fraction suffix : List UInt8} {exponent : Int}
      (nonempty : whole ≠ []) (leading : whole = [48] ∨ whole.head? ≠ some 48)
      (wholeDigits : ∀ digit ∈ whole, isDigit digit = true)
      (fractionDigits : ∀ digit ∈ fraction, isDigit digit = true)
      (moved : Exponent suffix exponent) :
      Number ((if negative then [45] else []) ++ (whole ++ (pointText fraction ++ suffix)))
        (nearestMoved 11 52 10 negative (digitsValue 10 (whole ++ fraction))
          (exponent - fraction.length))

/-! ## Dialects -/

/-- The bytes that stand for themselves in a string, if they are no quote and no backslash, and
the numbers. -/
structure Dialect where
  Plain : UInt8 → Prop
  Numeral : List UInt8 → Double → Prop

/-- JSON, byte by byte: a control character does not stand for itself, any other byte does, so that
a text of this dialect is one of JSON where its bytes are characters in UTF-8. -/
def standard : Dialect := ⟨fun byte => 32 ≤ byte, Number⟩

/-! ## Strings -/

/-- A character behind a backslash, and the one it means. -/
inductive Escape : UInt8 → UInt8 → Prop
  | quote : Escape 34 34
  | backslash : Escape 92 92
  | slash : Escape 47 47
  | backspace : Escape 98 8
  | feed : Escape 102 12
  | line : Escape 110 10
  | carriage : Escape 114 13
  | tab : Escape 116 9

/-- The value of a hexadecimal digit, a letter in either case. -/
inductive HexDigit : UInt8 → Nat → Prop
  | digit {value : Nat} (small : value < 10) : HexDigit (UInt8.ofNat (48 + value)) value
  | upper {value : Nat} (small : value < 6) : HexDigit (UInt8.ofNat (65 + value)) (10 + value)
  | lower {value : Nat} (small : value < 6) : HexDigit (UInt8.ofNat (97 + value)) (10 + value)

/-- Four hexadecimal digits and the number they spell, which is a code unit of UTF-16. -/
inductive Unit : List UInt8 → Nat → Prop
  | mk {first second third fourth : UInt8} {highest high low lowest : Nat}
      (one : HexDigit first highest) (two : HexDigit second high) (three : HexDigit third low)
      (four : HexDigit fourth lowest) :
      Unit [first, second, third, fourth]
        (((highest * 16 + high) * 16 + low) * 16 + lowest)

/-- The bytes of a character in UTF-8: one to four of them, with the high bits of the character
in the first one. -/
def utf8 (character : Nat) : List UInt8 :=
  if character < 0x80 then [UInt8.ofNat character]
  else if character < 0x800 then
    [UInt8.ofNat (0xc0 + character / 0x40), UInt8.ofNat (0x80 + character % 0x40)]
  else if character < 0x10000 then
    [UInt8.ofNat (0xe0 + character / 0x1000), UInt8.ofNat (0x80 + character / 0x40 % 0x40),
      UInt8.ofNat (0x80 + character % 0x40)]
  else
    [UInt8.ofNat (0xf0 + character / 0x40000), UInt8.ofNat (0x80 + character / 0x1000 % 0x40),
      UInt8.ofNat (0x80 + character / 0x40 % 0x40), UInt8.ofNat (0x80 + character % 0x40)]

section Texts

variable (dialect : Dialect)

/-- What stands between the quotes of a string, and the bytes it means. -/
inductive Characters : List UInt8 → List UInt8 → Prop
  | nil : Characters [] []
  | plain {byte : UInt8} {text meaning : List UInt8} (itself : dialect.Plain byte)
      (quote : byte ≠ 34) (backslash : byte ≠ 92) (rest : Characters text meaning) :
      Characters (byte :: text) (byte :: meaning)
  | escape {letter character : UInt8} {text meaning : List UInt8}
      (escaped : Escape letter character) (rest : Characters text meaning) :
      Characters (92 :: letter :: text) (character :: meaning)
  | unit {digits text meaning : List UInt8} {character : Nat} (spelled : Unit digits character)
      (scalar : character < 0xd800 ∨ 0xe000 ≤ character) (rest : Characters text meaning) :
      Characters (92 :: 117 :: (digits ++ text)) (utf8 character ++ meaning)
  | pair {digits others text meaning : List UInt8} {high low : Nat}
      (first : Unit digits (0xd800 + high)) (second : Unit others (0xdc00 + low))
      (highSmall : high < 0x400) (lowSmall : low < 0x400) (rest : Characters text meaning) :
      Characters (92 :: 117 :: (digits ++ 92 :: 117 :: (others ++ text)))
        (utf8 (0x10000 + high * 0x400 + low) ++ meaning)

/-! ## Values -/

/-- A byte that is a blank between tokens: space, tabulator, newline or carriage return. -/
def Blank (byte : UInt8) : Prop := byte = 32 ∨ byte = 9 ∨ byte = 10 ∨ byte = 13

/-- Blanks between tokens, any number of them and possibly none. -/
def Blanks (text : List UInt8) : Prop := ∀ byte ∈ text, Blank byte

/-- A value that is no table, with its text: a string between quotes, a numeral of the dialect,
or one of the three words. -/
inductive Scalar : List UInt8 → Value → Prop
  | string {text meaning : List UInt8} (characters : Characters dialect text meaning) :
      Scalar (34 :: text ++ [34]) (.string meaning)
  | number {text : List UInt8} {value : Double} (number : dialect.Numeral text value) :
      Scalar text (.number value)
  | true : Scalar [116, 114, 117, 101] (.boolean true)
  | false : Scalar [102, 97, 108, 115, 101] (.boolean false)
  | null : Scalar [110, 117, 108, 108] .null

variable (spells : List UInt8 → Value → Prop)

/-- Values with commas between them, and with blanks around each of them: the elements of an
array. -/
inductive Elements : List UInt8 → List Value → Prop
  | last {front text back : List UInt8} {value : Value} (before : Blanks front)
      (spelled : spells text value) (after : Blanks back) :
      Elements (front ++ (text ++ back)) [value]
  | more {front text back rest : List UInt8} {value : Value} {values : List Value}
      (before : Blanks front) (spelled : spells text value) (after : Blanks back)
      (others : Elements rest values) :
      Elements (front ++ (text ++ (back ++ 44 :: rest))) (value :: values)

/-- A member of an object: the text of a key, a colon and the text of a value, with blanks
around each of the two. -/
inductive Member : List UInt8 → List UInt8 × Value → Prop
  | mk {front key meaning back before text after : List UInt8} {value : Value}
      (frontBlank : Blanks front) (characters : Characters dialect key meaning)
      (backBlank : Blanks back) (beforeBlank : Blanks before) (spelled : spells text value)
      (afterBlank : Blanks after) :
      Member (front ++ (34 :: (key ++ 34 :: (back ++ 58 :: (before ++ (text ++ after))))))
        (meaning, value)

/-- Pairs of keys and values with commas between them: the members of an object, in the order of
the text. -/
inductive Members : List UInt8 → List (List UInt8 × Value) → Prop
  | last {text : List UInt8} {pair : List UInt8 × Value}
      (member : Member dialect spells text pair) : Members text [pair]
  | more {text rest : List UInt8} {pair : List UInt8 × Value}
      {pairs : List (List UInt8 × Value)} (member : Member dialect spells text pair)
      (others : Members rest pairs) : Members (text ++ 44 :: rest) (pair :: pairs)

/-- The table of an object: pair after pair is stored. -/
def objectTable (pairs : List (List UInt8 × Value)) : Entries :=
  pairs.foldl (fun entries pair => rawSet entries (.string pair.1) pair.2) []

/-- A text without blanks around it means a value; the tables inside each other are bounded. -/
def Spells : Nat → List UInt8 → Value → Prop
  | 0, text, value => Scalar dialect text value
  | room + 1, text, value =>
      Scalar dialect text value ∨
      (∃ inner values, text = 91 :: (inner ++ [93]) ∧ value = .table (numbered 1 values) ∧
        ((Blanks inner ∧ values = []) ∨ Elements (Spells room) inner values)) ∨
      ∃ inner pairs, text = 123 :: (inner ++ [125]) ∧ value = .table (objectTable pairs) ∧
        ((Blanks inner ∧ pairs = []) ∨ Members dialect (Spells room) inner pairs)

/-- A JSON text of a dialect: a value that is nested no deeper than the room allows, with blanks
on both sides. -/
inductive Document (room : Nat) : List UInt8 → Value → Prop
  | mk {front text back : List UInt8} {value : Value} (before : Blanks front)
      (spelled : Spells dialect room text value) (after : Blanks back) :
      Document room (front ++ (text ++ back)) value

end Texts

/-! ## Other values and other dialects -/

section Others

variable {dialect other : Dialect} {spells others : List UInt8 → Value → Prop}
  {inner : List UInt8}

/-- Elements stay elements under another way to spell values, if what is no longer than the
whole text is spelled in that way too. -/
theorem Elements.imp {values : List Value} (elements : Elements spells inner values)
    (each : ∀ text value, text.length ≤ inner.length → spells text value → others text value) :
    Elements others inner values := by
  induction elements with
  | @last front text back value before spelled after =>
    have inside : text.length ≤ (front ++ (text ++ back)).length := by
      simp only [List.length_append]
      omega
    exact .last before (each text value inside spelled) after
  | @more front text back rest value values before spelled after _ inductionHypothesis =>
    have length : (front ++ (text ++ (back ++ 44 :: rest))).length =
        front.length + (text.length + (back.length + (rest.length + 1))) := by
      simp only [List.length_append, List.length_cons]
    refine .more before (each text value (by omega) spelled) after ?_
    exact inductionHypothesis fun text value short => each text value (by omega)

/-- Each value among the elements is spelled by some part of their text. -/
theorem Elements.each {values : List Value} (elements : Elements spells inner values) :
    ∀ value ∈ values, ∃ text, text.length ≤ inner.length ∧ spells text value := by
  induction elements with
  | @last front text back value before spelled after =>
    intro other listed
    obtain rfl := List.mem_singleton.mp listed
    refine ⟨text, ?_, spelled⟩
    simp only [List.length_append]
    omega
  | @more front text back rest value values before spelled after _ inductionHypothesis =>
    intro other listed
    simp only [List.length_append, List.length_cons]
    obtain rfl | later := List.mem_cons.mp listed
    · exact ⟨text, by omega, spelled⟩
    · obtain ⟨inside, short, spelled⟩ := inductionHypothesis other later
      exact ⟨inside, by omega, spelled⟩

/-- The bytes of a character in UTF-8 are never more than four. -/
theorem utf8_length (character : Nat) : (utf8 character).length ≤ 4 := by
  rw [utf8]
  split
  · exact (by decide : 1 ≤ 4)
  · split
    · exact (by decide : 2 ≤ 4)
    · split
      · exact (by decide : 3 ≤ 4)
      · exact Nat.le_refl 4

/-- A string is no longer than what is written for it. -/
theorem Characters.length_le {text meaning : List UInt8}
    (characters : Characters dialect text meaning) : meaning.length ≤ text.length := by
  induction characters with
  | nil => exact Nat.le_refl 0
  | plain _ _ _ _ inductionHypothesis => exact Nat.succ_le_succ inductionHypothesis
  | escape _ _ inductionHypothesis =>
    simp only [List.length_cons]
    omega
  | @unit digits text meaning character spelled _ _ inductionHypothesis =>
    have four : digits.length = 4 := by
      cases spelled
      rfl
    have bytes := utf8_length character
    simp only [List.length_cons, List.length_append, four]
    omega
  | @pair digits others text meaning high low first second _ _ _ inductionHypothesis =>
    have bytes := utf8_length (0x10000 + high * 0x400 + low)
    simp only [List.length_cons, List.length_append]
    have four : digits.length = 4 := by
      generalize 0xd800 + high = unit at first
      cases first
      rfl
    omega

/-- Each of the pairs has a key no longer than what is inside and a value that is spelled there. -/
theorem Members.each {pairs : List (List UInt8 × Value)}
    (members : Members dialect spells inner pairs) :
    ∀ pair ∈ pairs, pair.1.length ≤ inner.length ∧
      ∃ text, text.length ≤ inner.length ∧ spells text pair.2 := by
  have one {text : List UInt8} {pair : List UInt8 × Value}
      (member : Member dialect spells text pair) : pair.1.length ≤ text.length ∧
        ∃ inside, inside.length ≤ text.length ∧ spells inside pair.2 := by
    cases member with
    | @mk front key meaning back before text after value _ characters _ _ spelled _ =>
      have name := characters.length_le
      refine ⟨?_, text, ?_, spelled⟩
      · simp only [List.length_append, List.length_cons]
        omega
      · simp only [List.length_append, List.length_cons]
        omega
  induction members with
  | last member =>
    intro other listed
    obtain rfl := List.mem_singleton.mp listed
    exact one member
  | more member _ inductionHypothesis =>
    intro other listed
    simp only [List.length_append, List.length_cons]
    obtain rfl | later := List.mem_cons.mp listed
    · obtain ⟨name, inside, short, spelled⟩ := one member
      exact ⟨by omega, inside, by omega, spelled⟩
    · obtain ⟨name, inside, short, spelled⟩ := inductionHypothesis other later
      exact ⟨by omega, inside, by omega, spelled⟩

/-- Pairs stay pairs under another dialect and another way to spell values, if the keys and the
values are spelled in that way too. -/
theorem Members.imp {pairs : List (List UInt8 × Value)}
    (members : Members dialect spells inner pairs)
    (names : ∀ {key meaning}, Characters dialect key meaning → Characters other key meaning)
    (each : ∀ text value, text.length ≤ inner.length → spells text value → others text value) :
    Members other others inner pairs := by
  have one {text : List UInt8} {pair : List UInt8 × Value}
      (member : Member dialect spells text pair)
      (inside : text.length ≤ inner.length) : Member other others text pair := by
    cases member with
    | @mk front key meaning back before text after value frontBlank characters backBlank beforeBlank
        spelled afterBlank =>
      simp only [List.length_append, List.length_cons] at inside
      exact .mk frontBlank (names characters) backBlank beforeBlank
        (each text value (by omega) spelled) afterBlank
  induction members with
  | last member => exact .last (one member (Nat.le_refl _))
  | @more text rest pair pairs member _ inductionHypothesis =>
    have length : (text ++ 44 :: rest).length = text.length + (rest.length + 1) := by
      simp only [List.length_append, List.length_cons]
    refine .more (one member (by omega)) (inductionHypothesis ?_ ?_)
    · exact fun text value short => each text value (by omega)
    · exact fun member inside => one member (by omega)

end Others

end Dragonfly.JsonGrammar
