import Dragonfly.Numerals

/-!
# Which bytes `strtod` looks at

A numeral is read from its own bytes. What is behind it does not matter as long as no numeral
goes on with it, and the bytes it takes are a numeral that is read as the same number.
-/

namespace Dragonfly.Numerals

open FloatingPoint

/-- No numeral goes on with this text: it begins with no letter, digit or sign, no point, no
underscore and no parenthesis. -/
def Stops (text : List UInt8) : Prop :=
  ∀ byte ∈ text.head?, isDigit byte = false ∧ ¬ (97 ≤ lower byte ∧ lower byte ≤ 122) ∧
    byte ∉ [40, 41, 43, 45, 46, 95]

/-- Where a numeral ends, no letter comes next, so no word and no exponent is begun there. -/
theorem Stops.letter {byte : UInt8} {rest : List UInt8} (stops : Stops (byte :: rest))
    {letter : UInt8} (small : 97 ≤ letter ∧ letter ≤ 122) : lower byte ≠ letter := by
  rintro rfl
  exact (stops byte rfl).2.1 small

/-- A numeral ends where the text ends, since nothing comes next. -/
theorem stops_nil : Stops [] := by
  intro byte first
  cases first

/-! ## Bytes of one kind -/

/-- The bytes of a kind end in front of one of another kind. -/
theorem take_while_stops {holds : UInt8 → Bool} (text : List UInt8) {rest : List UInt8}
    (stops : ∀ byte ∈ rest.head?, holds byte = false) :
    (text ++ rest).takeWhile holds = text.takeWhile holds := by
  induction text with
  | nil =>
    cases rest with
    | nil => rfl
    | cons byte rest => rw [List.nil_append, List.takeWhile_cons, stops byte rfl]; rfl
  | cons byte text inductionHypothesis =>
    rw [List.cons_append, List.takeWhile_cons, List.takeWhile_cons, inductionHypothesis]

/-- The bytes of a kind that are in front of a text are taken from it. -/
theorem take_while_front {holds : UInt8 → Bool} (front back : List UInt8)
    (inside : ((front ++ back).takeWhile holds).length ≤ front.length) :
    front.takeWhile holds = (front ++ back).takeWhile holds := by
  induction front with
  | nil => exact (List.eq_nil_of_length_eq_zero (Nat.le_zero.mp inside)).symm
  | cons byte front inductionHypothesis =>
    rw [List.cons_append, List.takeWhile_cons] at inside ⊢
    rw [List.takeWhile_cons]
    split
    · rename_i same
      rw [if_pos same, List.length_cons, List.length_cons] at inside
      rw [inductionHypothesis (Nat.le_of_succ_le_succ inside)]
    · rfl

/-- If no byte of a kind stands in front of a text, then none stands in front of a part at its
front. -/
theorem take_while_none {holds : UInt8 → Bool} {front back : List UInt8}
    (none : (front ++ back).takeWhile holds = []) : front.takeWhile holds = [] := by
  rw [take_while_front front back (by rw [none]; exact Nat.zero_le _), none]

/-- A text begins with letters or not, whatever is behind it. -/
theorem begins_with_stops {letters : List UInt8} (text : List UInt8) {rest : List UInt8}
    (stops : ∀ byte ∈ rest.head?, lower byte ∉ letters) :
    beginsWith letters (text ++ rest) = beginsWith letters text := by
  induction letters generalizing text with
  | nil => rfl
  | cons letter letters inductionHypothesis =>
    cases text with
    | nil =>
      cases rest with
      | nil => rfl
      | cons byte rest =>
        have other : lower byte ≠ letter := fun same => stops byte rfl (same ▸ List.mem_cons_self)
        exact begins_with_other other
    | cons byte text =>
      have later := inductionHypothesis text fun byte first listed =>
        stops byte first (List.mem_cons_of_mem _ listed)
      simp only [beginsWith, List.cons_append, List.length_cons, List.take_succ_cons,
        List.map_cons, List.cons_beq_cons] at later ⊢
      rw [later]

/-- Letters in front of a text are in front of a longer one. -/
theorem begins_with_front (letters front back : List UInt8)
    (inside : letters.length ≤ front.length) :
    beginsWith letters (front ++ back) = beginsWith letters front := by
  rw [beginsWith, beginsWith, List.take_append_of_le_length inside]

/-- A text that begins with letters begins with the first of them. -/
theorem begins_with_fewer {letters more text : List UInt8}
    (begins : beginsWith (letters ++ more) text = true) : beginsWith letters text = true := by
  have same := congrArg (List.take letters.length) (beq_iff_eq.mp begins)
  rw [List.take_left, ← List.map_take, List.take_take, List.length_append,
    Nat.min_eq_left (Nat.le_add_right _ _)] at same
  exact beq_iff_eq.mpr same

/-- Letters that a longer text does not begin with are not in front. -/
theorem begins_with_none {letters front back : List UInt8}
    (none : beginsWith letters (front ++ back) = false) : beginsWith letters front = false := by
  by_cases inside : letters.length ≤ front.length
  · rw [← begins_with_front letters front back inside]
    exact none
  · rw [beginsWith, beq_eq_false_iff_ne]
    intro same
    have lengths := congrArg List.length same
    rw [List.length_map, List.length_take] at lengths
    omega

/-- Whether a number has a sign is read off one byte: a minus, a plus, or anything else for
none. -/
theorem read_sign_byte (byte : UInt8) (text : List UInt8) :
    readSign (byte :: text) =
      if byte = 45 then (true, 1) else if byte = 43 then (false, 1) else (false, 0) := by
  by_cases minus : byte = 45
  · rw [if_pos minus, minus]
    rfl
  · by_cases plus : byte = 43
    · rw [if_neg minus, if_pos plus, plus]
      rfl
    · rw [if_neg minus, if_neg plus]
      unfold readSign
      split
      · rename_i same
        exact absurd (List.cons.inj same).1 minus
      · rename_i same
        exact absurd (List.cons.inj same).1 plus
      · rfl

/-- The sign of a number is in a front of the text if its byte is, and it is the same sign. -/
theorem read_sign_front {front back : List UInt8}
    (inside : (readSign (front ++ back)).2 ≤ front.length) :
    readSign front = readSign (front ++ back) := by
  cases front with
  | nil =>
    cases back with
    | nil => rfl
    | cons byte back =>
      rw [List.nil_append, read_sign_byte] at inside ⊢
      split_ifs at inside ⊢
      · exact absurd inside (by decide)
      · exact absurd inside (by decide)
      · rfl
  | cons byte front => rw [List.cons_append, read_sign_byte, read_sign_byte]

/-- Behind a whole text no sign is read any more: if it has one, it is inside. -/
theorem read_sign_stops (text : List UInt8) {rest : List UInt8} (stops : Stops rest) :
    readSign (text ++ rest) = readSign text := by
  cases text with
  | cons byte text => rw [List.cons_append, read_sign_byte, read_sign_byte]
  | nil =>
    cases rest with
    | nil => rfl
    | cons byte rest =>
      obtain ⟨_, _, other⟩ := stops byte rfl
      simp only [List.mem_cons, not_or] at other
      rw [List.nil_append, read_sign_byte, if_neg other.2.2.2.1, if_neg other.2.2.1]
      rfl

/-- A sign takes one byte of the text or none, and so never more than there are. -/
theorem read_sign_length (text : List UInt8) : (readSign text).2 ≤ text.length := by
  cases text with
  | nil => exact Nat.le_refl 0
  | cons byte text =>
    rw [read_sign_byte, List.length_cons]
    split_ifs <;> simp

/-! ## Exponents -/

/-- An exponent that is read off a text is the same one when bytes follow with which no numeral
goes on. -/
theorem read_exponent_stops (letter : UInt8) (small : 97 ≤ letter ∧ letter ≤ 122)
    (text : List UInt8) {rest : List UInt8} (stops : Stops rest) :
    readExponent letter (text ++ rest) = readExponent letter text := by
  cases text with
  | nil =>
    cases rest with
    | nil => rfl
    | cons byte rest =>
      have nothing : readExponent letter [] = (0, 0) := rfl
      rw [List.nil_append, nothing, readExponent, if_neg (stops.letter small)]
  | cons byte text =>
    have sign := read_sign_length text
    have digits := take_while_stops (text.drop (readSign text).2) fun byte first =>
      (stops byte first).1
    rw [List.cons_append, readExponent, readExponent, read_sign_stops text stops]
    simp only [List.drop_append_of_le_length sign, digits]

/-- The exponent behind its letter: its sign and its digits, and none if there is no digit. -/
theorem read_exponent_letter {letter first : UInt8} (same : lower first = letter)
    (text : List UInt8) {digits : List UInt8}
    (taken : (text.drop (readSign text).2).takeWhile isDigit = digits) :
    readExponent letter (first :: text) =
      if digits.isEmpty then (0, 0)
      else (withSign (readSign text).1 (digitsValue 10 digits),
        1 + (readSign text).2 + digits.length) := by
  rw [← taken, readExponent, if_pos same]

/-- The bytes of an exponent are all it is read from. -/
theorem read_exponent_front (letter : UInt8) (front back : List UInt8)
    (inside : (readExponent letter (front ++ back)).2 ≤ front.length) :
    readExponent letter front = readExponent letter (front ++ back) := by
  cases front with
  | nil =>
    cases back with
    | nil => rfl
    | cons byte back =>
      have nothing : readExponent letter [] = (0, 0) := rfl
      rw [nothing]
      by_cases same : lower byte = letter
      · rw [List.nil_append, read_exponent_letter same back rfl] at inside ⊢
        split_ifs at inside ⊢
        · rfl
        · exact absurd inside (by simp)
      · rw [List.nil_append, readExponent, if_neg same]
  | cons byte front =>
    by_cases same : lower byte = letter
    · rw [List.cons_append, read_exponent_letter same (front ++ back) rfl] at inside ⊢
      rw [read_exponent_letter same front rfl]
      by_cases sign : (readSign (front ++ back)).2 ≤ front.length
      · rw [read_sign_front sign]
        rw [List.drop_append_of_le_length sign] at inside ⊢
        generalize readSign (front ++ back) = read at inside sign ⊢
        by_cases none : ((front.drop read.2 ++ back).takeWhile isDigit) = []
        · rw [none, take_while_none none]
        · rw [if_neg (by rwa [List.isEmpty_iff]), List.length_cons] at inside
          rw [take_while_front (front.drop read.2) back (by rw [List.length_drop]; omega)]
      · have empty : front = [] := by
          cases front with
          | nil => rfl
          | cons first front =>
            rw [List.cons_append, read_sign_byte, ← read_sign_byte first front] at sign
            exact absurd (read_sign_length (first :: front)) sign
        subst empty
        have nothing : (([] : List UInt8).drop (readSign []).2).takeWhile isDigit = [] := rfl
        rw [nothing, List.isEmpty_nil, if_pos rfl]
        split_ifs at inside ⊢
        · rfl
        · rw [List.length_singleton] at inside
          rw [List.length_nil] at sign
          omega
    · rw [List.cons_append, readExponent, if_neg same, readExponent, if_neg same]

/-! ## Digits -/

section Digits

variable (holds : UInt8 → Bool) {text front back rest : List UInt8}

/-- Digits without a point behind them are read as the whole part, with no fraction. -/
theorem read_digits_whole {whole : List UInt8} (taken : text.takeWhile holds = whole)
    (behind : ∀ byte ∈ (text.drop whole.length).head?, byte ≠ 46) :
    readDigits holds text = (whole, [], whole.length) := by
  rw [← taken] at behind ⊢
  rw [readDigits]
  split
  · rename_i point
    rw [point] at behind
    exact absurd rfl (behind 46 rfl)
  · rfl

/-- Digits with a point behind them are read as the whole part, and the digits behind the point
as the fraction. -/
theorem read_digits_point {whole others : List UInt8} (taken : text.takeWhile holds = whole)
    (behind : text.drop whole.length = 46 :: others) :
    readDigits holds text = (whole, others.takeWhile holds,
      whole.length + 1 + (others.takeWhile holds).length) := by
  rw [← taken] at behind ⊢
  rw [readDigits]
  simp only [behind]

/-- A text begins with a point, or it does not. -/
theorem point_or_not (text : List UInt8) :
    (∃ others, text = 46 :: others) ∨ ∀ byte ∈ text.head?, byte ≠ 46 := by
  cases text with
  | nil => exact .inr fun byte first => by cases first
  | cons byte text =>
    by_cases point : byte = 46
    · exact .inl ⟨text, by rw [point]⟩
    · refine .inr fun other first => ?_
      cases first
      exact point

/-- The digits and the point that are taken of a text are bytes of this text. -/
theorem read_digits_length (text : List UInt8) :
    (readDigits holds text).2.2 ≤ text.length := by
  have whole := (List.takeWhile_prefix holds (l := text)).length_le
  obtain ⟨others, behind⟩ | other := point_or_not (text.drop (text.takeWhile holds).length)
  · have lengths := congrArg List.length behind
    have fraction := (List.takeWhile_prefix holds (l := others)).length_le
    rw [List.length_drop, List.length_cons] at lengths
    rw [read_digits_point holds rfl behind]
    dsimp only
    omega
  · rw [read_digits_whole holds rfl other]
    exact whole

/-- Digits and a point that are read off a text are the same when bytes follow that are neither. -/
theorem read_digits_stops (text : List UInt8)
    (stops : ∀ byte ∈ rest.head?, holds byte = false ∧ byte ≠ 46) :
    readDigits holds (text ++ rest) = readDigits holds text := by
  have same := take_while_stops text fun byte first => (stops byte first).1
  have inside := (List.takeWhile_prefix holds (l := text)).length_le
  have dropped : (text ++ rest).drop (text.takeWhile holds).length =
      text.drop (text.takeWhile holds).length ++ rest := List.drop_append_of_le_length inside
  obtain ⟨others, behind⟩ | other := point_or_not (text.drop (text.takeWhile holds).length)
  · rw [read_digits_point holds rfl behind,
      read_digits_point holds same (by rw [dropped, behind, List.cons_append]),
      take_while_stops others fun byte first => (stops byte first).1]
  · rw [read_digits_whole holds rfl other, read_digits_whole holds same]
    intro byte first
    rw [dropped] at first
    cases rear : text.drop (text.takeWhile holds).length with
    | nil =>
      rw [rear] at first
      exact (stops byte first).2
    | cons head tail =>
      rw [rear] at first other
      exact other byte first

/-- The bytes of digits and a point are all they are read from. -/
theorem read_digits_front (front back : List UInt8)
    (inside : (readDigits holds (front ++ back)).2.2 ≤ front.length) :
    readDigits holds front = readDigits holds (front ++ back) := by
  have reaches : ((front ++ back).takeWhile holds).length ≤ front.length := by
    refine le_trans ?_ inside
    obtain ⟨others, behind⟩ | other :=
      point_or_not ((front ++ back).drop ((front ++ back).takeWhile holds).length)
    · rw [read_digits_point holds rfl behind]
      dsimp only
      omega
    · rw [read_digits_whole holds rfl other]
  have same := take_while_front front back reaches
  have dropped : (front ++ back).drop ((front ++ back).takeWhile holds).length =
      front.drop ((front ++ back).takeWhile holds).length ++ back :=
    List.drop_append_of_le_length reaches
  generalize taken : (front ++ back).takeWhile holds = whole at reaches same dropped
  cases rear : front.drop whole.length with
  | nil =>
    have all := List.drop_eq_nil_iff.mp rear
    rw [rear, List.nil_append] at dropped
    have nothing : ∀ byte ∈ (front.drop whole.length).head?, byte ≠ 46 := by
      rw [rear]
      intro byte first
      cases first
    rw [read_digits_whole holds same nothing, read_digits_whole holds taken]
    obtain ⟨others, behind⟩ | other := point_or_not back
    · rw [read_digits_point holds taken (dropped.trans behind)] at inside
      dsimp only at inside
      omega
    · rw [dropped]
      exact other
  | cons head others =>
    rw [rear, List.cons_append] at dropped
    by_cases point : head = 46
    · subst point
      have lengths := congrArg List.length rear
      rw [List.length_drop, List.length_cons] at lengths
      rw [read_digits_point holds taken dropped] at inside ⊢
      dsimp only at inside
      rw [read_digits_point holds same rear, take_while_front others back (by omega)]
    · have other : ∀ text : List UInt8, ∀ byte ∈ (head :: text).head?, byte ≠ 46 := by
        intro text byte first
        cases first
        exact point
      rw [read_digits_whole holds same (by rw [rear]; exact other _),
        read_digits_whole holds taken (by rw [dropped]; exact other _)]

/-- If a text begins with no digits, then neither does a part at its front. -/
theorem read_digits_none {length : Nat}
    (none : readDigits holds (front ++ back) = ([], [], length)) :
    ∃ taken, readDigits holds front = ([], [], taken) := by
  have whole : (front ++ back).takeWhile holds = [] := by
    obtain ⟨others, behind⟩ | other :=
      point_or_not ((front ++ back).drop ((front ++ back).takeWhile holds).length)
    · rw [read_digits_point holds rfl behind] at none
      exact congrArg Prod.fst none
    · rw [read_digits_whole holds rfl other] at none
      exact congrArg Prod.fst none
  obtain ⟨others, rfl⟩ | other := point_or_not front
  · rw [read_digits_point holds whole rfl] at none
    have fraction : (others ++ back).takeWhile holds = [] :=
      congrArg (fun parts => parts.2.1) none
    rw [read_digits_point holds (take_while_none whole) rfl, take_while_none fraction]
    exact ⟨_, rfl⟩
  · exact ⟨_, read_digits_whole holds (take_while_none whole) other⟩

end Digits

/-! ## Numbers -/

variable {negative : Bool} {front back rest : List UInt8} {value : Datum 11 52} {used : Nat}

/-- A text behind which no numeral goes on has no digit next. -/
theorem Stops.digit (stops : Stops rest) :
    ∀ byte ∈ rest.head?, isDigit byte = false ∧ byte ≠ 46 := by
  intro byte first
  obtain ⟨digit, _, other⟩ := stops byte first
  refine ⟨digit, ?_⟩
  rintro rfl
  exact other (by decide)

/-- A text behind which no numeral goes on has no hexadecimal digit next. -/
theorem Stops.hexDigit (stops : Stops rest) :
    ∀ byte ∈ rest.head?, isHexDigit byte = false ∧ byte ≠ 46 := by
  intro byte first
  obtain ⟨digit, point⟩ := stops.digit byte first
  refine ⟨?_, point⟩
  have letters : ∀ value : Fin 256, isDigit (UInt8.ofNat value) = false →
      ¬ (97 ≤ lower (UInt8.ofNat value) ∧ lower (UInt8.ofNat value) ≤ 122) →
        isHexDigit (UInt8.ofNat value) = false := by decide +kernel
  have checked := letters ⟨byte.toNat, byte.toNat_lt⟩
  rw [UInt8.ofNat_toNat] at checked
  exact checked digit (stops byte first).2.1

/-- A decimal number is read from its digits and what is behind them. -/
theorem read_decimal_parts {text whole fraction : List UInt8} {taken : Nat}
    (parts : readDigits isDigit text = (whole, fraction, taken)) :
    readDecimal negative text =
      if whole.isEmpty && fraction.isEmpty then none
      else some (nearestMoved 11 52 10 negative (digitsValue 10 (whole ++ fraction))
        ((readExponent 101 (text.drop taken)).1 - fraction.length),
          taken + (readExponent 101 (text.drop taken)).2) := by
  rw [readDecimal, parts]

/-- A decimal number that is read off a text is the same when bytes follow with which no numeral
goes on. -/
theorem read_decimal_stops (text : List UInt8) (stops : Stops rest) :
    readDecimal negative (text ++ rest) = readDecimal negative text := by
  have same := read_digits_stops isDigit text stops.digit
  have inside := read_digits_length isDigit text
  rcases parts : readDigits isDigit text with ⟨whole, fraction, taken⟩
  rw [parts] at same inside
  rw [read_decimal_parts parts, read_decimal_parts same, List.drop_append_of_le_length inside,
    read_exponent_stops 101 (by decide) _ stops]

/-- The bytes of a decimal number are all it is read from. -/
theorem read_decimal_front (read : readDecimal negative (front ++ back) = some (value, used))
    (inside : used ≤ front.length) : readDecimal negative front = some (value, used) := by
  rcases parts : readDigits isDigit (front ++ back) with ⟨whole, fraction, taken⟩
  rw [read_decimal_parts parts] at read
  split_ifs at read with none
  have count : taken + (readExponent 101 ((front ++ back).drop taken)).2 = used :=
    congrArg Prod.snd (Option.some.inj read)
  have reaches : taken ≤ front.length := by omega
  have same := read_digits_front isDigit front back (by rw [parts]; exact reaches)
  rw [List.drop_append_of_le_length reaches] at count read
  have exponent := read_exponent_front 101 (front.drop taken) back
    (by rw [List.length_drop]; omega)
  rw [read_decimal_parts (same.trans parts), if_neg none, exponent]
  exact read

/-- A hexadecimal number is read from its digits and what is behind them. -/
theorem read_hexadecimal_parts {text whole fraction : List UInt8} {taken : Nat}
    (parts : readDigits isHexDigit (text.drop 2) = (whole, fraction, taken)) :
    readHexadecimal negative text =
      if beginsWith [48, 120] text && !(whole.isEmpty && fraction.isEmpty) then
        some (nearestMoved 11 52 2 negative (digitsValue 16 (whole ++ fraction))
          ((readExponent 112 (text.drop (2 + taken))).1 - 4 * fraction.length),
            2 + taken + (readExponent 112 (text.drop (2 + taken))).2)
      else none := by
  rw [readHexadecimal, parts]

/-- A text that begins with letters has as many bytes. -/
theorem begins_with_length {letters text : List UInt8} (begins : beginsWith letters text = true) :
    letters.length ≤ text.length := by
  have lengths := congrArg List.length (beq_iff_eq.mp begins)
  rw [List.length_map, List.length_take] at lengths
  omega

/-- A text behind which no numeral goes on does not begin with a letter of one. -/
theorem Stops.begins (stops : Stops rest) (letters text : List UInt8)
    (small : (letters.all fun letter => letter == 48 || (97 ≤ letter && letter ≤ 122)) = true) :
    beginsWith letters (text ++ rest) = beginsWith letters text := by
  apply begins_with_stops
  intro byte first listed
  obtain ⟨digit, letter, _⟩ := stops byte first
  have kind := List.all_eq_true.mp small _ listed
  rw [Bool.or_eq_true, beq_iff_eq, Bool.and_eq_true, decide_eq_true_eq, decide_eq_true_eq] at kind
  obtain zero | between := kind
  · have zeros : ∀ value : Fin 256, lower (UInt8.ofNat value) = 48 →
        isDigit (UInt8.ofNat value) = true := by decide +kernel
    have checked := zeros ⟨byte.toNat, byte.toNat_lt⟩
    rw [UInt8.ofNat_toNat, digit] at checked
    exact Bool.false_ne_true (checked zero)
  · exact letter between

/-- A hexadecimal number that is read off a text is the same when bytes follow with which no
numeral goes on. -/
theorem read_hexadecimal_stops (text : List UInt8) (stops : Stops rest) :
    readHexadecimal negative (text ++ rest) = readHexadecimal negative text := by
  have begins := stops.begins [48, 120] text (by decide)
  by_cases two : 2 ≤ text.length
  · have same := read_digits_stops isHexDigit (text.drop 2) stops.hexDigit
    have inside := read_digits_length isHexDigit (text.drop 2)
    rcases parts : readDigits isHexDigit (text.drop 2) with ⟨whole, fraction, taken⟩
    rw [← List.drop_append_of_le_length two, parts] at same
    rw [parts, List.length_drop] at inside
    have reaches : 2 + taken ≤ text.length := by
      dsimp only at inside
      omega
    rw [read_hexadecimal_parts parts, read_hexadecimal_parts same, begins,
      List.drop_append_of_le_length reaches, read_exponent_stops 112 (by decide) _ stops]
  · have other : beginsWith [48, 120] text = false :=
      Bool.eq_false_iff.mpr fun found => two (begins_with_length found)
    rw [other] at begins
    rw [readHexadecimal, readHexadecimal, begins, other]
    rfl

/-- The bytes of a hexadecimal number are all it is read from. -/
theorem read_hexadecimal_front
    (read : readHexadecimal negative (front ++ back) = some (value, used))
    (inside : used ≤ front.length) : readHexadecimal negative front = some (value, used) := by
  rcases parts : readDigits isHexDigit ((front ++ back).drop 2) with ⟨whole, fraction, taken⟩
  rw [read_hexadecimal_parts parts] at read
  split_ifs at read with found
  have count : 2 + taken + (readExponent 112 ((front ++ back).drop (2 + taken))).2 = used :=
    congrArg Prod.snd (Option.some.inj read)
  have two : 2 ≤ front.length := by omega
  have reaches : 2 + taken ≤ front.length := by omega
  rw [List.drop_append_of_le_length two] at parts
  have same := read_digits_front isHexDigit (front.drop 2) back
    (by rw [parts, List.length_drop]; dsimp only; omega)
  rw [List.drop_append_of_le_length reaches] at count read
  have exponent := read_exponent_front 112 (front.drop (2 + taken)) back
    (by rw [List.length_drop]; omega)
  rw [begins_with_front [48, 120] front back two] at found
  rw [read_hexadecimal_parts (same.trans parts), if_pos found, exponent]
  exact read

/-- If a text begins with no hexadecimal number, then neither does a part at its front. -/
theorem read_hexadecimal_none (none : readHexadecimal negative (front ++ back) = .none) :
    readHexadecimal negative front = .none := by
  rcases parts : readDigits isHexDigit (front.drop 2) with ⟨whole, fraction, taken⟩
  rw [read_hexadecimal_parts parts, if_neg]
  intro found
  rw [Bool.and_eq_true, Bool.not_eq_true'] at found
  obtain ⟨opens, digits⟩ := found
  have two : 2 ≤ front.length := begins_with_length opens
  rcases whole' : readDigits isHexDigit ((front ++ back).drop 2) with ⟨more, rest, length⟩
  rw [read_hexadecimal_parts whole', begins_with_front [48, 120] front back two, opens] at none
  split_ifs at none with some
  rw [Bool.true_and, Bool.not_eq_true', Bool.not_eq_false, Bool.and_eq_true, List.isEmpty_iff,
    List.isEmpty_iff] at some
  obtain ⟨rfl, rfl⟩ := some
  rw [List.drop_append_of_le_length two] at whole'
  obtain ⟨_, nothing⟩ := read_digits_none isHexDigit whole'
  rw [parts] at nothing
  cases nothing
  exact absurd digits (by decide)

/-! ## `nan` and its letters -/

/-- The bytes that may stand between the parentheses behind `nan`: digits, letters and the
underscore. -/
def isWord (byte : UInt8) : Bool :=
  isDigit byte || (97 ≤ lower byte && lower byte ≤ 122) || byte == 95

/-- The letters behind an opening parenthesis count together with both parentheses, if a closing
one is behind them. -/
theorem read_payload_letters {text letters : List UInt8} (taken : text.takeWhile isWord = letters) :
    readPayload (40 :: text) =
      if (text.drop letters.length).head? = some 41 then letters.length + 2 else 0 := by
  have same : (text.takeWhile fun byte =>
      isDigit byte || (97 ≤ lower byte && lower byte ≤ 122) || byte == 95) = letters := taken
  rw [readPayload]
  simp only [same]
  cases text.drop letters.length with
  | nil => rfl
  | cons byte behind =>
    by_cases closing : byte = 41
    · rw [closing]
      rfl
    · rw [List.head?_cons, if_neg fun first => closing (Option.some.inj first)]
      split
      · rename_i first
        exact absurd (List.cons.inj first).1 closing
      · rfl

/-- Where no parenthesis is opened behind `nan`, no byte is taken there. -/
theorem read_payload_other {text : List UInt8} (other : ∀ byte ∈ text.head?, byte ≠ 40) :
    readPayload text = 0 := by
  unfold readPayload
  split
  · exact absurd rfl (other 40 rfl)
  · rfl

/-- What stands behind a text is not what it is closed by. -/
theorem head_append {text rest : List UInt8} {wanted : UInt8}
    (other : ∀ byte ∈ rest.head?, byte ≠ wanted) :
    (text ++ rest).head? = some wanted ↔ text.head? = some wanted := by
  cases text with
  | nil =>
    apply iff_of_false (fun first => other wanted first rfl)
    intro first
    cases first
  | cons byte text => exact Iff.rfl

/-- Letters in parentheses that are read off a text are the same when bytes follow with which no
numeral goes on. -/
theorem read_payload_stops (text : List UInt8) (stops : Stops rest) :
    readPayload (text ++ rest) = readPayload text := by
  have other {wanted : UInt8} (listed : wanted ∈ [40, 41, 43, 45, 46, 95]) :
      ∀ byte ∈ rest.head?, byte ≠ wanted := by
    rintro byte first rfl
    exact (stops byte first).2.2 listed
  have word : ∀ byte ∈ rest.head?, isWord byte = false := by
    intro byte first
    obtain ⟨digit, letter, _⟩ := stops byte first
    have underscore : byte ≠ 95 := other (by decide) byte first
    rw [isWord, digit, Bool.false_or, Bool.or_eq_false_iff, beq_eq_false_iff_ne,
      ← Bool.decide_and, decide_eq_false_iff_not]
    exact ⟨letter, underscore⟩
  cases text with
  | nil => exact read_payload_other (other (by decide))
  | cons byte text =>
    by_cases opening : byte = 40
    · rw [opening, List.cons_append, read_payload_letters (take_while_stops text word),
        read_payload_letters rfl,
        List.drop_append_of_le_length (List.takeWhile_prefix isWord).length_le]
      simp only [head_append (other (by decide : (41 : UInt8) ∈ _))]
    · have opens : ∀ text : List UInt8, ∀ first ∈ (byte :: text).head?, first ≠ 40 := by
        intro text first head
        cases head
        exact opening
      rw [List.cons_append, read_payload_other (opens _), read_payload_other (opens _)]

/-- The letters in parentheses are all that is looked at. -/
theorem read_payload_front (front back : List UInt8)
    (inside : readPayload (front ++ back) ≤ front.length) :
    readPayload front = readPayload (front ++ back) := by
  cases front with
  | nil => exact (Nat.le_zero.mp inside).symm
  | cons byte front =>
    by_cases opening : byte = 40
    · subst opening
      have whole : readPayload (40 :: (front ++ back)) = _ := read_payload_letters rfl
      rw [List.cons_append, whole] at inside ⊢
      by_cases closes :
          ((front ++ back).drop ((front ++ back).takeWhile isWord).length).head? = some 41
      · rw [if_pos closes, List.length_cons] at inside
        rw [if_pos closes, read_payload_letters (take_while_front front back (by omega)), if_pos]
        rw [List.drop_append_of_le_length (by omega)] at closes
        cases rear : front.drop ((front ++ back).takeWhile isWord).length with
        | nil =>
          have all := List.drop_eq_nil_iff.mp rear
          omega
        | cons head tail =>
          rw [rear] at closes
          exact closes
      · rw [if_neg closes, read_payload_letters rfl, if_neg]
        intro closed
        apply closes
        obtain ⟨behind, rear⟩ := List.head?_eq_some_iff.mp closed
        have inFront := List.takeWhile_prefix isWord (l := front)
        have split := List.prefix_iff_eq_append.mp inFront
        rw [rear] at split
        have closing :
            ∀ byte ∈ (41 :: (behind ++ back) : List UInt8).head?, isWord byte = false := by
          intro byte head
          cases head
          rfl
        have same : (front ++ back).takeWhile isWord = front.takeWhile isWord :=
          calc (front ++ back).takeWhile isWord
              = (front.takeWhile isWord ++ 41 :: (behind ++ back)).takeWhile isWord := by
                rw [← List.cons_append, ← List.append_assoc, split]
            _ = (front.takeWhile isWord).takeWhile isWord := take_while_stops _ closing
            _ = front.takeWhile isWord := List.takeWhile_idem
        rw [same, List.drop_append_of_le_length inFront.length_le, rear]
        rfl
    · have opens : ∀ text : List UInt8, ∀ first ∈ (byte :: text).head?, first ≠ 40 := by
        intro text first head
        cases head
        exact opening
      rw [List.cons_append, read_payload_other (opens _), read_payload_other (opens _)]

/-! ## Numerals -/

/-- A number without its sign is the same when bytes follow with which no numeral goes on. -/
theorem read_unsigned_stops (text : List UInt8) (stops : Stops rest) :
    readUnsigned negative (text ++ rest) = readUnsigned negative text := by
  have infinity := stops.begins [105, 110, 102, 105, 110, 105, 116, 121] text (by decide)
  have short := stops.begins [105, 110, 102] text (by decide)
  have nan := stops.begins [110, 97, 110] text (by decide)
  rw [readUnsigned, readUnsigned, infinity, short, nan, read_hexadecimal_stops text stops,
    read_decimal_stops text stops]
  by_cases letters : beginsWith [110, 97, 110] text = true
  · have three : 3 ≤ text.length := begins_with_length letters
    rw [List.drop_append_of_le_length three, read_payload_stops _ stops]
  · rw [if_neg letters, if_neg letters]

/-- The bytes of a number are all it is read from. -/
theorem read_unsigned_front (read : readUnsigned negative (front ++ back) = some (value, used))
    (inside : used ≤ front.length) : readUnsigned negative front = some (value, used) := by
  have begins (letters : List UInt8) (reaches : letters.length ≤ used) :
      beginsWith letters (front ++ back) = beginsWith letters front :=
    begins_with_front letters front back (le_trans reaches inside)
  rw [readUnsigned] at read ⊢
  split_ifs at read with infinity short nan
  · cases read
    rw [begins _ (by decide)] at infinity
    rw [if_pos infinity]
  · cases read
    rw [begins _ (by decide)] at short
    rw [begins_with_none (Bool.eq_false_iff.mpr infinity), if_neg Bool.false_ne_true, if_pos short]
  · have count : 3 + readPayload ((front ++ back).drop 3) = used :=
      congrArg Prod.snd (Option.some.inj read)
    rw [begins _ (by rw [← count]; exact Nat.le_add_right 3 _)] at nan
    rw [List.drop_append_of_le_length (by omega)] at count read
    have payload := read_payload_front (front.drop 3) back (by rw [List.length_drop]; omega)
    rw [begins_with_none (Bool.eq_false_iff.mpr infinity), if_neg Bool.false_ne_true,
      begins_with_none (Bool.eq_false_iff.mpr short), if_neg Bool.false_ne_true, if_pos nan,
      payload]
    exact read
  · rw [begins_with_none (Bool.eq_false_iff.mpr infinity), if_neg Bool.false_ne_true,
      begins_with_none (Bool.eq_false_iff.mpr short), if_neg Bool.false_ne_true,
      begins_with_none (Bool.eq_false_iff.mpr nan), if_neg Bool.false_ne_true]
    cases hexadecimal : readHexadecimal negative (front ++ back) with
    | none =>
      rw [hexadecimal, Option.none_or] at read
      rw [read_hexadecimal_none hexadecimal, Option.none_or]
      exact read_decimal_front read inside
    | some found =>
      rw [hexadecimal, Option.some_or] at read
      rw [Option.some.inj read] at hexadecimal
      rw [read_hexadecimal_front hexadecimal inside, Option.some_or]

/-- A text without blanks in front is read from its sign on. -/
theorem strtod_plain {text : List UInt8} (plain : ∀ byte ∈ text.head?, isSpace byte = false) :
    strtod text =
      match readUnsigned (readSign text).1 (text.drop (readSign text).2) with
      | some (number, used) => (number, (readSign text).2 + used)
      | none => (nearestQuotient 11 52 false 0 1, 0) := by
  have blanks : text.takeWhile isSpace = [] := by
    cases text with
    | nil => rfl
    | cons byte text => rw [List.takeWhile_cons, plain byte rfl]; rfl
  obtain ⟨negative, sign, signed⟩ : ∃ negative sign, readSign text = (negative, sign) :=
    ⟨_, _, rfl⟩
  cases read : readUnsigned negative (text.drop sign) with
  | none =>
    simp only [strtod, blanks, List.length_nil, List.drop_zero, Nat.zero_add, signed, read]
  | some found =>
    simp only [strtod, blanks, List.length_nil, List.drop_zero, Nat.zero_add, signed, read]

/-- A numeral that is read off a text is the same when bytes follow with which no numeral goes
on. -/
theorem strtod_stops (first : UInt8) (text : List UInt8) (plain : isSpace first = false)
    (stops : Stops rest) : strtod (first :: text ++ rest) = strtod (first :: text) := by
  have begins : ∀ text : List UInt8, ∀ byte ∈ (first :: text).head?, isSpace byte = false := by
    intro text byte head
    cases head
    exact plain
  rw [List.cons_append, strtod_plain (begins _), strtod_plain (begins _), ← List.cons_append,
    read_sign_stops _ stops, List.drop_append_of_le_length (read_sign_length _),
    read_unsigned_stops _ stops]

/-- The bytes of a numeral are all it is read from. -/
theorem strtod_front {first : UInt8} {text : List UInt8} (plain : isSpace first = false)
    (read : strtod (first :: text ++ back) = (value, (first :: text).length)) :
    strtod (first :: text) = (value, (first :: text).length) := by
  have begins : ∀ text : List UInt8, ∀ byte ∈ (first :: text).head?, isSpace byte = false := by
    intro text byte head
    cases head
    exact plain
  rw [List.cons_append, strtod_plain (begins _), ← List.cons_append] at read
  have sign : (readSign (first :: text ++ back)).2 ≤ (first :: text).length := by
    rw [List.cons_append, read_sign_byte, ← read_sign_byte first text]
    exact read_sign_length _
  rw [List.drop_append_of_le_length sign, ← read_sign_front sign] at read
  rw [strtod_plain (begins _)]
  cases unsigned : readUnsigned (readSign (first :: text)).1
      ((first :: text).drop (readSign (first :: text)).2 ++ back) with
  | none =>
    rw [unsigned] at read
    exact absurd (congrArg Prod.snd read) (by simp)
  | some found =>
    obtain ⟨number, used⟩ := found
    rw [unsigned] at read
    have count : (readSign (first :: text)).2 + used = (first :: text).length :=
      congrArg Prod.snd read
    rw [read_unsigned_front unsigned (by rw [List.length_drop]; omega)]
    exact read

/-! ## Lengths -/

/-- The bytes of an exponent that are taken of a text are bytes of this text. -/
theorem read_exponent_length (letter : UInt8) (text : List UInt8) :
    (readExponent letter text).2 ≤ text.length := by
  cases text with
  | nil => exact Nat.le_refl 0
  | cons byte text =>
    by_cases same : lower byte = letter
    · have sign := read_sign_length text
      have digits := (List.takeWhile_prefix isDigit
        (l := text.drop (readSign text).2)).length_le
      rw [List.length_drop] at digits
      rw [read_exponent_letter same text rfl, List.length_cons]
      split_ifs
      · exact Nat.zero_le _
      · dsimp only
        omega
    · rw [readExponent, if_neg same]
      exact Nat.zero_le _

/-- The letters in parentheses that are taken of a text are bytes of this text. -/
theorem read_payload_length (text : List UInt8) : readPayload text ≤ text.length := by
  obtain ⟨others, rfl⟩ | other :
      (∃ others, text = 40 :: others) ∨ ∀ byte ∈ text.head?, byte ≠ 40 := by
    cases text with
    | nil => exact .inr fun byte first => by cases first
    | cons byte text =>
      by_cases opening : byte = 40
      · exact .inl ⟨text, by rw [opening]⟩
      · refine .inr fun first head => ?_
        cases head
        exact opening
  · rw [read_payload_letters rfl, List.length_cons]
    split
    · rename_i closes
      have inside : (others.takeWhile isWord).length < others.length := by
        by_contra outside
        rw [List.drop_eq_nil_of_le (Nat.le_of_not_lt outside)] at closes
        cases closes
      omega
    · exact Nat.zero_le _
  · rw [read_payload_other other]
    exact Nat.zero_le _

/-- The bytes of a number that are taken of a text are bytes of this text. -/
theorem read_unsigned_length {text : List UInt8}
    (read : readUnsigned negative text = some (value, used)) : used ≤ text.length := by
  rw [readUnsigned] at read
  split_ifs at read with infinity short nan
  · cases read
    exact begins_with_length infinity
  · cases read
    exact begins_with_length short
  · have three : 3 ≤ text.length := begins_with_length nan
    have payload := read_payload_length (text.drop 3)
    rw [List.length_drop] at payload
    cases read
    omega
  · rw [Option.or_eq_some_iff] at read
    obtain hexadecimal | ⟨_, decimal⟩ := read
    · rcases parts : readDigits isHexDigit (text.drop 2) with ⟨whole, fraction, taken⟩
      have inside := read_digits_length isHexDigit (text.drop 2)
      have exponent := read_exponent_length 112 (text.drop (2 + taken))
      rw [parts, List.length_drop] at inside
      rw [List.length_drop] at exponent
      rw [read_hexadecimal_parts parts] at hexadecimal
      split_ifs at hexadecimal with found
      have two : 2 ≤ text.length := begins_with_length (Bool.and_eq_true_iff.mp found).1
      cases hexadecimal
      dsimp only at inside
      omega
    · rcases parts : readDigits isDigit text with ⟨whole, fraction, taken⟩
      have inside := read_digits_length isDigit text
      have exponent := read_exponent_length 101 (text.drop taken)
      rw [parts] at inside
      rw [List.length_drop] at exponent
      rw [read_decimal_parts parts] at decimal
      split_ifs at decimal
      cases decimal
      dsimp only at inside
      omega

/-- The bytes of a numeral that are taken of a text are bytes of this text. -/
theorem strtod_length {text : List UInt8} (plain : ∀ byte ∈ text.head?, isSpace byte = false) :
    (strtod text).2 ≤ text.length := by
  have sign := read_sign_length text
  rw [strtod_plain plain]
  split
  · rename_i number used read
    have unsigned := read_unsigned_length read
    rw [List.length_drop] at unsigned
    dsimp only
    omega
  · exact Nat.zero_le _

end Dragonfly.Numerals
