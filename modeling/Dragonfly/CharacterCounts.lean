import Dragonfly.RowBounds

/-!
# Character counts

The table of `countAllChars` has one entry for each character of its string, and its counts
add up to the length of the string. So the quotients of the counts and the length are
positive and add up to one. The fractions of `shannonEntropy` are the doubles nearest to
these quotients: they are positive too, but what they add up to may be off by a part in
2^53. `countDigits` does not look up the zero. And `transform` counts the digits of
the whole domain, because both its calls fill the same global table, so its entries about
digits are those of the second-level label only where the two numbers agree.
-/

namespace Dragonfly.CharacterCounts

open Config DomainFeatures DomainRows DoubleRounding RowBounds Tallies

/-! ## The table -/

/-- What the table of a string holds: one entry for each of its characters, with the number of
times it occurs, and beside them the number of different characters. -/
structure Tallied (s : List Byte) (table : CountTable) : Prop where
  counted : ∀ byte, table.chars.lookup byte = if byte ∈ s then some (s.count byte) else none
  single : (table.chars.map Prod.fst).Nodup
  total : (table.chars.map Prod.snd).sum = s.length
  distinct : table.distinct = some s.toFinset.card

/-- The loop of `countAllChars` leaves such a table, whatever the counts were before, since it
begins with a new one. -/
theorem table_tallied (s : List Byte) (globals : Counting) :
    Tallied s (countAllChars s globals).charCounts := by
  rw [count_all_chars_counts]
  have counts := table_counts s
  exact ⟨counts.counted, counts.distinct, counts.total, by rw [List.card_toFinset]; rfl⟩

/-! ## Fractions -/

/-- The quotients of the counts of a table and the length of its string, in the order in
which `pairs` visits the entries. -/
def quotients (traversal : Traversal) (strLength : Nat) (table : CountTable) : List ℚ :=
  (traversal.pairs table.chars).map fun entry => (entry.2 : ℚ) / strLength

/-- Numbers that are positive and add up to one, as the shares of a whole do. -/
structure Shares (numbers : List ℚ) : Prop where
  positive : ∀ number ∈ numbers, 0 < number
  total : numbers.sum = 1

/-- Fractions that are the doubles nearest to these numbers, are positive as well and, added
up without rounding, differ from one by at most a part in 2^53. -/
structure NearShares (fractions : List Number) (numbers : List ℚ) : Prop where
  nearest : fractions = numbers.map rounded
  positive : ∀ fraction ∈ fractions, ∃ x, fraction = some x ∧ 0 < x
  total : ∃ sum, fractions.foldl Number.plus (.ofCount 0) = some sum ∧ |sum - 1| ≤ 1 / 2 ^ 53

/-- Quotients with one divisor add up to the sum over it. -/
theorem quotients_add (counts : List Nat) (whole : ℚ) :
    (counts.map fun count : Nat => (count : ℚ) / whole).sum = (counts.sum : ℚ) / whole := by
  induction counts with
  | nil => simp
  | cons count rest inductionHypothesis =>
    rw [List.map_cons, List.sum_cons, inductionHypothesis, List.sum_cons, Nat.cast_add, add_div]

/-- The counts of the table of a string are shares of its length, in every order. -/
theorem quotients_shares (traversal : Traversal) {s : List Byte} (nonempty : s ≠ []) :
    Shares (quotients traversal s.length (tableOf s)) := by
  have filled : (0 : ℚ) < s.length := Nat.cast_pos.mpr (List.length_pos_iff.mpr nonempty)
  constructor
  · intro number listed
    obtain ⟨entry, visited, rfl⟩ := List.mem_map.mp listed
    exact div_pos (Nat.cast_pos.mpr (visited_counts traversal visited).1) filled
  · have permuted := ((traversal.permuted (tableOf s).chars).map Prod.snd).sum_eq
    have added := quotients_add ((traversal.pairs (tableOf s).chars).map Prod.snd) s.length
    rw [permuted, (table_counts s).total, div_self (ne_of_gt filled), List.map_map] at added
    exact added

/-- Numbers that are rounded one by one with a relative error add up to their sum with that
error. -/
theorem rounded_sum (numbers : List ℚ) {error : ℚ} (start : ℚ)
    (close : ∀ number ∈ numbers, ∃ nearest, rounded number = some nearest ∧
      |nearest - number| ≤ number * error) :
    ∃ sum, (numbers.map rounded).foldl Number.plus (some start) = some sum ∧
      |sum - (start + numbers.sum)| ≤ numbers.sum * error := by
  induction numbers generalizing start with
  | nil => exact ⟨start, rfl, by simp⟩
  | cons number rest inductionHypothesis =>
    obtain ⟨⟨nearest, rounds, near⟩, others⟩ := List.forall_mem_cons.mp close
    obtain ⟨sum, added, apart⟩ := inductionHypothesis (start + nearest) others
    refine ⟨sum, ?_, ?_⟩
    · rw [List.map_cons, List.foldl_cons, rounds]
      exact added
    · rw [List.sum_cons]
      have split : sum - (start + (number + rest.sum)) =
          (sum - (start + nearest + rest.sum)) + (nearest - number) := by ring
      calc |sum - (start + (number + rest.sum))|
          ≤ |sum - (start + nearest + rest.sum)| + |nearest - number| := by
            rw [split]
            exact abs_add_le _ _
        _ ≤ rest.sum * error + number * error := add_le_add apart near
        _ = (number + rest.sum) * error := by ring

section Fractions

variable (log : Number → Number) (traversal : Traversal)

/-- In doubles the fractions of `shannonEntropy` are the quotients of the counts and the length,
each rounded to the nearest double. -/
theorem fractions_rounded {s : List Byte} (nonempty : s ≠ []) :
    fractionsOf (doubleRuntime log traversal) s.length (tableOf s) =
      (quotients traversal s.length (tableOf s)).map rounded := by
  have filled : 0 < s.length := List.length_pos_iff.mpr nonempty
  rw [fractionsOf, quotients, List.map_map]
  apply List.map_congr_left
  intro entry _
  have quotient := count_over entry.2 filled
  exact congrArg (fun number : Number => number.bind rounded) quotient

/-- The fractions of a string that is not empty are near the shares of its characters. -/
theorem fractions_near {s : List Byte} (nonempty : s ≠ []) (short : s.length < 2 ^ 53) :
    NearShares (fractionsOf (doubleRuntime log traversal) s.length (tableOf s))
      (quotients traversal s.length (tableOf s)) := by
  have shares := quotients_shares traversal nonempty
  have filled : (0 : ℚ) < s.length := Nat.cast_pos.mpr (List.length_pos_iff.mpr nonempty)
  have close : ∀ number ∈ quotients traversal s.length (tableOf s), ∃ nearest,
      rounded number = some nearest ∧ 0 < nearest ∧
        |nearest - number| ≤ number * (1 / 2 ^ 53) := by
    intro number listed
    have positive := shares.positive number listed
    obtain ⟨entry, visited, rfl⟩ := List.mem_map.mp listed
    obtain ⟨occurs, most⟩ := visited_counts traversal visited
    have small : (entry.2 : ℚ) / s.length ≤ 1 := by
      rw [div_le_one filled]
      exact_mod_cast most
    have scaled : 1 ≤ (entry.2 : ℚ) / s.length * 2 ^ 53 := by
      rw [div_mul_eq_mul_div, one_le_div filled]
      have whole : s.length ≤ entry.2 * 2 ^ 53 := by omega
      exact_mod_cast whole
    obtain ⟨nearest, rounds, above, near⟩ := rounded_close positive small (by decide) scaled
    exact ⟨nearest, rounds, above, by rwa [mul_one_div]⟩
  have rounds := fractions_rounded log traversal nonempty
  refine ⟨rounds, ?_, ?_⟩
  · intro fraction listed
    rw [rounds] at listed
    obtain ⟨number, member, rfl⟩ := List.mem_map.mp listed
    obtain ⟨nearest, same, above, _⟩ := close number member
    exact ⟨nearest, same, above⟩
  · obtain ⟨sum, added, apart⟩ := rounded_sum (quotients traversal s.length (tableOf s)) 0
      fun number member =>
        have ⟨nearest, same, _, near⟩ := close number member
        ⟨nearest, same, near⟩
    rw [shares.total, zero_add, one_mul] at apart
    exact ⟨sum, by rw [rounds]; exact added, apart⟩

/-- The table of a string maps each of its bytes to the number of its occurrences, and no
other; the counts add up to its length, and `distinct` is the number of its different bytes.
`shannonEntropy` returns the Shannon entropy of its fractions. For a string that is not
empty, and short enough for its length to be a double, they are the doubles nearest to
numbers that are positive and add up to one; they are positive and add up to one but for a
part in 2^53. -/
theorem character_table_exact (s : List Byte) (counting : Counting) (globals : Entropy) :
    let table := (countAllChars s counting).charCounts
    let fractions := fractionsOf (doubleRuntime log traversal) s.length table
    Tallied s table ∧
      (shannonEntropy (doubleRuntime log traversal) s table globals).2 =
        shannonOf (doubleRuntime log traversal) fractions ∧
      (s ≠ [] → s.length < 2 ^ 53 → Shares (quotients traversal s.length table) ∧
        NearShares fractions (quotients traversal s.length table)) := by
  intro table fractions
  refine ⟨table_tallied s counting, (shannon_entropy_returns _ s table globals).2, ?_⟩
  intro nonempty short
  have same : table = tableOf s := count_all_chars_counts s counting
  simp only [fractions, same]
  exact ⟨quotients_shares traversal nonempty, fractions_near log traversal nonempty short⟩

end Fractions

/-- Ten different characters make ten fractions that are the double nearest to a tenth. These
do not add up to one, whether their sum is rounded or not. -/
theorem tenths_miss_one :
    let fractions := fractionsOf (doubleRuntime id .stored) 10
      (countAllChars (bytesOf "abcdefghij") default).charCounts
    fractions.foldl Number.plus (.ofCount 0) ≠ some 1 ∧
      fractions.foldl (doubles id).plus (.ofCount 0) ≠ some 1 := by
  decide +kernel

/-! ## Digits -/

/-- A byte that is one of the ten decimal digits, the zero included. -/
def decimal (byte : Byte) : Bool := 48 ≤ byte ∧ byte ≤ 57

/-- The byte of the character `"0"`, which the table of `countDigits` leaves out. -/
def zero : Byte := 48

/-- A decimal digit other than zero, one of the nine the loop of `countDigits` goes through. -/
def nonzero (byte : Byte) : Bool := decimal byte ∧ byte ≠ zero

/-- The entries about digits are those of the second-level label. -/
structure DigitFeatures (domain : List Byte) (row : List Number) : Prop where
  flag : entry row 17 = some 1 ↔ ∃ byte ∈ (domainParts domain).second, decimal byte
  share : (domainParts domain).second ≠ [] → entry row 22 =
    (Number.ofCount ((domainParts domain).second.countP decimal)).over
      (.ofCount (domainParts domain).second.length)

/-- The digits `countDigits` looks up are those other than zero. -/
theorem counted_digit_iff (byte : Byte) : byte ∈ countedDigits ↔ nonzero byte = true := by
  simp only [countedDigits, nonzero, decimal, zero, List.mem_cons, List.not_mem_nil, or_false,
    decide_eq_true_iff, UInt8.le_iff_toNat_le, ← UInt8.toNat_inj, ne_eq]
  simp only [UInt8.reduceToNat]
  omega

/-- So `countDigits` counts the digits from one to nine in its string, and no other characters. -/
theorem digit_count_nonzero (s : List Byte) : digitCount s = s.countP nonzero := by
  apply List.countP_congr
  intro byte _
  rw [decide_eq_true_iff, counted_digit_iff]

/-- The zeros are the difference between the decimal digits of a string and those `countDigits`
finds. -/
theorem decimals_split (s : List Byte) :
    s.countP decimal = s.countP nonzero + s.count zero := by
  induction s with
  | nil => rfl
  | cons byte rest inductionHypothesis =>
    have one : (if decimal byte then 1 else 0) =
        (if nonzero byte then 1 else 0) + if byte == zero then 1 else 0 := by
      by_cases none : byte = zero
      · subst none
        decide
      · simp [nonzero, none]
    rw [List.countP_cons, List.countP_cons, List.count_cons, inductionHypothesis, one]
    omega

/-- Counts over one number agree exactly when they are the same. -/
theorem quotients_same_iff (left right : Nat) {whole : Nat} (positive : 0 < whole) :
    (Number.ofCount left).over (.ofCount whole) = (Number.ofCount right).over (.ofCount whole) ↔
      left = right := by
  have divisor : (whole : ℚ) ≠ 0 := Nat.cast_ne_zero.mpr (Nat.ne_of_gt positive)
  rw [count_over left positive, count_over right positive, Option.some.injEq,
    div_left_inj' divisor, Nat.cast_inj]

/-- A row that shows the percentages behind its call has these entries exactly when the
counts agree. -/
theorem digit_entries_iff (log : Number → Number) (traversal : Traversal) (domain : List Byte)
    (held : Option Number × Option Number) :
    DigitFeatures domain (rowOf (exactRuntime log traversal) domain
        (percentagesAfter (exactRuntime log traversal) domain held)) ↔
      domain.countP nonzero = (domainParts domain).second.countP decimal := by
  generalize after : percentagesAfter (exactRuntime log traversal) domain held = left
  have flagged : entry (rowOf (exactRuntime log traversal) domain left) 17 =
    .flag (0 < digitCount domain) := rfl
  have shared : entry (rowOf (exactRuntime log traversal) domain left) 22 =
    left.2.getD (.ofCount 0) := rfl
  have shown : (domainParts domain).second ≠ [] → left.2.getD (.ofCount 0) =
        (Number.ofCount (digitCount domain)).over
          (.ofCount (domainParts domain).second.length) := by
    intro filled
    rw [← after, percentagesAfter, if_pos (List.length_pos_iff.mpr filled)]
    rfl
  rw [← digit_count_nonzero]
  constructor
  · rintro ⟨flag, share⟩
    by_cases filled : (domainParts domain).second = []
    · rw [flagged, flag_one_iff, filled] at flag
      rw [filled, List.countP_nil]
      by_contra counted
      obtain ⟨byte, listed, _⟩ := flag.mp (Nat.pos_of_ne_zero counted)
      cases listed
    · have same := share filled
      rw [shared, shown filled] at same
      exact (quotients_same_iff _ _ (List.length_pos_iff.mpr filled)).mp same
  · intro same
    constructor
    · rw [flagged, flag_one_iff, same, List.countP_pos_iff]
    · intro filled
      rw [shared, shown filled, same]

/-- `countDigits` counts all digits of a string exactly when it has no zero. The entries
about digits are those of the second-level label exactly when the digits of the domain other
than zero are as many as all digits of this label. -/
theorem digits_complete_iff (log : Number → Number) (traversal : Traversal) (s : List Byte)
    (counting : Counting) (globals : Globals) :
    (countDigits (countAllChars s counting).charCounts = s.countP decimal ↔ zero ∉ s) ∧
      ∃ after row, transform (exactRuntime log traversal) s globals = some (after, row) ∧
        (DigitFeatures s row ↔ s.countP nonzero = (domainParts s).second.countP decimal) := by
  constructor
  · rw [count_all_chars_counts, count_digits_counts, ← digitCount, digit_count_nonzero,
      decimals_split, ← List.count_eq_zero]
    omega
  · obtain ⟨after, returned, _⟩ := transform_row (exactRuntime log traversal) s globals
    exact ⟨after, _, returned, digit_entries_iff log traversal s (percentages globals)⟩

/-- The zero of `0.com` is not counted, and its row shows no digit. -/
theorem zero_not_counted :
    countDigits (countAllChars (bytesOf "0.com") default).charCounts ≠
        (bytesOf "0.com").countP decimal ∧
      ¬ ∀ (log : Number → Number) (traversal : Traversal) (domain : List Byte)
        (globals after : Globals) (row : List Number),
        transform (exactRuntime log traversal) domain globals = some (after, row) →
          DigitFeatures domain row := by
  constructor
  · decide
  · intro claimed
    obtain ⟨after, returned, _⟩ :=
      transform_row (exactRuntime id .stored) (bytesOf "0.com") default
    have counted := (digit_entries_iff id .stored (bytesOf "0.com") _).mp
      (claimed _ _ _ _ _ _ returned)
    rw [domain_parts_csplit] at counted
    revert counted
    decide

end Dragonfly.CharacterCounts
