import Dragonfly.FeatureRuns

/-!
# Well-formed rows

What a row promises to the model it is handed to: its size, which entries are flags, how
the flags go with the counts, and bounds between counts, lengths and ratios. The promises
about flags and label lengths hold for every domain. Those about the counts hold for a
domain exactly when the counts of the whole domain fit its second-level label, and then the
ratios are between zero and one for as long as every domain before was of that kind.
-/

namespace Dragonfly.RowBounds

open Config DomainFeatures DomainRows FeatureRuns Fields

/-- An entry of a row, by its index from one on; one that is not there has no value. -/
def entry (row : List Number) (index : Nat) : Number := (luaIndex row index).getD none

/-- Two numbers that have values, the first of which is at most the second. -/
def Number.AtMost (left right : Number) : Prop := ∃ x y, left = some x ∧ right = some y ∧ x ≤ y

/-- The indices of the entries that are flags, which are one or zero. -/
def flags : List Nat := [5, 6, 7, 8, 9, 10, 11, 12, 13, 14, 17, 19]

/-- The indices of the flags of the five top-level domains, of which at most one is set. -/
def suffixes : List Nat := [10, 11, 12, 13, 14]

/-- What holds of every row, whatever its domain: its size, its flags, and how these go with the
counts and the lengths. -/
structure Shaped (domain : List Byte) (row : List Number) : Prop where
  size : row.length = 23
  flag : ∀ index ∈ flags, entry row index = some 0 ∨ entry row index = some 1
  third : entry row 5 = some 1 ↔ ∃ x, entry row 4 = some x ∧ 0 < x
  digit : entry row 17 = some 1 ↔ ∃ x, entry row 16 = some x ∧ 0 < x
  dashed : entry row 19 = some 1 ↔ ∃ x, entry row 18 = some x ∧ 0 < x
  single : ∀ index ∈ suffixes, ∀ other ∈ suffixes,
    entry row index = some 1 → entry row other = some 1 → index = other
  lengths : Number.AtMost (((entry row 2).plus (entry row 3)).plus (entry row 4))
    (.ofCount domain.length)

/-- The counts are no larger than the length of the second-level label. -/
structure Bounded (row : List Number) : Prop where
  distinct : Number.AtMost (entry row 15) (entry row 3)
  counts : Number.AtMost ((entry row 16).plus (entry row 18)) (entry row 3)

/-- A number that lies between zero and one, as the shares of a whole do. -/
def Ratio (number : Number) : Prop := ∃ x, number = some x ∧ 0 ≤ x ∧ x ≤ 1

/-- A well-formed row: the shape that every row has, the bounds on its counts, and the two
percentages as ratios. -/
structure WellFormed (domain : List Byte) (row : List Number) : Prop where
  shaped : Shaped domain row
  bounded : Bounded row
  distinct : Ratio (entry row 21)
  digits : Ratio (entry row 22)

/-- The counts of the domain fit its second-level label, although they are counted over the
whole domain. -/
structure Fits (domain : List Byte) : Prop where
  distinct : distinctChars domain ≤ (domainParts domain).second.length
  counts : digitCount domain + domain.count dash ≤ (domainParts domain).second.length

/-! ## Label lengths -/

/-- The labels and the separators between them are the domain. -/
theorem label_lengths (domain : List Byte) :
    ((labels domain).map fun label => label.length + 1).sum = domain.length + 1 := by
  rw [labels, List.map_reverse, List.sum_reverse, field_lengths]

/-- The parts taken from labels are no longer than the labels. -/
theorem parts_length (labels : List (List Byte)) :
    (partsOf labels).tld.length + (partsOf labels).second.length +
      (partsOf labels).third.length ≤ (labels.map fun label => label.length + 1).sum - 1 := by
  fun_cases partsOf labels with
  | case1 => simp
  | case2 label => simp
  | case3 top second =>
    simp only [List.map_cons, List.sum_cons, List.length_nil]
    omega
  | case4 top next third rest reverse => simp
  | case5 top next third rest direct compound =>
    have farther : (rest.headD []).length ≤ (rest.map fun label => label.length + 1).sum := by
      cases rest with
      | nil => exact Nat.zero_le _
      | cons fourth others =>
        rw [List.headD_cons, List.map_cons, List.sum_cons]
        omega
    simp only [List.map_cons, List.sum_cons, List.length_append, List.length_cons]
    omega
  | case6 top next third rest direct single =>
    simp only [List.map_cons, List.sum_cons]
    omega

/-- The three parts of a domain have together no more characters than the domain. -/
theorem part_lengths (domain : List Byte) :
    (domainParts domain).tld.length + (domainParts domain).second.length +
      (domainParts domain).third.length ≤ domain.length := by
  have parts := parts_length (labels domain)
  rw [label_lengths, Nat.add_sub_cancel] at parts
  exact parts

/-! ## The entries of a row -/

/-- A flag is zero or one, whatever its condition is. -/
theorem flag_values (condition : Prop) [Decidable condition] :
    Number.flag condition = some 0 ∨ Number.flag condition = some 1 := by
  by_cases holds : condition
  · exact .inr (if_pos holds)
  · exact .inl (if_neg holds)

/-- A flag is one exactly where its condition holds. -/
theorem flag_one_iff (condition : Prop) [Decidable condition] :
    Number.flag condition = some 1 ↔ condition := by
  by_cases holds : condition <;> simp [Number.flag, holds]

/-- A count is positive as a number exactly when it is positive. -/
theorem count_positive_iff (count : Nat) :
    (∃ x, Number.ofCount count = some x ∧ 0 < x) ↔ 0 < count := by
  simp [Number.ofCount]

/-- Two flags are the same exactly where their conditions say the same. -/
theorem flags_same_iff (left right : Prop) [Decidable left] [Decidable right] :
    Number.flag left = Number.flag right ↔ (left ↔ right) := by
  by_cases first : left <;> by_cases second : right <;> simp [Number.flag, first, second]

/-- Two counts are the same as numbers exactly where they are the same. -/
theorem counts_same_iff (left right : Nat) :
    Number.ofCount left = .ofCount right ↔ left = right := by
  simp [Number.ofCount]

/-- Counts compare as numbers in the way they compare as natural numbers. -/
theorem counts_at_most_iff (left right : Nat) :
    Number.AtMost (.ofCount left) (.ofCount right) ↔ left ≤ right := by
  simp [Number.AtMost, Number.ofCount]

/-- Counts add as numbers in the way they add as natural numbers. -/
theorem counts_plus (left right : Nat) :
    (Number.ofCount left).plus (.ofCount right) = .ofCount (left + right) := by
  simp [Number.ofCount, Number.plus]

section Rows

variable {runtime : Runtime} {domain : List Byte} {shown : Option Number × Option Number}

/-- The flags of a row are zero or one, whatever its domain and its percentages are. -/
theorem row_flags (index : Nat) (flagged : index ∈ flags) :
    entry (rowOf runtime domain shown) index = some 0 ∨
      entry (rowOf runtime domain shown) index = some 1 := by
  simp only [flags, List.mem_cons, List.not_mem_nil, or_false] at flagged
  rcases flagged with rfl | rfl | rfl | rfl | rfl | rfl | rfl | rfl | rfl | rfl | rfl | rfl
  all_goals exact flag_values _

/-- At most one of the five top-level domains is that of the row. -/
theorem row_single (index other : Nat) (listed : index ∈ suffixes) (listed' : other ∈ suffixes)
    (first : entry (rowOf runtime domain shown) index = some 1)
    (second : entry (rowOf runtime domain shown) other = some 1) : index = other := by
  -- the name an entry compares the top-level domain with
  let name : Nat → List Byte := fun index =>
    bytesOf (["com", "net", "org", "info", "biz"].getD (index - 10) "")
  have compares : ∀ index ∈ suffixes, entry (rowOf runtime domain shown) index = some 1 →
      (domainParts domain).tld = name index := by
    intro index listed one
    simp only [suffixes, List.mem_cons, List.not_mem_nil, or_false] at listed
    rcases listed with rfl | rfl | rfl | rfl | rfl
    all_goals exact (flag_one_iff _).mp one
  have same : name index = name other :=
    (compares index listed first).symm.trans (compares other listed' second)
  have different : ∀ index ∈ suffixes, ∀ other ∈ suffixes, name index = name other →
      index = other := by
    decide
  exact different index listed other listed' same

/-- Every row has the shape that is asked of all rows, whatever its percentages are. -/
theorem row_shaped : Shaped domain (rowOf runtime domain shown) where
  size := rfl
  flag := row_flags
  third := (flag_one_iff _).trans (count_positive_iff _).symm
  digit := (flag_one_iff _).trans (count_positive_iff _).symm
  dashed := (flag_one_iff _).trans (count_positive_iff _).symm
  single := fun index listed other listed' => row_single index other listed listed'
  lengths := by
    have second : entry (rowOf runtime domain shown) 2 = .ofCount (domainParts domain).tld.length := rfl
    have third : entry (rowOf runtime domain shown) 3 =
      .ofCount (domainParts domain).second.length := rfl
    have fourth : entry (rowOf runtime domain shown) 4 =
      .ofCount (domainParts domain).third.length := rfl
    rw [second, third, fourth, counts_plus, counts_plus, counts_at_most_iff]
    exact part_lengths domain

/-- The counts of a row fit exactly when those of the domain do. -/
theorem row_bounded_iff : Bounded (rowOf runtime domain shown) ↔ Fits domain := by
  have label : entry (rowOf runtime domain shown) 3 =
    .ofCount (domainParts domain).second.length := rfl
  have distinct : entry (rowOf runtime domain shown) 15 = .ofCount (distinctChars domain) := rfl
  have digits : entry (rowOf runtime domain shown) 16 = .ofCount (digitCount domain) := rfl
  have dashes : entry (rowOf runtime domain shown) 18 = .ofCount (domain.count dash) := rfl
  constructor
  · rintro ⟨first, second⟩
    rw [distinct, label, counts_at_most_iff] at first
    rw [digits, dashes, label, counts_plus, counts_at_most_iff] at second
    exact ⟨first, second⟩
  · rintro ⟨first, second⟩
    constructor
    · rwa [distinct, label, counts_at_most_iff]
    · rwa [digits, dashes, label, counts_plus, counts_at_most_iff]

end Rows

/-! ## Runs -/

/-- The percentages that are set are ratios, and so is the zero that is shown for the others. -/
structure Ratios (held : Option Number × Option Number) : Prop where
  distinct : Ratio (held.1.getD (.ofCount 0))
  digits : Ratio (held.2.getD (.ofCount 0))

/-- The exact quotient of a count and a number that is not zero is the fraction of the two. -/
theorem count_over (count : Nat) {whole : Nat} (positive : 0 < whole) :
    (Number.ofCount count).over (.ofCount whole) = some ((count : ℚ) / whole) := by
  have divisor : (whole : ℚ) ≠ 0 := Nat.cast_ne_zero.mpr (Nat.ne_of_gt positive)
  simp [Number.over, Number.ofCount, divisor]

/-- A count over one that is no smaller is a ratio. -/
theorem quotient_ratio {part whole : Nat} (small : part ≤ whole) (positive : 0 < whole) :
    Ratio ((Number.ofCount part).over (.ofCount whole)) := by
  have divisor : (0 : ℚ) < whole := Nat.cast_pos.mpr positive
  refine ⟨(part : ℚ) / whole, count_over part positive, by positivity, ?_⟩
  rw [div_le_one divisor]
  exact_mod_cast small

/-- A domain whose counts fit its second-level label leaves percentages that are ratios. -/
theorem ratios_kept (log : Number → Number) (traversal : Traversal) {domain : List Byte}
    {held : Option Number × Option Number} (fits : Fits domain) (ratios : Ratios held) :
    Ratios (percentagesAfter (exactRuntime log traversal) domain held) := by
  by_cases filled : 0 < (domainParts domain).second.length
  · rw [percentagesAfter, if_pos filled]
    exact ⟨quotient_ratio fits.distinct filled,
      quotient_ratio (Nat.le_of_add_right_le fits.counts) filled⟩
  · rw [percentagesAfter, if_neg filled]
    exact ratios

/-- The rows of a run are well formed exactly when the counts of each domain fit. -/
theorem rows_of_well_formed_iff (log : Number → Number) (traversal : Traversal)
    (domains : List (List Byte)) {held : Option Number × Option Number} (ratios : Ratios held) :
    List.Forall₂ WellFormed domains (rowsOf (exactRuntime log traversal) domains held) ↔
      ∀ domain ∈ domains, Fits domain := by
  induction domains generalizing held with
  | nil => simp [rowsOf]
  | cons domain rest inductionHypothesis =>
    rw [rowsOf, List.forall₂_cons, List.forall_mem_cons]
    constructor
    · rintro ⟨first, others⟩
      have fits : Fits domain := row_bounded_iff.mp first.bounded
      exact ⟨fits, (inductionHypothesis (ratios_kept log traversal fits ratios)).mp others⟩
    · rintro ⟨fits, others⟩
      have kept := ratios_kept log traversal fits ratios
      exact ⟨⟨row_shaped, row_bounded_iff.mpr fits, kept.distinct, kept.digits⟩,
        (inductionHypothesis kept).mpr others⟩

/-- The percentages that nobody has set yet are shown as zero, and so are ratios. -/
theorem unset_ratios : Ratios (none, none) :=
  ⟨⟨0, rfl, le_refl 0, zero_le_one⟩, ⟨0, rfl, le_refl 0, zero_le_one⟩⟩

/-- In every run all calls return, and the rows are well formed exactly when each domain has
no more different characters than its second-level label has characters, and no more digits
and dashes either. -/
theorem rows_well_formed_iff (log : Number → Number) (traversal : Traversal)
    (domains : List (List Byte)) (globals : Globals) (loaded : Loaded globals) :
    (∃ after returned,
        rows (exactRuntime log traversal) domains globals = some (after, returned) ∧
          List.Forall₂ WellFormed domains returned) ↔
      ∀ domain ∈ domains, Fits domain := by
  obtain ⟨after, returned, _⟩ := rows_return (exactRuntime log traversal) domains globals
  rw [loaded] at returned
  rw [← rows_of_well_formed_iff log traversal domains unset_ratios]
  constructor
  · rintro ⟨_, others, same, formed⟩
    rw [returned] at same
    cases same
    exact formed
  · exact fun formed => ⟨after, _, returned, formed⟩

/-- The law at work for `aaa.a`, whose second-level label has as many characters as its counts
need: its row is well formed. -/
theorem rows_well_formed_short : ∃ after returned,
    rows (exactRuntime id .stored) [bytesOf "aaa.a"] default = some (after, returned) ∧
      List.Forall₂ WellFormed [bytesOf "aaa.a"] returned := by
  refine (rows_well_formed_iff id .stored [bytesOf "aaa.a"] default rfl).mpr
    fun domain member => ?_
  obtain rfl := List.mem_singleton.mp member
  constructor
  · rw [domain_parts_csplit]
    decide
  · rw [domain_parts_csplit]
    decide

/-- The row of `a.com` is not: its five different characters are more than the one of its
second-level label. -/
theorem short_label_not_well_formed : ¬ ∀ (log : Number → Number) (traversal : Traversal)
    (domains : List (List Byte)) (globals : Globals), Loaded globals → ∃ after returned,
      rows (exactRuntime log traversal) domains globals = some (after, returned) ∧
        List.Forall₂ WellFormed domains returned := by
  intro claimed
  have loaded : Loaded default := rfl
  obtain ⟨after, others, same, formed⟩ := claimed id .stored [bytesOf "a.com"] default loaded
  obtain ⟨_, returned, _⟩ := rows_return (exactRuntime id .stored) [bytesOf "a.com"] default
  rw [loaded] at returned
  rw [returned] at same
  cases same
  have fits := (rows_of_well_formed_iff id .stored [bytesOf "a.com"] unset_ratios).mp formed _
    List.mem_cons_self
  have distinct := fits.distinct
  rw [domain_parts_csplit] at distinct
  revert distinct
  decide

end Dragonfly.RowBounds
