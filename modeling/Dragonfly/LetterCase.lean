import Dragonfly.CharacterCounts
import Dragonfly.SectorFlags
import Dragonfly.DomainLabels
import Mathlib.Data.Rat.Encodable

/-!
# Letter case

`transform` puts its argument into `lowerdomain` as it is. Digits, dashes, dots and with
them the lengths of all labels do not depend on the case of letters. The number of different
characters does, and so does every comparison with a name: those that tell a reverse name,
the sectors and the top-level domains.

Where none of these tells a domain and that in lower case apart, the tables of both hold the
same counts, under other keys. `shannonEntropy` adds up in the order in which `pairs` visits
the entries, and that order depends on the keys. A sum that is rounded depends on the order,
so the rows are the same when the counts come in the same order, and need not be otherwise.
-/

namespace Dragonfly.LetterCase

open CharacterCounts Config DomainFeatures DomainLabels DomainRows DoubleRounding Fields
  RowBounds SectorFlags Tallies

/-- A text with its letters in lower case, as `tolower` makes them; all other bytes stay as they
are. -/
def lower (text : List Byte) : List Byte := text.map toLower

/-- The names of top-level domains that `transform` compares with, each of which has an entry of
the row. -/
def suffixNames : List (List Byte) :=
  [bytesOf "com", bytesOf "net", bytesOf "org", bytesOf "info", bytesOf "biz"]

/-- No comparison tells a domain from the one in lower case: no letter occurs in it in both
cases, it is a reverse name if that one is, a label begins with the name of a sector if one
of that one does, and its top-level domain is one of the five if that of the other one is. -/
structure CaseFree (domain : List Byte) : Prop where
  letters : Set.InjOn toLower {byte | byte ∈ domain}
  reverse : Reverse (csplit (lower domain) dot) → Reverse (csplit domain dot)
  edu : Started eduNames (lower domain) → Started eduNames domain
  gov : Started govNames (lower domain) → Started govNames domain
  suffix : ∀ name ∈ suffixNames, (domainParts (lower domain)).tld = name →
    (domainParts domain).tld = name

/-- `pairs` visits the same counts in the same order in the tables of the two domains. -/
def SameCounts (traversal : Traversal) (domain : List Byte) : Prop :=
  (traversal.pairs (tableOf (lower domain)).chars).map Prod.snd =
    (traversal.pairs (tableOf domain).chars).map Prod.snd

/-- Doubles that are added the other way round may give another sum. -/
example : contributions (doubleRuntime (fun _ => some 1) .stored) (some 0)
      [rounded (1 / 10), rounded (1 / 5), rounded (3 / 10)] ≠
    contributions (doubleRuntime (fun _ => some 1) .stored) (some 0)
      [rounded (3 / 10), rounded (1 / 5), rounded (1 / 10)] := by
  decide +kernel

/-- Calls for a domain and for that in lower case return the same row. -/
def SameRows (runtime : Runtime) (domain : List Byte) (globals : Globals) : Prop :=
  ∃ after lowerAfter row, transform runtime domain globals = some (after, row) ∧
    transform runtime (lower domain) globals = some (lowerAfter, row)

/-! ## Characters -/

/-- A character in front of the letters is no lower-case letter. -/
theorem to_lower_mark {mark : Byte} (front : mark.toNat < 65) (byte : Byte) :
    toLower byte = mark ↔ byte = mark := by
  rw [← UInt8.toNat_inj, ← UInt8.toNat_inj, to_lower_value]
  split
  · omega
  · rfl

/-- The digits from one to nine and no other characters are put into digits by `tolower`. -/
theorem to_lower_digit (byte : Byte) : nonzero (toLower byte) = nonzero byte := by
  rw [Bool.eq_iff_iff]
  simp only [nonzero, decimal, zero, UInt8.le_iff_toNat_le, ← UInt8.toNat_inj, ne_eq,
    to_lower_value, UInt8.reduceToNat, decide_eq_true_iff]
  split
  · omega
  · rfl

/-- A domain in lower case has as many digits as before, as far as `countDigits` counts them. -/
theorem lower_digits (domain : List Byte) : digitCount (lower domain) = digitCount domain := by
  rw [digit_count_nonzero, digit_count_nonzero, lower, List.countP_map]
  exact List.countP_congr fun byte _ => by rw [Function.comp_apply, to_lower_digit]

/-- A domain in lower case has as many dashes as before. -/
theorem lower_dashes (domain : List Byte) : (lower domain).count dash = domain.count dash := by
  rw [List.count_eq_countP, lower, List.countP_map]
  apply List.countP_congr
  intro byte _
  rw [Function.comp_apply, beq_iff_eq, beq_iff_eq]
  exact to_lower_mark (by decide) byte

/-- The table of a domain in lower case has the same counts under keys in lower case, if no
letter is there in both cases. -/
theorem lower_table {domain : List Byte}
    (letters : Set.InjOn toLower {byte | byte ∈ domain}) :
    (tableOf (lower domain)).chars = renamed toLower (tableOf domain).chars := by
  have nothing : ∀ entry ∈ ([] : List (Byte × Nat)), entry.1 ∈ {byte | byte ∈ domain} :=
    List.forall_mem_nil _
  exact tally_renamed letters (fun _ => id) nothing

/-- A domain in lower case has as many different characters as before exactly if it has no
letter in both cases. -/
theorem lower_distinct_iff (domain : List Byte) :
    distinctChars (lower domain) = distinctChars domain ↔
      Set.InjOn toLower {byte | byte ∈ domain} :=
  distinct_renamed_iff toLower domain

/-! ## Entropy -/

/-- The tables of the two domains hold the same counts. -/
theorem lower_counts {domain : List Byte} (letters : Set.InjOn toLower {byte | byte ∈ domain}) :
    (tableOf (lower domain)).chars.map Prod.snd = (tableOf domain).chars.map Prod.snd := by
  rw [lower_table letters, renamed, List.map_map]
  rfl

/-- The order of the counts is that of the fractions. -/
theorem fractions_counted (runtime : Runtime) (strLength : Nat) (charCounts : CountTable) :
    fractionsOf runtime strLength charCounts =
      ((runtime.pairs charCounts.chars).map Prod.snd).map fun count =>
        runtime.divide (.ofCount count) (.ofCount strLength) := by
  rw [fractionsOf, List.map_map]
  rfl

/-- The entropy of counts in the same order is the same. -/
theorem same_counts_entropy (runtime : Runtime) {domain : List Byte}
    (same : SameCounts runtime.toTraversal domain) :
    entropyOf runtime (lower domain) = entropyOf runtime domain := by
  rw [entropyOf, entropyOf, fractions_counted, fractions_counted, same, lower, List.length_map]

/-- An exact sum does not depend on the order of two numbers. -/
theorem plus_right_comm (sum left right : Number) :
    (sum.plus left).plus right = (sum.plus right).plus left := by
  cases sum with
  | none => rfl
  | some x =>
    cases left with
    | none => cases right <;> rfl
    | some y =>
      cases right with
      | none => rfl
      | some z => exact congrArg some (add_right_comm x y z)

/-- Without rounding, the entropy does not depend on the order of the counts. -/
theorem exact_entropy (log : Number → Number) (traversal : Traversal) {domain : List Byte}
    (letters : Set.InjOn toLower {byte | byte ∈ domain}) :
    entropyOf (exactRuntime log traversal) (lower domain) =
      entropyOf (exactRuntime log traversal) domain := by
  have counts : ((traversal.pairs (tableOf (lower domain)).chars).map Prod.snd).Perm
      ((traversal.pairs (tableOf domain).chars).map Prod.snd) :=
    calc ((traversal.pairs (tableOf (lower domain)).chars).map Prod.snd).Perm
          ((tableOf (lower domain)).chars.map Prod.snd) := (traversal.permuted _).map _
      _ = (tableOf domain).chars.map Prod.snd := lower_counts letters
      List.Perm _ ((traversal.pairs (tableOf domain).chars).map Prod.snd) :=
        ((traversal.permuted _).map _).symm
  have length : (lower domain).length = domain.length := List.length_map _
  have summed := ((counts.map fun count => Number.over (.ofCount count)
    (.ofCount domain.length)).map (contribution (exactRuntime log traversal))).foldl_eq'
      (fun left _ right _ sum => plus_right_comm sum left right) (.ofCount 0)
  rw [entropyOf, entropyOf, fractions_counted, fractions_counted, length, shannonOf, shannonOf,
    contributions, contributions]
  exact congrArg (fun sum => Number.over (sum.times (some (-1))) (.ofCount domain.length)) summed

/-- An arithmetic whose sums tell what was added, and in which order. -/
def recording : Arithmetic where
  plus left right := some (Encodable.encode (left, right) : Nat)
  times left _ := left
  divide left _ := left
  log number := number

/-- Sums that tell what was added are the same for the same numbers only. -/
theorem recorded_same {first second : List Number} (length : first.length = second.length)
    {start other : Number}
    (same : first.foldl recording.plus start = second.foldl recording.plus other) :
    start = other ∧ first = second := by
  induction first generalizing second start other with
  | nil =>
    obtain rfl := List.length_eq_zero_iff.mp length.symm
    exact ⟨same, rfl⟩
  | cons number rest inductionHypothesis =>
    obtain ⟨counterpart, others, rfl⟩ := List.exists_cons_of_length_eq_add_one length.symm
    obtain ⟨sums, rests⟩ := inductionHypothesis (Nat.succ.inj length) same
    have encoded : Encodable.encode (start, number) = Encodable.encode (other, counterpart) :=
      Nat.cast_injective (Option.some.inj sums)
    obtain ⟨starts, numbers⟩ := Prod.mk.inj (Encodable.encode_injective encoded)
    exact ⟨starts, by rw [numbers, rests]⟩

/-- Where those sums are the same, the counts come in the same order. -/
theorem recorded_counts (traversal : Traversal) {domain : List Byte}
    (letters : Set.InjOn toLower {byte | byte ∈ domain})
    (same : entropyOf ⟨recording, traversal⟩ (lower domain) =
      entropyOf ⟨recording, traversal⟩ domain) : SameCounts traversal domain := by
  have counted (s : List Byte) : entropyOf ⟨recording, traversal⟩ s =
      (((traversal.pairs (tableOf s).chars).map Prod.snd).map Number.ofCount).foldl
        recording.plus (.ofCount 0) := by
    rw [entropyOf, fractions_counted, shannonOf, contributions, List.map_map]
    rfl
  have size : (tableOf (lower domain)).chars.length = (tableOf domain).chars.length := by
    have lengths := congrArg List.length (lower_counts letters)
    rwa [List.length_map, List.length_map] at lengths
  rw [counted, counted] at same
  have injective : Function.Injective Number.ofCount :=
    fun left right numbers => Nat.cast_injective (Option.some.inj numbers)
  refine (List.map_injective_iff.mpr injective) (recorded_same ?_ same).2
  rw [List.length_map, List.length_map, List.length_map, List.length_map,
    (traversal.permuted _).length_eq, (traversal.permuted _).length_eq, size]

/-! ## Labels -/

/-- The labels of a domain in lower case are its labels, each in lower case. -/
theorem lower_labels (domain : List Byte) : labels (lower domain) = (labels domain).map lower := by
  rw [labels, labels, lower, split_map toLower (to_lower_mark (by decide)), List.map_reverse]
  rfl

/-- The parts of a domain with each of them in lower case. -/
def lowerParts (parts : Parts) : Parts :=
  ⟨lower parts.tld, lower parts.second, lower parts.third, lower parts.last⟩

/-- A text in lower case has the length it had, so no length of a label depends on the case of
letters. -/
theorem lower_length (text : List Byte) : (lower text).length = text.length := List.length_map _

/-- `parse` of the labels in lower case finds the parts in lower case, unless only these are
a reverse name. -/
theorem lower_parts {labels : List (List Byte)}
    (same : Reverse (splitsOf (labels.map lower)) → Reverse (splitsOf labels)) :
    partsOf (labels.map lower) = lowerParts (partsOf labels) := by
  fun_cases partsOf labels with
  | case1 => rfl
  | case2 label => rfl
  | case3 top second => rfl
  | case4 top next third rest reverse =>
    obtain ⟨rfl, rfl⟩ := reverse
    rfl
  | case5 top next third rest forward compound =>
    have still : ¬ (lower top = arpa ∧ lower next = inAddr) := fun reverse =>
      forward ((reverse_iff _ _ _ _).mp (same ((reverse_iff _ _ _ _).mpr reverse)))
    have first : (rest.map lower).headD [] = lower (rest.headD []) := by cases rest <;> rfl
    simp only [List.map_cons, partsOf, if_neg still, lower_length, if_pos compound, first]
    simp [lowerParts, lower]
    decide
  | case6 top next third rest forward single =>
    have still : ¬ (lower top = arpa ∧ lower next = inAddr) := fun reverse =>
      forward ((reverse_iff _ _ _ _).mp (same ((reverse_iff _ _ _ _).mpr reverse)))
    simp only [List.map_cons, partsOf, if_neg still, lower_length, if_neg single]
    rfl

/-- The labels behind the first one, of a domain in lower case, are those of the domain, each in
lower case. -/
theorem lower_behind_first (domain : List Byte) :
    behindFirst (lower domain) = (behindFirst domain).map lower := by
  rw [behindFirst, behindFirst, csplit_splits, csplit_splits, lower,
    split_map toLower (to_lower_mark (by decide)), List.map_tail]
  rfl

/-- A label that begins with a name in lower case does so in lower case. -/
theorem lower_started {names : List (List Byte)} {domain : List Byte}
    (plain : ∀ name ∈ names, lower name = name) (started : Started names domain) :
    Started names (lower domain) := by
  obtain ⟨name, named, label, behind, begins⟩ := started
  refine ⟨name, named, lower label, ?_, ?_⟩
  · rw [lower_behind_first]
    exact List.mem_map_of_mem behind
  · have lowered := begins.map toLower
    rwa [← lower, plain name named] at lowered

/-! ## Rows -/

section Rows

variable {runtime : Runtime} {domain : List Byte} {held : Option Number × Option Number}

/-- The parts of a domain in lower case are its own parts in lower case, where no comparison of
`parse` depends on the case. -/
theorem CaseFree.parts (free : CaseFree domain) :
    domainParts (lower domain) = lowerParts (domainParts domain) := by
  have reverse := free.reverse
  rw [csplit_labels, csplit_labels, lower_labels] at reverse
  rw [domainParts, lower_labels]
  exact lower_parts reverse

/-- The entries about the labels are the same for the domain in lower case, where no comparison
depends on the case. -/
theorem CaseFree.label_entries (free : CaseFree domain) :
    labelEntries (lower domain) (labels (lower domain)).length (domainParts (lower domain)) =
      labelEntries domain (labels domain).length (domainParts domain) := by
  have suffix : ∀ name ∈ suffixNames,
      Number.flag ((domainParts (lower domain)).tld = name) =
        Number.flag ((domainParts domain).tld = name) := by
    intro name listed
    have plain : lower name = name := by
      revert name
      decide
    refine (flags_same_iff _ _).mpr ⟨free.suffix name listed, fun same => ?_⟩
    rw [free.parts, lowerParts, same, plain]
  have edu : Number.flag (bytesOf ".edu" <:+: lower domain) =
      Number.flag (bytesOf ".edu" <:+: domain) := by
    rw [flags_same_iff, edu_search_iff, edu_search_iff]
    exact ⟨free.edu, lower_started (by decide)⟩
  have gov : Number.flag (bytesOf ".gov" <:+: lower domain ∨ bytesOf ".govt" <:+: lower domain ∨
      bytesOf ".gouv" <:+: lower domain) = Number.flag (bytesOf ".gov" <:+: domain ∨
      bytesOf ".govt" <:+: domain ∨ bytesOf ".gouv" <:+: domain) := by
    rw [flags_same_iff, gov_search_iff, gov_search_iff]
    exact ⟨free.gov, lower_started (by decide)⟩
  simp only [suffixNames, List.forall_mem_cons] at suffix
  obtain ⟨com, net, org, info, biz, _⟩ := suffix
  rw [labelEntries, labelEntries, com, net, org, info, biz, edu, gov, free.parts, lower_labels]
  simp only [lowerParts, lower_length, List.length_map]

/-- The percentages behind a call are the same for the domain in lower case, where the counts do
not depend on the case. -/
theorem CaseFree.percentages (free : CaseFree domain) :
    percentagesAfter runtime (lower domain) held = percentagesAfter runtime domain held := by
  have distinct := (lower_distinct_iff domain).mpr free.letters
  rw [percentagesAfter, percentagesAfter, free.parts, lowerParts, lower_length, distinct,
    lower_digits]

/-- The row is the same for the domain in lower case, where no comparison and no count depends
on the case, if the entropy is the same. -/
theorem CaseFree.row (free : CaseFree domain)
    (entropy : entropyOf runtime (lower domain) = entropyOf runtime domain) :
    rowOf runtime (lower domain) (percentagesAfter runtime (lower domain) held) =
      rowOf runtime domain (percentagesAfter runtime domain held) := by
  have distinct := (lower_distinct_iff domain).mpr free.letters
  have counted : countEntries (distinctChars (lower domain)) (digitCount (lower domain))
      ((lower domain).count dash) (domainParts (lower domain)) =
        countEntries (distinctChars domain) (digitCount domain) (domain.count dash)
          (domainParts domain) := by
    rw [distinct, lower_digits, lower_dashes, free.parts]
    funext shownDistinct shownDigits
    simp only [countEntries, lowerParts, lower_length]
  rw [rowOf, rowOf, free.label_entries, counted, free.percentages, entropy]

end Rows

/-- A name that is a reverse name only in lower case has a top-level domain otherwise. -/
theorem capital_reverse {labels : List (List Byte)}
    (reverse : Reverse (splitsOf (labels.map lower))) (forward : ¬ Reverse (splitsOf labels)) :
    (partsOf (labels.map lower)).tld.length ≠ (partsOf labels).tld.length := by
  rcases labels with _ | ⟨top, _ | ⟨next, _ | ⟨third, rest⟩⟩⟩
  · exact absurd reverse forward
  · simp [Reverse, splitsOf] at reverse
  · simp [Reverse, splitsOf] at reverse
  · have both : lower top = arpa ∧ lower next = inAddr := (reverse_iff _ _ _ _).mp reverse
    have size : top.length = 4 := by
      rw [← lower_length, both.1]
      rfl
    have apart : ¬ (top = arpa ∧ next = inAddr) := forward ∘ (reverse_iff _ _ _ _).mpr
    simp [partsOf, both, apart, size]

section Rows

variable {runtime : Runtime} {domain : List Byte} {held shown : Option Number × Option Number}

/-- Rows that are the same show no difference between a domain and that in lower case. -/
theorem same_row_free (same : rowOf runtime (lower domain) held = rowOf runtime domain shown) :
    CaseFree domain := by
  have entries (index : Nat) : entry (rowOf runtime (lower domain) held) index =
      entry (rowOf runtime domain shown) index := by rw [same]
  have lengths : (domainParts (lower domain)).tld.length = (domainParts domain).tld.length :=
    (counts_same_iff _ _).mp (entries 2)
  constructor
  · exact (lower_distinct_iff domain).mp ((counts_same_iff _ _).mp (entries 15))
  · intro reverse
    rw [csplit_labels, lower_labels] at reverse
    rw [csplit_labels]
    by_contra forward
    rw [domainParts, domainParts, lower_labels] at lengths
    exact capital_reverse reverse forward lengths
  · exact fun started => (edu_search_iff domain).mp
      (((flags_same_iff _ _).mp (entries 8)).mp ((edu_search_iff _).mpr started))
  · exact fun started => (gov_search_iff domain).mp
      (((flags_same_iff _ _).mp (entries 9)).mp ((gov_search_iff _).mpr started))
  · simp only [suffixNames, List.forall_mem_cons]
    exact ⟨((flags_same_iff _ _).mp (entries 10)).mp, ((flags_same_iff _ _).mp (entries 11)).mp,
      ((flags_same_iff _ _).mp (entries 12)).mp, ((flags_same_iff _ _).mp (entries 13)).mp,
      ((flags_same_iff _ _).mp (entries 14)).mp, List.forall_mem_nil _⟩

end Rows

/-- The rows are the same exactly when no comparison tells the domain and that in lower case
apart and their entropies are the same. -/
theorem same_rows_iff (runtime : Runtime) (domain : List Byte) (globals : Globals) :
    SameRows runtime domain globals ↔
      CaseFree domain ∧ entropyOf runtime (lower domain) = entropyOf runtime domain := by
  obtain ⟨after, returned, _⟩ := transform_row runtime domain globals
  obtain ⟨lowerAfter, lowerReturned, _⟩ := transform_row runtime (lower domain) globals
  constructor
  · rintro ⟨_, _, row, first, second⟩
    rw [returned] at first
    rw [lowerReturned] at second
    cases first
    have same := (Prod.mk.inj (Option.some.inj second)).2
    have last := congrArg (fun row : List Number => row[22]?) same
    exact ⟨same_row_free same, Option.some.inj last⟩
  · rintro ⟨free, entropy⟩
    rw [free.row entropy] at lowerReturned
    exact ⟨after, lowerAfter, _, returned, lowerReturned⟩

/-- Whatever the arithmetic, `transform` returns the same row for a domain and for that domain
in lower case exactly when no comparison tells the two apart and `pairs` visits their counts
in the same order. The comparisons decide in each single arithmetic, and in the one without
rounding they alone do. -/
theorem case_free_iff (traversal : Traversal) (domain : List Byte) (globals : Globals) :
    ((∀ arithmetic, SameRows ⟨arithmetic, traversal⟩ domain globals) ↔
        CaseFree domain ∧ SameCounts traversal domain) ∧
      (∀ arithmetic, SameRows ⟨arithmetic, traversal⟩ domain globals → CaseFree domain) ∧
      ∀ log, SameRows (exactRuntime log traversal) domain globals ↔ CaseFree domain := by
  have free (arithmetic : Arithmetic) (same : SameRows ⟨arithmetic, traversal⟩ domain globals) :
      CaseFree domain := ((same_rows_iff _ domain globals).mp same).1
  refine ⟨⟨fun same => ?_, ?_⟩, free, fun log => ⟨free (exact log), fun alike => ?_⟩⟩
  · obtain ⟨alike, entropy⟩ := (same_rows_iff _ domain globals).mp (same recording)
    exact ⟨alike, recorded_counts traversal alike.letters entropy⟩
  · rintro ⟨alike, counts⟩ arithmetic
    exact (same_rows_iff _ domain globals).mpr
      ⟨alike, same_counts_entropy ⟨arithmetic, traversal⟩ counts⟩
  · exact (same_rows_iff _ domain globals).mpr
      ⟨alike, exact_entropy log traversal alike.letters⟩

/-- The tenth entry of a row is one exactly where the top-level domain is `com`, in these
letters and this case. -/
theorem com_flag_iff (runtime : Runtime) (domain : List Byte)
    (shown : Option Number × Option Number) : entry (rowOf runtime domain shown) 10 = some 1 ↔
      (domainParts domain).tld = bytesOf "com" :=
  flag_one_iff _

/-- The tenth entry of `A.COM` is not the one of `a.com`: a suffix in capital letters is missed,
in doubles as in exact numbers. -/
theorem capital_suffix_missed :
    ∃ after row lowerAfter lowerRow,
      transform (doubleRuntime id .stored) (bytesOf "A.COM") default = some (after, row) ∧
      transform (doubleRuntime id .stored) (lower (bytesOf "A.COM")) default =
        some (lowerAfter, lowerRow) ∧
      entry row 10 ≠ some 1 ∧ entry lowerRow 10 = some 1 := by
  obtain ⟨after, returned, _⟩ := transform_row (doubleRuntime id .stored) (bytesOf "A.COM") default
  obtain ⟨lowerAfter, lowerReturned, _⟩ :=
    transform_row (doubleRuntime id .stored) (lower (bytesOf "A.COM")) default
  refine ⟨after, _, lowerAfter, _, returned, lowerReturned, ?_, ?_⟩
  · rw [ne_eq, com_flag_iff, domain_parts_csplit]
    decide
  · rw [com_flag_iff, domain_parts_csplit]
    decide

end Dragonfly.LetterCase
