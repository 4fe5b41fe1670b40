import Dragonfly.DomainFeatures
import Dragonfly.Fields

/-!
# What `transform` computes

The helpers of `transform` in terms of their arguments: `csplit` splits at the dots,
`countAllChars` leaves a tally of its string, `parse` picks labels from the end of the
domain. With them a call of `transform` returns a row that depends on the domain and on the
two percentages its global variables hold, and on nothing else they hold.
-/

namespace Dragonfly.DomainRows

open Config DomainFeatures Fields Tallies

/-! ## Labels -/

/-- One more label, where the loop has filled a table up to `n`. -/
theorem split_step_label (ret : List (List Byte)) {w : List Byte} (label : w ≠ []) :
    csplitStep (ret, ret.length + 1) w = (ret ++ [w], ret.length + 1) := by
  simp [csplitStep, label]

/-- The blank behind a label finds the place of the label taken, so it stores nothing and moves
the index on. -/
theorem split_step_blank (ret : List (List Byte)) (w : List Byte) :
    csplitStep (ret ++ [w], ret.length + 1) [] = (ret ++ [w], ret.length + 2) := by
  simp [csplitStep]

/-- A blank without a label in front of it stores itself as the empty label and moves the index
on. -/
theorem split_step_empty (ret : List (List Byte)) :
    csplitStep (ret, ret.length + 1) [] = (ret ++ [[]], ret.length + 2) := by
  simp [csplitStep]

/-- A run and the blank behind it make one label. -/
theorem split_run (ret : List (List Byte)) (run : List Byte) (more : List (List Byte)) :
    ((if run = [] then [] else [run]) ++ [] :: more).foldl csplitStep (ret, ret.length + 1) =
      more.foldl csplitStep (ret ++ [run], (ret ++ [run]).length + 1) := by
  by_cases blank : run = []
  · subst blank
    simp [split_step_empty]
  · simp [blank, split_step_label ret blank, split_step_blank]

/-- An empty run is no part of the first label. -/
theorem empty_run (labels : List (List Byte)) : labels.modifyHead ([] ++ ·) = labels := by
  cases labels <;> rfl

/-- The loop of `csplit` behind a run of characters: it stores the run together with what comes
before the next separator, and behind it the other labels. -/
theorem split_loop (sep : Byte) (ret : List (List Byte)) (run rest : List Byte) :
    (gmatch sep run rest).foldl csplitStep (ret, ret.length + 1) =
      (ret ++ (rest.splitOn sep).modifyHead (run ++ ·),
        (ret ++ (rest.splitOn sep).modifyHead (run ++ ·)).length + 1) := by
  induction rest generalizing ret run with
  | nil =>
    rw [gmatch, split_run]
    simp
  | cons byte rest inductionHypothesis =>
    by_cases separator : byte = sep
    · subst separator
      rw [gmatch, if_pos rfl, split_run, inductionHypothesis, empty_run, split_separator]
      simp
    · have joined : ∀ labels : List (List Byte),
          labels.modifyHead (run ++ [byte] ++ ·) =
            (labels.modifyHead (byte :: ·)).modifyHead (run ++ ·) := by
        intro labels
        cases labels <;> simp
      rw [gmatch, if_neg separator, inductionHypothesis, split_other rest separator, joined]

/-- The function `csplit` splits a string at every separator, and counts the labels. -/
theorem csplit_splits (str : List Byte) (sep : Byte) :
    csplit str sep = ⟨str.splitOn sep, (str.splitOn sep).length⟩ := by
  have split : (gmatch sep [] str).foldl csplitStep ([], 1) =
      (str.splitOn sep, (str.splitOn sep).length + 1) := by
    have loop := split_loop sep [] [] str
    rw [empty_run] at loop
    simpa using loop
  rw [csplit, split]
  rfl

/-! ## Counts -/

/-- The table `countAllChars` leaves for a string: its characters with their counts, in the
order in which they first occur. -/
def tableOf (s : List Byte) : CountTable := ⟨s.foldl record [], some s.dedup.length⟩

/-- The table of a string counts its characters: each one that occurs has one entry, with the
number of its occurrences. -/
theorem table_counts (s : List Byte) : Counts s (tableOf s).chars := by
  have extended : ∀ (seen : List Byte) (table : List (Byte × Nat)), Counts seen table →
      Counts (seen ++ s) (s.foldl record table) := by
    induction s with
    | nil => intro seen table counts; simpa using counts
    | cons byte rest inductionHypothesis =>
      intro seen table counts
      simpa using inductionHypothesis (seen ++ [byte]) _ (counts.record byte)
  exact extended [] [] counts_nil

/-- One round of `countAllChars` records a character, and counts the first of its kind. -/
theorem count_step_records (globals : Counting) (currChar : Byte)
    (sized : globals.numDistinctChars = globals.charCounts.chars.length) :
    (countStep globals currChar).charCounts =
        ⟨record globals.charCounts.chars currChar, globals.charCounts.distinct⟩ ∧
      (countStep globals currChar).numDistinctChars =
        (record globals.charCounts.chars currChar).length := by
  have keys := congrArg List.length
    (keys_store currChar ((globals.charCounts.chars.lookup currChar).getD 0 + 1)
      globals.charCounts.chars)
  rw [List.length_map] at keys
  cases found : globals.charCounts.chars.lookup currChar with
  | some count =>
    have known : currChar ∈ globals.charCounts.chars.map Prod.fst :=
      (mem_keys_iff _ _).mpr (by rw [found]; rfl)
    rw [if_pos known, List.length_map, ← sized] at keys
    rw [record, keys]
    simp [countStep, found]
  | none =>
    have fresh : currChar ∉ globals.charCounts.chars.map Prod.fst := by
      rw [mem_keys_iff, found]
      exact Bool.false_ne_true
    rw [if_neg fresh, List.length_append, List.length_map, ← sized] at keys
    rw [record, keys]
    simp [countStep, found]

/-- The loop of `countAllChars` records all characters in the table, and the number of different
characters is that of the entries. -/
theorem count_loop_records (s : List Byte) (globals : Counting)
    (sized : globals.numDistinctChars = globals.charCounts.chars.length) :
    (s.foldl countStep globals).charCounts.chars = s.foldl record globals.charCounts.chars ∧
      (s.foldl countStep globals).numDistinctChars =
        (s.foldl record globals.charCounts.chars).length := by
  induction s generalizing globals with
  | nil => exact ⟨rfl, sized⟩
  | cons byte rest inductionHypothesis =>
    obtain ⟨table, counted⟩ := count_step_records globals byte sized
    have chars := congrArg CountTable.chars table
    have looped := inductionHypothesis (countStep globals byte) (counted.trans (by rw [chars]))
    rw [chars] at looped
    exact looped

/-- The function `countAllChars` leaves the table of its string, whatever its global variables
held before. -/
theorem count_all_chars_counts (s : List Byte) (globals : Counting) :
    (countAllChars s globals).charCounts = tableOf s := by
  obtain ⟨chars, counted⟩ := count_loop_records s
    { globals with charCounts := ⟨[], none⟩, numDistinctChars := 0 } rfl
  have size : (s.foldl record []).length = s.dedup.length := (table_counts s).size
  rw [countAllChars, tableOf, ← size]
  dsimp only
  rw [chars, counted]

/-- The function `countDigits` counts the digits from one to nine in the string of the table. -/
theorem count_digits_counts (s : List Byte) :
    countDigits (tableOf s) = s.countP fun byte => decide (byte ∈ countedDigits) := by
  have looped : ∀ (digits : List Byte) (total : Nat),
      digits.foldl (digitStep (tableOf s)) total = total + (digits.map s.count).sum := by
    intro digits
    induction digits with
    | nil => intro total; rfl
    | cons digit rest inductionHypothesis =>
      intro total
      have stepped : digitStep (tableOf s) total digit = total + s.count digit := by
        rw [digitStep, (table_counts s).counted]
        by_cases occurs : digit ∈ s
        · simp [occurs]
        · simp [occurs, List.count_eq_zero.mpr occurs]
      rw [List.foldl_cons, stepped, inductionHypothesis, List.map_cons, List.sum_cons,
        Nat.add_assoc]
  rw [countDigits, looped, sum_counts s countedDigits (by decide), Nat.zero_add]

/-- The function `countChar` counts a character in the string of the table. -/
theorem count_char_counts (s : List Byte) (char : Byte) :
    countChar (tableOf s) char = s.count char :=
  (table_counts s).found char

/-! ## Entropy -/

/-- An entry that `pairs` visits counts a character of the string. -/
theorem visited_counts {s : List Byte} (traversal : Traversal) {entry : Byte × Nat}
    (visited : entry ∈ traversal.pairs (tableOf s).chars) : 0 < entry.2 ∧ entry.2 ≤ s.length := by
  have listed := (traversal.permuted (tableOf s).chars).mem_iff.mp visited
  obtain ⟨known, counted⟩ := (table_counts s).entry listed
  rw [counted]
  exact ⟨List.count_pos_iff.mpr known, List.count_le_length⟩

section Entropy

variable (runtime : Runtime)

/-- The fractions of a string of this length that its characters are, in the order in which
`pairs` visits the entries of its table. -/
def fractionsOf (strLength : Nat) (charCounts : CountTable) : List Number :=
  (runtime.pairs charCounts.chars).map fun entry =>
    runtime.divide (.ofCount entry.2) (.ofCount strLength)

/-- What a character with this fraction adds to the entropy. -/
def contribution (fraction : Number) : Number :=
  runtime.times fraction (runtime.divide (runtime.log fraction) (runtime.log (.ofCount 2)))

/-- What these fractions add to the entropy one after the other. -/
def contributions (start : Number) (fractions : List Number) : Number :=
  (fractions.map (contribution runtime)).foldl runtime.plus start

/-- The Shannon entropy of these fractions: their contributions added up, with the sign changed. -/
def shannonOf (fractions : List Number) : Number :=
  runtime.times (contributions runtime (.ofCount 0) fractions) (some (-1))

/-- The metric entropy of a string: the Shannon entropy of its fractions, divided by its length. -/
def entropyOf (s : List Byte) : Number :=
  runtime.divide (shannonOf runtime (fractionsOf runtime s.length (tableOf s))) (.ofCount s.length)

/-- The loop of `shannonEntropy` adds up the contributions of the fractions. -/
theorem entropy_loop_adds (chars : List (Byte × Nat)) (globals : Entropy) :
    (chars.foldl (entropyStep runtime) globals).strLength = globals.strLength ∧
      (chars.foldl (entropyStep runtime) globals).entropy =
        contributions runtime globals.entropy (chars.map fun entry =>
          runtime.divide (.ofCount entry.2) (.ofCount globals.strLength)) := by
  induction chars generalizing globals with
  | nil => exact ⟨rfl, rfl⟩
  | cons entry rest inductionHypothesis =>
    exact inductionHypothesis (entropyStep runtime globals entry)

/-- `shannonEntropy` returns the Shannon entropy of the fractions, and leaves the length of
its string in `strLength`. -/
theorem shannon_entropy_returns (s : List Byte) (charCounts : CountTable) (globals : Entropy) :
    (shannonEntropy runtime s charCounts globals).1.strLength = s.length ∧
      (shannonEntropy runtime s charCounts globals).2 =
        shannonOf runtime (fractionsOf runtime s.length charCounts) := by
  obtain ⟨size, sum⟩ := entropy_loop_adds runtime (runtime.pairs charCounts.chars)
    { globals with strLength := s.length, entropy := .ofCount 0 }
  rw [shannonEntropy, shannonOf, fractionsOf]
  dsimp only
  rw [size, sum]
  exact ⟨rfl, rfl⟩

/-- The function `metricEntropy` returns the metric entropy of its string, when it is given the
table of that string. -/
theorem metric_entropy_returns (s : List Byte) (globals : Entropy) :
    (metricEntropy runtime s (tableOf s) globals).2 = entropyOf runtime s := by
  obtain ⟨size, returned⟩ := shannon_entropy_returns runtime s (tableOf s)
    { globals with strLength := s.length }
  rw [metricEntropy, entropyOf]
  dsimp only
  rw [size, returned]

end Entropy

/-! ## Parts -/

/-- The parts of a domain by its labels, the last label first. -/
def partsOf : List (List Byte) → Parts
  | [] => ⟨[], [], [], []⟩
  | [label] => ⟨[], [], [], label⟩
  | [top, second] => ⟨top, second, [], top⟩
  | top :: next :: third :: rest =>
      if top = arpa ∧ next = inAddr then ⟨[], [], [], top⟩
      else if top.length = 2 ∧ next.length ≤ 3 then
        ⟨next ++ dot :: top, third, rest.headD [], top⟩
      else ⟨top, next, third, top⟩

/-- An index counted from the end of a table, as `parse` counts, is the same place in the table
the other way round. -/
theorem index_from_end {Value : Type} (values : List Value) {place : Nat}
    (inside : place < values.length) :
    luaIndex values.reverse (values.length - place) = values[place]? := by
  have positive : values.length - place ≠ 0 := by omega
  rw [luaIndex, if_neg positive, List.getElem?_reverse (by omega)]
  congr 1
  omega

/-- The result of `parse` for a domain of at least three labels, which are given from the last
one on. -/
theorem parse_three (top next third : List Byte) (rest : List (List Byte)) (globals : Parsing) :
    (parse (top :: next :: third :: rest).reverse (rest.length + 3) globals).map Parsing.retval =
      some (partsOf (top :: next :: third :: rest)) := by
  have index := fun (place : Nat) (inside : place < rest.length + 3) =>
    index_from_end (top :: next :: third :: rest) inside
  have first : luaIndex (top :: next :: third :: rest).reverse (rest.length + 3) = some top :=
    index 0 (by omega)
  have second : luaIndex (top :: next :: third :: rest).reverse (rest.length + 2) =
      some next := index 1 (by omega)
  have behind : luaIndex (top :: next :: third :: rest).reverse (rest.length + 1) =
      some third := index 2 (by omega)
  by_cases reverse : top = arpa ∧ next = inAddr
  · obtain ⟨rfl, rfl⟩ := reverse
    simp [parse, partsOf, first, second, -List.reverse_cons]
  · by_cases compound : top.length = 2 ∧ next.length ≤ 3
    · by_cases more : 0 < rest.length
      · have farther : luaIndex (top :: next :: third :: rest).reverse rest.length =
            some (rest.headD []) := by
          cases rest with
          | nil => exact absurd more (Nat.lt_irrefl 0)
          | cons fourth others => exact index 3 (by simp)
        simp [parse, partsOf, first, second, behind, farther, reverse, compound, more,
          -List.reverse_cons]
      · have ended : rest.headD [] = [] := by
          cases rest with
          | nil => rfl
          | cons fourth others => exact absurd (Nat.zero_lt_succ _) more
        simp [parse, partsOf, first, second, behind, ended, reverse, compound, more,
          -List.reverse_cons, -List.headD_eq_head?_getD]
    · simp [parse, partsOf, first, second, behind, reverse, compound, -List.reverse_cons]

/-- The function `parse` picks the parts from the end of the domain: how many labels the domain
has in front of them does not matter. -/
theorem parse_picks (labels : List (List Byte)) (globals : Parsing) (nonempty : labels ≠ []) :
    (parse labels.reverse labels.length globals).map Parsing.retval = some (partsOf labels) := by
  match labels, nonempty with
  | [label], _ => rfl
  | [top, second], _ => rfl
  | top :: next :: third :: rest, _ => exact parse_three top next third rest globals

/-! ## Rows -/

/-- The labels of a domain, the last one first, as `parse` reads them from the end. -/
def labels (domain : List Byte) : List (List Byte) := (domain.splitOn dot).reverse

/-- The parts of a domain: its top-level domain, the labels of second and third level, and the
last label. -/
def domainParts (domain : List Byte) : Parts := partsOf (labels domain)

/-- The parts of a domain are the ones that are found by running `csplit` on it. -/
theorem domain_parts_csplit (domain : List Byte) :
    domainParts domain = partsOf (csplit domain dot).parts.reverse := by
  rw [csplit_splits, domainParts, labels]

/-- How many different characters a domain has, its dots included. -/
def distinctChars (domain : List Byte) : Nat := domain.dedup.length

/-- How many characters of a domain are digits from one to nine. -/
def digitCount (domain : List Byte) : Nat :=
  domain.countP fun byte => decide (byte ∈ countedDigits)

/-- The two percentages among the global variables, the only ones a later call may still show. -/
def percentages (globals : Globals) : Option Number × Option Number :=
  (globals.percentDistinct, globals.percentDigits)

/-- The percentages behind a call for a domain that found these: they are set only where the
second-level label is not empty. -/
def percentagesAfter (runtime : Runtime) (domain : List Byte)
    (held : Option Number × Option Number) : Option Number × Option Number :=
  if 0 < (domainParts domain).second.length then
    (some (runtime.divide (.ofCount (distinctChars domain))
        (.ofCount (domainParts domain).second.length)),
      some (runtime.divide (.ofCount (digitCount domain))
        (.ofCount (domainParts domain).second.length)))
  else held

/-- The row of a domain when the two percentages have these values at its end. -/
def rowOf (runtime : Runtime) (domain : List Byte)
    (shown : Option Number × Option Number) : List Number :=
  labelEntries domain (labels domain).length (domainParts domain) ++
    countEntries (distinctChars domain) (digitCount domain) (domain.count dash)
      (domainParts domain) shown.1 shown.2 ++
    [entropyOf runtime domain]

/-- Every domain has at least one label, be it an empty one. -/
theorem labels_nonempty (domain : List Byte) : labels domain ≠ [] := by
  rw [labels, ne_eq, List.reverse_eq_nil_iff]
  exact List.splitOnP_ne_nil _ _

/-- What a call of `transform` for a domain leaves in the variables it sets. -/
structure Leaves (domain : List Byte) (after : Globals) : Prop where
  lowerdomain : after.lowerdomain = domain
  parts : after.parts = domainParts domain
  fullCharCounts : after.fullCharCounts = tableOf domain

/-- A call of `transform` computes the row of its domain. -/
theorem transform_computes (runtime : Runtime) (domain : List Byte) (globals : Globals) :
    ∃ after, transform runtime domain globals =
        some (after, rowOf runtime domain (percentagesAfter runtime domain (percentages globals))) ∧
      percentages after = percentagesAfter runtime domain (percentages globals) ∧
      Leaves domain after := by
  obtain ⟨parsing, parsed, picked⟩ := Option.map_eq_some_iff.mp
    (parse_picks (labels domain) globals.parsing (labels_nonempty domain))
  have split : csplit domain dot = ⟨(labels domain).reverse, (labels domain).length⟩ := by
    rw [csplit_splits, labels, List.reverse_reverse, List.length_reverse]
  have full : ∀ counting, (countAllChars domain counting).charCounts = tableOf domain :=
    count_all_chars_counts domain
  have distinct : (tableOf domain).distinct = some (distinctChars domain) := rfl
  have entropy := metric_entropy_returns runtime domain globals.entropy
  simp only [transform, split, parsed, full, distinct, count_digits_counts, count_char_counts,
    picked, Option.bind_eq_bind, Option.bind_some, setPercentages]
  by_cases filled : 0 < (partsOf (labels domain)).second.length
  · have left : percentagesAfter runtime domain (percentages globals) = _ := if_pos filled
    rw [rowOf, left, ← entropy, if_pos filled]
    exact ⟨_, rfl, rfl, rfl, rfl, rfl⟩
  · have left : percentagesAfter runtime domain (percentages globals) = _ := if_neg filled
    rw [rowOf, left, ← entropy, if_neg filled]
    exact ⟨_, rfl, rfl, rfl, rfl, rfl⟩

/-- A call of `transform` returns the row of its domain with the percentages it leaves; of
all global variables only these two matter. -/
theorem transform_row (runtime : Runtime) (domain : List Byte) (globals : Globals) :
    ∃ after, transform runtime domain globals =
        some (after, rowOf runtime domain (percentagesAfter runtime domain (percentages globals))) ∧
      percentages after = percentagesAfter runtime domain (percentages globals) := by
  obtain ⟨after, returned, held, _⟩ := transform_computes runtime domain globals
  exact ⟨after, returned, held⟩

end Dragonfly.DomainRows
