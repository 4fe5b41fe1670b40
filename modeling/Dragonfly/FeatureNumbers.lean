import Dragonfly.RowBounds

/-!
# The arithmetic of the features

The divisions and logarithms of a call of `transform`, each with what it is applied to. No
division or logarithm is missing from the list: a runtime with other quotients and logarithms
elsewhere computes the same row. The percentages are guarded by the length of the
second-level label. `shannonEntropy` has no division for a string without characters, but
`metricEntropy` divides by the length of its string whatever it is, so the empty domain is
the one whose last entry is not a number.
-/

namespace Dragonfly.FeatureNumbers

open Config DomainFeatures DomainRows FeatureRuns RowBounds Tallies

/-- An operation that may fail: the division by a number, or the logarithm of one. -/
inductive Operation where
  | divide (divisor : Number)
  | logarithm (argument : Number)

/-- A divisor is a number other than zero, the argument of a logarithm a positive one. -/
def Operation.Sound : Operation → Prop
  | .divide divisor => ∃ x, divisor = some x ∧ x ≠ 0
  | .logarithm argument => ∃ x, argument = some x ∧ 0 < x

/-! ## The operations of a call -/

/-- The operations of the percentages: two divisions by the length of the second-level label,
where that is positive. -/
def percentOperations (globals : Globals) : List Operation :=
  if 0 < globals.parts.second.length then
    [.divide (.ofCount globals.parts.second.length), .divide (.ofCount globals.parts.second.length)]
  else []

section Operations

variable (runtime : Runtime)

/-- The operations of a round of `shannonEntropy`: the division by the length of the string, and
the two logarithms with the division of one by the other. -/
def stepOperations (globals : Entropy) (entry : Byte × Nat) : List Operation :=
  [.divide (.ofCount globals.strLength), .logarithm (entropyStep runtime globals entry).fraction,
    .logarithm (.ofCount 2), .divide (runtime.log (.ofCount 2))]

/-- The operations of all rounds of `shannonEntropy`, over the entries of the table in the order
of `pairs`. -/
def loopOperations : List (Byte × Nat) → Entropy → List Operation
  | [], _ => []
  | entry :: rest, globals =>
      stepOperations runtime globals entry ++
        loopOperations rest (entropyStep runtime globals entry)

/-- The operations of a call of `shannonEntropy`, which are those of its rounds; it does not
divide otherwise. -/
def shannonOperations (origString : List Byte) (charCounts : CountTable) (globals : Entropy) :
    List Operation :=
  loopOperations runtime (runtime.pairs charCounts.chars)
    { globals with strLength := origString.length, entropy := .ofCount 0 }

/-- The operations of a call of `metricEntropy`: those of `shannonEntropy`, and the division by
the length of the string. -/
def metricOperations (origString : List Byte) (charCounts : CountTable) (globals : Entropy) :
    List Operation :=
  shannonOperations runtime origString charCounts
      { globals with strLength := origString.length } ++
    [.divide (.ofCount (metricEntropy runtime origString charCounts globals).1.strLength)]

/-- The operations of a call of `transform`, told from the global variables before and behind
it. -/
def operations (before after : Globals) : List Operation :=
  percentOperations after ++
    metricOperations runtime after.lowerdomain after.fullCharCounts before.entropy

end Operations

/-- What is relied on of the logarithm: a positive number has one, and that of two is a
number other than zero. -/
structure Logarithm (log : Number → Number) : Prop where
  positive : ∀ x, 0 < x → (log (some x)).isSome
  two : ∃ x, log (.ofCount 2) = some x ∧ x ≠ 0

/-! ## Completeness -/

/-- Two runtimes do the same at an operation, whatever number is divided. -/
def Operation.Same (runtime other : Runtime) : Operation → Prop
  | .divide divisor => ∀ number, other.divide number divisor = runtime.divide number divisor
  | .logarithm argument => other.log argument = runtime.log argument

/-- Two runtimes add, multiply and traverse tables in the same way, and do the same at these
operations. -/
structure Alike (runtime other : Runtime) (operations : List Operation) : Prop where
  plus : other.plus = runtime.plus
  times : other.times = runtime.times
  pairs : other.pairs = runtime.pairs
  each : ∀ operation ∈ operations, operation.Same runtime other

section Complete

variable {runtime other : Runtime}

/-- Two runtimes that are alike at the operations of a list in two parts are alike at those of
each part. -/
theorem Alike.parts {first second : List Operation}
    (alike : Alike runtime other (first ++ second)) :
    Alike runtime other first ∧ Alike runtime other second := by
  obtain ⟨front, behind⟩ := List.forall_mem_append.mp alike.each
  exact ⟨⟨alike.plus, alike.times, alike.pairs, front⟩,
    ⟨alike.plus, alike.times, alike.pairs, behind⟩⟩

/-- A round does nothing else with the quotients and logarithms of its runtime. -/
theorem step_complete {globals : Entropy} {entry : Byte × Nat}
    (alike : Alike runtime other (stepOperations runtime globals entry)) :
    entropyStep other globals entry = entropyStep runtime globals entry := by
  have each := alike.each
  simp only [stepOperations, List.forall_mem_cons, Operation.Same] at each
  obtain ⟨share, logarithm, two, constant, _⟩ := each
  have fraction : other.divide (.ofCount entry.2) (.ofCount globals.strLength) =
      (entropyStep runtime globals entry).fraction := share _
  rw [entropyStep]
  simp only [alike.plus, alike.times, fraction, logarithm, two, constant]
  rfl

/-- The rounds of `shannonEntropy` together do nothing else with the quotients and logarithms of
the runtime. -/
theorem loop_complete (chars : List (Byte × Nat)) {globals : Entropy}
    (alike : Alike runtime other (loopOperations runtime chars globals)) :
    chars.foldl (entropyStep other) globals = chars.foldl (entropyStep runtime) globals := by
  induction chars generalizing globals with
  | nil => rfl
  | cons entry rest inductionHypothesis =>
    obtain ⟨first, others⟩ := alike.parts
    rw [List.foldl_cons, step_complete first]
    exact inductionHypothesis others

/-- A call of `metricEntropy` does nothing else with the quotients and logarithms of its
runtime. -/
theorem metric_complete {origString : List Byte} {charCounts : CountTable} {globals : Entropy}
    (alike : Alike runtime other (metricOperations runtime origString charCounts globals)) :
    metricEntropy other origString charCounts globals =
      metricEntropy runtime origString charCounts globals := by
  obtain ⟨shannon, last⟩ := alike.parts
  have rounds : shannonEntropy other origString charCounts
      { globals with strLength := origString.length } =
        shannonEntropy runtime origString charCounts
          { globals with strLength := origString.length } := by
    rw [shannonEntropy, alike.pairs, alike.times]
    dsimp only
    rw [loop_complete _ shannon]
    rfl
  have divided := last.each _ List.mem_cons_self
  rw [metricEntropy]
  dsimp only
  rw [rounds]
  exact congrArg (Prod.mk _) (divided _)

/-- A call of `transform` makes no use of the quotients and logarithms of its runtime but at
its operations: a runtime that is alike at these computes the same row. -/
theorem operations_complete {domain : List Byte} {before after : Globals} {row : List Number}
    (returned : transform runtime domain before = some (after, row))
    (alike : Alike runtime other (operations runtime before after)) :
    ∃ otherAfter, transform other domain before = some (otherAfter, row) := by
  obtain ⟨_, computed, _, leaves⟩ := transform_computes runtime domain before
  obtain ⟨otherAfter, otherComputed, _⟩ := transform_computes other domain before
  rw [computed] at returned
  cases returned
  obtain ⟨percent, metric⟩ := alike.parts
  rw [leaves.lowerdomain, leaves.fullCharCounts] at metric
  have entropy : entropyOf other domain = entropyOf runtime domain := by
    rw [← metric_entropy_returns _ domain before.entropy,
      ← metric_entropy_returns _ domain before.entropy, metric_complete metric]
  have shown : percentagesAfter other domain (percentages before) =
      percentagesAfter runtime domain (percentages before) := by
    by_cases filled : 0 < (domainParts domain).second.length
    · rw [percentOperations, leaves.parts, if_pos filled] at percent
      have divided := percent.each _ List.mem_cons_self
      rw [percentagesAfter, percentagesAfter, if_pos filled, if_pos filled, divided, divided]
    · rw [percentagesAfter, percentagesAfter, if_neg filled, if_neg filled]
  rw [rowOf, entropy, shown] at otherComputed
  exact ⟨otherAfter, otherComputed⟩

end Complete

/-! ## Soundness -/

/-- A positive count can be divided by, since it is a number other than zero. -/
theorem count_divides {count : Nat} (positive : 0 < count) :
    (Operation.divide (.ofCount count)).Sound :=
  ⟨count, rfl, Nat.cast_ne_zero.mpr (Nat.ne_of_gt positive)⟩

section Sound

variable {log : Number → Number} {traversal : Traversal}

/-- The rounds over counts that are positive are sound, as long as the string has a character. -/
theorem loop_sound (logarithm : Logarithm log) (chars : List (Byte × Nat))
    (counted : ∀ entry ∈ chars, 0 < entry.2) (globals : Entropy) (filled : 0 < globals.strLength) :
    ∀ operation ∈ loopOperations (exactRuntime log traversal) chars globals,
      operation.Sound := by
  induction chars generalizing globals with
  | nil => exact List.forall_mem_nil _
  | cons entry rest inductionHypothesis =>
    obtain ⟨first, others⟩ := List.forall_mem_cons.mp counted
    have divisor : (0 : ℚ) < globals.strLength := Nat.cast_pos.mpr filled
    have fraction : (Operation.logarithm
        (entropyStep (exactRuntime log traversal) globals entry).fraction).Sound :=
      ⟨_, count_over entry.2 filled, div_pos (Nat.cast_pos.mpr first) divisor⟩
    have constant : (Operation.logarithm (.ofCount 2)).Sound := ⟨2, rfl, two_pos⟩
    have round : ∀ operation ∈ stepOperations (exactRuntime log traversal) globals entry,
        operation.Sound := by
      simp only [stepOperations, List.forall_mem_cons]
      exact ⟨count_divides filled, fraction, constant, logarithm.two, List.forall_mem_nil _⟩
    exact List.forall_mem_append.mpr
      ⟨round, inductionHypothesis others
        (entropyStep (exactRuntime log traversal) globals entry) filled⟩

/-- A call of `metricEntropy` is sound exactly for a string that is not empty. -/
theorem metric_sound_iff (logarithm : Logarithm log) (s : List Byte) (globals : Entropy) :
    (∀ operation ∈ metricOperations (exactRuntime log traversal) s (tableOf s) globals,
      operation.Sound) ↔ s ≠ [] := by
  have size : (metricEntropy (exactRuntime log traversal) s (tableOf s) globals).1.strLength =
      s.length :=
    (shannon_entropy_returns _ s (tableOf s) { globals with strLength := s.length }).1
  rw [metricOperations, List.forall_mem_append, List.forall_mem_singleton, size]
  constructor
  · rintro ⟨_, x, same, nonzero⟩ rfl
    exact nonzero (Option.some.inj same).symm
  · intro nonempty
    have filled : 0 < s.length := List.length_pos_iff.mpr nonempty
    refine ⟨loop_sound logarithm _ ?_ _ filled, count_divides filled⟩
    exact fun entry visited => (visited_counts traversal visited).1

end Sound

/-! ## Numbers -/

section Numbers

variable {log : Number → Number} {traversal : Traversal}

/-- The sum of two numbers that have a value has a value as well, in the arithmetic without
rounding. -/
theorem plus_number {left right : Number} (first : left.isSome) (second : right.isSome) :
    (left.plus right).isSome := by
  obtain ⟨x, rfl⟩ := Option.isSome_iff_exists.mp first
  obtain ⟨y, rfl⟩ := Option.isSome_iff_exists.mp second
  rfl

/-- The product of two numbers that have a value has a value as well, in the arithmetic without
rounding. -/
theorem times_number {left right : Number} (first : left.isSome) (second : right.isSome) :
    (left.times right).isSome := by
  obtain ⟨x, rfl⟩ := Option.isSome_iff_exists.mp first
  obtain ⟨y, rfl⟩ := Option.isSome_iff_exists.mp second
  rfl

/-- The quotient of a number that has a value and of a divisor that is sound has a value, in the
arithmetic without rounding. -/
theorem over_number {left right : Number} (first : left.isSome)
    (divisor : (Operation.divide right).Sound) : (left.over right).isSome := by
  obtain ⟨x, rfl⟩ := Option.isSome_iff_exists.mp first
  obtain ⟨y, rfl, nonzero⟩ := divisor
  simp [Number.over, nonzero]

/-- What a positive fraction adds to the entropy is a number. -/
theorem contribution_number (logarithm : Logarithm log) {fraction : Number} {x : ℚ}
    (known : fraction = some x) (positive : 0 < x) :
    (contribution (exactRuntime log traversal) fraction).isSome := by
  have number : fraction.isSome := by
    rw [known]
    rfl
  have factor : ((log fraction).over (log (.ofCount 2))).isSome := by
    rw [known]
    exact over_number (logarithm.positive x positive) logarithm.two
  exact times_number number factor

/-- The contributions of positive fractions, added to a number that has a value, have a value
together. -/
theorem contributions_number (logarithm : Logarithm log) (fractions : List Number)
    (shares : ∀ fraction ∈ fractions, ∃ x, fraction = some x ∧ 0 < x) {start : Number}
    (number : start.isSome) :
    (contributions (exactRuntime log traversal) start fractions).isSome := by
  induction fractions generalizing start with
  | nil => exact number
  | cons fraction rest inductionHypothesis =>
    obtain ⟨⟨x, known, positive⟩, others⟩ := List.forall_mem_cons.mp shares
    exact inductionHypothesis others
      (plus_number number (contribution_number logarithm known positive))

/-- The metric entropy of a string that is not empty is a number. -/
theorem entropy_number (logarithm : Logarithm log) {s : List Byte} (nonempty : s ≠ []) :
    (entropyOf (exactRuntime log traversal) s).isSome := by
  have filled : 0 < s.length := List.length_pos_iff.mpr nonempty
  have length : (0 : ℚ) < s.length := Nat.cast_pos.mpr filled
  have shares : ∀ fraction ∈ fractionsOf (exactRuntime log traversal) s.length (tableOf s),
      ∃ x, fraction = some x ∧ 0 < x := by
    intro fraction listed
    obtain ⟨entry, visited, rfl⟩ := List.mem_map.mp listed
    have occurs := (visited_counts traversal visited).1
    exact ⟨_, count_over entry.2 filled, div_pos (Nat.cast_pos.mpr occurs) length⟩
  have start : (Number.ofCount 0).isSome := rfl
  have sum : (contributions (exactRuntime log traversal) (.ofCount 0)
      (fractionsOf (exactRuntime log traversal) s.length (tableOf s))).isSome :=
    contributions_number logarithm _ shares start
  exact over_number (times_number sum rfl) (count_divides filled)

/-- Percentages that are numbers wherever they are set. One that is nil is shown as zero, so all
that a row shows of them are numbers. -/
structure Shown (held : Option Number × Option Number) : Prop where
  distinct : (held.1.getD (.ofCount 0)).isSome
  digits : (held.2.getD (.ofCount 0)).isSome

/-- A call leaves percentages whose shown values are numbers, if it found such percentages. -/
theorem shown_kept {domain : List Byte} {held : Option Number × Option Number}
    (shown : Shown held) : Shown (percentagesAfter (exactRuntime log traversal) domain held) := by
  by_cases filled : 0 < (domainParts domain).second.length
  · rw [percentagesAfter, if_pos filled]
    have quotient (count : Nat) : (Number.over (.ofCount count)
        (.ofCount (domainParts domain).second.length)).isSome := by
      rw [count_over count filled]
      rfl
    exact ⟨quotient _, quotient _⟩
  · rw [percentagesAfter, if_neg filled]
    exact shown

/-- All calls of a history leave percentages whose shown values are numbers, if the first one
found such percentages. -/
theorem shown_after (history : List (List Byte)) {held : Option Number × Option Number}
    (shown : Shown held) : Shown (heldAfter (exactRuntime log traversal) history held) := by
  induction history generalizing held with
  | nil => exact shown
  | cons domain rest inductionHypothesis => exact inductionHypothesis (shown_kept shown)

/-- A flag is a number, namely one or zero, whatever condition it stands for. -/
theorem flag_number (condition : Prop) [Decidable condition] :
    (Number.flag condition).isSome := by
  rcases flag_values condition with zero | one
  · rw [zero]
    rfl
  · rw [one]
    rfl

/-- A count is a number, so an entry that counts something always has a value. -/
theorem count_number (count : Nat) : (Number.ofCount count).isSome := rfl

/-- All entries of the row of a domain that is not empty are numbers. -/
theorem row_numbers (logarithm : Logarithm log) {domain : List Byte} (nonempty : domain ≠ [])
    {held : Option Number × Option Number} (shown : Shown held) :
    ∀ number ∈ rowOf (exactRuntime log traversal) domain held, number.isSome := by
  have label : ∀ number ∈ labelEntries domain (labels domain).length (domainParts domain),
      number.isSome := by
    simp [labelEntries, count_number, flag_number]
  have counted : ∀ number ∈ countEntries (distinctChars domain) (digitCount domain)
      (domain.count dash) (domainParts domain) held.1 held.2, number.isSome := by
    simp only [countEntries, List.forall_mem_cons]
    exact ⟨rfl, rfl, flag_number _, rfl, flag_number _, rfl, shown.distinct, shown.digits,
      List.forall_mem_nil _⟩
  have last : ∀ number ∈ [entropyOf (exactRuntime log traversal) domain], number.isSome :=
    List.forall_mem_singleton.mpr (entropy_number logarithm nonempty)
  exact List.forall_mem_append.mpr ⟨List.forall_mem_append.mpr ⟨label, counted⟩, last⟩

/-- The operations of a call are sound exactly for a domain that is not empty. -/
theorem operations_sound_iff (logarithm : Logarithm log) {domain : List Byte}
    (before : Globals) {after : Globals} (leaves : Leaves domain after) :
    (∀ operation ∈ operations (exactRuntime log traversal) before after, operation.Sound) ↔
      domain ≠ [] := by
  have percent : ∀ operation ∈ percentOperations after, operation.Sound := by
    by_cases filled : 0 < after.parts.second.length
    · rw [percentOperations, if_pos filled]
      simp only [List.forall_mem_cons]
      exact ⟨count_divides filled, count_divides filled, List.forall_mem_nil _⟩
    · rw [percentOperations, if_neg filled]
      exact List.forall_mem_nil _
  rw [operations, List.forall_mem_append, and_iff_right percent, leaves.lowerdomain,
    leaves.fullCharCounts]
  exact metric_sound_iff logarithm domain before.entropy

end Numbers

/-- Behind any calls of `transform`, a call for a domain divides by numbers other than zero,
takes the logarithms of positive numbers and returns a row of 23 numbers exactly when the
domain is not empty. -/
theorem features_numbers_iff (log : Number → Number) (logarithm : Logarithm log)
    (traversal : Traversal) (history : List (List Byte)) (domain : List Byte) (globals : Globals)
    (loaded : Loaded globals) :
    ∃ before earlier after row,
      rows (exactRuntime log traversal) history globals = some (before, earlier) ∧
      transform (exactRuntime log traversal) domain before = some (after, row) ∧
      (((∀ operation ∈ operations (exactRuntime log traversal) before after, operation.Sound) ∧
        row.length = 23 ∧ ∀ number ∈ row, number.isSome) ↔ domain ≠ []) := by
  obtain ⟨before, earlier, held⟩ := rows_return (exactRuntime log traversal) history globals
  obtain ⟨after, returned, _, leaves⟩ :=
    transform_computes (exactRuntime log traversal) domain before
  refine ⟨before, _, after, _, earlier, returned, ?_⟩
  rw [operations_sound_iff logarithm before leaves]
  constructor
  · exact fun whole => whole.1
  · intro nonempty
    have unset : Shown (none, none) := ⟨rfl, rfl⟩
    have shown : Shown (percentages before) := by
      rw [held, loaded]
      exact shown_after history unset
    exact ⟨nonempty, rfl, row_numbers logarithm nonempty (shown_kept shown)⟩

/-- A logarithm that is right for one and for two, to sixteen digits, and constant otherwise; it
stands in for the one of the C library. -/
def shortLog (number : Number) : Number :=
  if number = some 1 then some 0 else some (6931471805599453 / 10000000000000000)

/-- The row of `a` behind that of the empty domain has numbers only. -/
theorem features_numbers_single : Logarithm shortLog ∧ Loaded default ∧
    ∃ before earlier after row,
      rows (exactRuntime shortLog .stored) [[]] default = some (before, earlier) ∧
      transform (exactRuntime shortLog .stored) (bytesOf "a") before = some (after, row) ∧
      (∀ operation ∈ operations (exactRuntime shortLog .stored) before after, operation.Sound) ∧
      row.length = 23 ∧ ∀ number ∈ row, number.isSome := by
  have logarithm : Logarithm shortLog := by
    constructor
    · intro x _
      rw [shortLog]
      split
      · rfl
      · rfl
    · exact ⟨_, if_neg (by decide), by norm_num⟩
  have loaded : Loaded default := rfl
  obtain ⟨before, earlier, after, row, previous, returned, sound⟩ :=
    features_numbers_iff shortLog logarithm .stored [[]] (bytesOf "a") default loaded
  exact ⟨logarithm, loaded, before, earlier, after, row, previous, returned,
    sound.mpr (by decide)⟩

/-- For the empty domain `metricEntropy` divides by zero, and the last entry is no number. -/
theorem empty_domain_divides_by_zero :
    ∃ after row, transform (exactRuntime shortLog .stored) [] default = some (after, row) ∧
      Operation.divide (.ofCount 0) ∈ operations (exactRuntime shortLog .stored) default after ∧
      ¬ (Operation.divide (.ofCount 0)).Sound ∧ none ∈ row := by
  obtain ⟨after, returned, _, leaves⟩ :=
    transform_computes (exactRuntime shortLog .stored) [] default
  refine ⟨after, _, returned, ?_, ?_, ?_⟩
  · rw [operations, leaves.lowerdomain, leaves.fullCharCounts]
    exact List.mem_append_right _ (List.mem_append_right _ List.mem_cons_self)
  · rintro ⟨x, same, nonzero⟩
    exact nonzero (Option.some.inj same).symm
  · exact List.mem_append_right _ (List.mem_singleton.mpr rfl)

end Dragonfly.FeatureNumbers
