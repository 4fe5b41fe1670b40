import Dragonfly.DomainLabels
import Dragonfly.RowBounds

/-!
# Beyond the third level

`parse` decides how many labels the top-level domain has, and with it which label is that of
the third level. `transform` decides again, by the number of labels and the length of the
top-level domain, whether there is anything in front of that label; for a domain of four
labels the two may differ. What it shows as the length of anything in front of it is the
length of the last label.
-/

namespace Dragonfly.ThirdLevel

open Config DomainFeatures DomainLabels DomainRows RowBounds

/-- The labels in front of the third-level label that `parse` chooses. -/
def beyondThird (splits : Splits) : List (List Byte) :=
  splits.parts.take (splits.num - (tldLength splits.parts splits.num + 2))

/-- The two entries of a row about what is beyond the third level mean what they are named
after. -/
structure ThirdMeans (domain : List Byte) (row : List Number) : Prop where
  flag : entry row 6 = some 1 ↔ beyondThird (csplit domain dot) ≠ []
  length : entry row 20 = .ofCount ((beyondThird (csplit domain dot)).map List.length).sum

/-- The label of a table at an index, and the empty label where there is none. -/
def labelAt (splits : Splits) (index : Nat) : List Byte := (luaIndex splits.parts index).getD []

/-- `transform` agrees with `parse`. Of four labels, the last has three characters at most
where it is the top-level domain alone, and where it is not, the one in front of it is not
empty. The last label is as long as everything in front of the third level. -/
structure Regular (splits : Splits) : Prop where
  single : splits.num = 4 → tldLength splits.parts splits.num = 1 →
    (labelAt splits splits.num).length ≤ 3
  compound : splits.num = 4 → tldLength splits.parts splits.num = 2 →
    labelAt splits (splits.num - 1) ≠ []
  extra : (labelAt splits splits.num).length = ((beyondThird splits).map List.length).sum

/-! ## By the labels from the end -/

section Labels

variable (top next third : List Byte) (rest : List (List Byte))

/-- How many labels the top-level domain of three labels or more has. -/
theorem tld_length_three :
    tldLength (splitsOf (top :: next :: third :: rest)).parts
        (splitsOf (top :: next :: third :: rest)).num =
      if top.length = 2 ∧ next.length ≤ 3 then 2 else 1 := by
  rw [tldLength, shortTop, shortNext, label_last, label_next]
  simp [splitsOf]

/-- The top-level domain of a name of two labels has one label, the last one. -/
theorem tld_length_two : tldLength (splitsOf [top, next]).parts (splitsOf [top, next]).num = 1 := by
  simp [tldLength, splitsOf]

/-- The labels in front of the third level are the last ones from the end. -/
theorem beyond_dropped (labels : List (List Byte)) :
    beyondThird (splitsOf labels) =
      (labels.drop (tldLength (splitsOf labels).parts (splitsOf labels).num + 2)).reverse :=
  List.reverse_drop.symm

/-- Behind a compound top-level domain, the first two labels and two more are not among them. -/
theorem beyond_compound (compound : top.length = 2 ∧ next.length ≤ 3) :
    beyondThird (splitsOf (top :: next :: third :: rest)) = (rest.drop 1).reverse := by
  rw [beyond_dropped, tld_length_three, if_pos compound]
  rfl

/-- Where the top-level domain is the last label alone, that label and the two in front of it
are not beyond the third level. -/
theorem beyond_single (single : ¬ (top.length = 2 ∧ next.length ≤ 3)) :
    beyondThird (splitsOf (top :: next :: third :: rest)) = rest.reverse := by
  rw [beyond_dropped, tld_length_three, if_neg single]
  rfl

/-- There is nothing beyond the third level in a name of two labels. -/
theorem beyond_two : beyondThird (splitsOf [top, next]) = [] := by
  rw [beyond_dropped, tld_length_two]
  rfl

end Labels

/-- The third-level label of `parse` stands behind the labels in front of it. -/
theorem third_behind {labels : List (List Byte)} (several : 2 ≤ labels.length)
    (direct : ¬ Reverse (splitsOf labels))
    (more : tldLength (splitsOf labels).parts (splitsOf labels).num + 1 < (splitsOf labels).num) :
    ∃ behind, (splitsOf labels).parts =
        beyondThird (splitsOf labels) ++ (partsOf labels).third :: behind ∧
      behind.length = tldLength (splitsOf labels).parts (splitsOf labels).num + 1 := by
  fun_cases partsOf labels with
  | case1 => simp at several
  | case2 label => simp at several
  | case3 top second =>
    rw [tld_length_two] at more
    exact absurd more (Nat.lt_irrefl 2)
  | case4 top next third rest reverse => exact absurd ((reverse_iff _ _ _ _).mpr reverse) direct
  | case5 top next third rest forward compound =>
    rw [tld_length_three, if_pos compound] at more ⊢
    rw [beyond_compound top next third rest compound]
    cases rest with
    | nil => exact absurd more (Nat.lt_irrefl 3)
    | cons fourth others => exact ⟨[third, next, top], by simp [splitsOf], rfl⟩
  | case6 top next third rest forward single =>
    rw [tld_length_three, if_neg single, beyond_single top next third rest single]
    exact ⟨[next, top], by simp [splitsOf], rfl⟩

/-- The sixth entry is right exactly for the numbers of labels and lengths where both
decisions agree. -/
theorem flag_right_iff {labels : List (List Byte)} (several : 2 ≤ labels.length)
    (direct : ¬ Reverse (splitsOf labels)) :
    ((3 < labels.length ∧ (partsOf labels).tld.length ≤ 3) ∨ 4 < labels.length ↔
        beyondThird (splitsOf labels) ≠ []) ↔
      (labels.length = 4 → tldLength (splitsOf labels).parts (splitsOf labels).num = 1 →
          (labelAt (splitsOf labels) (splitsOf labels).num).length ≤ 3) ∧
        (labels.length = 4 → tldLength (splitsOf labels).parts (splitsOf labels).num = 2 →
          labelAt (splitsOf labels) ((splitsOf labels).num - 1) ≠ []) := by
  fun_cases partsOf labels with
  | case1 => simp at several
  | case2 label => simp at several
  | case3 top second => simp [beyond_two]
  | case4 top next third rest reverse => exact absurd ((reverse_iff _ _ _ _).mpr reverse) direct
  | case5 top next third rest forward compound =>
    have before : labelAt (splitsOf (top :: next :: third :: rest))
        ((splitsOf (top :: next :: third :: rest)).num - 1) = next := by
      rw [labelAt, label_next]
      rfl
    rw [beyond_compound top next third rest compound, tld_length_three, if_pos compound, before]
    rcases rest with _ | ⟨fourth, _ | ⟨fifth, others⟩⟩
    · simp
    · -- the top-level domain has a dot and two more characters
      have long : 3 < next.length + (top.length + 1) ↔ next ≠ [] := by
        rw [compound.1, ← List.length_pos_iff]
        omega
      simp [long]
    · simp
  | case6 top next third rest forward single =>
    have last : labelAt (splitsOf (top :: next :: third :: rest))
        (splitsOf (top :: next :: third :: rest)).num = top := by
      rw [labelAt, label_last]
      rfl
    rw [beyond_single top next third rest single, tld_length_three, if_neg single, last]
    rcases rest with _ | ⟨fourth, _ | ⟨fifth, others⟩⟩
    · simp
    · simp
    · simp

/-! ## The row -/

/-- A domain has labels, and the one that `parse` keeps as the last is at the end of their
table. -/
theorem last_label (labels : List (List Byte)) :
    (partsOf labels).last = labelAt (splitsOf labels) (splitsOf labels).num := by
  fun_cases partsOf labels with
  | case1 => rfl
  | case2 label => rfl
  | case3 top second => rfl
  | case4 top next third rest reverse => rw [labelAt, label_last]; rfl
  | case5 top next third rest forward compound => rw [labelAt, label_last]; rfl
  | case6 top next third rest forward single => rw [labelAt, label_last]; rfl

/-- The sixth entry of a row is one exactly if there are four labels and a short top-level
domain, or more than four labels. -/
theorem beyond_flag_iff (runtime : Runtime) (domain : List Byte)
    (shown : Option Number × Option Number) : entry (rowOf runtime domain shown) 6 = some 1 ↔
      (3 < (labels domain).length ∧ (domainParts domain).tld.length ≤ 3) ∨
        4 < (labels domain).length :=
  flag_one_iff _

/-- A row is right about the labels in front of the third level exactly when `transform`
agrees with `parse`. -/
theorem third_means_iff {runtime : Runtime} {domain : List Byte}
    {shown : Option Number × Option Number} (several : 2 ≤ (csplit domain dot).num)
    (direct : ¬ Reverse (csplit domain dot)) :
    ThirdMeans domain (rowOf runtime domain shown) ↔ Regular (csplit domain dot) := by
  have extra : entry (rowOf runtime domain shown) 20 =
    .ofCount (labelAt (splitsOf (labels domain)) (splitsOf (labels domain)).num).length := by
    rw [← last_label]
    rfl
  rw [csplit_labels] at several direct ⊢
  have right := flag_right_iff several direct
  constructor
  · rintro ⟨flag, length⟩
    rw [beyond_flag_iff, csplit_labels] at flag
    rw [extra, csplit_labels, counts_same_iff] at length
    obtain ⟨single, compound⟩ := right.mp flag
    exact ⟨single, compound, length⟩
  · rintro ⟨single, compound, length⟩
    constructor
    · rw [beyond_flag_iff, csplit_labels]
      exact right.mpr ⟨single, compound⟩
    · rw [extra, csplit_labels, counts_same_iff]
      exact length

/-- For a domain of two labels or more that is no reverse name, the entries about the labels
in front of the third level mean what they say exactly when the domain is regular. The
third-level label that `parse` chooses is the one right behind those. -/
theorem third_level_iff (runtime : Runtime) (domain : List Byte) (parsing : Parsing)
    (globals : Globals) (several : 2 ≤ (csplit domain dot).num)
    (direct : ¬ Reverse (csplit domain dot)) :
    (∃ parsed, parse (csplit domain dot).parts (csplit domain dot).num parsing = some parsed ∧
        (tldLength (csplit domain dot).parts (csplit domain dot).num + 1 < (csplit domain dot).num →
          ∃ behind, (csplit domain dot).parts =
              beyondThird (csplit domain dot) ++ parsed.retval.third :: behind ∧
            behind.length =
              tldLength (csplit domain dot).parts (csplit domain dot).num + 1)) ∧
      ∃ after row, transform runtime domain globals = some (after, row) ∧
        (ThirdMeans domain row ↔ Regular (csplit domain dot)) := by
  constructor
  · obtain ⟨parsed, returned, picked⟩ := Option.map_eq_some_iff.mp
      (parse_picks (labels domain) parsing (labels_nonempty domain))
    rw [csplit_labels] at several direct ⊢
    refine ⟨parsed, returned, fun more => ?_⟩
    rw [picked]
    exact third_behind several direct more
  · obtain ⟨after, returned, _⟩ := transform_row runtime domain globals
    exact ⟨after, _, returned, third_means_iff several direct⟩

/-- The row of `abc.d.e.com` means what it says: `abc` is as long as `com`. -/
theorem third_level_four : 2 ≤ (csplit (bytesOf "abc.d.e.com") dot).num ∧
    ¬ Reverse (csplit (bytesOf "abc.d.e.com") dot) ∧
    ∃ after row,
      transform (exactRuntime id .stored) (bytesOf "abc.d.e.com") default = some (after, row) ∧
      ThirdMeans (bytesOf "abc.d.e.com") row := by
  have several : 2 ≤ (csplit (bytesOf "abc.d.e.com") dot).num := by decide
  have direct : ¬ Reverse (csplit (bytesOf "abc.d.e.com") dot) := by
    unfold Reverse
    decide
  have regular : Regular (csplit (bytesOf "abc.d.e.com") dot) :=
    ⟨by decide, by decide, by decide⟩
  obtain ⟨_, after, row, returned, means⟩ :=
    third_level_iff (exactRuntime id .stored) (bytesOf "abc.d.e.com") default default several direct
  exact ⟨several, direct, after, row, returned, means.mpr regular⟩

/-- The row of `a.b.c.info` shows nothing in front of the third level, and that of `a.com` a
length of three. -/
theorem third_level_misread :
    (∃ after row,
        transform (exactRuntime id .stored) (bytesOf "a.b.c.info") default = some (after, row) ∧
        ¬ (entry row 6 = some 1 ↔ beyondThird (csplit (bytesOf "a.b.c.info") dot) ≠ [])) ∧
      ∃ after row,
        transform (exactRuntime id .stored) (bytesOf "a.com") default = some (after, row) ∧
        entry row 20 ≠
          .ofCount ((beyondThird (csplit (bytesOf "a.com") dot)).map List.length).sum := by
  constructor
  · obtain ⟨after, returned, _⟩ :=
      transform_row (exactRuntime id .stored) (bytesOf "a.b.c.info") default
    refine ⟨after, _, returned, fun same => ?_⟩
    have listed : labels (bytesOf "a.b.c.info") =
        (csplit (bytesOf "a.b.c.info") dot).parts.reverse := by
      rw [csplit_splits, labels]
    have beyond := (beyond_flag_iff (exactRuntime id .stored) (bytesOf "a.b.c.info") _).mp
      (same.mpr (by decide))
    rw [domain_parts_csplit, listed] at beyond
    revert beyond
    decide
  · obtain ⟨after, returned, _⟩ := transform_row (exactRuntime id .stored) (bytesOf "a.com") default
    refine ⟨after, _, returned, fun same => ?_⟩
    have extra := (counts_same_iff (domainParts (bytesOf "a.com")).last.length _).mp same
    rw [domain_parts_csplit] at extra
    revert extra
    decide

end Dragonfly.ThirdLevel
