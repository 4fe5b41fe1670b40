import Dragonfly.RowBounds

/-!
# Sector flags

The flags for `edu` and for `gov` and its kin are searches for a dot and the name in the
domain. They are found behind a label exactly where a label begins with the name, so the
flags are also set by labels that go on behind it.
-/

namespace Dragonfly.SectorFlags

open Config DomainFeatures DomainRows Fields RowBounds

/-- The names that `transform` searches behind a dot for the eighth entry of the row. -/
def eduNames : List (List Byte) := [bytesOf "edu"]

/-- The names that `transform` searches behind a dot for the ninth entry of the row. -/
def govNames : List (List Byte) := [bytesOf "gov", bytesOf "govt", bytesOf "gouv"]

/-- The labels of a domain behind its first one, each of which stands behind a dot. -/
def behindFirst (domain : List Byte) : List (List Byte) := (csplit domain dot).parts.tail

/-- One of the labels behind the first is one of the names. -/
def Named (names : List (List Byte)) (domain : List Byte) : Prop :=
  ∃ label ∈ behindFirst domain, label ∈ names

/-- One of the labels behind the first begins with one of the names. -/
def Started (names : List (List Byte)) (domain : List Byte) : Prop :=
  ∃ name ∈ names, ∃ label ∈ behindFirst domain, name <+: label

/-- The two flags of a row follow the labels of its domain: they are set where a label is one of
the names. -/
structure FollowsLabels (domain : List Byte) (row : List Number) : Prop where
  edu : entry row 8 = some 1 ↔ Named eduNames domain
  gov : entry row 9 = some 1 ↔ Named govNames domain

/-- Where a label begins with a name, a label is one. -/
structure Whole (domain : List Byte) : Prop where
  edu : Started eduNames domain → Named eduNames domain
  gov : Started govNames domain → Named govNames domain

/-- If a label is one of the names, then a label begins with one, because each name begins
itself. -/
theorem named_started {names : List (List Byte)} {domain : List Byte}
    (named : Named names domain) : Started names domain := by
  obtain ⟨label, behind, name⟩ := named
  exact ⟨label, name, label, behind, List.prefix_refl label⟩

/-- A search for a dot and a name finds labels that begin with the name. -/
theorem search_finds (domain : List Byte) (text name : List Byte) (dotted : text = dot :: name)
    (undivided : dot ∉ name) :
    text <:+: domain ↔ ∃ label ∈ behindFirst domain, name <+: label := by
  rw [dotted, stands_behind_iff undivided, behindFirst, csplit_splits]

/-- The search for the eighth entry finds something exactly where a label behind the first
begins with its name. -/
theorem edu_search_iff (domain : List Byte) :
    bytesOf ".edu" <:+: domain ↔ Started eduNames domain := by
  rw [search_finds domain (bytesOf ".edu") (bytesOf "edu") rfl (by decide)]
  simp [Started, eduNames]

/-- The searches for the ninth entry find something exactly where a label behind the first
begins with one of its names. -/
theorem gov_search_iff (domain : List Byte) :
    bytesOf ".gov" <:+: domain ∨ bytesOf ".govt" <:+: domain ∨ bytesOf ".gouv" <:+: domain ↔
      Started govNames domain := by
  rw [search_finds domain (bytesOf ".gov") (bytesOf "gov") rfl (by decide),
    search_finds domain (bytesOf ".govt") (bytesOf "govt") rfl (by decide),
    search_finds domain (bytesOf ".gouv") (bytesOf "gouv") rfl (by decide)]
  simp [Started, govNames]

section Rows

variable (runtime : Runtime) (domain : List Byte) (shown : Option Number × Option Number)

/-- The eighth entry is set by labels that begin with its name. -/
theorem edu_flag_iff : entry (rowOf runtime domain shown) 8 = some 1 ↔ Started eduNames domain :=
  (flag_one_iff _).trans (edu_search_iff domain)

/-- The ninth entry of a row is one exactly where a label behind the first begins with one of
its names. -/
theorem gov_flag_iff : entry (rowOf runtime domain shown) 9 = some 1 ↔ Started govNames domain :=
  (flag_one_iff _).trans (gov_search_iff domain)

/-- The two flags of a row follow the labels exactly if no label behind the first begins with a
name without being one. -/
theorem follows_labels_iff : FollowsLabels domain (rowOf runtime domain shown) ↔ Whole domain := by
  have edu := edu_flag_iff runtime domain shown
  have gov := gov_flag_iff runtime domain shown
  constructor
  · rintro ⟨eighth, ninth⟩
    exact ⟨eighth.mp ∘ edu.mpr, ninth.mp ∘ gov.mpr⟩
  · rintro ⟨eighth, ninth⟩
    exact ⟨⟨eighth ∘ edu.mp, edu.mpr ∘ named_started⟩, ⟨ninth ∘ gov.mp, gov.mpr ∘ named_started⟩⟩

end Rows

/-- The flags follow the labels exactly where none begins with a name without one of them
being a name of the sector. -/
theorem sector_flags_iff (runtime : Runtime) (domain : List Byte) (globals : Globals) :
    ∃ after row, transform runtime domain globals = some (after, row) ∧
      (FollowsLabels domain row ↔ Whole domain) := by
  obtain ⟨after, returned, _⟩ := transform_row runtime domain globals
  exact ⟨after, _, returned, follows_labels_iff runtime domain _⟩

/-- `a.education` is taken for a name of the one sector, `a.governor.com` for one of the
other. -/
theorem longer_labels_flagged :
    (∃ after row,
        transform (exactRuntime id .stored) (bytesOf "a.education") default = some (after, row) ∧
        entry row 8 = some 1 ∧ ¬ Named eduNames (bytesOf "a.education")) ∧
      ∃ after row,
        transform (exactRuntime id .stored) (bytesOf "a.governor.com") default = some (after, row) ∧
        entry row 9 = some 1 ∧ ¬ Named govNames (bytesOf "a.governor.com") := by
  constructor
  · obtain ⟨after, returned, _⟩ :=
      transform_row (exactRuntime id .stored) (bytesOf "a.education") default
    refine ⟨after, _, returned, (edu_flag_iff (exactRuntime id .stored) _ _).mpr ?_, ?_⟩
    · unfold Started
      decide
    · unfold Named
      decide
  · obtain ⟨after, returned, _⟩ :=
      transform_row (exactRuntime id .stored) (bytesOf "a.governor.com") default
    refine ⟨after, _, returned, (gov_flag_iff (exactRuntime id .stored) _ _).mpr ?_, ?_⟩
    · unfold Started
      decide
    · unfold Named
      decide

end Dragonfly.SectorFlags
