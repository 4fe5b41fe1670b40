import Dragonfly.DomainRows
import Mathlib.Data.List.Forall2
import Mathlib.Tactic.Positivity

/-!
# Runs of `transform`

An analyzer calls `transform` for one domain after the other. Between two calls the two
percentages are all that matters of its global variables, and a domain whose second-level
label is empty does not set them: its row shows those of an earlier domain.

The counts of a row are those of the whole domain, because the second call of
`countAllChars` fills the global table of the first one again, while the percentages are
relative to the second-level label.
-/

namespace Dragonfly.FeatureRuns

open Config DomainFeatures DomainRows

section Runs

variable (runtime : Runtime)

/-- The rows that `transform` returns for one domain after the other, with the global variables
handed on from call to call. -/
def rows : List (List Byte) → Globals → Option (Globals × List (List Number))
  | [], globals => some (globals, [])
  | domain :: rest, globals => do
      let (globals, row) ← transform runtime domain globals
      let (globals, others) ← rows rest globals
      pure (globals, row :: others)

/-- The row of a domain whose call comes behind those of other domains, which is how a running
analyzer computes it. -/
def rowAfter (history : List (List Byte)) (domain : List Byte) (globals : Globals) :
    Option (List Number) :=
  (rows runtime history globals).bind fun (globals, _) =>
    (transform runtime domain globals).map Prod.snd

/-- The script was loaded, and no call has set the percentages. -/
def Loaded (globals : Globals) : Prop := percentages globals = (none, none)

/-- The percentages that are left behind the calls for one domain after the other. -/
def heldAfter (history : List (List Byte)) (held : Option Number × Option Number) :
    Option Number × Option Number :=
  history.foldl (fun held domain => percentagesAfter runtime domain held) held

/-- The rows for one domain after the other, each of which shows the percentages as they are
behind its own call. -/
def rowsOf : List (List Byte) → Option Number × Option Number → List (List Number)
  | [], _ => []
  | domain :: rest, held =>
      rowOf runtime domain (percentagesAfter runtime domain held) ::
        rowsOf rest (percentagesAfter runtime domain held)

/-- All calls of a history return, and the rows are those of their domains and of the
percentages at hand. -/
theorem rows_return (domains : List (List Byte)) (globals : Globals) :
    ∃ after,
      rows runtime domains globals = some (after, rowsOf runtime domains (percentages globals)) ∧
      percentages after = heldAfter runtime domains (percentages globals) := by
  induction domains generalizing globals with
  | nil => exact ⟨globals, rfl, rfl⟩
  | cons domain rest inductionHypothesis =>
    obtain ⟨middle, returned, left⟩ := transform_row runtime domain globals
    obtain ⟨after, others, held⟩ := inductionHypothesis middle
    rw [left] at others held
    exact ⟨after, by simp [rows, returned, others, rowsOf], held⟩

/-- The row of a domain behind earlier calls shows the percentages these and its own call have
left. -/
theorem row_after (history : List (List Byte)) (domain : List Byte) {globals : Globals}
    (loaded : Loaded globals) :
    rowAfter runtime history domain globals =
      some (rowOf runtime domain
        (percentagesAfter runtime domain (heldAfter runtime history (none, none)))) := by
  obtain ⟨middle, returned, held⟩ := rows_return runtime history globals
  obtain ⟨after, last, _⟩ := transform_row runtime domain middle
  rw [held, loaded] at last
  simp [rowAfter, returned, last]

/-- A row shows the percentages it was built with: two equal rows show the same values, where
nil is shown as zero. -/
theorem row_shows {domain : List Byte} {shown other : Option Number × Option Number}
    (same : rowOf runtime domain shown = rowOf runtime domain other) :
    shown.1.getD (.ofCount 0) = other.1.getD (.ofCount 0) :=
  Option.some.inj (congrArg (fun row : List Number => row[20]?) same)

/-- A second-level label that is not empty makes the row free of the history. -/
theorem filled_history_free {domain : List Byte} {globals : Globals} (loaded : Loaded globals)
    (filled : (domainParts domain).second ≠ []) (history other : List (List Byte)) :
    rowAfter runtime history domain globals = rowAfter runtime other domain globals := by
  have positive : 0 < (domainParts domain).second.length := List.length_pos_iff.mpr filled
  rw [row_after runtime _ _ loaded, row_after runtime _ _ loaded, percentagesAfter,
    if_pos positive, percentagesAfter, if_pos positive]

end Runs

section Exact

variable (log : Number → Number) (traversal : Traversal)

/-- The percentages of `a.com`, whose second-level label has one character, are five and zero,
whatever they were before. -/
theorem short_domain_percentages (held : Option Number × Option Number) :
    percentagesAfter (exactRuntime log traversal) (bytesOf "a.com") held =
      (some (some 5), some (some 0)) := by
  have parts : domainParts (bytesOf "a.com") = ⟨bytesOf "com", bytesOf "a", [], bytesOf "com"⟩ := by
    rw [domain_parts_csplit]
    decide
  have distinct : distinctChars (bytesOf "a.com") = 5 := by decide
  have digits : digitCount (bytesOf "a.com") = 0 := by decide
  have length : (bytesOf "a").length = 1 := rfl
  rw [percentagesAfter, parts, distinct, digits]
  simp [length, exactRuntime, exact, Number.over, Number.ofCount]

/-- A domain whose second-level label is empty shows the percentages of an earlier one. -/
theorem empty_second_differs {domain : List Byte} {globals : Globals} (loaded : Loaded globals)
    (empty : (domainParts domain).second = []) :
    rowAfter (exactRuntime log traversal) [] domain globals ≠
      rowAfter (exactRuntime log traversal) [bytesOf "a.com"] domain globals := by
  intro same
  have unset : ∀ held, percentagesAfter (exactRuntime log traversal) domain held = held := by
    intro held
    rw [percentagesAfter, empty]
    rfl
  rw [row_after _ _ _ loaded, row_after _ _ _ loaded, unset, unset] at same
  have shown := row_shows _ (Option.some.inj same)
  rw [heldAfter, heldAfter, List.foldl_cons, short_domain_percentages] at shown
  have zero : (0 : ℚ) = 5 := Option.some.inj shown
  exact absurd zero (by norm_num)

/-- The row of a domain is the same behind any two histories exactly when the second-level
label that `parse` finds in it is not empty. -/
theorem row_history_free (domain : List Byte) (globals : Globals) (loaded : Loaded globals) :
    (∀ history other : List (List Byte),
        rowAfter (exactRuntime log traversal) history domain globals =
          rowAfter (exactRuntime log traversal) other domain globals) ↔
      (domainParts domain).second ≠ [] := by
  constructor
  · intro same empty
    exact empty_second_differs log traversal loaded empty (same [] [bytesOf "a.com"])
  · intro filled
    exact filled_history_free (exactRuntime log traversal) loaded filled

end Exact

/-- The row of `a.com` is the same behind any two histories. -/
theorem row_history_free_short : (domainParts (bytesOf "a.com")).second ≠ [] ∧
    ∀ history other : List (List Byte),
      rowAfter (exactRuntime id .stored) history (bytesOf "a.com") default =
        rowAfter (exactRuntime id .stored) other (bytesOf "a.com") default := by
  have filled : (domainParts (bytesOf "a.com")).second ≠ [] := by
    rw [domain_parts_csplit]
    decide
  exact ⟨filled, (row_history_free id .stored (bytesOf "a.com") default rfl).mpr filled⟩

/-- The row of `localhost`, which has no second-level label, is another one behind a call for
`a.com`: it shows the percentages of that domain. -/
theorem stale_percentages_shown : ¬ ∀ (log : Number → Number) (traversal : Traversal)
    (domain : List Byte) (globals : Globals), Loaded globals →
    ∀ history other : List (List Byte),
      rowAfter (exactRuntime log traversal) history domain globals =
        rowAfter (exactRuntime log traversal) other domain globals := by
  intro claimed
  have empty : (domainParts (bytesOf "localhost")).second = [] := by
    rw [domain_parts_csplit]
    decide
  have loaded : Loaded default := rfl
  exact empty_second_differs id .stored loaded empty
    (claimed id .stored (bytesOf "localhost") default loaded _ _)

end Dragonfly.FeatureRuns
