import Mathlib.Data.List.Infix
import Mathlib.Algebra.BigOperators.Group.List.Basic
import Mathlib.Algebra.GroupWithZero.Nat

/-!
# Fields

A text of fields with a separator between them. Splitting goes on at the separator and
nowhere else, so no field has one, the fields and the separators between them are the text,
and a map that keeps the separator apart maps the fields. A word without a separator stands
behind one in the text exactly when a field other than the first begins with it.
-/

namespace Dragonfly.Fields

universe u v

variable {α : Type u} [DecidableEq α] {sep : α}

/-- A text that begins with the separator has an empty first field; the fields behind the
separator follow it. -/
theorem split_separator (sep : α) (rest : List α) :
    (sep :: rest).splitOn sep = [] :: rest.splitOn sep := by
  simp [List.splitOn, List.splitOnP_cons_eq_if_modifyHead]

/-- An item that is no separator belongs to the first field, and all other fields stay as they
are. -/
theorem split_other {item : α} (rest : List α) (other : item ≠ sep) :
    (item :: rest).splitOn sep = (rest.splitOn sep).modifyHead (item :: ·) := by
  simp [List.splitOn, List.splitOnP_cons_eq_if_modifyHead, other]

/-- Every text has a first field, be it an empty one, and there may be others behind it. -/
theorem split_fields (sep : α) (text : List α) :
    ∃ first others, text.splitOn sep = first :: others :=
  List.exists_cons_of_ne_nil (List.splitOnP_ne_nil _ text)

/-- There is one field more than there are separators in the text, so an empty text has one
field. -/
theorem field_count (sep : α) (text : List α) :
    (text.splitOn sep).length = text.count sep + 1 := by
  induction text with
  | nil => rfl
  | cons item rest inductionHypothesis =>
    by_cases separator : item = sep
    · subst separator
      rw [split_separator, List.length_cons, inductionHypothesis, List.count_cons_self]
    · rw [split_other rest separator, List.length_modifyHead, inductionHypothesis,
        List.count_cons_of_ne separator]

/-- No field of a text contains the separator, because splitting goes on at each of them. -/
theorem field_undivided {text field : List α} (listed : field ∈ text.splitOn sep) :
    sep ∉ field := by
  induction text generalizing field with
  | nil =>
    obtain rfl := List.mem_singleton.mp listed
    exact List.not_mem_nil
  | cons item rest inductionHypothesis =>
    by_cases separator : item = sep
    · subst separator
      rw [split_separator, List.mem_cons] at listed
      rcases listed with rfl | behind
      · exact List.not_mem_nil
      · exact inductionHypothesis behind
    · obtain ⟨first, others, split⟩ := split_fields sep rest
      rw [split_other rest separator, split, List.modifyHead_cons, List.mem_cons] at listed
      rcases listed with rfl | behind
      · have undivided : sep ∉ first :=
          inductionHypothesis (by rw [split]; exact List.mem_cons_self)
        simp [Ne.symm separator, undivided]
      · exact inductionHypothesis (by rw [split]; exact List.mem_cons_of_mem _ behind)

/-- The fields and the separators between them are the text. -/
theorem field_lengths (sep : α) (text : List α) :
    ((text.splitOn sep).map fun field => field.length + 1).sum = text.length + 1 := by
  induction text with
  | nil => rfl
  | cons item rest inductionHypothesis =>
    by_cases separator : item = sep
    · subst separator
      rw [split_separator, List.map_cons, List.sum_cons, inductionHypothesis, List.length_cons,
        List.length_nil]
      omega
    · obtain ⟨first, others, split⟩ := split_fields sep rest
      rw [split, List.map_cons, List.sum_cons] at inductionHypothesis
      rw [split_other rest separator, split, List.modifyHead_cons, List.map_cons, List.sum_cons,
        List.length_cons, List.length_cons]
      omega

/-- The fields of a mapped text are the mapped fields. -/
theorem split_map {β : Type v} [DecidableEq β] {other : β} (translate : α → β)
    (apart : ∀ item, translate item = other ↔ item = sep) (text : List α) :
    (text.map translate).splitOn other = (text.splitOn sep).map (List.map translate) := by
  induction text with
  | nil => simp
  | cons item rest inductionHypothesis =>
    by_cases separator : item = sep
    · subst separator
      rw [List.map_cons, (apart item).mpr rfl, split_separator, split_separator,
        inductionHypothesis]
      rfl
    · obtain ⟨first, others, split⟩ := split_fields sep rest
      rw [List.map_cons, split_other _ (separator ∘ (apart item).mp),
        split_other rest separator, inductionHypothesis, split]
      rfl

/-- A word without a separator begins a text exactly when it begins its first field. -/
theorem begins_iff {word : List α} (undivided : sep ∉ word) (text : List α) :
    word <+: text ↔ ∃ first others, text.splitOn sep = first :: others ∧ word <+: first := by
  induction text generalizing word with
  | nil => simp
  | cons item rest inductionHypothesis =>
    cases word with
    | nil => simpa using split_fields sep (item :: rest)
    | cons letter word =>
      by_cases separator : item = sep
      · subst separator
        have differs : letter ≠ item := fun same => undivided (same ▸ List.mem_cons_self)
        simp [split_separator, differs]
      · have behind : sep ∉ word := fun listed => undivided (List.mem_cons_of_mem _ listed)
        obtain ⟨first, others, split⟩ := split_fields sep rest
        rw [split_other rest separator, List.cons_prefix_cons, inductionHypothesis behind, split]
        simp [List.cons_prefix_cons]

/-- A word without separators stands behind a separator in a text exactly when a field behind
the first begins with it. -/
theorem stands_behind_iff {word : List α} (undivided : sep ∉ word) (text : List α) :
    sep :: word <:+: text ↔ ∃ field ∈ (text.splitOn sep).tail, word <+: field := by
  induction text with
  | nil => simp
  | cons item rest inductionHypothesis =>
    obtain ⟨first, others, split⟩ := split_fields sep rest
    rw [List.infix_cons_iff, inductionHypothesis, List.cons_prefix_cons]
    by_cases separator : item = sep
    · subst separator
      have begins := begins_iff undivided rest
      rw [split_separator, List.tail_cons, begins, split]
      simp
    · rw [split_other rest separator, split]
      simp [Ne.symm separator]

end Dragonfly.Fields
