import Mathlib.Algebra.Order.Group.Defs
import Mathlib.Order.Bounds.Basic

/-!
# Estimates that move by steps

An estimate begins at the first value and moves by a fixed step towards each later one; a
value it is at does not move it. A step leads towards a value that was seen, so the estimate
stays between the least and the greatest of them, up to one step.
-/

namespace Dragonfly.StepEstimate

universe u

variable {α : Type u} [AddCommGroup α] [LinearOrder α]

/-- A step towards a value: the estimate moves by the rate, upwards or downwards, unless it is
at the value. -/
def step (rate estimate value : α) : α :=
  if value = estimate then estimate
  else if estimate < value then estimate + rate
  else estimate + -rate

/-- The estimate behind some values, which begins at the first and makes one step for each other
one. -/
def estimate (rate : α) : List α → Option α
  | [] => none
  | first :: rest => some (rest.foldl (step rate) first)

/-- One more value makes one more step, and the first one is the estimate. -/
theorem estimate_append (rate : α) (seen : List α) (value : α) :
    estimate rate (seen ++ [value]) =
      some (((estimate rate seen).map fun current => step rate current value).getD value) := by
  cases seen with
  | nil => rfl
  | cons first rest => simp [estimate, List.foldl_append]

/-- An estimate is at most one step away from the values between the least and the greatest. -/
structure InHull (rate : α) (seen : List α) (estimate : α) : Prop where
  lower : ∃ low, IsLeast {value | value ∈ seen} low ∧ low - rate ≤ estimate
  upper : ∃ high, IsGreatest {value | value ∈ seen} high ∧ estimate ≤ high + rate

variable [IsOrderedAddMonoid α]

/-- Behind a single value the estimate is this value, which lies between the least and the
greatest. -/
theorem single_in_hull {rate : α} (forward : 0 ≤ rate) (value : α) :
    InHull rate [value] value := by
  have least : IsLeast {other | other ∈ [value]} value := by simp [IsLeast, lowerBounds]
  have greatest : IsGreatest {other | other ∈ [value]} value := by simp [IsGreatest, upperBounds]
  exact ⟨⟨value, least, sub_le_self value forward⟩,
    ⟨value, greatest, le_add_of_nonneg_right forward⟩⟩

/-- A step leads up or ends at most one step below the value. -/
theorem step_lower {rate : α} (forward : 0 ≤ rate) (current value : α) :
    current ≤ step rate current value ∨ value - rate ≤ step rate current value := by
  rw [step]
  split
  · exact .inl (le_refl current)
  · split
    · exact .inl (le_add_of_nonneg_right forward)
    · rename_i behind
      right
      rw [sub_eq_add_neg]
      exact add_le_add_left (not_lt.mp behind) (-rate)

/-- A step leads down or ends at most one step above the value. -/
theorem step_upper {rate : α} (forward : 0 ≤ rate) (current value : α) :
    step rate current value ≤ current ∨ step rate current value ≤ value + rate := by
  rw [step]
  split
  · exact .inl (le_refl current)
  · split
    · rename_i ahead
      exact .inr (add_le_add_left (le_of_lt ahead) rate)
    · left
      rw [← sub_eq_add_neg]
      exact sub_le_self current forward

/-- A step from an estimate near the values seen stays near them and the new value. -/
theorem step_in_hull {rate : α} (forward : 0 ≤ rate) {seen : List α} {current : α}
    (inside : InHull rate seen current) (value : α) :
    InHull rate (seen ++ [value]) (step rate current value) := by
  obtain ⟨⟨low, least, above⟩, ⟨high, greatest, below⟩⟩ := inside
  have more : {other | other ∈ seen ++ [value]} = insert value {other | other ∈ seen} := by
    ext other
    simp [or_comm]
  constructor
  · refine ⟨min value low, more ▸ least.insert value, ?_⟩
    rcases step_lower forward current value with up | near
    · exact (sub_le_sub_right (min_le_right value low) rate).trans (above.trans up)
    · exact (sub_le_sub_right (min_le_left value low) rate).trans near
  · refine ⟨max value high, more ▸ greatest.insert value, ?_⟩
    rcases step_upper forward current value with down | near
    · exact (down.trans below).trans (add_le_add_left (le_max_right value high) rate)
    · exact near.trans (add_le_add_left (le_max_left value high) rate)

/-- The estimate behind a value is in the hull of the values. -/
theorem estimate_in_hull {rate : α} (forward : 0 ≤ rate) (seen : List α) (value : α) :
    ∃ current, estimate rate (seen ++ [value]) = some current ∧
      InHull rate (seen ++ [value]) current := by
  cases seen with
  | nil => exact ⟨value, rfl, single_in_hull forward value⟩
  | cons first rest =>
    have run : ∀ (others before : List α) (current : α), InHull rate before current →
        InHull rate (before ++ others) (others.foldl (step rate) current) := by
      intro others
      induction others with
      | nil => intro before current inside; simpa using inside
      | cons next others inductionHypothesis =>
        intro before current inside
        simpa using inductionHypothesis _ _ (step_in_hull forward inside next)
    exact ⟨_, rfl, run (rest ++ [value]) [first] first (single_in_hull forward first)⟩

end Dragonfly.StepEstimate
