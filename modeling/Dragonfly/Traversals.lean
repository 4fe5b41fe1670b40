import Mathlib.Data.List.Forall2
import Mathlib.Data.Finset.Card
import Mathlib.Order.Interval.Finset.Nat

/-!
# Maps that may fail, and lists of positions

A map that may fail succeeds on a list exactly when it does on each of its items, and the
results stand in the places of their items. Different positive numbers whose greatest is their
number are all the numbers up to it.
-/

namespace Dragonfly.Traversals

universe u v

variable {α β : Type u}

/-- A map that may fail returns the results of the items, in their places. -/
theorem traverse_some_iff {map : α → Option β} {items : List α} {results : List β} :
    items.mapM map = some results ↔
      List.Forall₂ (fun item result => map item = some result) items results := by
  induction items generalizing results with
  | nil => cases results <;> simp
  | cons item items inductionHypothesis =>
    rw [List.mapM_cons]
    cases here : map item with
    | none =>
      simp only [Option.bind_eq_bind, Option.bind_none, reduceCtorEq, false_iff]
      intro related
      cases related with
      | cons first _ => rw [here] at first; cases first
    | some result =>
      cases rest : items.mapM map with
      | none =>
        simp only [Option.bind_eq_bind, Option.bind_some, Option.bind_none, reduceCtorEq, false_iff]
        intro related
        cases related with
        | cons _ others => rw [inductionHypothesis.mpr others] at rest; cases rest
      | some others =>
        simp only [Option.bind_eq_bind, Option.bind_some, Option.pure_def, Option.some.injEq]
        constructor
        · rintro rfl
          exact .cons here (inductionHypothesis.mp rest)
        · intro related
          cases related with
          | cons first related =>
            have same := inductionHypothesis.mpr related
            rw [here] at first
            rw [rest] at same
            obtain rfl := Option.some.inj first
            obtain rfl := Option.some.inj same
            rfl

/-- A map that succeeds on each item, with a result related to it, succeeds on the list. -/
theorem traverse_related {map : α → Option β} {related : α → β → Prop} {items : List α}
    (each : ∀ item ∈ items, ∃ result, map item = some result ∧ related item result) :
    ∃ results, items.mapM map = some results ∧ List.Forall₂ related items results := by
  induction items with
  | nil => exact ⟨[], rfl, .nil⟩
  | cons item items inductionHypothesis =>
    obtain ⟨result, here, first⟩ := each item List.mem_cons_self
    obtain ⟨results, rest, others⟩ :=
      inductionHypothesis fun other listed => each other (List.mem_cons_of_mem _ listed)
    refine ⟨result :: results, ?_, .cons first others⟩
    rw [List.mapM_cons, here, rest]
    rfl

section Related

variable {γ : Type u} {δ : Type v} {related : γ → δ → Prop} {items : List γ} {others : List δ}

/-- Each item of a list that is related to another list, place by place, is related to an item
of that one. -/
theorem related_origin (same : List.Forall₂ related items others) {other : δ}
    (listed : other ∈ others) : ∃ item ∈ items, related item other := by
  induction same with
  | nil => cases listed
  | cons first _ inductionHypothesis =>
    rcases List.mem_cons.mp listed with rfl | later
    · exact ⟨_, List.mem_cons_self, first⟩
    · obtain ⟨item, stands, relates⟩ := inductionHypothesis later
      exact ⟨item, List.mem_cons_of_mem _ stands, relates⟩

/-- What holds of any two items of a list holds of the related ones, if it is carried over from
two items to those related to them. -/
theorem related_pairwise {apart : γ → γ → Prop} {different : δ → δ → Prop}
    (carried : ∀ {left right : γ} {before after : δ}, related left before → related right after →
      apart left right → different before after)
    (same : List.Forall₂ related items others) (pairwise : items.Pairwise apart) :
    others.Pairwise different := by
  induction same with
  | nil => exact .nil
  | cons first rest inductionHypothesis =>
    obtain ⟨here, later⟩ := List.pairwise_cons.mp pairwise
    refine List.pairwise_cons.mpr ⟨fun other listed => ?_, inductionHypothesis later⟩
    obtain ⟨item, stands, relates⟩ := related_origin rest listed
    exact carried first relates (here item stands)

end Related

/-- No number of a list is above the maximum of the list, from whatever start it is computed. -/
theorem le_maximum {numbers : List Nat} {number : Nat} (start : Nat) (listed : number ∈ numbers) :
    number ≤ numbers.foldl max start := by
  have above : ∀ (numbers : List Nat) (start : Nat), start ≤ numbers.foldl max start := by
    intro numbers
    induction numbers with
    | nil => exact fun start => Nat.le_refl start
    | cons first numbers inductionHypothesis =>
      exact fun start => Nat.le_trans (Nat.le_max_left start first) (inductionHypothesis _)
  induction numbers generalizing start with
  | nil => cases listed
  | cons first numbers inductionHypothesis =>
    rcases List.mem_cons.mp listed with rfl | later
    · exact Nat.le_trans (Nat.le_max_right start number) (above numbers _)
    · exact inductionHypothesis (max start first) later

/-- Different positive numbers whose greatest is their number are all numbers up to it. -/
theorem all_positions {numbers : List Nat} (different : numbers.Nodup)
    (positive : ∀ number ∈ numbers, 0 < number)
    (greatest : numbers.foldl max 0 = numbers.length) {position : Nat} (from1 : 0 < position)
    (upTo : position ≤ numbers.length) : position ∈ numbers := by
  have inside : numbers.toFinset ⊆ Finset.Icc 1 numbers.length := by
    intro number listed
    have listed := List.mem_toFinset.mp listed
    exact Finset.mem_Icc.mpr ⟨positive number listed, greatest ▸ le_maximum 0 listed⟩
  have all : numbers.toFinset = Finset.Icc 1 numbers.length := by
    apply Finset.eq_of_subset_of_card_le inside
    rw [Nat.card_Icc, List.toFinset_card_of_nodup different, Nat.add_sub_cancel]
  rw [← List.mem_toFinset, all]
  exact Finset.mem_Icc.mpr ⟨from1, upTo⟩

end Dragonfly.Traversals
