import Mathlib.Logic.Relation

/-!
# Labelled transition systems and their guarded runs

A system is a set of start states and a partial successor function. A label
carries every choice the environment makes in a step, such as which thread
moves or what a system call returns, so a concrete run is a list of labels and
can be evaluated. A guard restricts the steps of a run; the unguarded system
has every step.

An invariant is established at the start and preserved by each guarded step. Where
every other step breaks what follows from it, that holds along a run exactly when
the guard admits all its steps. What a run will come to is stated for an endless
sequence of labels, such as the steps of one thread at the clocks it will see, and
proved by a rank that each of these steps lowers. A simulation relates every state
a concrete system reaches to a state an abstract one reaches, allowing concrete
steps the abstract system does not see.
-/

namespace Dragonfly

universe u v w x

/-- Start states and a successor determined by the label. No successor means the
step is impossible or blocked in that state. -/
structure System (State : Type u) (Label : Type v) where
  start : State → Prop
  next : State → Label → Option State

namespace System

variable {State : Type u} {Label : Type v}

/-- One step under a label that the guard admits in the current state. -/
def Step (system : System State Label) (guard : State → Label → Prop)
    (state after : State) : Prop :=
  ∃ label, guard state label ∧ system.next state label = some after

/-- The states reached from a start state by steps the guard admits. -/
def Reaches (system : System State Label) (guard : State → Label → Prop)
    (state : State) : Prop :=
  ∃ initial, system.start initial ∧ Relation.ReflTransGen (system.Step guard) initial state

/-- The states that are reached by any run of the system, with no condition on its steps. -/
def Reachable (system : System State Label) (state : State) : Prop :=
  system.Reaches (fun _ _ => True) state

/-- A start state is reached by the empty run, whatever the guard is. -/
theorem Reaches.initial {system : System State Label} {guard : State → Label → Prop}
    {state : State} (initial : system.start state) : system.Reaches guard state :=
  ⟨state, initial, Relation.ReflTransGen.refl⟩

/-- A guarded run with one more guarded step behind it is a guarded run to the state of that
step. -/
theorem Reaches.extend {system : System State Label} {guard : State → Label → Prop}
    {state after : State} (reached : system.Reaches guard state) (label : Label)
    (admitted : guard state label) (moved : system.next state label = some after) :
    system.Reaches guard after := by
  obtain ⟨initial, started, run⟩ := reached
  exact ⟨initial, started, run.tail ⟨label, admitted, moved⟩⟩

/-- The induction rule for runs: a property of the start states that every
guarded step preserves holds of every reached state. -/
theorem Reaches.invariant {system : System State Label} {guard : State → Label → Prop}
    {state : State} (reached : system.Reaches guard state) (holds : State → Prop)
    (initially : ∀ state, system.start state → holds state)
    (preserved : ∀ state label after, holds state → guard state label →
      system.next state label = some after → holds after) : holds state := by
  obtain ⟨initial, started, run⟩ := reached
  induction run with
  | refl => exact initially initial started
  | tail _ last inductionHypothesis =>
    obtain ⟨label, admitted, moved⟩ := last
    exact preserved _ label _ inductionHypothesis admitted moved

/-- A guard may be replaced by one that follows from it in the states an
invariant describes. -/
theorem Reaches.replace {system : System State Label} {guard weaker : State → Label → Prop}
    {state : State} (reached : system.Reaches guard state) (holds : State → Prop)
    (initially : ∀ state, system.start state → holds state)
    (preserved : ∀ state label after, holds state → guard state label →
      system.next state label = some after → holds after)
    (implied : ∀ state label, holds state → guard state label → weaker state label) :
    system.Reaches weaker state := by
  refine (reached.invariant (fun state => holds state ∧ system.Reaches weaker state) ?_ ?_).2
  · exact fun initial started => ⟨initially initial started, Reaches.initial started⟩
  · rintro before label after ⟨held, visited⟩ admitted moved
    exact ⟨preserved before label after held admitted moved,
      visited.extend label (implied before label held admitted) moved⟩

/-- Where a guard is weakened, every state that was reached under it is still reached. -/
theorem Reaches.weaken {system : System State Label} {guard weaker : State → Label → Prop}
    {state : State} (reached : system.Reaches guard state)
    (implied : ∀ state label, guard state label → weaker state label) :
    system.Reaches weaker state :=
  reached.replace (fun _ => True) (fun _ _ => trivial) (fun _ _ _ _ _ _ => trivial)
    (fun state label _ => implied state label)

/-- Follow a list of labels. The result is absent when some step is impossible. -/
def follow (system : System State Label) : List Label → State → Option State
  | [], state => some state
  | label :: rest, state => (system.next state label).bind (follow system rest)

/-- The guard admits every step along a list of labels. -/
def Admits (system : System State Label) (guard : State → Label → Prop) :
    List Label → State → Prop
  | [], _ => True
  | label :: rest, state =>
      guard state label ∧ ∀ after ∈ system.next state label, Admits system guard rest after

instance (system : System State Label) (guard : State → Label → Prop)
    [decided : ∀ state label, Decidable (guard state label)] :
    (labels : List Label) → (state : State) → Decidable (system.Admits guard labels state)
  | [], _ => .isTrue trivial
  | label :: rest, state =>
      have : ∀ after, Decidable (system.Admits guard rest after) :=
        instDecidableAdmits system guard rest
      inferInstanceAs (Decidable
        (guard state label ∧ ∀ after ∈ system.next state label, system.Admits guard rest after))

/-- Labels that the guard admits in every state are admitted along any run. -/
theorem admits_everywhere {system : System State Label} {guard : State → Label → Prop}
    {labels : List Label} (admitted : ∀ label ∈ labels, ∀ state, guard state label)
    (state : State) : system.Admits guard labels state := by
  induction labels generalizing state with
  | nil => trivial
  | cons label rest inductionHypothesis =>
    refine ⟨admitted label List.mem_cons_self state, fun after _ => ?_⟩
    exact inductionHypothesis (fun other listed => admitted other (List.mem_cons_of_mem _ listed))
      after

/-- An evaluated run whose steps the guard admits extends a guarded run. -/
theorem Reaches.followed {system : System State Label} {guard : State → Label → Prop}
    {state : State} (reached : system.Reaches guard state) (labels : List Label) (after : State)
    (admitted : system.Admits guard labels state)
    (completed : system.follow labels state = some after) : system.Reaches guard after := by
  induction labels generalizing state with
  | nil =>
    have same : state = after := Option.some.inj completed
    exact same ▸ reached
  | cons label rest inductionHypothesis =>
    obtain ⟨middle, moved, remaining⟩ := Option.bind_eq_some_iff.mp completed
    exact inductionHypothesis (reached.extend label admitted.1 moved)
      (admitted.2 middle moved) remaining

/-- A run that is evaluated label by label from a reachable state reaches its last state. -/
theorem Reachable.followed {system : System State Label} {state : State}
    (reached : system.Reachable state) (labels : List Label) (after : State)
    (completed : system.follow labels state = some after) : system.Reachable after := by
  refine Reaches.followed reached labels after ?_ completed
  clear completed reached
  induction labels generalizing state with
  | nil => trivial
  | cons label rest inductionHypothesis =>
    exact ⟨trivial, fun middle _ => inductionHypothesis⟩

/-- A run that leaves less to do with every step stops. -/
theorem Reachable.stops {system : System State Label} (left : State → Nat)
    (decreases : ∀ state label after, system.Reachable state →
      system.next state label = some after → left after < left state)
    {state : State} (reached : system.Reachable state) :
    ∃ last, system.Reachable last ∧ ∀ label, system.next last label = none := by
  induction remaining : left state using Nat.strongRecOn generalizing state with
  | _ remaining inductionHypothesis =>
    by_cases stopped : ∀ label, system.next state label = none
    · exact ⟨state, reached, stopped⟩
    · obtain ⟨label, moves⟩ := Classical.not_forall.mp stopped
      obtain ⟨after, moved⟩ := Option.ne_none_iff_exists'.mp moves
      have less := decreases state label after reached moved
      exact inductionHypothesis (left after) (by omega) (reached.extend label trivial moved) rfl

/-- A property holds in every state along a list of labels. -/
def Along (system : System State Label) (holds : State → Prop) : List Label → State → Prop
  | [], state => holds state
  | label :: rest, state =>
      holds state ∧ ∀ after ∈ system.next state label, Along system holds rest after

/-- What holds in all states along a list of labels holds in the first of them. -/
theorem Along.first {system : System State Label} {holds : State → Prop} {labels : List Label}
    {state : State} (along : system.Along holds labels state) : holds state := by
  cases labels with
  | nil => exact along
  | cons label rest => exact along.1

/-- Let an invariant be kept by the steps a guard admits, and let every other step lead to a
state without the property that follows from it. Then the property holds along a run that
completes exactly when the guard admits all its steps. -/
theorem along_iff_admits {system : System State Label} {guard : State → Label → Prop}
    {holds property : State → Prop} (sound : ∀ state, holds state → property state)
    (kept : ∀ state label after, holds state → guard state label →
      system.next state label = some after → holds after)
    (broken : ∀ state label after, holds state → ¬ guard state label →
      system.next state label = some after → ¬ property after)
    {labels : List Label} {state last : State} (held : holds state)
    (completed : system.follow labels state = some last) :
    system.Along property labels state ↔ system.Admits guard labels state := by
  induction labels generalizing state with
  | nil => exact iff_of_true (sound state held) trivial
  | cons label rest inductionHypothesis =>
    obtain ⟨middle, moved, remaining⟩ := Option.bind_eq_some_iff.mp completed
    have only : ∀ after ∈ system.next state label, after = middle := fun after stepped =>
      Option.some.inj (Eq.trans (Eq.symm stepped) moved)
    constructor
    · rintro ⟨_, along⟩
      have onward := along middle moved
      have admitted : guard state label := Classical.byContradiction fun rejected =>
        broken state label middle held rejected moved onward.first
      refine ⟨admitted, fun after stepped => ?_⟩
      rw [only after stepped]
      exact (inductionHypothesis (kept state label middle held admitted moved) remaining).mp onward
    · rintro ⟨admitted, along⟩
      refine ⟨sound state held, fun after stepped => ?_⟩
      rw [only after stepped]
      exact (inductionHypothesis (kept state label middle held admitted moved) remaining).mpr
        (along middle moved)

/-! ## What a run comes to -/

/-- Along an endless sequence of labels the run comes to a state that meets the goal. No step on
the way there is blocked; only a step that the guard does not admit releases the run from the
obligation. -/
def Comes (system : System State Label) (guard : State → Label → Prop) (goal : State → Prop)
    (labels : Nat → Label) (state : State) : Prop :=
  ∃ count, system.Admits guard ((List.range count).map labels) state →
    ∃ after, system.follow ((List.range count).map labels) state = some after ∧ goal after

/-- The first labels of a sequence are the first one and the first of those behind it. -/
theorem first_labels (labels : Nat → Label) (count : Nat) :
    (List.range (count + 1)).map labels =
      labels 0 :: (List.range count).map fun index => labels (index + 1) := by
  rw [List.range_succ_eq_map, List.map_cons, List.map_map]
  rfl

variable {system : System State Label} {guard : State → Label → Prop} {goal : State → Prop}
  {labels : Nat → Label} {state : State}

/-- A run has come where it should if its first state meets the goal already. -/
theorem Comes.there (met : goal state) : system.Comes guard goal labels state :=
  ⟨0, fun _ => ⟨state, rfl, met⟩⟩

/-- A run comes to the goal where its next step, if the guard admits it, is possible and leads to
a state from which it does. -/
theorem Comes.onward
    (moves : guard state (labels 0) → ∃ after, system.next state (labels 0) = some after ∧
      system.Comes guard goal (fun index => labels (index + 1)) after) :
    system.Comes guard goal labels state := by
  by_cases admitted : guard state (labels 0)
  · obtain ⟨middle, moved, count, arrives⟩ := moves admitted
    refine ⟨count + 1, fun along => ?_⟩
    rw [first_labels] at along ⊢
    obtain ⟨after, completed, met⟩ := arrives (along.2 middle moved)
    exact ⟨after, Option.bind_eq_some_iff.mpr ⟨middle, moved, completed⟩, met⟩
  · refine ⟨1, fun along => absurd ?_ admitted⟩
    rw [first_labels] at along
    exact along.1

/-- A run that comes to a first goal, and from there, at whatever point of the sequence, to a
second one, comes to the second. The induction is on the number of steps to the first. -/
theorem Comes.trans {between : State → Prop} (first : system.Comes guard between labels state)
    (rest : ∀ index after, between after →
      system.Comes guard goal (fun later => labels (later + index)) after) :
    system.Comes guard goal labels state := by
  obtain ⟨count, arrives⟩ := first
  induction count generalizing labels state with
  | zero =>
    obtain ⟨after, completed, met⟩ := arrives trivial
    obtain rfl : state = after := Option.some.inj completed
    exact rest 0 state met
  | succ count inductionHypothesis =>
    rw [first_labels] at arrives
    apply Comes.onward
    intro admitted
    cases moved : system.next state (labels 0) with
    | none =>
      -- A blocked step would be admitted with everything behind it.
      obtain ⟨after, completed, -⟩ :=
        arrives ⟨admitted, fun after stepped => by simp [moved] at stepped⟩
      simp [follow, moved] at completed
    | some middle =>
      refine ⟨middle, rfl, inductionHypothesis ?_ ?_⟩
      · intro index after met
        have onwards := rest (index + 1) after met
        have same : (fun later => labels (later + (index + 1))) =
            fun later => labels (later + index + 1) := rfl
        rwa [same] at onwards
      · intro along
        have only : ∀ after ∈ system.next state (labels 0), after = middle := fun after stepped =>
          Option.some.inj (Eq.trans (Eq.symm stepped) moved)
        obtain ⟨after, completed, met⟩ :=
          arrives ⟨admitted, fun after stepped => only after stepped ▸ along⟩
        obtain ⟨_, stepped, remaining⟩ := Option.bind_eq_some_iff.mp completed
        obtain rfl := only _ stepped
        exact ⟨after, remaining, met⟩

/-- A run that comes to a goal comes to every goal that follows from it. -/
theorem Comes.weaken {weaker : State → Prop} (comes : system.Comes guard goal labels state)
    (implied : ∀ after, goal after → weaker after) : system.Comes guard weaker labels state :=
  comes.trans fun _ after met => Comes.there (implied after met)

/-- The rule of ranks at a point of the sequence: where each step towards the goal is possible,
keeps an invariant and lowers a rank, which both may depend on how much of the sequence has passed,
the run comes to the goal. -/
theorem Comes.ranked_from (holds : Nat → State → Prop) (rank : Nat → State → Nat)
    (moves : ∀ index state, holds index state → ¬ goal state → guard state (labels index) →
      ∃ after, system.next state (labels index) = some after ∧ holds (index + 1) after ∧
        rank (index + 1) after < rank index state)
    {index : Nat} (held : holds index state) :
    system.Comes guard goal (fun later => labels (later + index)) state := by
  induction measure : rank index state using Nat.strongRecOn generalizing index state with
  | _ measure inductionHypothesis =>
    by_cases met : goal state
    · exact Comes.there met
    · apply Comes.onward
      intro admitted
      rw [Nat.zero_add] at admitted
      obtain ⟨after, moved, kept, lower⟩ := moves index state held met admitted
      refine ⟨after, by rw [Nat.zero_add]; exact moved, ?_⟩
      have same : (fun later => labels (later + 1 + index)) =
          fun later => labels (later + (index + 1)) := by
        funext later
        rw [Nat.add_right_comm, Nat.add_assoc]
      rw [same]
      exact inductionHypothesis _ (measure ▸ lower) kept rfl

/-- The rule of ranks for a whole sequence of labels: if every step under it keeps an invariant
and lowers a rank that may depend on the place in the sequence, the run comes to its goal. -/
theorem Comes.ranked (holds : Nat → State → Prop) (rank : Nat → State → Nat)
    (moves : ∀ index state, holds index state → ¬ goal state → guard state (labels index) →
      ∃ after, system.next state (labels index) = some after ∧ holds (index + 1) after ∧
        rank (index + 1) after < rank index state)
    (held : holds 0 state) : system.Comes guard goal labels state :=
  Comes.ranked_from holds rank moves held

/-- The rule of ranks where neither depends on the sequence. -/
theorem Comes.lowered (holds : State → Prop) (rank : State → Nat)
    (moves : ∀ index state, holds state → ¬ goal state → guard state (labels index) →
      ∃ after, system.next state (labels index) = some after ∧ holds after ∧
        rank after < rank state)
    (held : holds state) : system.Comes guard goal labels state :=
  Comes.ranked (fun _ => holds) (fun _ => rank) moves held

end System

/-- Each guarded concrete step is matched by at most one abstract step. -/
structure Simulation {State : Type u} {Label : Type v} {Abstract : Type w} {Action : Type x}
    (concrete : System State Label) (guard : State → Label → Prop)
    (abstract : System Abstract Action) (represents : State → Abstract → Prop) : Prop where
  initially : ∀ state, concrete.start state →
    ∃ image, abstract.start image ∧ represents state image
  matched : ∀ state label after image, represents state image → guard state label →
    concrete.next state label = some after →
    represents after image ∨
      ∃ action moved, abstract.next image action = some moved ∧ represents after moved

/-- Every state a simulated system reaches represents a reachable abstract state. -/
theorem Simulation.reached {State : Type u} {Label : Type v} {Abstract : Type w}
    {Action : Type x} {concrete : System State Label} {guard : State → Label → Prop}
    {abstract : System Abstract Action} {represents : State → Abstract → Prop}
    (simulation : Simulation concrete guard abstract represents) {state : State}
    (reached : concrete.Reaches guard state) :
    ∃ image, abstract.Reachable image ∧ represents state image := by
  refine reached.invariant (fun state => ∃ image, abstract.Reachable image ∧ represents state image)
    ?_ ?_
  · intro initial started
    obtain ⟨image, begun, related⟩ := simulation.initially initial started
    exact ⟨image, System.Reaches.initial begun, related⟩
  · rintro before label after ⟨image, visited, related⟩ admitted moved
    rcases simulation.matched before label after image related admitted moved with
      unseen | ⟨action, next, acted, related⟩
    · exact ⟨image, visited, unseen⟩
    · exact ⟨next, System.Reaches.extend visited action trivial acted, related⟩

end Dragonfly
