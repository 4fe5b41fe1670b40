import Mathlib.Data.List.Basic
import Mathlib.Data.List.Count
import Mathlib.Data.List.Nodup
import Mathlib.Logic.Function.Basic

/-!
# A ledger of slots that hold one posting each

A posting is made for a slot and falls due at an instant. A slot holds at most one
posting: the next posting for the slot replaces it. A settlement looks at the clock
once for each slot and settles the posting the slot holds when it is due.

A sound ledger accounts for each posting exactly once: it was settled, it was
replaced, or its slot holds it. Nothing is settled early, and what was replaced
was replaced by a later posting for the same slot.
-/

namespace Dragonfly

universe u

/-- A posting: its slot, the instant it falls due and what it carries. -/
structure Posting (Content : Type u) where
  slot : Nat
  due : Int
  content : Content

/-- The postings in order, the posting each slot holds, what was settled with the
instants at which it was, and what was replaced. A posting is known by its number. -/
structure Ledger (Content : Type u) where
  postings : List (Posting Content)
  held : Nat → Option Nat
  settled : List (Nat × Int)
  replaced : List Nat

namespace Ledger

variable {Content : Type u}

/-- The ledger before any posting: no slot holds one, and none was settled or replaced. -/
def empty : Ledger Content := ⟨[], fun _ => none, [], []⟩

/-- Make a posting. What its slot held until then is replaced by it, and all other slots keep
theirs. -/
def post (ledger : Ledger Content) (posting : Posting Content) : Ledger Content where
  postings := ledger.postings ++ [posting]
  held := Function.update ledger.held posting.slot (some ledger.postings.length)
  settled := ledger.settled
  replaced := ledger.replaced ++ (ledger.held posting.slot).toList

/-- Behind a posting its slot holds it, under the next number. -/
@[simp] theorem post_held_self (ledger : Ledger Content) (posting : Posting Content) :
    (ledger.post posting).held posting.slot = some ledger.postings.length :=
  Function.update_self ..

/-- Behind a posting every other slot holds what it held before. -/
theorem post_held_other (ledger : Ledger Content) {posting : Posting Content} {slot : Nat}
    (other : slot ≠ posting.slot) : (ledger.post posting).held slot = ledger.held slot :=
  Function.update_of_ne other ..

/-- The posting of a slot that is due when the clock is read for the slot. -/
def due (ledger : Ledger Content) (clock : Nat → Int) (slot : Nat) : Option (Nat × Int) :=
  (ledger.held slot).bind fun number =>
    (ledger.postings[number]?).bind fun posting =>
      if posting.due ≤ clock slot then some (number, clock slot) else none

/-- Settle the slots below a bound: each of them that holds a due posting, by the time it was
looked at, is emptied and the posting is settled. -/
def settle (slots : Nat) (clock : Nat → Int) (ledger : Ledger Content) : Ledger Content where
  postings := ledger.postings
  held := fun slot => if (ledger.due clock slot).isSome then none else ledger.held slot
  settled := ledger.settled ++ (List.range slots).filterMap (ledger.due clock)
  replaced := ledger.replaced

/-- A ledger of slots below a bound that accounts for each posting once. -/
structure Sound (slots : Nat) (ledger : Ledger Content) : Prop where
  once : ∀ number posting, ledger.postings[number]? = some posting →
    (ledger.settled.map Prod.fst).count number + ledger.replaced.count number +
      (if ledger.held posting.slot = some number then 1 else 0) = 1
  own : ∀ slot number, ledger.held slot = some number →
    slot < slots ∧ ∃ posting, ledger.postings[number]? = some posting ∧ posting.slot = slot
  punctual : ∀ number instant, (number, instant) ∈ ledger.settled →
    ∃ posting, ledger.postings[number]? = some posting ∧ posting.due ≤ instant
  succeeded : ∀ number ∈ ledger.replaced, ∃ posting later next,
    ledger.postings[number]? = some posting ∧ number < later ∧
      ledger.postings[later]? = some next ∧ next.slot = posting.slot

/-- What is due is held, and its posting is due at the instant. -/
theorem due_spec {ledger : Ledger Content} {clock : Nat → Int} {slot number : Nat} {instant : Int}
    (found : ledger.due clock slot = some (number, instant)) :
    ledger.held slot = some number ∧ instant = clock slot ∧
      ∃ posting, ledger.postings[number]? = some posting ∧ posting.due ≤ instant := by
  obtain ⟨own, held, found⟩ := Option.bind_eq_some_iff.mp found
  obtain ⟨posting, stored, found⟩ := Option.bind_eq_some_iff.mp found
  split at found
  · rename_i early
    cases found
    exact ⟨held, rfl, posting, stored, early⟩
  · cases found

/-- The ledger before any posting is sound, since there is nothing it must account for. -/
theorem empty_sound (slots : Nat) : (empty : Ledger Content).Sound slots := by
  constructor
  · intro number posting stored
    cases stored
  · intro slot number held
    cases held
  · intro number instant listed
    cases listed
  · intro number listed
    cases listed

/-- The numbers a sound ledger speaks of are numbers of its postings. -/
theorem Sound.known {slots : Nat} {ledger : Ledger Content} (sound : ledger.Sound slots) :
    ledger.postings.length ∉ ledger.settled.map Prod.fst ∧
      ledger.postings.length ∉ ledger.replaced := by
  constructor
  · intro listed
    obtain ⟨⟨number, instant⟩, entry, same⟩ := List.mem_map.mp listed
    obtain ⟨posting, stored, _⟩ := sound.punctual number instant entry
    have inside := (List.getElem?_eq_some_iff.mp stored).1
    exact absurd same (Nat.ne_of_lt inside)
  · intro listed
    obtain ⟨posting, _, _, stored, _⟩ := sound.succeeded _ listed
    have inside := (List.getElem?_eq_some_iff.mp stored).1
    exact absurd inside (Nat.lt_irrefl _)

/-- A slot holds no number of a posting to come. -/
theorem Sound.held_lt {slots : Nat} {ledger : Ledger Content} (sound : ledger.Sound slots)
    {slot number : Nat} (held : ledger.held slot = some number) :
    number < ledger.postings.length := by
  obtain ⟨_, posting, stored, _⟩ := sound.own slot number held
  exact (List.getElem?_eq_some_iff.mp stored).1

/-- A posting leaves all older ones where they are in the list, so their numbers stay the same. -/
theorem post_older {ledger : Ledger Content} {number : Nat} {old : Posting Content}
    (stored : ledger.postings[number]? = some old) (posting : Posting Content) :
    (ledger.post posting).postings[number]? = some old := by
  rw [Ledger.post, List.getElem?_append_left (List.getElem?_eq_some_iff.mp stored).1, stored]

/-- A new posting has the number that is next in the list of all postings. -/
theorem post_newest (ledger : Ledger Content) (posting : Posting Content) :
    (ledger.post posting).postings[ledger.postings.length]? = some posting := by
  simp [Ledger.post]

/-- A slot replaces at most the number it held, so any other number is not replaced by the
posting. -/
theorem replaced_count {held : Option Nat} {number : Nat} (different : held ≠ some number) :
    held.toList.count number = 0 := by
  rw [List.count_eq_zero]
  intro listed
  exact different (Option.mem_toList.mp listed)

/-- A posting that is older than a new one is still accounted for once: settled, replaced or
held. -/
theorem Sound.post_older_once {slots : Nat} {ledger : Ledger Content}
    (sound : ledger.Sound slots) (posting : Posting Content) {number : Nat}
    {old : Posting Content} (stored : ledger.postings[number]? = some old) :
    ((ledger.post posting).settled.map Prod.fst).count number +
        (ledger.post posting).replaced.count number +
      (if (ledger.post posting).held old.slot = some number then 1 else 0) = 1 := by
  have before : number < ledger.postings.length := (List.getElem?_eq_some_iff.mp stored).1
  have once := sound.once number old stored
  by_cases same : old.slot = posting.slot
  · -- the new posting replaces what the slot held
    have different : ¬ some ledger.postings.length = some number := by
      simp only [Option.some.injEq]
      omega
    simp only [Ledger.post, same, Function.update_self, if_neg different, List.count_append]
    rw [same] at once
    cases holds : ledger.held posting.slot with
    | none => simpa [holds] using once
    | some held =>
      by_cases this : held = number
      · simp [holds, this] at once ⊢
        omega
      · simpa [holds, this] using once
  · have kept : ledger.held posting.slot ≠ some number := by
      intro holds
      obtain ⟨_, own, storedOwn, slot⟩ := sound.own _ _ holds
      rw [stored] at storedOwn
      cases storedOwn
      exact same slot
    simp only [Ledger.post, Function.update_of_ne same, List.count_append, replaced_count kept,
      Nat.add_zero]
    exact once

/-- A new posting is accounted for once, namely by the slot that holds it. -/
theorem Sound.post_newest_once {slots : Nat} {ledger : Ledger Content}
    (sound : ledger.Sound slots) (posting : Posting Content) :
    ((ledger.post posting).settled.map Prod.fst).count ledger.postings.length +
        (ledger.post posting).replaced.count ledger.postings.length +
      (if (ledger.post posting).held posting.slot = some ledger.postings.length then 1 else 0) =
        1 := by
  obtain ⟨unsettled, unreplaced⟩ := sound.known
  have unheld : ledger.held posting.slot ≠ some ledger.postings.length := fun holds =>
    absurd (sound.held_lt holds) (Nat.lt_irrefl _)
  simp [Ledger.post, List.count_eq_zero.mpr unsettled, List.count_eq_zero.mpr unreplaced,
    replaced_count unheld]

/-- A posting for one of the slots keeps the ledger sound. -/
theorem Sound.post {slots : Nat} {ledger : Ledger Content} (sound : ledger.Sound slots)
    {posting : Posting Content} (inside : posting.slot < slots) :
    (ledger.post posting).Sound slots := by
  constructor
  · intro number stored found
    rcases Nat.lt_trichotomy number ledger.postings.length with before | rfl | beyond
    · have old : ledger.postings[number]? = some stored := by
        rwa [Ledger.post, List.getElem?_append_left before] at found
      exact sound.post_older_once posting old
    · obtain rfl : posting = stored :=
        Option.some.inj ((post_newest ledger posting).symm.trans found)
      exact sound.post_newest_once posting
    · have outside : (ledger.post posting).postings.length ≤ number := by
        simp only [Ledger.post, List.length_append, List.length_singleton]
        omega
      rw [List.getElem?_eq_none outside] at found
      cases found
  · intro slot number held
    by_cases same : slot = posting.slot
    · subst same
      rw [post_held_self] at held
      cases held
      exact ⟨inside, posting, post_newest ledger posting, rfl⟩
    · rw [post_held_other ledger same] at held
      obtain ⟨bounded, old, stored, own⟩ := sound.own slot number held
      exact ⟨bounded, old, post_older stored posting, own⟩
  · intro number instant listed
    obtain ⟨old, stored, early⟩ := sound.punctual number instant listed
    exact ⟨old, post_older stored posting, early⟩
  · intro number listed
    rcases List.mem_append.mp listed with before | now
    · obtain ⟨old, later, next, stored, order, successor, slot⟩ := sound.succeeded number before
      exact ⟨old, later, next, post_older stored posting, order, post_older successor posting,
        slot⟩
    · have held := Option.mem_toList.mp now
      obtain ⟨_, old, stored, slot⟩ := sound.own _ _ held
      exact ⟨old, _, posting, post_older stored posting, sound.held_lt held,
        post_newest ledger posting, slot.symm⟩

/-- A settlement settles a posting at most once, and does so exactly when the slot
that holds it is due. -/
theorem Sound.settled_count {slots : Nat} {ledger : Ledger Content} (sound : ledger.Sound slots)
    (clock : Nat → Int) {number : Nat} {posting : Posting Content}
    (stored : ledger.postings[number]? = some posting) :
    (((List.range slots).filterMap (ledger.due clock)).map Prod.fst).count number =
      if ledger.held posting.slot = some number ∧ (ledger.due clock posting.slot).isSome then 1
      else 0 := by
  have only (slot : Nat) :
      ((ledger.due clock slot).map Prod.fst = some number) ↔ slot = posting.slot ∧
        (ledger.held posting.slot = some number ∧ (ledger.due clock posting.slot).isSome) := by
    constructor
    · intro found
      obtain ⟨⟨own, instant⟩, settles, same⟩ := Option.map_eq_some_iff.mp found
      obtain rfl : own = number := same
      obtain ⟨held, _, _⟩ := due_spec settles
      obtain ⟨_, other, storedOther, slot⟩ := sound.own _ _ held
      obtain rfl : posting = other := Option.some.inj (stored.symm.trans storedOther)
      subst slot
      exact ⟨rfl, held, by rw [settles]; rfl⟩
    · rintro ⟨rfl, held, settled⟩
      obtain ⟨⟨own, instant⟩, found⟩ := Option.isSome_iff_exists.mp settled
      obtain ⟨same, _, _⟩ := due_spec found
      rw [found, Option.map_some]
      exact held ▸ same.symm
  rw [List.map_filterMap, List.count_filterMap]
  by_cases settles : ledger.held posting.slot = some number ∧ (ledger.due clock posting.slot).isSome
  · have inside : posting.slot < slots := (sound.own _ _ settles.1).1
    have single : (List.range slots).countP (fun slot => (ledger.due clock slot).map Prod.fst ==
        some number) = (List.range slots).count posting.slot := by
      apply List.countP_congr
      intro slot _
      rw [beq_iff_eq, beq_iff_eq, only]
      exact and_iff_left settles
    rw [single, List.count_range, if_pos inside, if_pos settles]
  · rw [if_neg settles, List.countP_eq_zero]
    intro slot _ found
    exact settles ((only slot).mp (beq_iff_eq.mp found)).2

/-- A settlement keeps the ledger sound: what it takes out of a slot it settles. -/
theorem Sound.settle {slots : Nat} {ledger : Ledger Content} (sound : ledger.Sound slots)
    (clock : Nat → Int) : (ledger.settle slots clock).Sound slots := by
  constructor
  · intro number posting stored
    have once := sound.once number posting stored
    have settled := sound.settled_count clock stored
    simp only [Ledger.settle, List.map_append, List.count_append, settled]
    by_cases held : ledger.held posting.slot = some number <;>
      by_cases early : (ledger.due clock posting.slot).isSome = true <;>
        simp [held, early] at once ⊢ <;> omega
  · intro slot number held
    simp only [Ledger.settle] at held
    split at held
    · cases held
    · exact sound.own slot number held
  · intro number instant listed
    rcases List.mem_append.mp listed with before | now
    · exact sound.punctual number instant before
    · obtain ⟨slot, _, found⟩ := List.mem_filterMap.mp now
      exact (due_spec found).2.2
  · intro number listed
    exact sound.succeeded number listed

end Ledger

end Dragonfly
