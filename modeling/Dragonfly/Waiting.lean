import Mathlib.Logic.Relation
import Mathlib.Order.WellFounded

/-!
# Threads that wait for each other

At one moment some threads of a system have something to do, some can move, and the
others wait for threads. Where each busy thread moves or waits for a busy one and the
waiting has no cycle, a busy thread moves: the chain of waiting threads that begins at
any busy thread ends at it.

The threads may be infinitely many. That there is no cycle is the well-foundedness of
waiting, which a rank that falls along it shows.
-/

namespace Dragonfly

universe u v

/-- One moment of a system of threads: which of them have something to do, which can move, and
which wait for which. -/
structure Waiting (Thread : Type u) where
  busy : Thread → Prop
  moves : Thread → Prop
  waitsFor : Thread → Thread → Prop

namespace Waiting

variable {Thread : Type u}

/-- A busy thread that does not move waits for a busy one. -/
def Explained (waiting : Waiting Thread) : Prop :=
  ∀ thread, waiting.busy thread → waiting.moves thread ∨
    ∃ other, waiting.waitsFor thread other ∧ waiting.busy other

/-- No chain of threads each of which waits for the next goes on forever. -/
def Acyclic (waiting : Waiting Thread) : Prop :=
  WellFounded fun later earlier => waiting.waitsFor earlier later

/-- A rank that falls from each waiting thread to the one it waits for excludes cycles. -/
theorem acyclic_of_rank {waiting : Waiting Thread} {Rank : Type v} [LT Rank] [WellFoundedLT Rank]
    (rank : Thread → Rank)
    (falls : ∀ thread other, waiting.waitsFor thread other → rank other < rank thread) :
    waiting.Acyclic := by
  apply Subrelation.wf _ (InvImage.wf rank wellFounded_lt)
  intro later earlier waits
  exact falls earlier later waits

/-- The chain that begins at a busy thread ends at a busy thread that moves. -/
theorem chain_ends {waiting : Waiting Thread} (acyclic : waiting.Acyclic)
    (explained : waiting.Explained) {thread : Thread} (busy : waiting.busy thread) :
    ∃ last, Relation.ReflTransGen waiting.waitsFor thread last ∧ waiting.busy last ∧
      waiting.moves last := by
  induction thread using acyclic.induction with
  | _ thread inductionHypothesis =>
    rcases explained thread busy with moves | ⟨other, waits, otherBusy⟩
    · exact ⟨thread, .refl, busy, moves⟩
    · obtain ⟨last, chain, lastBusy, moves⟩ := inductionHypothesis other waits otherBusy
      exact ⟨last, chain.head waits, lastBusy, moves⟩

/-- Where each busy thread moves or waits for a busy one, and the waiting has no cycle, a busy
thread moves as soon as one is busy. -/
theorem busy_moves {waiting : Waiting Thread} (acyclic : waiting.Acyclic)
    (explained : waiting.Explained) {thread : Thread} (busy : waiting.busy thread) :
    ∃ last, waiting.busy last ∧ waiting.moves last := by
  obtain ⟨last, _, lastBusy, moves⟩ := chain_ends acyclic explained busy
  exact ⟨last, lastBusy, moves⟩

end Waiting

end Dragonfly
