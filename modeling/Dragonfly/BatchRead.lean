import Dragonfly.IoDispatch
import Dragonfly.Msgqueue

/-!
# The batch read of a socket

`ipc_read_messages` means to fill one buffer after the other, but `buffer[v]++` moves the
caller's pointer and `v` stays zero. All datagrams up to the first empty one land in the
first buffer, each one byte behind the one before, and zero is returned.

Memory is a list of blocks. A read or a store that does not stay within its block has no
result. A read of no bytes takes no datagram.
-/

namespace Dragonfly.BatchRead

open Msgqueue IoDispatch

/-- A pointer into one of the blocks of memory, given by the block and the offset inside it. -/
structure Pointer where
  block : Nat
  offset : Nat
deriving DecidableEq

/-- The caller's table of pointers, the blocks, and what the next calls of `read` answer. -/
structure Batch where
  buffer : List Pointer
  memory : List (List Byte)
  pending : List (Answer (List Byte))

/-- How the call ends: with a result, with the process, or not yet. -/
inductive Ending where
  | returned (v : Int)
  | exited
  | blocked
deriving DecidableEq

/-- Store bytes at a pointer. A store that would write behind the end of its block, or into no
block at all, has no result. -/
def store (memory : List (List Byte)) (pointer : Pointer) (bytes : List Byte) :
    Option (List (List Byte)) :=
  memory[pointer.block]?.bind fun block =>
    if pointer.offset + bytes.length ≤ block.length then
      some (memory.set pointer.block (block.take pointer.offset ++ bytes ++
        block.drop (pointer.offset + bytes.length)))
    else none

/-- The pointer `pointer + count`, which stays in its block however far behind its end it
points. -/
def Pointer.plus (pointer : Pointer) (count : Nat) : Pointer :=
  ⟨pointer.block, pointer.offset + count⟩

/-- The loop of `ipc_read_messages` over the answers of its reads. `buffer[v]++` moves the
pointer in the caller's table before the read stores at the place where it stood; only an answer
of no bytes ends the loop with the count. -/
def ipcReadLoop (len max : Int) (v : Nat) (buffer : List Pointer) (memory : List (List Byte)) :
    List (Answer (List Byte)) → Option (Ending × Batch)
  | [] => some (.blocked, ⟨buffer, memory, []⟩)
  | answer :: pending =>
      buffer[v]?.bind fun pointer =>
        let buffer := buffer.set v (pointer.plus 1)
        match answer with
        | .failed .eintr => some (.returned (-1), ⟨buffer, memory, pending⟩)
        | .failed _ => some (.exited, ⟨buffer, memory, pending⟩)
        | .moved datagram =>
            let count := sizeT (len - 1)
            let bytes := datagram.take count
            (store memory pointer bytes).bind fun memory =>
              (store memory ((pointer.plus 1).plus bytes.length) [0]).bind fun memory =>
                if 0 < bytes.length ∧ (v : Int) < max then
                  ipcReadLoop len max v buffer memory pending
                else if count = 0 then some (.returned v, ⟨buffer, memory, answer :: pending⟩)
                else some (.returned v, ⟨buffer, memory, pending⟩)

/-- The function `ipc_read_messages`: its loop with `v` at zero, on the caller's table and
memory. -/
def ipcReadMessages (len max : Int) (batch : Batch) : Option (Ending × Batch) :=
  ipcReadLoop len max 0 batch.buffer batch.memory batch.pending

/-- The function `dragonfly_io_read_lines`, which passes a socket on to `ipc_read_messages` and
returns an error for all other types. -/
def ioReadLines (type : HandleType) (len max : Int) (batch : Batch) : Option (Ending × Batch) :=
  if dragonflyIoReadLines type = some .ipc then ipcReadMessages len max batch
  else some (.returned (-1), batch)

/-- The table a caller passes for a batch: the k-th pointer is the first byte of the k-th block. -/
def table (max : Nat) : List Pointer := (List.range max).map fun block => ⟨block, 0⟩

/-- A queue of datagrams that all came before the call, and an empty one behind them, which ends
the loop. -/
def arriving (datagrams : List (List Byte)) : List (Answer (List Byte)) :=
  datagrams.map .moved ++ [.moved []]

/-- The result of a batch read: as many datagrams as there are, or as there are buffers, each
with its terminator in a buffer of its own. The pointers are where they were and the datagrams
that were not read are still there. -/
structure Filled (datagrams : List (List Byte)) (len max : Nat) (v : Int) (batch : Batch) :
    Prop where
  count : v = (Nat.min max datagrams.length : Nat)
  filled : ∀ index < Nat.min max datagrams.length, ∀ datagram ∈ datagrams[index]?,
    ∃ block ∈ batch.memory[index]?, datagram.take (len - 1) ++ [0] <+: block
  unmoved : batch.buffer = table max
  unread : (datagrams.drop (Nat.min max datagrams.length)).map .moved <+: batch.pending

/-- A call of `dragonfly_io_read_lines` with a buffer in each block returns and leaves the k-th
datagram in the k-th buffer. -/
def FillsBatch (type : HandleType) (datagrams : List (List Byte)) (len max : Nat)
    (memory : List (List Byte)) : Prop :=
  ∃ v batch, ioReadLines type len max ⟨table max, memory, arriving datagrams⟩ =
    some (.returned v, batch) ∧ Filled datagrams len max v batch

/-! ## What the loop does to the table -/

section Loop

variable {len max : Int} {v : Nat} {buffer : List Pointer} {memory : List (List Byte)}
  {answer : Answer (List Byte)} {pending : List (Answer (List Byte))} {ending : Ending}
  {batch : Batch}

/-- One round moves the pointer, whatever `read` answers; then the loop ends or goes on. -/
theorem round_moves
    (ended : ipcReadLoop len max v buffer memory (answer :: pending) = some (ending, batch)) :
    ∃ pointer, buffer[v]? = some pointer ∧
      (batch.buffer = buffer.set v (pointer.plus 1) ∨
        ∃ memory, ipcReadLoop len max v (buffer.set v (pointer.plus 1)) memory pending =
          some (ending, batch)) := by
  obtain ⟨pointer, found, ended⟩ := Option.bind_eq_some_iff.mp ended
  refine ⟨pointer, found, ?_⟩
  cases answer with
  | failed error =>
    left
    cases error
    all_goals rw [← (Prod.mk.inj (Option.some.inj ended)).2]
  | moved datagram =>
    obtain ⟨copied, _, ended⟩ := Option.bind_eq_some_iff.mp ended
    obtain ⟨terminated, _, ended⟩ := Option.bind_eq_some_iff.mp ended
    split at ended
    · exact .inr ⟨terminated, ended⟩
    · left
      split at ended
      · rw [← (Prod.mk.inj (Option.some.inj ended)).2]
      · rw [← (Prod.mk.inj (Option.some.inj ended)).2]

/-- The pointer with index `v` in the caller's table stands behind this offset; so a store there
is not at the start of its buffer. -/
def Behind (buffer : List Pointer) (v offset : Nat) : Prop :=
  ∃ pointer, buffer[v]? = some pointer ∧ offset < pointer.offset

/-- A pointer that moves stands behind the offset it had. -/
theorem moved_behind {pointer : Pointer} {offset : Nat} (found : buffer[v]? = some pointer)
    (reached : offset ≤ pointer.offset) : Behind (buffer.set v (pointer.plus 1)) v offset := by
  obtain ⟨inside, _⟩ := List.getElem?_eq_some_iff.mp found
  exact ⟨pointer.plus 1, List.getElem?_set_self inside, Nat.lt_succ_of_le reached⟩

/-- The loop never moves the pointer back. The induction is on the answers of `read`. -/
theorem loop_keeps_behind {offset : Nat} (behind : Behind buffer v offset)
    (ended : ipcReadLoop len max v buffer memory pending = some (ending, batch)) :
    Behind batch.buffer v offset := by
  induction pending generalizing buffer memory with
  | nil =>
    rw [← (Prod.mk.inj (Option.some.inj ended)).2]
    exact behind
  | cons answer rest inductionHypothesis =>
    obtain ⟨before, known, passed⟩ := behind
    obtain ⟨pointer, found, finished | ⟨memory, further⟩⟩ := round_moves ended
    · rw [finished]
      obtain rfl := Option.some.inj (found.symm.trans known)
      exact moved_behind found (Nat.le_of_lt passed)
    · obtain rfl := Option.some.inj (found.symm.trans known)
      exact inductionHypothesis (moved_behind found (Nat.le_of_lt passed)) further

/-- Where a loop answered at least one read, the pointer it read to stands further on than it
did at the beginning. -/
theorem loop_moves
    (ended : ipcReadLoop len max v buffer memory (answer :: pending) = some (ending, batch)) :
    ∃ pointer, buffer[v]? = some pointer ∧ Behind batch.buffer v pointer.offset := by
  obtain ⟨pointer, found, finished | ⟨memory, further⟩⟩ := round_moves ended
  · refine ⟨pointer, found, ?_⟩
    rw [finished]
    exact moved_behind found (Nat.le_refl _)
  · exact ⟨pointer, found, loop_keeps_behind (moved_behind found (Nat.le_refl _)) further⟩

end Loop

/-- There is always a datagram to read, since the empty one is there even where no other has
come. -/
theorem arriving_nonempty (datagrams : List (List Byte)) :
    ∃ answer pending, arriving datagrams = answer :: pending := by
  cases datagrams with
  | nil => exact ⟨_, _, rfl⟩
  | cons datagram rest => exact ⟨_, _, rfl⟩

/-- No call fills a batch, whatever arrives and however many buffers there are. -/
theorem batch_never_filled (type : HandleType) (datagrams : List (List Byte)) (len max : Nat)
    (memory : List (List Byte)) : ¬ FillsBatch type datagrams len max memory := by
  rintro ⟨v, batch, returned, filled⟩
  rw [ioReadLines] at returned
  split at returned
  · obtain ⟨answer, pending, arrived⟩ := arriving_nonempty datagrams
    rw [ipcReadMessages, arrived] at returned
    obtain ⟨pointer, found, last, known, passed⟩ := loop_moves returned
    rw [filled.unmoved] at known
    obtain rfl := Option.some.inj (found.symm.trans known)
    exact Nat.lt_irrefl _ passed
  · obtain ⟨ended, -⟩ := Prod.mk.inj (Option.some.inj returned)
    have negative := Ending.returned.inj ended
    have counted := filled.count
    omega

/-- One datagram and two buffers of four bytes: the call returns zero and has moved the first
pointer twice, and each read is terminated one byte too far. The terminator of a datagram
that fills its buffer is no longer in it. -/
theorem batch_lost :
    (ioReadLines .serverIpc 4 2
        ⟨table 2, [[1, 1, 1, 1], [1, 1, 1, 1]], arriving [[97, 98]]⟩).map (fun ended =>
          (ended.1, ended.2.buffer, ended.2.memory)) =
        some (.returned 0, [⟨0, 2⟩, ⟨1, 0⟩], [[97, 98, 0, 0], [1, 1, 1, 1]]) ∧
      (ioReadLines .serverIpc 3 2 ⟨table 2, [[1, 1, 1], [1, 1, 1]], arriving [[97, 98]]⟩).isNone ∧
      ¬ FillsBatch .serverIpc [[97, 98]] 4 2 [[1, 1, 1, 1], [1, 1, 1, 1]] := by
  refine ⟨by decide, by decide, ?_⟩
  rintro ⟨v, batch, returned, filled⟩
  have ended : v = 0 :=
    (Ending.returned.inj (Prod.mk.inj (Option.some.inj returned)).1).symm
  have counted : v = 1 := filled.count
  omega

end Dragonfly.BatchRead
