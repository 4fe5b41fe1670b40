import Dragonfly.Fifo
import Dragonfly.Msgqueue
import Mathlib.Logic.Function.Basic
import Mathlib.Data.Fintype.Basic
import Mathlib.Tactic.Common

/-!
# Runs of one queue: several senders, one receiver, one cancel

Every sender calls `msgqueue_send` for each message of its sequence; the
receiver calls `msgqueue_recv` with 32768 over and over. A step performs one
shared operation of one thread. The operating system chooses how many bytes a
system call moves: a `writev` may put its bytes into the pipe piece by piece, a
`read` may return any positive initial part of what was asked for, and neither
fails on this blocking pipe whose two ends stay open.

While no frame is torn and no read is short, the queue is a first-in first-out
channel: its runs are simulated by `Fifo` with messages tagged by their sender.
-/

namespace Dragonfly.QueueRuns

open Msgqueue

/-- A sender's remaining calls, its point inside the current one, and how many
bytes of the current `writev` are already in the pipe. -/
structure Sender where
  todo : List (List Byte)
  point : Option SendPoint
  written : Nat

/-- Results returned before the cancel and after it are recorded separately,
with the receiver's point at the cancel. -/
structure State (Index : Type) where
  pipe : List Byte
  cancel : Bool
  senders : Index → Sender
  receiver : Option RecvPoint
  returned : List Received
  late : List Received
  cancelledAt : Option RecvPoint
  exited : Bool

/-- Which thread moves, and how many bytes its system call moves, if it makes one. -/
inductive Label (Index : Type) where
  | send (index : Index) (count : Nat)
  | recv (count : Nat)
  | cancel

variable {Index : Type} [DecidableEq Index]

/-- The size of the buffer that the three receiving loops pass to `msgqueue_recv`. -/
def maxBufferSize : Int := 32768

/-- Replace one sender by another; all other senders stay where they are. -/
def State.setSender (state : State Index) (index : Index) (sender : Sender) : State Index :=
  { state with senders := Function.update state.senders index sender }

/-- Continue a sender behind an operation: at its next point, or outside the call, with the
messages that are left. -/
def State.sendTo (state : State Index) (index : Index) : Outcome SendPoint Int → State Index
  | .goto point => state.setSender index ⟨(state.senders index).todo, some point, 0⟩
  | .ret _ => state.setSender index ⟨(state.senders index).todo, none, 0⟩
  | .exit => { state with exited := true }

/-- Continue the receiver behind an operation: at its next point, or outside the call, whose
result is recorded by whether the cancel was there. -/
def State.recvTo (state : State Index) : Outcome RecvPoint Received → State Index
  | .goto point => { state with receiver := some point }
  | .ret received =>
      if state.cancel then { state with receiver := none, late := state.late ++ [received] }
      else { state with receiver := none, returned := state.returned ++ [received] }
  | .exit => { state with exited := true }

/-- One operation of a sender. A `writev` puts `count` further bytes into the pipe
and returns once all are there. -/
def sendNext (state : State Index) (index : Index) (count : Nat) : Option (State Index) :=
  match (state.senders index).point with
  | none =>
      match (state.senders index).todo with
      | [] => none
      | message :: rest =>
          some (state.setSender index ⟨rest, some (.enter message message.length), 0⟩)
  | some point =>
      match msgqueueSend point with
      | .loadCancel resume => some (state.sendTo index (resume state.cancel))
      | .writev bytes resume =>
          let sender := state.senders index
          let piece := (bytes.drop sender.written).take count
          if 0 < count ∧ sender.written + count ≤ bytes.length then
            if sender.written + count = bytes.length then
              some ({ state with pipe := state.pipe ++ piece }.sendTo index
                (resume (.moved bytes.length)))
            else
              some ({ state with pipe := state.pipe ++ piece }.setSender index
                { sender with written := sender.written + count })
          else none
      | .read _ _ => none

/-- One operation of the receiver. A `read` blocks while it can return nothing. -/
def recvNext (state : State Index) (count : Nat) : Option (State Index) :=
  match state.receiver with
  | none => some { state with receiver := some (.enter maxBufferSize) }
  | some point =>
      match msgqueueRecv point with
      | .loadCancel resume => some (state.recvTo (resume state.cancel))
      | .read asked resume =>
          if count ≤ asked ∧ count ≤ state.pipe.length ∧ (0 < count ∨ asked = 0) then
            some ({ state with pipe := state.pipe.drop count }.recvTo
              (resume (.moved (state.pipe.take count))))
          else none
      | .writev _ _ => none

/-- The call of `msgqueue_cancel`. Only the first one sets the flag, and it notes where the
receiver stands. -/
def cancelNext (state : State Index) : State Index :=
  if state.cancel then state else { state with cancel := true, cancelledAt := state.receiver }

/-- One step of a sender, of the receiver or of the cancel. Behind an `exit` of the process
there is none. -/
def next (state : State Index) (label : Label Index) : Option (State Index) :=
  if state.exited then none
  else
    match label with
    | .send index count => sendNext state index count
    | .recv count => recvNext state count
    | .cancel => some (cancelNext state)

/-- A new queue whose senders have yet to send their sequences. -/
def initial (sequences : Index → List (List Byte)) : State Index where
  pipe := []
  cancel := false
  senders index := ⟨sequences index, none, 0⟩
  receiver := none
  returned := []
  late := []
  cancelledAt := none
  exited := false

/-- The runs of a new queue whose senders have these sequences of messages to send. -/
def system (sequences : Index → List (List Byte)) : System (State Index) (Label Index) where
  start state := state = initial sequences
  next := next

/-! ## Schedules -/

/-- The bytes of the `writev` a sender is in, if it is in one. -/
def State.writes (state : State Index) (index : Index) : Option (List Byte) :=
  match (state.senders index).point with
  | some (.writev bytes) => some bytes
  | _ => none

/-- The count of the `read` the receiver is in, if it is in one. -/
def State.asked (state : State Index) : Option Nat :=
  match state.receiver with
  | some (.header _ _) => some 4
  | some (.payload _ l) => some (sizeT l)
  | _ => none

/-- The constant `PIPE_BUF` of the pipe: no more bytes than this are written in one piece for
certain. -/
def pipeBuf : Nat := 4096

/-- What POSIX allows on a pipe that nobody cancels: a `writev` of at most
`PIPE_BUF` bytes is not split. -/
def PosixSchedule (state : State Index) : Label Index → Prop
  | .send index count =>
      ∀ bytes ∈ state.writes index, bytes.length ≤ pipeBuf → count = bytes.length
  | .recv _ => True
  | .cancel => False

/-- No frame is interleaved with another one and no read is short: bytes enter
the pipe only while no other sender is inside its frame, and a `read` returns
everything it asked for. -/
def WholeTransfers (state : State Index) : Label Index → Prop
  | .send index _ => state.writes index ≠ none →
      ∀ other, other ≠ index → (state.senders other).written = 0
  | .recv count => ∀ asked ∈ state.asked, count = asked
  | .cancel => True

/-- Every `writev` puts its bytes into the pipe at once, and a `read` returns the
smaller of what was asked for and what is available. -/
def AtomicTransfers (state : State Index) : Label Index → Prop
  | .send index count => ∀ bytes ∈ state.writes index, count = bytes.length
  | .recv count => ∀ asked ∈ state.asked, count = min asked state.pipe.length
  | .cancel => True

instance (state : State Index) (label : Label Index) : Decidable (PosixSchedule state label) :=
  match label with
  | .send index count => inferInstanceAs (Decidable
      (∀ bytes ∈ state.writes index, bytes.length ≤ pipeBuf → count = bytes.length))
  | .recv _ => .isTrue trivial
  | .cancel => .isFalse id

instance [Fintype Index] (state : State Index) (label : Label Index) :
    Decidable (WholeTransfers state label) :=
  match label with
  | .send index _ => inferInstanceAs (Decidable (state.writes index ≠ none →
      ∀ other, other ≠ index → (state.senders other).written = 0))
  | .recv count => inferInstanceAs (Decidable (∀ asked ∈ state.asked, count = asked))
  | .cancel => .isTrue trivial

instance (state : State Index) (label : Label Index) : Decidable (AtomicTransfers state label) :=
  match label with
  | .send index count => inferInstanceAs (Decidable
      (∀ bytes ∈ state.writes index, count = bytes.length))
  | .recv count => inferInstanceAs (Decidable
      (∀ asked ∈ state.asked, count = min asked state.pipe.length))
  | .cancel => .isTrue trivial

end Dragonfly.QueueRuns
