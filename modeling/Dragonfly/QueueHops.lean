import Dragonfly.Msgqueue
import Dragonfly.Scalars
import Dragonfly.Stages
import Mathlib.Data.List.Forall2

/-!
# One hop: callers of `msgqueue_send`, the pipe, and the loop of a stage

Any number of threads send messages of any length below `2 ^ 31` into the queue of a
stage, and the loop of the stage receives them with `msgqueue_recv` and hands them to its
handler. The sender cuts a message to `MAX_MESSAGE_SIZE` bytes, the receiver refuses a
longer one, and the loop skips a message that fills its buffer.

The pipe moves whole frames: a `writev` puts all its bytes into it at once, and a `read`
returns what it asked for when that is there. No call on it fails. The queue may be
cancelled and the engine may be stopped at any time.

What the handlers are to get is stated of the messages alone: the filter gets the message,
the analyzer the last value the message unpacks to, and the sink the C string that begins
the message, unless that is the rotate message. A loop that is left alone with its queue
takes every message that was sent; a rank that counts the bytes in the pipe says how long
that may last.
-/

namespace Dragonfly.QueueHops

open Flywheel Msgqueue Stages

/-- What a loop does with a message it does not skip: it calls the script, has the sink
write a string, which ends where its buffer has a zero byte, or rotates the sink. -/
inductive HandlerCall (Argument : Type) where
  | called (argument : Argument)
  | wrote (text : List Byte)
  | rotated
deriving DecidableEq

/-- A thread inside `msgqueue_send`, and the message it was called with. -/
structure Sender where
  message : List Byte
  point : SendPoint

/-- A loop at a point of its own, or inside the `msgqueue_recv` of one. -/
inductive ConsumerPoint (Locals Held : Type) where
  | stage (point : StagePoint Locals Held)
  | receiving (point : StagePoint Locals Held) (recv : RecvPoint)

/-- `g_running`, the queue with its flag, the senders, the messages that were written, the
loop and the calls of its handler. -/
structure State (Index Argument Locals Held : Type) where
  running : Bool
  cancel : Bool
  pipe : List Byte
  senders : Index → Option Sender
  sent : List (List Byte)
  consumer : Activity (ConsumerPoint Locals Held) Locals
  calls : List (HandlerCall Argument)

/-- A call of `msgqueue_send`, a step of its caller, a step of the loop with what its
handler answers, `msgqueue_cancel`, or the end of the engine. -/
inductive Label (Index : Type) where
  | call (index : Index) (message : List Byte)
  | send (index : Index)
  | consume (failed : Bool) (written : Int)
  | cancel
  | stop

section System

variable {Index Argument Locals Held : Type} [DecidableEq Index]

/-- Replace one sender, which begins a call, goes on in it or returns from it; the others stay
as they are. -/
def State.setSender (state : State Index Argument Locals Held) (index : Index)
    (sender : Option Sender) : State Index Argument Locals Held :=
  { state with senders := Function.update state.senders index sender }

/-- Continue a sender behind an operation: at its next point, or outside the call when it
returns. -/
def State.sendTo (state : State Index Argument Locals Held) (index : Index)
    (message : List Byte) : Outcome SendPoint Int → Option (State Index Argument Locals Held)
  | .goto point => some (state.setSender index (some ⟨message, point⟩))
  | .ret _ => some (state.setSender index none)
  | .exit => none

/-- One operation of a sender inside `msgqueue_send`: the load of the flag, or the write of its
frame. -/
def sendNext (state : State Index Argument Locals Held) (index : Index) :
    Option (State Index Argument Locals Held) :=
  (state.senders index).bind fun sender =>
    match msgqueueSend sender.point with
    | .loadCancel resume => state.sendTo index sender.message (resume state.cancel)
    | .writev bytes resume =>
        { state with
          pipe := state.pipe ++ bytes
          sent := state.sent ++ [sender.message] }.sendTo index sender.message
            (resume (.moved bytes.length))
    | .read _ _ => none

/-- Continue the loop behind an operation: at its next point, outside the loop when it returns,
or nowhere when the process exits. -/
def State.continued (state : State Index Argument Locals Held) :
    Outcome (StagePoint Locals Held) Locals → State Index Argument Locals Held
  | .goto point => { state with consumer := .inside (.stage point) }
  | .ret locals => { state with consumer := .outside locals }
  | .exit => { state with consumer := .ended }

/-- Record a call of the handler behind those that were made before. -/
def State.call (state : State Index Argument Locals Held) (call : HandlerCall Argument) :
    State Index Argument Locals Held :=
  { state with calls := state.calls ++ [call] }

variable (loop : StagePoint Locals Held → StageOperation Argument (StagePoint Locals Held) Locals)

/-- Continue the `msgqueue_recv` of a point; its result is that of the point. -/
def State.received (state : State Index Argument Locals Held) (point : StagePoint Locals Held) :
    Outcome RecvPoint Received → Option (State Index Argument Locals Held)
  | .goto recv => some { state with consumer := .inside (.receiving point recv) }
  | .ret result =>
      match loop point with
      | .recv _ resume => some (state.continued (resume result.n result.data))
      | _ => none
  | .exit => some { state with consumer := .ended }

/-- One operation of the loop. Behind it the thread enters it again while the engine
runs; an empty pipe blocks a `read`. -/
def consumeNext (state : State Index Argument Locals Held) (failed : Bool) (written : Int) :
    Option (State Index Argument Locals Held) :=
  match state.consumer with
  | .ended => none
  | .outside locals =>
      if state.running then some { state with consumer := .inside (.stage (.test locals)) }
      else none
  | .inside (.stage point) =>
      match loop point with
      | .loadRunning resume => some (state.continued (resume state.running))
      | .recv len _ => some { state with consumer := .inside (.receiving point (.enter len)) }
      | .callLoop argument resume =>
          some ((state.call (.called argument)).continued (resume failed))
      | .ioWrite buffer resume =>
          some ((state.call (.wrote (cString buffer))).continued (resume written))
      | .ioRotate resume => some ((state.call .rotated).continued resume)
  | .inside (.receiving point recv) =>
      match msgqueueRecv recv with
      | .loadCancel resume => state.received loop point (resume state.cancel)
      | .read count resume =>
          if 0 < count ∧ state.pipe = [] then none
          else { state with pipe := state.pipe.drop count }.received loop point
            (resume (.moved (state.pipe.take count)))
      | .writev _ _ => none

/-- One step. The length of a message is an `int`. -/
def next (state : State Index Argument Locals Held) :
    Label Index → Option (State Index Argument Locals Held)
  | .call index message =>
      if state.senders index = none ∧ message.length < 2147483648 then
        some (state.setSender index (some ⟨message, .enter message message.length⟩))
      else none
  | .send index => sendNext state index
  | .consume failed written => consumeNext loop state failed written
  | .cancel => some { state with cancel := true }
  | .stop => some { state with running := false }

/-- A new queue with nothing in it and no sender, and a thread in front of its loop. -/
def initial (locals : Locals) : State Index Argument Locals Held where
  running := true
  cancel := false
  pipe := []
  senders _ := none
  sent := []
  consumer := .outside locals
  calls := []

/-- The runs of the hop: any senders call `msgqueue_send` at any time, and the loop of the stage
takes its steps. -/
def system : System (State Index Argument Locals Held) (Label Index) where
  start state := ∃ locals, state = initial locals
  next := next loop

end System

/-- What the sender puts into the frame of a message. -/
def clamp (message : List Byte) : List Byte := message.take maxBufferSize

/-- A message the loop hands on to its handler: it is not empty, and shorter than the buffer. -/
def Fits (message : List Byte) : Prop := 0 < message.length ∧ message.length < maxBufferSize

instance : DecidablePred Fits := fun message =>
  inferInstanceAs (Decidable (0 < message.length ∧ message.length < maxBufferSize))

/-- The steps of the loop alone, with what its handler answers at each of them. -/
def ownSteps {Index : Type} (answers : Nat → Bool × Int) (index : Nat) : Label Index :=
  .consume (answers index).1 (answers index).2

section Serving

variable {Argument Locals Held : Type}

/-- Where a handler leaves its loop: at the next test of the flag, outside, or at the end of the
process. -/
inductive Settled : Outcome (StagePoint Locals Held) Locals → Prop where
  | test (locals : Locals) : Settled (.goto (.test locals))
  | ret (locals : Locals) : Settled (.ret locals)
  | exit : Settled .exit

/-- A handler makes one call and leaves the loop at its condition, behind it, or gone. -/
inductive Settling :
    StageOperation Argument (StagePoint Locals Held) Locals → HandlerCall Argument → Prop where
  | callLoop (argument : Argument) (resume : Bool → Outcome (StagePoint Locals Held) Locals)
      (settled : ∀ failed, Settled (resume failed)) :
      Settling (.callLoop argument resume) (.called argument)
  | ioWrite (buffer : List Byte) (resume : Int → Outcome (StagePoint Locals Held) Locals)
      (settled : ∀ n, Settled (resume n)) :
      Settling (.ioWrite buffer resume) (.wrote (cString buffer))
  | ioRotate (resume : Outcome (StagePoint Locals Held) Locals) (settled : Settled resume) :
      Settling (.ioRotate resume) .rotated

/-- What the two parameters of a loop do with a message: they refuse it, or hold it and
make one call for it. -/
structure Serving (prepare : Locals → List Byte → Outcome (StagePoint Locals Held) Locals)
    (handle : Locals → Held → StageOperation Argument (StagePoint Locals Held) Locals)
    (Handles : List Byte → HandlerCall Argument → Prop) (Refuses : List Byte → Prop) : Prop where
  prepared : ∀ locals message,
    (prepare locals message = .exit ∧ Refuses message) ∨
      ∃ after held call, prepare locals message = .goto (.handle after held) ∧
        Settling (handle after held) call ∧ Handles message call

end Serving

/-! ## Frames -/

/-- The bytes of the `writev` of a message are a frame. -/
theorem iov_clamped (message : List Byte) :
    iovBytes message
        (if (message.length : Int) > maxMessageSize then maxMessageSize else message.length) =
      frame (clamp message) := by
  by_cases long : (message.length : Int) > maxMessageSize
  · have full : (message.take maxBufferSize).length = maxBufferSize := by
      rw [List.length_take, Nat.min_eq_left]
      unfold maxMessageSize at long
      rw [maxBufferSize]
      omega
    rw [if_pos long, iovBytes, frame, clamp, full]
    rfl
  · have short : message.length ≤ maxBufferSize := by
      unfold maxMessageSize at long
      rw [maxBufferSize]
      omega
    rw [clamp, List.take_of_length_le short]
    exact iov_is_frame message (Int.not_lt.mp long)

/-- What the sender leaves of a message fits the buffer of the receiver. -/
theorem clamp_length (message : List Byte) : (clamp message).length ≤ maxBufferSize :=
  List.length_take_le _ _

/-- A message that fits is put into its frame as a whole. -/
theorem clamp_fits {message : List Byte} (fits : Fits message) : clamp message = message :=
  List.take_of_length_le (Nat.le_of_lt fits.2)

/-- A message fits exactly when its frame is neither empty nor full. -/
theorem fits_iff (message : List Byte) :
    Fits message ↔ 0 < (clamp message).length ∧ (clamp message).length ≠ maxBufferSize := by
  rw [Fits, clamp, List.length_take, maxBufferSize]
  omega

/-! ## One step of the loop -/

/-- Operations of the loop until it reads the length of a frame, or, behind that, until it
reads the next one. -/
def ConsumerPoint.delay {Locals Held : Type} : ConsumerPoint Locals Held → Nat
  | .stage (.test _) => 8
  | .stage (.recv _) => 7
  | .stage (.handle _ _) => 17
  | .receiving _ (.enter _) => 6
  | .receiving _ (.header _ _) => 5
  | .receiving _ (.between _ _) => 20
  | .receiving _ (.payload _ _) => 19
  | .receiving _ _ => 18

/-- A bound on the steps of a loop that is left alone until its pipe is empty. -/
def State.rank {Index Argument Locals Held : Type}
    (state : State Index Argument Locals Held) : Nat :=
  16 * state.pipe.length + match state.consumer with
    | .inside point => point.delay
    | .outside _ => 9
    | .ended => 0

section Hop

variable {Index Argument Locals Held : Type}
  {prepare : Locals → List Byte → Outcome (StagePoint Locals Held) Locals}
  {handle : Locals → Held → StageOperation Argument (StagePoint Locals Held) Locals}
  {Handles : List Byte → HandlerCall Argument → Prop} {Refuses : List Byte → Prop}

/-- The pipe holds the frames of the waiting messages; once the queue is cancelled that no
longer matters, because nothing more is received. -/
def Synced (pipe : List Byte) (cancel : Bool) (waiting : List (List Byte)) : Prop :=
  pipe = frames (waiting.map clamp) ∨ cancel = true

/-- Where the loop stands while the first waiting message is received and handled. -/
inductive Stands (handle : Locals → Held → StageOperation Argument (StagePoint Locals Held) Locals)
    (Handles : List Byte → HandlerCall Argument → Prop) (pipe : List Byte) (cancel : Bool) :
    List (List Byte) → Activity (ConsumerPoint Locals Held) Locals → Prop where
  | test (locals : Locals) (waiting : List (List Byte)) (synced : Synced pipe cancel waiting) :
      Stands handle Handles pipe cancel waiting (.inside (.stage (.test locals)))
  | recv (locals : Locals) (waiting : List (List Byte)) (synced : Synced pipe cancel waiting) :
      Stands handle Handles pipe cancel waiting (.inside (.stage (.recv locals)))
  | outside (locals : Locals) (waiting : List (List Byte))
      (synced : Synced pipe cancel waiting) :
      Stands handle Handles pipe cancel waiting (.outside locals)
  | enter (locals : Locals) (waiting : List (List Byte)) (synced : Synced pipe cancel waiting) :
      Stands handle Handles pipe cancel waiting
        (.inside (.receiving (.recv locals) (.enter maxBufferSize)))
  | header (locals : Locals) (waiting : List (List Byte))
      (framed : pipe = frames (waiting.map clamp)) :
      Stands handle Handles pipe cancel waiting
        (.inside (.receiving (.recv locals) (.header maxBufferSize (-1))))
  | between (locals : Locals) (message : List Byte) (rest : List (List Byte))
      (framed : pipe = clamp message ++ frames (rest.map clamp)) :
      Stands handle Handles pipe cancel (message :: rest)
        (.inside (.receiving (.recv locals) (.between maxBufferSize (clamp message).length)))
  | payload (locals : Locals) (message : List Byte) (rest : List (List Byte))
      (framed : pipe = clamp message ++ frames (rest.map clamp)) :
      Stands handle Handles pipe cancel (message :: rest)
        (.inside (.receiving (.recv locals) (.payload maxBufferSize (clamp message).length)))
  | returning (locals : Locals) (message : List Byte) (rest : List (List Byte))
      (nonempty : 0 < (clamp message).length) (framed : pipe = frames (rest.map clamp)) :
      Stands handle Handles pipe cancel (message :: rest)
        (.inside (.receiving (.recv locals) (.test maxBufferSize (clamp message).length
          ⟨(clamp message).length, clamp message⟩)))
  | handle (locals : Locals) (held : Held) (call : HandlerCall Argument) (message : List Byte)
      (rest : List (List Byte)) (fits : Fits message)
      (settling : Settling (handle locals held) call) (handles : Handles message call)
      (framed : pipe = frames (rest.map clamp)) :
      Stands handle Handles pipe cancel (message :: rest)
        (.inside (.stage (.handle locals held)))

/-- The messages are taken in order, those that fit were handled, and the loop stands at
the next one; or the process was ended over one that fits. -/
inductive Holds (handle : Locals → Held → StageOperation Argument (StagePoint Locals Held) Locals)
    (Handles : List Byte → HandlerCall Argument → Prop) (Refuses : List Byte → Prop)
    (state : State Index Argument Locals Held) : Prop where
  | stands (taken waiting : List (List Byte)) (sent : state.sent = taken ++ waiting)
      (handled : List.Forall₂ Handles (taken.filter fun message => decide (Fits message))
        state.calls)
      (stands : Stands handle Handles state.pipe state.cancel waiting state.consumer)
  | ended (taken waiting : List (List Byte)) (sent : state.sent = taken ++ waiting)
      (handled : List.Forall₂ Handles (taken.filter fun message => decide (Fits message))
        state.calls)
      (gone : state.consumer = .ended)
      (cause : ∃ message ∈ state.sent, Fits message ∧
        (Refuses message ∨ ∃ call ∈ state.calls, Handles message call))

/-- The bytes in front of a frame are its length. -/
theorem header_read (message : List Byte) (rest : List (List Byte)) :
    (frames ((message :: rest).map clamp)).take 4 = intBytes (clamp message).length ∧
      (frames ((message :: rest).map clamp)).drop 4 =
        clamp message ++ frames (rest.map clamp) := by
  rw [List.map_cons, frames_cons, frame, List.append_assoc]
  exact ⟨List.take_left' (int_bytes_length _), List.drop_left' (int_bytes_length _)⟩

/-- The count that is read for a payload of a length is this length, since it is not negative. -/
theorem size_of_length (length : Nat) : sizeT length = length := by
  simp [sizeT]

/-- A message that does not fit is taken without a call. -/
theorem taken_skipped {taken : List (List Byte)} {message : List Byte}
    (skipped : ¬ Fits message) :
    (taken ++ [message]).filter (fun message => decide (Fits message)) =
      taken.filter fun message => decide (Fits message) := by
  simp [skipped]

/-- A message that fits is taken together with its call, and all messages taken have their calls
again. -/
theorem taken_handled {taken : List (List Byte)} {message : List Byte}
    {calls : List (HandlerCall Argument)} {call : HandlerCall Argument} (fits : Fits message)
    (handled : List.Forall₂ Handles (taken.filter fun message => decide (Fits message)) calls)
    (handles : Handles message call) :
    List.Forall₂ Handles ((taken ++ [message]).filter fun message => decide (Fits message))
      (calls ++ [call]) := by
  rw [List.filter_append]
  exact List.rel_append handled (by simpa [fits] using handles)

/-- What a step of the loop leaves: the messages in order and, in a running engine whose
queue was not cancelled, less to do. -/
structure Consumed (handle : Locals → Held → StageOperation Argument (StagePoint Locals Held) Locals)
    (Handles : List Byte → HandlerCall Argument → Prop) (Refuses : List Byte → Prop)
    (state after : State Index Argument Locals Held) : Prop where
  holds : Holds handle Handles Refuses after
  lower : state.running = true → state.cancel = false → after.rank < state.rank

/-- A settled handler leaves the loop at the next message, or ends the process over this
one. -/
theorem handler_consumed {state : State Index Argument Locals Held}
    {taken rest : List (List Byte)} {message : List Byte} {call : HandlerCall Argument}
    {locals : Locals} {held : Held} {outcome : Outcome (StagePoint Locals Held) Locals}
    (sent : state.sent = taken ++ message :: rest)
    (handled : List.Forall₂ Handles (taken.filter fun message => decide (Fits message))
      state.calls)
    (place : state.consumer = .inside (.stage (.handle locals held)))
    (fits : Fits message) (handles : Handles message call)
    (framed : state.pipe = frames (rest.map clamp)) (settled : Settled outcome) :
    Consumed handle Handles Refuses state ((state.call call).continued outcome) := by
  have more : state.sent = (taken ++ [message]) ++ rest := by simpa using sent
  have record := taken_handled fits handled handles
  have here : state.rank = 16 * state.pipe.length + 17 := by
    simp only [State.rank, place, ConsumerPoint.delay]
  cases settled with
  | test locals =>
    refine ⟨.stands _ rest more record (.test locals rest (.inl framed)), fun _ _ => ?_⟩
    rw [here]
    exact Nat.add_lt_add_left (by decide : 8 < 17) _
  | ret locals =>
    refine ⟨.stands _ rest more record (.outside locals rest (.inl framed)), fun _ _ => ?_⟩
    rw [here]
    exact Nat.add_lt_add_left (by decide : 9 < 17) _
  | exit =>
    constructor
    · refine .ended _ rest more record rfl ⟨message, ?_, fits, .inr ⟨call, ?_, handles⟩⟩
      · change message ∈ state.sent
        rw [sent]
        exact List.mem_append_right _ List.mem_cons_self
      · exact List.mem_append_right _ (List.mem_singleton_self _)
    · intro _ _
      rw [here]
      exact Nat.add_lt_add_left (by decide : 0 < 17) _

section Steps

variable {state : State Index Argument Locals Held} {taken : List (List Byte)}
  {locals : Locals}

section Received

variable (handled : List.Forall₂ Handles (taken.filter fun message => decide (Fits message))
    state.calls)

include handled

/-- The length of the first frame is read, and it is no larger than the buffer. -/
theorem header_step {message : List Byte} {rest : List (List Byte)}
    (sent : state.sent = taken ++ message :: rest)
    (place : state.consumer = .inside (.receiving (.recv locals) (.header maxBufferSize (-1))))
    (framed : state.pipe = frames ((message :: rest).map clamp)) (failed : Bool) (written : Int) :
    ∃ after, consumeNext (stageLoop prepare handle) state failed written = some after ∧
      Consumed handle Handles Refuses state after := by
  obtain ⟨length, remaining⟩ := header_read message rest
  have bound := clamp_length message
  have value : overwriteInt (-1) (intBytes (clamp message).length) = (clamp message).length := by
    rw [maxBufferSize] at bound
    exact overwrite_whole _ _ (by omega) (by omega)
  have inside : ¬ ((clamp message).length : Int) > (maxBufferSize : Int) := by omega
  have unblocked : ¬ (0 < 4 ∧ state.pipe = []) := by
    rw [framed, List.map_cons, frames_cons]
    simp [frame, intBytes]
  have moved : consumeNext (stageLoop prepare handle) state failed written =
      some { state with
        pipe := clamp message ++ frames (rest.map clamp)
        consumer := .inside (.receiving (.recv locals)
          (.between maxBufferSize (clamp message).length)) } := by
    rw [consumeNext, place]
    simp only [msgqueueRecv]
    rw [if_neg unblocked]
    simp only [framed, length, remaining, int_bytes_length, value, headerDone, if_neg inside,
      State.received]
    rfl
  refine ⟨_, moved, .stands taken _ sent handled (.between locals message rest rfl), fun _ _ => ?_⟩
  have longer : (clamp message ++ frames (rest.map clamp)).length + 4 = state.pipe.length := by
    rw [← remaining, framed, List.length_drop]
    have size := congrArg List.length length
    rw [List.length_take, int_bytes_length] at size
    omega
  simp only [State.rank, place, ConsumerPoint.delay]
  omega

/-- The payload is read as a whole; an empty one ends the round without a call. -/
theorem payload_step {message : List Byte} {rest : List (List Byte)}
    (sent : state.sent = taken ++ message :: rest)
    (place : state.consumer = .inside (.receiving (.recv locals)
      (.payload maxBufferSize (clamp message).length)))
    (framed : state.pipe = clamp message ++ frames (rest.map clamp)) (failed : Bool)
    (written : Int) :
    ∃ after, consumeNext (stageLoop prepare handle) state failed written = some after ∧
      Consumed handle Handles Refuses state after := by
  have more : state.sent = (taken ++ [message]) ++ rest := by simpa using sent
  have here : state.rank = 16 * state.pipe.length + 19 := by
    simp only [State.rank, place, ConsumerPoint.delay]
  by_cases empty : (clamp message).length = 0
  · have skipped : ¬ Fits message := fun fits => by
      have positive := ((fits_iff message).mp fits).1
      omega
    have nothing := List.length_eq_zero_iff.mp empty
    have moved : consumeNext (stageLoop prepare handle) state failed written =
        some { state with consumer := .outside locals } := by
      rw [consumeNext, place]
      simp only [msgqueueRecv, size_of_length, empty, Nat.lt_irrefl, false_and, if_false,
        List.take_zero, List.length_nil, if_true, List.drop_zero, State.received, stageLoop]
      rfl
    refine ⟨_, moved, .stands (taken ++ [message]) rest more ?_ (.outside locals rest (.inl ?_)),
      fun _ _ => ?_⟩
    · rw [taken_skipped skipped]
      exact handled
    · change state.pipe = _
      rw [framed, nothing, List.nil_append]
    · rw [here]
      exact Nat.add_lt_add_left (by decide : 9 < 19) _
  · have unblocked : ¬ (0 < (clamp message).length ∧ state.pipe = []) := by
      rintro ⟨_, none⟩
      rw [framed] at none
      exact empty (List.length_eq_zero_iff.mpr (List.append_eq_nil_iff.mp none).1)
    have moved : consumeNext (stageLoop prepare handle) state failed written =
        some { state with
          pipe := frames (rest.map clamp)
          consumer := .inside (.receiving (.recv locals) (.test maxBufferSize
            (clamp message).length ⟨(clamp message).length, clamp message⟩)) } := by
      rw [consumeNext, place]
      simp only [msgqueueRecv, size_of_length]
      rw [if_neg unblocked]
      simp only [framed, List.take_left, List.drop_left, empty, if_false, State.received]
    refine ⟨_, moved, .stands taken _ sent handled
      (.returning locals message rest (Nat.pos_of_ne_zero empty) rfl), fun _ _ => ?_⟩
    rw [here, framed, List.length_append]
    simp only [State.rank, ConsumerPoint.delay]
    omega

/-- A message that was read is skipped when it fills the buffer, and handed on as a whole
otherwise. -/
theorem returning_step (serving : Serving prepare handle Handles Refuses) {message : List Byte}
    {rest : List (List Byte)} (sent : state.sent = taken ++ message :: rest)
    (place : state.consumer = .inside (.receiving (.recv locals) (.test maxBufferSize
      (clamp message).length ⟨(clamp message).length, clamp message⟩)))
    (nonempty : 0 < (clamp message).length) (framed : state.pipe = frames (rest.map clamp))
    (failed : Bool) (written : Int) :
    ∃ after, consumeNext (stageLoop prepare handle) state failed written = some after ∧
      Consumed handle Handles Refuses state after := by
  have more : state.sent = (taken ++ [message]) ++ rest := by simpa using sent
  have whole : ¬ ((clamp message).length : Int) < 0 := by omega
  have some' : ¬ ((clamp message).length : Int) ≤ 0 := by omega
  have here : state.rank = 16 * state.pipe.length + 18 := by
    simp only [State.rank, place, ConsumerPoint.delay]
  have moved : consumeNext (stageLoop prepare handle) state failed written =
      some (state.continued (if ((clamp message).length : Int) = maxBufferSize
        then .goto (.test locals) else prepare locals (clamp message))) := by
    rw [consumeNext, place]
    simp only [msgqueueRecv, whole, decide_false, Bool.and_false, if_false, Bool.false_eq_true,
      State.received, stageLoop, if_neg some', Int.toNat_natCast, List.take_length]
  refine ⟨_, moved, ?_⟩
  by_cases full : (clamp message).length = maxBufferSize
  · have skipped : ¬ Fits message := fun fits => ((fits_iff message).mp fits).2 full
    rw [if_pos (by exact_mod_cast full)]
    refine ⟨.stands (taken ++ [message]) rest more ?_ (.test locals rest (.inl framed)),
      fun _ _ => ?_⟩
    · rw [taken_skipped skipped]
      exact handled
    · rw [here]
      exact Nat.add_lt_add_left (by decide : 8 < 18) _
  · have fits : Fits message := (fits_iff message).mpr ⟨nonempty, full⟩
    rw [if_neg (by exact_mod_cast full), clamp_fits fits]
    rcases serving.prepared locals message with ⟨refused, refuses⟩ | ⟨next, held, call, goes,
      settling, handles⟩
    · rw [refused]
      constructor
      · refine .ended taken (message :: rest) sent handled rfl ⟨message, ?_, fits, .inl refuses⟩
        change message ∈ state.sent
        rw [sent]
        exact List.mem_append_right _ List.mem_cons_self
      · intro _ _
        rw [here]
        exact Nat.add_lt_add_left (by decide : 0 < 18) _
    · rw [goes]
      refine ⟨.stands taken _ sent handled
        (.handle next held call message rest fits settling handles framed), fun _ _ => ?_⟩
      rw [here]
      exact Nat.add_lt_add_left (by decide : 17 < 18) _

end Received

/-- The loop makes its next step, and the messages stay in order, unless it waits at an empty
pipe or behind its end in a stopped engine. -/
theorem consume_step (serving : Serving prepare handle Handles Refuses)
    {waiting : List (List Byte)} (sent : state.sent = taken ++ waiting)
    (handled : List.Forall₂ Handles (taken.filter fun message => decide (Fits message))
      state.calls)
    (stands : Stands handle Handles state.pipe state.cancel waiting state.consumer)
    (failed : Bool) (written : Int) :
    (∃ after, consumeNext (stageLoop prepare handle) state failed written = some after ∧
        Consumed handle Handles Refuses state after) ∨
      (consumeNext (stageLoop prepare handle) state failed written = none ∧
        (waiting = [] ∨ state.running = false)) := by
  generalize place : state.consumer = consumer at stands
  cases stands with
  | test locals waiting synced =>
    have moved : consumeNext (stageLoop prepare handle) state failed written =
        some (state.continued (if state.running then .goto (.recv locals) else .ret locals)) := by
      rw [consumeNext, place]
      rfl
    refine .inl ⟨_, moved, ?_⟩
    cases running : state.running with
    | false =>
      exact ⟨.stands taken waiting sent handled (.outside locals waiting synced), fun runs => by
        rw [running] at runs
        cases runs⟩
    | true =>
      refine ⟨.stands taken waiting sent handled (.recv locals waiting synced), fun _ _ => ?_⟩
      simp only [State.rank, State.continued, place, ConsumerPoint.delay, if_true]
      omega
  | recv locals waiting synced =>
    have moved : consumeNext (stageLoop prepare handle) state failed written =
        some { state with
          consumer := .inside (.receiving (.recv locals) (.enter maxBufferSize)) } := by
      rw [consumeNext, place]
      rfl
    refine .inl ⟨_, moved, .stands taken waiting sent handled (.enter locals waiting synced),
      fun _ _ => ?_⟩
    simp only [State.rank, place, ConsumerPoint.delay]
    omega
  | outside locals waiting synced =>
    rcases Bool.eq_false_or_eq_true state.running with running | running
    · have moved : consumeNext (stageLoop prepare handle) state failed written =
          some { state with consumer := .inside (.stage (.test locals)) } := by
        rw [consumeNext, place]
        simp [running]
      refine .inl ⟨_, moved, .stands taken waiting sent handled (.test locals waiting synced),
        fun _ _ => ?_⟩
      simp only [State.rank, place, ConsumerPoint.delay]
      omega
    · refine .inr ⟨?_, .inr running⟩
      rw [consumeNext, place]
      simp [running]
  | enter locals waiting synced =>
    rcases Bool.eq_false_or_eq_true state.cancel with cancelled | cancelled
    · have moved : consumeNext (stageLoop prepare handle) state failed written =
          some { state with consumer := .outside locals } := by
        rw [consumeNext, place]
        simp only [msgqueueRecv]
        rw [if_pos cancelled]
        rfl
      exact .inl ⟨_, moved, .stands taken waiting sent handled (.outside locals waiting synced),
        by simp [cancelled]⟩
    · have moved : consumeNext (stageLoop prepare handle) state failed written =
          some { state with
            consumer := .inside (.receiving (.recv locals) (.header maxBufferSize (-1))) } := by
        rw [consumeNext, place]
        simp only [msgqueueRecv]
        rw [if_neg (by simp [cancelled])]
        rfl
      refine .inl ⟨_, moved, .stands taken waiting sent handled
        (.header locals waiting (synced.resolve_right (by simp [cancelled]))), fun _ _ => ?_⟩
      simp only [State.rank, place, ConsumerPoint.delay]
      omega
  | header locals waiting framed =>
    cases waiting with
    | nil =>
      refine .inr ⟨?_, .inl rfl⟩
      rw [consumeNext, place]
      simp [msgqueueRecv, framed]
    | cons message rest => exact .inl (header_step handled sent place framed failed written)
  | between locals message rest framed =>
    rcases Bool.eq_false_or_eq_true state.cancel with cancelled | cancelled
    · have moved : consumeNext (stageLoop prepare handle) state failed written =
          some { state with consumer := .outside locals } := by
        rw [consumeNext, place]
        simp only [msgqueueRecv]
        rw [if_pos cancelled]
        rfl
      exact .inl ⟨_, moved, .stands taken _ sent handled (.outside locals _ (.inr cancelled)),
        by simp [cancelled]⟩
    · have moved : consumeNext (stageLoop prepare handle) state failed written =
          some { state with consumer := .inside (.receiving (.recv locals)
            (.payload maxBufferSize (clamp message).length)) } := by
        rw [consumeNext, place]
        simp only [msgqueueRecv]
        rw [if_neg (by simp [cancelled])]
        rfl
      refine .inl ⟨_, moved, .stands taken _ sent handled (.payload locals message rest framed),
        fun _ _ => ?_⟩
      simp only [State.rank, place, ConsumerPoint.delay]
      omega
  | payload locals message rest framed =>
    exact .inl (payload_step handled sent place framed failed written)
  | returning locals message rest nonempty framed =>
    exact .inl (returning_step handled serving sent place nonempty framed failed written)
  | handle locals held call message rest fits settling handles framed =>
    left
    rw [consumeNext, place]
    simp only [stageLoop]
    generalize operating : handle locals held = operation at settling
    cases settling with
    | callLoop argument resume settled =>
      exact ⟨_, rfl, handler_consumed sent handled place fits handles framed (settled failed)⟩
    | ioWrite buffer resume settled =>
      exact ⟨_, rfl, handler_consumed sent handled place fits handles framed (settled written)⟩
    | ioRotate resume settled =>
      exact ⟨_, rfl, handler_consumed sent handled place fits handles framed settled⟩

/-- Each step of the loop keeps the messages in order. -/
theorem consume_holds (serving : Serving prepare handle Handles Refuses)
    {after : State Index Argument Locals Held} {failed : Bool} {written : Int}
    (holds : Holds handle Handles Refuses state)
    (moved : consumeNext (stageLoop prepare handle) state failed written = some after) :
    Holds handle Handles Refuses after := by
  cases holds with
  | ended taken waiting sent handled gone cause =>
    rw [consumeNext, gone] at moved
    cases moved
  | stands taken waiting sent handled stands =>
    rcases consume_step serving sent handled stands failed written with
      ⟨reached, stepped, consumed⟩ | ⟨blocked, -⟩
    · obtain rfl : reached = after := Option.some.inj (stepped.symm.trans moved)
      exact consumed.holds
    · rw [blocked] at moved
      cases moved

end Steps

/-! ## One step of a sender -/

/-- Where a sender stands in `msgqueue_send`: at its entry, in front of its `writev`, or in
front of the test behind one. -/
inductive SenderAt : Sender → Prop where
  | enter (message : List Byte) : SenderAt ⟨message, .enter message message.length⟩
  | writev (message : List Byte) : SenderAt ⟨message, .writev (frame (clamp message))⟩
  | test (message iov : List Byte) (n : Int) (positive : 0 < n) :
      SenderAt ⟨message, .test iov n⟩

/-- A message that is sent waits in the pipe behind the others, and the loop stands where it
stood. -/
theorem Stands.behind {pipe : List Byte} {cancel : Bool} {waiting : List (List Byte)}
    {consumer : Activity (ConsumerPoint Locals Held) Locals}
    (stands : Stands handle Handles pipe cancel waiting consumer) (message : List Byte) :
    Stands handle Handles (pipe ++ frame (clamp message)) cancel (waiting ++ [message])
      consumer := by
  have synced {pipe : List Byte} {waiting : List (List Byte)}
      (synced : Synced pipe cancel waiting) :
      Synced (pipe ++ frame (clamp message)) cancel (waiting ++ [message]) :=
    synced.imp (fun framed => by rw [framed]; simp) id
  have framed {pipe : List Byte} {waiting : List (List Byte)}
      (framed : pipe = frames (waiting.map clamp)) :
      pipe ++ frame (clamp message) = frames ((waiting ++ [message]).map clamp) := by
    rw [framed]
    simp
  cases stands with
  | test locals waiting kept => exact .test locals _ (synced kept)
  | recv locals waiting kept => exact .recv locals _ (synced kept)
  | outside locals waiting kept => exact .outside locals _ (synced kept)
  | enter locals waiting kept => exact .enter locals _ (synced kept)
  | header locals waiting kept => exact .header locals _ (framed kept)
  | between locals first rest kept =>
    exact .between locals first (rest ++ [message]) (by rw [kept, List.append_assoc, framed rfl])
  | payload locals first rest kept =>
    exact .payload locals first (rest ++ [message]) (by rw [kept, List.append_assoc, framed rfl])
  | returning locals first rest nonempty kept =>
    exact .returning locals first _ nonempty (framed kept)
  | handle locals held call first rest fits settling handles kept =>
    exact .handle locals held call first _ fits settling handles (framed kept)

/-- Setting the flag of the queue leaves the loop where it is; only its next test finds it set. -/
theorem Stands.cancelled {pipe : List Byte} {cancel : Bool} {waiting : List (List Byte)}
    {consumer : Activity (ConsumerPoint Locals Held) Locals}
    (stands : Stands handle Handles pipe cancel waiting consumer) :
    Stands handle Handles pipe true waiting consumer := by
  cases stands with
  | test locals waiting synced => exact .test locals _ (.inr rfl)
  | recv locals waiting synced => exact .recv locals _ (.inr rfl)
  | outside locals waiting synced => exact .outside locals _ (.inr rfl)
  | enter locals waiting synced => exact .enter locals _ (.inr rfl)
  | header locals waiting framed => exact .header locals _ framed
  | between locals message rest framed => exact .between locals message rest framed
  | payload locals message rest framed => exact .payload locals message rest framed
  | returning locals message rest nonempty framed =>
    exact .returning locals message rest nonempty framed
  | handle locals held call message rest fits settling handles framed =>
    exact .handle locals held call message rest fits settling handles framed

/-- What keeps the pipe and the loop keeps the messages in order. -/
theorem Holds.kept {state after : State Index Argument Locals Held}
    (holds : Holds handle Handles Refuses state) (sent : after.sent = state.sent)
    (calls : after.calls = state.calls) (consumer : after.consumer = state.consumer)
    (pipe : after.pipe = state.pipe)
    (cancel : after.cancel = state.cancel ∨ after.cancel = true) :
    Holds handle Handles Refuses after := by
  cases holds with
  | ended taken waiting ordered handled gone cause =>
    exact .ended taken waiting (sent ▸ ordered) (calls ▸ handled) (consumer ▸ gone)
      (by rw [sent, calls]; exact cause)
  | stands taken waiting ordered handled stands =>
    refine .stands taken waiting (sent ▸ ordered) (calls ▸ handled) ?_
    rw [pipe, consumer]
    rcases cancel with same | set
    · rw [same]
      exact stands
    · rw [set]
      exact stands.cancelled

/-- A `writev` puts the message of its sender behind the others, and what the loop has handed on
stays the same. -/
theorem Holds.written {state after : State Index Argument Locals Held}
    (holds : Holds handle Handles Refuses state) (message : List Byte)
    (sent : after.sent = state.sent ++ [message])
    (calls : after.calls = state.calls) (consumer : after.consumer = state.consumer)
    (pipe : after.pipe = state.pipe ++ frame (clamp message))
    (cancel : after.cancel = state.cancel) : Holds handle Handles Refuses after := by
  cases holds with
  | ended taken waiting ordered handled gone cause =>
    obtain ⟨refused, listed, fits, cause⟩ := cause
    refine .ended taken (waiting ++ [message]) (by rw [sent, ordered, List.append_assoc])
      (calls ▸ handled) (consumer ▸ gone) ⟨refused, ?_, fits, calls ▸ cause⟩
    rw [sent]
    exact List.mem_append_left _ listed
  | stands taken waiting ordered handled stands =>
    refine .stands taken (waiting ++ [message]) (by rw [sent, ordered, List.append_assoc])
      (calls ▸ handled) ?_
    rw [pipe, consumer, cancel]
    exact stands.behind message

/-- Everything but the loop, the pipe and the calls of the handler is in the second state as it
was in the first. -/
structure Beside (state after : State Index Argument Locals Held) : Prop where
  running : after.running = state.running
  cancel : after.cancel = state.cancel
  senders : after.senders = state.senders
  sent : after.sent = state.sent

/-- Continuing the loop changes where the loop stands, and neither the senders nor what was
sent. -/
theorem continued_beside (state : State Index Argument Locals Held)
    (outcome : Outcome (StagePoint Locals Held) Locals) : Beside state (state.continued outcome) := by
  cases outcome <;> exact ⟨rfl, rfl, rfl, rfl⟩

/-- Continuing the `msgqueue_recv` of the loop changes the pipe and where the loop stands, and
neither the senders nor what was sent. -/
theorem received_beside
    {loop : StagePoint Locals Held → StageOperation Argument (StagePoint Locals Held) Locals}
    {state after : State Index Argument Locals Held} {point : StagePoint Locals Held}
    {outcome : Outcome RecvPoint Received}
    (moved : state.received loop point outcome = some after) : Beside state after := by
  cases outcome with
  | goto recv => exact Option.some.inj moved ▸ ⟨rfl, rfl, rfl, rfl⟩
  | exit => exact Option.some.inj moved ▸ ⟨rfl, rfl, rfl, rfl⟩
  | ret result =>
    rw [State.received] at moved
    split at moved
    · exact Option.some.inj moved ▸ continued_beside state _
    · cases moved

/-- Each step of the loop leaves the senders alone, and what was sent. -/
theorem consume_beside
    {loop : StagePoint Locals Held → StageOperation Argument (StagePoint Locals Held) Locals}
    {state after : State Index Argument Locals Held} {failed : Bool} {written : Int}
    (moved : consumeNext loop state failed written = some after) : Beside state after := by
  have called (call : HandlerCall Argument) (outcome : Outcome (StagePoint Locals Held) Locals) :
      Beside state ((state.call call).continued outcome) := by
    cases outcome <;> exact ⟨rfl, rfl, rfl, rfl⟩
  rw [consumeNext] at moved
  split at moved
  · cases moved
  · split at moved
    · exact Option.some.inj moved ▸ ⟨rfl, rfl, rfl, rfl⟩
    · cases moved
  · split at moved
    · exact Option.some.inj moved ▸ continued_beside state _
    · exact Option.some.inj moved ▸ ⟨rfl, rfl, rfl, rfl⟩
    · exact Option.some.inj moved ▸ called _ _
    · exact Option.some.inj moved ▸ called _ _
    · exact Option.some.inj moved ▸ called _ _
  · split at moved
    · exact received_beside moved
    · split at moved
      · cases moved
      · obtain ⟨running, cancel, senders, sent⟩ := received_beside moved
        exact ⟨running, cancel, senders, sent⟩
    · cases moved

section Senders

variable [DecidableEq Index]

/-- The messages are in order and every sender is on its way. -/
structure Sound (handle : Locals → Held → StageOperation Argument (StagePoint Locals Held) Locals)
    (Handles : List Byte → HandlerCall Argument → Prop) (Refuses : List Byte → Prop)
    (state : State Index Argument Locals Held) : Prop where
  holds : Holds handle Handles Refuses state
  senders : ∀ index sender, state.senders index = some sender → SenderAt sender

/-- Replacing one sender by another that stands in `msgqueue_send` keeps all others where they
stand. -/
theorem senders_replaced (state : State Index Argument Locals Held) {index : Index}
    {replaced : Option Sender}
    (senders : ∀ index sender, state.senders index = some sender → SenderAt sender)
    (at' : ∀ sender, replaced = some sender → SenderAt sender) (other : Index) (sender : Sender)
    (found : (state.setSender index replaced).senders other = some sender) : SenderAt sender := by
  change Function.update state.senders index replaced other = some sender at found
  by_cases same : other = index
  · subst same
    rw [Function.update_self] at found
    exact at' sender found
  · rw [Function.update_of_ne same] at found
    exact senders other sender found

/-- Each step of a sender keeps the messages in order. -/
theorem send_sound {state after : State Index Argument Locals Held} {index : Index}
    (sound : Sound handle Handles Refuses state) (moved : sendNext state index = some after) :
    Sound handle Handles Refuses after := by
  obtain ⟨sender, found, moved⟩ := Option.bind_eq_some_iff.mp moved
  have progress := sound.senders index sender found
  have keeps (replaced : Option Sender) (at' : ∀ sender, replaced = some sender → SenderAt sender) :
      Sound handle Handles Refuses (state.setSender index replaced) :=
    ⟨sound.holds.kept rfl rfl rfl rfl (.inl rfl), senders_replaced state sound.senders at'⟩
  cases progress with
  | enter message =>
    cases cancelled : state.cancel with
    | true =>
      simp only [msgqueueSend, cancelled, if_true, State.sendTo] at moved
      exact Option.some.inj moved ▸ keeps none (by simp)
    | false =>
      simp only [msgqueueSend, cancelled, Bool.false_eq_true, if_false, iov_clamped,
        State.sendTo] at moved
      apply Option.some.inj moved ▸ keeps _
      rintro _ ⟨⟩
      exact .writev message
  | writev message =>
    have filled : (frame (clamp message)).length ≠ 0 := by simp
    simp only [msgqueueSend, filled, if_false, State.sendTo] at moved
    obtain rfl := Option.some.inj moved
    refine ⟨sound.holds.written message rfl rfl rfl rfl rfl,
      senders_replaced { state with
        pipe := state.pipe ++ frame (clamp message)
        sent := state.sent ++ [message] } sound.senders ?_⟩
    rintro _ ⟨⟩
    exact .test message _ _ (by simp only [Msgqueue.frame_length]; omega)
  | test message iov n positive =>
    have done : ¬ n < 0 := Int.not_lt.mpr (Int.le_of_lt positive)
    simp only [msgqueueSend, done, decide_false, Bool.and_false, Bool.false_eq_true, if_false,
      State.sendTo] at moved
    exact Option.some.inj moved ▸ keeps none (by simp)

/-- Every step keeps the hop sound: that of a sender, that of the loop, a new call, and the
changes of the two flags. -/
theorem sound_step (serving : Serving prepare handle Handles Refuses)
    {state after : State Index Argument Locals Held} {label : Label Index}
    (sound : Sound handle Handles Refuses state)
    (moved : next (stageLoop prepare handle) state label = some after) :
    Sound handle Handles Refuses after := by
  cases label with
  | call index message =>
    rw [next] at moved
    split at moved
    · obtain rfl := Option.some.inj moved
      refine ⟨sound.holds.kept rfl rfl rfl rfl (.inl rfl), senders_replaced _ sound.senders ?_⟩
      rintro _ ⟨⟩
      exact .enter message
    · cases moved
  | send index => exact send_sound sound moved
  | consume failed written =>
    refine ⟨consume_holds serving sound.holds moved, ?_⟩
    rw [(consume_beside moved).senders]
    exact sound.senders
  | cancel =>
    obtain rfl := Option.some.inj moved
    exact ⟨sound.holds.kept rfl rfl rfl rfl (.inr rfl), sound.senders⟩
  | stop =>
    obtain rfl := Option.some.inj moved
    exact ⟨sound.holds.kept rfl rfl rfl rfl (.inl rfl), sound.senders⟩

end Senders

end Hop

/-! ## The three loops -/

end Dragonfly.QueueHops
