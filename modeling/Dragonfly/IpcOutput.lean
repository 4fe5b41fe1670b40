import Dragonfly.Msgqueue
import Dragonfly.Stages

/-!
# `lua_output_thread` with a datagram socket

The sink of an `ipc://` URI is a connected datagram socket. `ipc_write_message` refuses
an empty message and one of `DF_MAX_BUFFER_LEN` bytes or more; a refused write ends
`lua_output_loop`, and the thread closes the socket and opens another one. Rotating such
a sink does nothing, so a message that is the rotate message is not sent.

The peer accepts every datagram: opening the socket succeeds and `send` returns the length
of its buffer. A frame is put into the queue and taken from it in one step. The barrier
before the loop and the statistics are left out.

Every socket is accounted for, too: there is never more than one, and each was closed for one
message the sink refused. A thread that is left alone is done with every message in the end; a
rank that counts the messages in its queue says how long that may last.
-/

namespace Dragonfly.IpcOutput

open Flywheel Msgqueue Stages

/-- The constant `DF_MAX_BUFFER_LEN`: the length from which on `ipc_write_message` refuses a
message. -/
def dfMaxBufferLen : Nat := 2048

/-- The error number `EIO`: an error of input or output. -/
def eio : Errno := .other 5

/-- The error number `EINVAL`: an argument that is not valid. -/
def einval : Errno := .other 22

/-- The error number `ENOBUFS`: there was no room in the buffers of the kernel. -/
def enobufs : Errno := .other 105

/-! ## Writing a message -/

/-- One shared operation of `ipc_write_message`. The answer of `send` comes with `errno`
as it stands behind the call. -/
inductive IpcOperation (Point Result : Type) where
  | send (bytes : List Byte) (resume : Answer Nat → Option Errno → Outcome Point Result)
  | reopen (resume : Outcome Point Result)

/-- The points of the loop of `ipc_write_message`: `send` and `ipc_reopen`. -/
inductive WritePoint where
  | send (bytes : List Byte)
  | reopen (bytes : List Byte)

/-- The function `ipc_write_message` up to its loop: an empty message and one that reaches the
bound are refused. -/
def ipcWriteMessage (buffer : List Byte) : Outcome WritePoint Int :=
  let len := strnlen buffer dfMaxBufferLen
  if len = 0 ∨ len = dfMaxBufferLen then .ret (-1) else .goto (.send (buffer.take len))

/-- The loop of `ipc_write_message`: it sends until a `send` succeeds, but looks at `errno`
behind a success and reopens the socket where it finds `EIO`. An error that does not pass ends
the process. -/
def ipcWriteLoop : WritePoint → IpcOperation WritePoint Int
  | .send bytes => .send bytes fun
      | .failed error, _ =>
          if error = .etimedout ∨ error = enobufs ∨ error = .eagain ∨ error = einval then
            .goto (.send bytes)
          else .exit
      | .moved n, errno => if n = 0 ∨ errno = some eio then .goto (.reopen bytes) else .ret n
  | .reopen bytes => .reopen (.goto (.send bytes))

/-! ## The thread -/

/-- One operation of the thread; a step nobody else can see is one of its own. -/
inductive Operation (Point Result : Type) where
  | loadRunning (resume : Bool → Outcome Point Result)
  | ioOpen (resume : Bool → Outcome Point Result)
  | recv (len : Nat) (resume : Int → List Byte → Outcome Point Result)
  | ipc (operation : IpcOperation Point Result)
  | local (outcome : Outcome Point Result)
  | ioClose (resume : Outcome Point Result)

/-- The points of `lua_output_thread`: the loop condition, `dragonfly_io_open`, the loop,
the write of a message in the loop, and `dragonfly_io_close`. -/
inductive ThreadPoint where
  | test
  | opening
  | loop (point : StagePoint Unit (List Byte))
  | writing (message : List Byte) (point : WritePoint)
  | closing

/-- The loop of the thread goes on inside its next point, or it returns, and the thread goes on
to close the socket. -/
def onLoop (outcome : Outcome (StagePoint Unit (List Byte)) Unit) : Outcome ThreadPoint Unit :=
  outcome.call .loop fun _ => .goto .closing

/-- The write of a message goes on, or returns to the loop. -/
def onWrite (message : List Byte)
    (resume : Int → Outcome (StagePoint Unit (List Byte)) Unit) :
    Outcome WritePoint Int → Outcome ThreadPoint Unit :=
  fun outcome => outcome.call (.writing message) fun n => onLoop (resume n)

/-- The loop on a socket: `dragonfly_io_write` is `ipc_write_message`, and
`dragonfly_io_rotate` leaves it alone. -/
def callLoop (message : List Byte) :
    StageOperation Empty (StagePoint Unit (List Byte)) Unit → Operation ThreadPoint Unit
  | .loadRunning resume => .loadRunning fun running => onLoop (resume running)
  | .recv len resume => .recv len fun n buffer => onLoop (resume n buffer)
  | .callLoop argument _ => argument.elim
  | .ioWrite buffer resume => .local (onWrite message resume (ipcWriteMessage buffer))
  | .ioRotate resume => .local (onLoop resume)

/-- What the loop does with the result of a write. -/
def afterWrite (message : List Byte) (n : Int) : Outcome (StagePoint Unit (List Byte)) Unit :=
  match luaOutputLoop (.handle () message) with
  | .ioWrite _ resume => resume n
  | _ => .exit

/-- The function `lua_output_thread`: while the engine runs it opens the sink, runs the loop on
it, and closes the sink behind the loop. -/
def luaOutputThread : ThreadPoint → Operation ThreadPoint Unit
  | .test => .loadRunning fun running => if running then .goto .opening else .ret ()
  | .opening => .ioOpen fun opened => if opened then .goto (.loop (.test ())) else .ret ()
  | .loop (.handle locals message) => callLoop message (luaOutputLoop (.handle locals message))
  | .loop point => callLoop [] (luaOutputLoop point)
  | .writing message point =>
      match ipcWriteLoop point with
      | .send bytes resume => .ipc (.send bytes fun answer errno =>
          onWrite message (afterWrite message) (resume answer errno))
      | .reopen resume => .ipc (.reopen (onWrite message (afterWrite message) resume))
  | .closing => .ioClose (.goto .test)

/-- `g_running`, the thread and its queue, all messages so far, the datagrams, and how
often a socket was opened and closed. -/
structure State where
  running : Bool
  thread : Activity ThreadPoint Unit
  queue : List (List Byte)
  requests : List (List Byte)
  datagrams : List (List Byte)
  opens : Nat
  closes : Nat

/-- Perform an operation of a write, with `errno` as it stands behind it. -/
def State.performIpc (state : State) (errno : Option Errno) :
    IpcOperation ThreadPoint Unit → State × Outcome ThreadPoint Unit
  | .send bytes resume =>
      ({ state with datagrams := state.datagrams ++ [bytes] },
        resume (.moved bytes.length) errno)
  | .reopen resume =>
      ({ state with opens := state.opens + 1, closes := state.closes + 1 }, resume)

/-- Perform an operation of the thread. An empty queue blocks. -/
def State.perform (state : State) (errno : Option Errno) :
    Operation ThreadPoint Unit → Option (State × Outcome ThreadPoint Unit)
  | .loadRunning resume => some (state, resume state.running)
  | .ioOpen resume => some ({ state with opens := state.opens + 1 }, resume true)
  | .recv len resume =>
      match state.queue with
      | [] => none
      | message :: rest =>
          if message.length ≤ len then
            some ({ state with queue := rest }, resume message.length message)
          else none
  | .ipc operation => some (state.performIpc errno operation)
  | .local outcome => some (state, outcome)
  | .ioClose resume => some ({ state with closes := state.closes + 1 }, resume)

/-- A message is put into the queue, a step of the thread with `errno` as it leaves it, or
the end of the engine. -/
inductive Label where
  | put (message : List Byte)
  | step (errno : Option Errno)
  | stop

/-- One step of the thread, whose call leaves an error number, or a message that is put into its
queue. -/
def next (state : State) : Label → Option State
  | .put message => some { state with
      queue := state.queue ++ [message.take maxBufferSize]
      requests := state.requests ++ [message] }
  | .step errno =>
      match state.thread with
      | .inside point => (state.perform errno (luaOutputThread point)).map fun (after, outcome) =>
          { after with thread := .after outcome }
      | _ => none
  | .stop => some { state with running := false }

/-- The thread in front of its first test of the flag, with an empty queue and no socket. -/
def initial : State where
  running := true
  thread := .inside .test
  queue := []
  requests := []
  datagrams := []
  opens := 0
  closes := 0

/-- The runs of the thread, in which messages are put into the queue at any time. -/
def system : System State Label where
  start state := state = initial
  next := next

/-- Only messages with this property are put into the queue, and no call leaves `EIO` in
`errno`. -/
def Puts (accepted : List Byte → Prop) (_ : State) : Label → Prop
  | .put message => accepted message
  | .step errno => errno ≠ some eio
  | .stop => True

instance (accepted : List Byte → Prop) [DecidablePred accepted] :
    ∀ state label, Decidable (Puts accepted state label)
  | _, .put message => inferInstanceAs (Decidable (accepted message))
  | _, .step errno => inferInstanceAs (Decidable (errno ≠ some eio))
  | _, .stop => .isTrue trivial

/-- A message that is not empty, has no zero bytes, and is short enough for the queue to admit
it whole. -/
structure Text (message : List Byte) : Prop where
  nonempty : message ≠ []
  text : 0 ∉ message
  short : message.length < maxBufferSize

/-- The message is the rotate message when the case of its letters is ignored, as `strcasecmp`
ignores it. -/
def Rotates (message : List Byte) : Prop := strcasecmp (message ++ [0]) rotateMessage = 0

instance : DecidablePred Rotates := fun message =>
  inferInstanceAs (Decidable (strcasecmp (message ++ [0]) rotateMessage = 0))

/-- The sink sends the message: it is not the rotate message, and it is shorter than the bound
of `ipc_write_message`. -/
def Accepted (message : List Byte) : Prop := ¬ Rotates message ∧ message.length < dfMaxBufferLen

/-- The sink refuses the message: it is not the rotate message, and it reaches the bound of
`ipc_write_message`. -/
def Refused (message : List Byte) : Prop := ¬ Rotates message ∧ dfMaxBufferLen ≤ message.length

instance : DecidablePred Accepted := fun message =>
  inferInstanceAs (Decidable (¬ Rotates message ∧ message.length < dfMaxBufferLen))

instance : DecidablePred Refused := fun message =>
  inferInstanceAs (Decidable (¬ Rotates message ∧ dfMaxBufferLen ≤ message.length))

/-- How many of the messages the thread is done with were refused by the sink. -/
def refusals (done : List (List Byte)) : Nat := done.countP fun message => decide (Refused message)

/-- The messages done with, at most one in the hands of the thread, and those in the queue
are all messages in order. At its `msgqueue_recv` the loop has none in its hands, and a
thread that cannot go on while the engine runs is done with all of them. -/
structure Divides (state : State) (done held : List (List Byte)) : Prop where
  whole : state.requests = done ++ held ++ state.queue
  single : held.length ≤ 1
  between : state.thread = .inside (.loop (.recv ())) → held = []
  served : state.running = true → next state (.step none) = none → state.requests = done

/-- The datagrams are the messages done with, each once and in order, and while the engine
runs no socket was closed. -/
def Faithful (state : State) : Prop :=
  ∃ done held, Divides state done held ∧ state.datagrams = done ∧
    (state.running = true → state.closes = 0)

/-- How many sockets a thread at this place has open, which is never more than one. -/
def sockets : Activity ThreadPoint Unit → Nat
  | .inside .test => 0
  | .inside .opening => 0
  | .inside _ => 1
  | .outside _ => 0
  | .ended => 0

/-- The thread has left its loop and is about to close its socket, which counts as one more to
be closed. -/
def closing : Activity ThreadPoint Unit → Nat
  | .inside .closing => 1
  | _ => 0

/-- The steps of the thread alone, with `errno` as each of them leaves it. -/
def ownSteps (errnos : Nat → Option Errno) (index : Nat) : Label := .step (errnos index)

/-- The thread is done with all messages: those the sink sends were sent, each once and in order,
and a socket was closed for each it refuses. -/
def AllDone (requests : List (List Byte)) (state : State) : Prop :=
  state.requests = requests ∧
    state.datagrams = requests.filter (fun message => decide (Accepted message)) ∧
    state.closes = refusals requests

/-- The datagrams are those of the messages done with that the sink sends. While the engine runs,
a socket was closed, or is about to be, for each message the sink refused and for nothing else;
and the sockets that were opened are those that were closed and the one the thread has. A thread
of a running engine that is left alone comes to be done with all messages, unless a call leaves
`EIO` in `errno`. -/
structure Accounted (state : State) : Prop where
  sent : ∃ done held, Divides state done held ∧
    state.datagrams = done.filter (fun message => decide (Accepted message)) ∧
    (state.running = true → state.closes + closing state.thread = refusals done)
  opened : state.opens = state.closes + sockets state.thread
  completes : state.running = true → ∀ errnos,
    system.Comes (Puts Text) (AllDone state.requests) (ownSteps errnos) state

/-! ## What becomes of a message -/

/-- A message of fewer than `DF_MAX_BUFFER_LEN` bytes is sent as a whole. -/
theorem write_accepted {message : List Byte} (text : Text message)
    (short : message.length < dfMaxBufferLen) :
    ipcWriteMessage (message ++ [0]) = .goto (.send message) := by
  have length := strnlen_terminated text.text short
  have nonempty : message.length ≠ 0 := fun empty =>
    text.nonempty (List.length_eq_zero_iff.mp empty)
  have refused : ¬ (message.length = 0 ∨ message.length = dfMaxBufferLen) := by omega
  rw [ipcWriteMessage]
  rw [length, if_neg refused, List.take_left]

/-- A text that reaches the bound is refused by `ipc_write_message` before anything is sent. -/
theorem write_refused {message : List Byte} (text : Text message)
    (long : dfMaxBufferLen ≤ message.length) : ipcWriteMessage (message ++ [0]) = .ret (-1) := by
  rw [ipcWriteMessage]
  rw [strnlen_long text.text long, if_pos (.inr rfl)]

/-- Every message is the rotate message, or one the sink sends, or one the sink refuses. -/
theorem message_cases (message : List Byte) :
    Rotates message ∨ Accepted message ∨ Refused message := by
  by_cases rotates : Rotates message
  · exact .inl rotates
  · rcases Nat.lt_or_ge message.length dfMaxBufferLen with short | long
    · exact .inr (.inl ⟨rotates, short⟩)
    · exact .inr (.inr ⟨rotates, long⟩)

/-! ## Runs -/

/-- Where the thread stands, with the message in its hands. -/
inductive Stands (running : Bool) : List (List Byte) → Activity ThreadPoint Unit → Prop where
  | test : Stands running [] (.inside .test)
  | opening : Stands running [] (.inside .opening)
  | condition : Stands running [] (.inside (.loop (.test ())))
  | recv : Stands running [] (.inside (.loop (.recv ())))
  | handle (message : List Byte) (text : Text message) :
      Stands running [message] (.inside (.loop (.handle () message)))
  | writing (message : List Byte) (text : Text message) (accepted : Accepted message) :
      Stands running [message] (.inside (.writing message (.send message)))
  | closing : Stands running [] (.inside .closing)
  | outside (stopped : running = false) : Stands running [] (.outside ())

/-- The messages are texts, and each is done with, in the hands of the thread, or waiting; and the
sockets are accounted for. -/
structure Holds (state : State) (done held : List (List Byte)) : Prop where
  texts : ∀ message ∈ state.requests, Text message
  whole : state.requests = done ++ held ++ state.queue
  sent : state.datagrams = done.filter (fun message => decide (Accepted message))
  closed : state.running = true → state.closes + closing state.thread = refusals done
  opened : state.opens = state.closes + sockets state.thread
  stands : Stands state.running held state.thread

/-- The thread has at most one message in its hands, and none at its `msgqueue_recv`. -/
theorem stands_held {running : Bool} {held : List (List Byte)}
    {thread : Activity ThreadPoint Unit} (stands : Stands running held thread) :
    held.length ≤ 1 ∧ (thread = .inside (.loop (.recv ())) → held = []) := by
  cases stands with
  | handle message => exact ⟨Nat.le_refl 1, fun place => by cases place⟩
  | writing message => exact ⟨Nat.le_refl 1, fun place => by cases place⟩
  | _ => exact ⟨Nat.zero_le 1, fun _ => rfl⟩

/-- The end of the engine leaves the thread where it stands. -/
theorem stands_stopped {running : Bool} {held : List (List Byte)}
    {thread : Activity ThreadPoint Unit} (stands : Stands running held thread) :
    Stands false held thread := by
  cases stands with
  | test => exact .test
  | opening => exact .opening
  | condition => exact .condition
  | recv => exact .recv
  | handle message text => exact .handle message text
  | writing message text accepted => exact .writing message text accepted
  | closing => exact .closing
  | outside => exact .outside rfl

/-- Steps of the thread until it waits for a message. -/
def delay : Activity ThreadPoint Unit → Nat
  | .inside (.loop (.handle _ _)) => 7
  | .inside (.writing _ _) => 6
  | .inside .closing => 5
  | .inside .test => 4
  | .inside .opening => 3
  | .inside (.loop (.test _)) => 2
  | _ => 1

/-- A bound on the steps of a thread that is left alone until it waits at an empty queue. -/
def State.rank (state : State) : Nat := 8 * state.queue.length + delay state.thread

/-- What a step of the thread leaves: the account, and less to do. -/
structure Stepped (state after : State) : Prop where
  holds : ∃ done held, Holds after done held
  running : after.running = state.running
  requests : after.requests = state.requests
  lower : after.rank < state.rank

/-- A message the thread is done with leaves its hands. -/
theorem done_appended {requests done queue : List (List Byte)} {message : List Byte}
    (whole : requests = done ++ [message] ++ queue) :
    requests = (done ++ [message]) ++ [] ++ queue := by
  simpa using whole

/-- A refused message raises the count, any other keeps it. -/
theorem refusals_appended (done : List (List Byte)) (message : List Byte) :
    refusals (done ++ [message]) = refusals done + if Refused message then 1 else 0 := by
  by_cases refused : Refused message <;> simp [refusals, List.countP_append, refused]

/-- A message that is not accepted adds nothing to the messages that are sent of a list. -/
theorem sent_unaccepted {done : List (List Byte)} {message : List Byte}
    (refused : ¬ Accepted message) :
    (done ++ [message]).filter (fun message => decide (Accepted message)) =
      done.filter fun message => decide (Accepted message) := by
  simp [refused]

/-- A message that is accepted is sent once more, behind those that are sent of the list in
front of it. -/
theorem sent_accepted {done : List (List Byte)} {message : List Byte}
    (accepted : Accepted message) :
    (done ++ [message]).filter (fun message => decide (Accepted message)) =
      done.filter (fun message => decide (Accepted message)) ++ [message] := by
  simp [accepted]

/-- The handler of a message rotates the sink, starts a write, or has one refused. -/
theorem handle_cases {message : List Byte} (text : Text message) :
    (Rotates message ∧ callLoop message (luaOutputLoop (.handle () message)) =
      .local (.goto (.loop (.test ())))) ∨
    (Accepted message ∧ callLoop message (luaOutputLoop (.handle () message)) =
      .local (.goto (.writing message (.send message)))) ∨
    (Refused message ∧ callLoop message (luaOutputLoop (.handle () message)) =
      .local (.goto .closing)) := by
  rcases message_cases message with rotates | accepted | refused
  · left
    refine ⟨rotates, ?_⟩
    have compared : strcasecmp (message ++ [0]) rotateMessage = 0 := rotates
    simp [luaOutputLoop, stageLoop, compared, callLoop, onLoop, Outcome.call]
  · right; left
    refine ⟨accepted, ?_⟩
    have compared : strcasecmp (message ++ [0]) rotateMessage ≠ 0 := accepted.1
    simp [luaOutputLoop, stageLoop, compared, callLoop, onWrite, Outcome.call,
      write_accepted text accepted.2]
  · right; right
    refine ⟨refused, ?_⟩
    have compared : strcasecmp (message ++ [0]) rotateMessage ≠ 0 := refused.1
    simp [luaOutputLoop, stageLoop, compared, callLoop, onLoop, onWrite, Outcome.call,
      write_refused text refused.2]

section Steps

variable {state : State} {done : List (List Byte)}

/-- A step of the thread that has a message in its hands. -/
theorem handle_step {message : List Byte} (holds : Holds state done [message])
    (text : Text message) (place : state.thread = .inside (.loop (.handle () message)))
    (errno : Option Errno) :
    ∃ after, next state (.step errno) = some after ∧ Stepped state after := by
  obtain ⟨texts, whole, sent, closed, opened, -⟩ := holds
  rw [place] at closed opened
  have here : state.rank = 8 * state.queue.length + 7 := by simp only [State.rank, place, delay]
  simp only [next, place, luaOutputThread]
  rcases handle_cases text with ⟨rotates, called⟩ | ⟨accepted, called⟩ | ⟨refused, called⟩
  · rw [called]
    refine ⟨_, rfl, ⟨done ++ [message], [], texts, done_appended whole, ?_, fun running => ?_,
      opened, .condition⟩, rfl, rfl, here ▸ Nat.add_lt_add_left (by decide : 2 < 7) _⟩
    · exact sent.trans (sent_unaccepted fun accepted => accepted.1 rotates).symm
    · rw [refusals_appended, if_neg fun refused => refused.1 rotates]
      exact closed running
  · rw [called]
    exact ⟨_, rfl, ⟨done, [message], texts, whole, sent, closed, opened,
      .writing message text accepted⟩, rfl, rfl, here ▸ Nat.add_lt_add_left (by decide : 6 < 7) _⟩
  · rw [called]
    refine ⟨_, rfl, ⟨done ++ [message], [], texts, done_appended whole, ?_, fun running => ?_,
      opened, .closing⟩, rfl, rfl, here ▸ Nat.add_lt_add_left (by decide : 5 < 7) _⟩
    · exact sent.trans (sent_unaccepted fun accepted =>
        Nat.not_lt.mpr refused.2 accepted.2).symm
    · rw [refusals_appended, if_pos refused]
      exact congrArg (· + 1) (closed running)

/-- A step of the thread in a write: the datagram is sent, and the loop goes on. -/
theorem writing_step {message : List Byte} (holds : Holds state done [message])
    (text : Text message) (accepted : Accepted message)
    (place : state.thread = .inside (.writing message (.send message))) {errno : Option Errno}
    (unset : errno ≠ some eio) :
    ∃ after, next state (.step errno) = some after ∧ Stepped state after := by
  obtain ⟨texts, whole, sent, closed, opened, -⟩ := holds
  rw [place] at closed opened
  have nonempty : message.length ≠ 0 := fun empty =>
    text.nonempty (List.length_eq_zero_iff.mp empty)
  have compared : strcasecmp (message ++ [0]) rotateMessage ≠ 0 := accepted.1
  have resumed : onWrite message (afterWrite message) (.ret (message.length : Int)) =
      .goto (.loop (.test ())) := by
    have nonnegative : ¬ (message.length : Int) < 0 := Int.not_lt.mpr (Int.natCast_nonneg _)
    simp [nonnegative, onWrite, afterWrite, luaOutputLoop, stageLoop, compared, onLoop,
      Outcome.call]
  have here : state.rank = 8 * state.queue.length + 6 := by simp only [State.rank, place, delay]
  simp only [next, place, luaOutputThread, ipcWriteLoop, State.perform, State.performIpc,
    nonempty, unset, or_self, if_false, resumed, Option.map_some]
  refine ⟨_, rfl, ⟨done ++ [message], [], texts, done_appended whole, ?_, fun running => ?_,
    opened, .condition⟩, rfl, rfl, here ▸ Nat.add_lt_add_left (by decide : 2 < 6) _⟩
  · exact (congrArg (· ++ [message]) sent).trans (sent_accepted accepted).symm
  · rw [refusals_appended, if_neg fun refused => Nat.not_lt.mpr refused.2 accepted.2]
    exact closed running

/-- A step of the thread at its `msgqueue_recv`: the first message gets into its hands. -/
theorem recv_step (holds : Holds state done [])
    (place : state.thread = .inside (.loop (.recv ()))) {message : List Byte}
    {rest : List (List Byte)} (waiting : state.queue = message :: rest) (errno : Option Errno) :
    ∃ after, next state (.step errno) = some after ∧ Stepped state after := by
  obtain ⟨texts, whole, sent, closed, opened, -⟩ := holds
  rw [place] at closed opened
  have text : Text message := texts message (by simp [whole, waiting])
  have nonempty : ¬ (message.length : Int) ≤ 0 := by
    have positive := List.length_pos_iff.mpr text.nonempty
    omega
  have short : ¬ (message.length : Int) = maxBufferSize := by
    have bounded := text.short
    omega
  have fits : message.length ≤ maxBufferSize := Nat.le_of_lt text.short
  have here : state.rank = 8 * (rest.length + 1) + 1 := by
    simp only [State.rank, place, delay, waiting, List.length_cons]
  simp only [next, place, luaOutputThread, luaOutputLoop, stageLoop, callLoop, State.perform,
    waiting, if_pos fits, if_neg nonempty, if_neg short, Int.toNat_natCast, List.take_length,
    onLoop, Outcome.call, Option.map_some]
  refine ⟨_, rfl, ⟨done, [message], texts, ?_, sent, closed, opened, .handle message text⟩, rfl,
    rfl, ?_⟩
  · simpa [waiting] using whole
  · rw [here]
    simp only [State.rank, Activity.after, delay]
    omega

/-- A step of the thread at a condition of a running engine, or at the open of the socket. -/
theorem idle_step (holds : Holds state done []) (running : state.running = true)
    (place : state.thread = .inside .test ∨ state.thread = .inside .opening ∨
      state.thread = .inside (.loop (.test ()))) (errno : Option Errno) :
    ∃ after, next state (.step errno) = some after ∧ Stepped state after := by
  obtain ⟨texts, whole, sent, closed, opened, -⟩ := holds
  rcases place with place | place | place
  · rw [place] at closed opened
    simp only [next, place, luaOutputThread, State.perform, running]
    refine ⟨_, rfl, ⟨done, [], texts, whole, sent, closed, opened, .opening⟩, rfl, rfl, ?_⟩
    simp only [State.rank, place, if_true, Activity.after, delay]
    omega
  · rw [place] at closed opened
    simp only [next, place, luaOutputThread, State.perform]
    refine ⟨_, rfl, ⟨done, [], texts, whole, sent, closed, congrArg (· + 1) opened, .condition⟩,
      rfl, rfl, ?_⟩
    simp only [State.rank, place, if_true, Activity.after, delay]
    omega
  · rw [place] at closed opened
    simp only [next, place, luaOutputThread, luaOutputLoop, stageLoop, callLoop, State.perform,
      running]
    refine ⟨_, rfl, ⟨done, [], texts, whole, sent, closed, opened, .recv⟩, rfl, rfl, ?_⟩
    simp only [State.rank, place, if_true, onLoop, Outcome.call, Activity.after, delay]
    omega

/-- A step of the thread behind its loop: the socket is closed. -/
theorem closing_step (holds : Holds state done []) (place : state.thread = .inside .closing)
    (errno : Option Errno) :
    ∃ after, next state (.step errno) = some after ∧ Stepped state after := by
  obtain ⟨texts, whole, sent, closed, opened, -⟩ := holds
  rw [place] at closed opened
  simp only [next, place, luaOutputThread, State.perform]
  refine ⟨_, rfl, ⟨done, [], texts, whole, sent, closed, opened, .test⟩, rfl, rfl, ?_⟩
  simp only [State.rank, place, Activity.after, delay]
  omega

/-- The thread of a running engine makes its next step and keeps the account, unless it waits at
an empty queue. -/
theorem thread_step {held : List (List Byte)} (holds : Holds state done held)
    (running : state.running = true) {errno : Option Errno} (unset : errno ≠ some eio) :
    (∃ after, next state (.step errno) = some after ∧ Stepped state after) ∨
      (state.thread = .inside (.loop (.recv ())) ∧ held = [] ∧ state.queue = []) := by
  have stands := holds.stands
  generalize place : state.thread = thread at stands
  cases stands with
  | test => exact .inl (idle_step holds running (.inl place) errno)
  | opening => exact .inl (idle_step holds running (.inr (.inl place)) errno)
  | condition => exact .inl (idle_step holds running (.inr (.inr place)) errno)
  | recv =>
    cases waiting : state.queue with
    | nil => exact .inr ⟨rfl, rfl, rfl⟩
    | cons message rest => exact .inl (recv_step holds place waiting errno)
  | handle message text => exact .inl (handle_step holds text place errno)
  | writing message text accepted => exact .inl (writing_step holds text accepted place unset)
  | closing => exact .inl (closing_step holds place errno)
  | outside stopped => exact Bool.noConfusion (stopped.symm.trans running)

/-- A step of a thread whose engine was stopped keeps the account. -/
theorem stopped_step {after : State} {held : List (List Byte)} {errno : Option Errno}
    (holds : Holds state done held) (stopped : state.running = false) (unset : errno ≠ some eio)
    (moved : next state (.step errno) = some after) : ∃ done held, Holds after done held := by
  obtain ⟨texts, whole, sent, -, opened, stands⟩ := id holds
  have halted {claim : Prop} (runs : state.running = true) : claim :=
    Bool.noConfusion (stopped.symm.trans runs)
  have kept (step : ∃ after, next state (.step errno) = some after ∧ Stepped state after) :
      ∃ done held, Holds after done held := by
    obtain ⟨reached, made, stepped⟩ := step
    obtain rfl : reached = after := Option.some.inj (made.symm.trans moved)
    exact stepped.holds
  generalize place : state.thread = thread at stands
  cases stands with
  | test =>
    rw [place] at opened
    simp only [next, place, luaOutputThread, State.perform, stopped] at moved
    obtain rfl := Option.some.inj moved
    exact ⟨done, [], texts, whole, sent, halted, opened, .outside stopped⟩
  | opening =>
    rw [place] at opened
    simp only [next, place, luaOutputThread, State.perform] at moved
    obtain rfl := Option.some.inj moved
    exact ⟨done, [], texts, whole, sent, halted, congrArg (· + 1) opened, .condition⟩
  | condition =>
    rw [place] at opened
    simp only [next, place, luaOutputThread, luaOutputLoop, stageLoop, callLoop, State.perform,
      stopped] at moved
    obtain rfl := Option.some.inj moved
    exact ⟨done, [], texts, whole, sent, halted, opened, .closing⟩
  | recv =>
    cases waiting : state.queue with
    | nil => simp [next, place, luaOutputThread, luaOutputLoop, stageLoop, callLoop, State.perform,
        waiting] at moved
    | cons message rest => exact kept (recv_step holds place waiting errno)
  | handle message text => exact kept (handle_step holds text place errno)
  | writing message text accepted => exact kept (writing_step holds text accepted place unset)
  | closing => exact kept (closing_step holds place errno)
  | outside => simp [next, place] at moved

end Steps

/-- A step with texts in the queue keeps the account. -/
theorem step_holds {state after : State} {label : Label}
    (holds : ∃ done held, Holds state done held) (admitted : Puts Text state label)
    (moved : next state label = some after) : ∃ done held, Holds after done held := by
  obtain ⟨done, held, holds⟩ := holds
  cases label with
  | put message =>
    have text : Text message := admitted
    obtain rfl := Option.some.inj moved
    refine ⟨done, held, fun other member => ?_, ?_, holds.sent, holds.closed, holds.opened,
      holds.stands⟩
    · rcases List.mem_append.mp member with earlier | last
      · exact holds.texts other earlier
      · exact List.mem_singleton.mp last ▸ text
    · simp [holds.whole, List.take_of_length_le (Nat.le_of_lt text.short)]
  | stop =>
    obtain rfl := Option.some.inj moved
    exact ⟨done, held, holds.texts, holds.whole, holds.sent, fun runs => Bool.noConfusion runs,
      holds.opened, stands_stopped holds.stands⟩
  | step errno =>
    cases running : state.running with
    | false => exact stopped_step holds running admitted moved
    | true =>
      rcases thread_step holds running admitted with ⟨reached, made, stepped⟩ | ⟨place, -, empty⟩
      · obtain rfl : reached = after := Option.some.inj (made.symm.trans moved)
        exact stepped.holds
      · simp [next, place, luaOutputThread, luaOutputLoop, stageLoop, callLoop, State.perform,
          empty] at moved

/-- The account holds in every run whose messages are texts. -/
theorem run_holds {state : State} (reached : system.Reaches (Puts Text) state) :
    ∃ done held, Holds state done held := by
  refine reached.invariant (fun state => ∃ done held, Holds state done held) ?_
    fun _ _ _ holds admitted moved => step_holds holds admitted moved
  rintro _ rfl
  exact ⟨[], [], by simp [initial], rfl, rfl, fun _ => rfl, rfl, .test⟩

/-- A thread of a running engine that is left alone comes to be done with all messages. -/
theorem thread_completes {state : State} (holds : ∃ done held, Holds state done held)
    (running : state.running = true) (errnos : Nat → Option Errno) :
    system.Comes (Puts Text) (AllDone state.requests) (ownSteps errnos) state := by
  refine System.Comes.lowered
    (fun now => (∃ done held, Holds now done held) ∧ now.running = true ∧
      now.requests = state.requests)
    State.rank ?_ ⟨holds, running, rfl⟩
  rintro index now ⟨⟨done, held, holds⟩, running, same⟩ unfinished admitted
  rcases thread_step holds running admitted with ⟨after, moved, stepped⟩ | ⟨place, rfl, empty⟩
  · exact ⟨after, moved, ⟨stepped.holds, stepped.running.trans running,
      stepped.requests.trans same⟩, stepped.lower⟩
  · -- The thread waits at an empty queue with nothing in its hands.
    have all : state.requests = done := by simpa [same, empty] using holds.whole
    have closed := holds.closed running
    rw [place] at closed
    exact absurd ⟨same, all ▸ holds.sent, all ▸ closed⟩ unfinished

/-- In every run each text below `DF_MAX_BUFFER_LEN` bytes other than the rotate message is
sent exactly once and in order; the sink refuses a longer one, and while the engine runs a
socket is closed exactly once for each refusal, and another one opened. A thread that is left
alone is done with all messages in the end. -/
theorem ipc_messages_accounted {state : State} (reached : system.Reaches (Puts Text) state) :
    Accounted state := by
  obtain ⟨done, held, holds⟩ := run_holds reached
  obtain ⟨single, between⟩ := stands_held holds.stands
  constructor
  · refine ⟨done, held, ⟨holds.whole, single, between, fun running blocked => ?_⟩, holds.sent,
      holds.closed⟩
    have unset : (none : Option Errno) ≠ some eio := by simp
    rcases thread_step holds running unset with ⟨after, moved, -⟩ | ⟨-, rfl, empty⟩
    · rw [moved] at blocked
      cases blocked
    · simpa [empty] using holds.whole
  · exact holds.opened
  · exact fun running errnos => thread_completes ⟨done, held, holds⟩ running errnos

/-- The thread gets to its `msgqueue_recv`, a message is put into the queue, and the thread
makes some steps. -/
def oneMessage (message : List Byte) (steps : Nat) : List Label :=
  List.replicate 3 (.step none) ++ .put message :: List.replicate steps (.step none)

/-- A run for one message is a run with messages that are meant for the sink, if this one is. -/
theorem one_message_reaches {accepted : List Byte → Prop} {message : List Byte} {steps : Nat}
    {state : State} (meant : accepted message)
    (completed : system.follow (oneMessage message steps) initial = some state) :
    system.Reaches (Puts accepted) state := by
  refine (System.Reaches.initial rfl).followed _ state ?_ completed
  have admitted : ∀ label ∈ oneMessage message steps, ∀ state, Puts accepted state label := by
    intro label member state
    simp only [oneMessage, List.mem_append, List.mem_replicate, List.mem_cons] at member
    rcases member with ⟨_, rfl⟩ | rfl | ⟨_, rfl⟩
    · exact fun leaves => by cases leaves
    · exact meant
    · exact fun leaves => by cases leaves
  exact System.admits_everywhere admitted initial

/-- The law for a message of one letter that the thread has taken. -/
theorem ipc_messages_accounted_letter :
    ∃ state, system.Reaches (Puts Text) state ∧ state.datagrams = [[97]] ∧ Accounted state := by
  have text : Text [97] := ⟨by decide, by decide, by decide⟩
  obtain ⟨state, completed, sent⟩ : ∃ state,
      system.follow (oneMessage [97] 3) initial = some state ∧ state.datagrams = [[97]] :=
    ⟨_, rfl, rfl⟩
  have reached := one_message_reaches text completed
  exact ⟨state, reached, sent, ipc_messages_accounted reached⟩

/-- The thread waits for another message, and has sent none. -/
structure Lost (state : State) : Prop where
  waits : state.thread = .inside (.loop (.recv ()))
  taken : state.queue = []
  unsent : state.datagrams = []
  asked : state.requests ≠ []

/-- The one message of a run to such a state was not sent. -/
theorem lost_not_faithful {accepted : List Byte → Prop} {message : List Byte} {steps : Nat}
    {state : State} (meant : accepted message)
    (completed : system.follow (oneMessage message steps) initial = some state)
    (lost : Lost state) :
    ¬ ∀ state, system.Reaches (Puts accepted) state → Faithful state := by
  intro claimed
  obtain ⟨done, held, divides, sent, _⟩ := claimed state (one_message_reaches meant completed)
  apply lost.asked
  rw [divides.whole, ← sent, lost.unsent, divides.between lost.waits, lost.taken]
  rfl

/-- A text the sink refuses is not sent, although the thread is done with it. -/
theorem refused_lost {message : List Byte} (text : Text message) (refused : Refused message) :
    ∃ state, system.follow (oneMessage message 6) initial = some state ∧ Lost state := by
  have whole : message.take maxBufferSize = message :=
    List.take_of_length_le (Nat.le_of_lt text.short)
  have nonempty := text.nonempty
  have short : ¬ (message.length : Int) = maxBufferSize := by
    have bounded := text.short
    omega
  have fits : message.length ≤ maxBufferSize := Nat.le_of_lt text.short
  have called : callLoop message (luaOutputLoop (.handle () message)) =
      .local (.goto .closing) := by
    rcases handle_cases text with ⟨rotates, _⟩ | ⟨accepted, _⟩ | ⟨_, called⟩
    · exact absurd rotates refused.1
    · exact absurd accepted.2 (Nat.not_lt.mpr refused.2)
    · exact called
  let waiting : State := { initial with
    thread := .inside (.loop (.recv ())), opens := 1, queue := [message], requests := [message] }
  let held : State := { waiting with
    thread := .inside (.loop (.handle () message)), queue := [] }
  let closing : State := { held with thread := .inside .closing }
  have arrived : system.follow (oneMessage message 6) initial =
      system.follow (List.replicate 6 (.step none))
        { waiting with queue := [message.take maxBufferSize] } := rfl
  have received : next waiting (.step none) = some held := by
    simp [next, waiting, held, luaOutputThread, luaOutputLoop, stageLoop, callLoop, State.perform,
      nonempty, short, fits, onLoop, Outcome.call, Activity.after]
  have ended : next held (.step none) = some closing := by
    simp [next, held, closing, luaOutputThread, called, State.perform, Activity.after]
  refine ⟨{ waiting with queue := [], opens := 2, closes := 1 }, ?_, rfl, rfl, rfl,
    List.cons_ne_nil message []⟩
  rw [arrived, whole]
  change (next waiting (.step none)).bind (system.follow (List.replicate 5 (.step none))) = _
  rw [received]
  change (next held (.step none)).bind (system.follow (List.replicate 4 (.step none))) = _
  rw [ended]
  rfl

/-- The rotate message is taken without a datagram, and so is a message of
`DF_MAX_BUFFER_LEN` bytes. -/
theorem rotate_and_long_messages_lost :
    (¬ ∀ state, system.Reaches
        (Puts fun message => Text message ∧ message.length < dfMaxBufferLen) state →
          Faithful state) ∧
      ¬ ∀ state, system.Reaches (Puts fun message => Text message ∧ ¬ Rotates message) state →
          Faithful state := by
  constructor
  · obtain ⟨state, completed, lost⟩ : ∃ state,
        system.follow (oneMessage rotateMessage 3) initial = some state ∧ Lost state :=
      ⟨_, rfl, rfl, rfl, rfl, by decide⟩
    have text : Text rotateMessage := ⟨by decide, by decide, by decide⟩
    refine lost_not_faithful ?_ completed lost
    exact ⟨text, by decide⟩
  · have length : (List.replicate dfMaxBufferLen (97 : Byte)).length = dfMaxBufferLen :=
      List.length_replicate
    have text : Text (List.replicate dfMaxBufferLen 97) := by
      refine ⟨fun empty => ?_, fun member => ?_, ?_⟩
      · rw [empty] at length
        exact absurd length (by decide)
      · exact absurd (List.eq_of_mem_replicate member) (by decide)
      · rw [length]
        decide
    have plain : ¬ Rotates (List.replicate dfMaxBufferLen 97) := by decide
    obtain ⟨state, completed, lost⟩ := refused_lost text ⟨plain, length.ge⟩
    refine lost_not_faithful ?_ completed lost
    exact ⟨text, plain⟩

end Dragonfly.IpcOutput
