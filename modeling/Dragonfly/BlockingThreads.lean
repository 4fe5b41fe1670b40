import Dragonfly.TimerDelivery

/-!
# The threads behind bounded queues: who blocks, and on what

An input, an analyzer and an output thread each read one queue and handle a message
before they read the next one. A send blocks while its queue is full, and
`timer_event` blocks while another thread of its process holds the timer lock. The
timer thread keeps this lock while it sends the messages of due timers; the
statistics it sends without it.

A script is the list of what its calls do behind their checks and scans: it sends to
output queues or to analyzers behind its own in a given order, and arms timers. It
raises no error. The filters run in a process with a timer lock of its own, in which
no thread sends timers. Writing to a sink succeeds. The engine runs.

Finding a due timer and beginning its send is one step, as is what `timer_event` does
while it holds the lock. The flywheels are the environment: a message arrives if the
input queue has room.
-/

namespace Dragonfly.Blocking

open Config Events Timers

/-- A started configuration, the capacities of the queues, and the order of the
analyzers. -/
structure Setup (Value : Type) where
  lua : Lua Value
  configuration : Configuration
  count : Nat
  started : Started configuration count
  capacity : Queue → Nat
  positive : ∀ queue, 0 < capacity queue
  order : Nat → Nat

/-- What a thread does while it handles a message: a `msgqueue_send`, the part of
`timer_event` behind its scan, or a write to the sink or its rotation. -/
inductive Action (Value : Type) where
  | send (queue : Queue) (message : List Byte)
  | timerEvent (slot : Nat) (arguments : List Value) (futureSeconds : Int)
  | write

/-- Where a thread is that reads a queue: at `msgqueue_recv`, in front of its next
action, or between `pthread_mutex_lock` and `pthread_mutex_unlock` in `timer_event`. -/
inductive ReaderPoint (Value : Type) where
  | recv
  | run (actions : List (Action Value))
  | locked (slot : Nat) (arguments : List Value) (futureSeconds : Int)
      (rest : List (Action Value))

/-- The points of `lua_timer_thread`: `sleep`, `pthread_mutex_lock`, a round of the
sweep, a `msgqueue_send` that waits for room, the check of the statistics and their
`msgqueue_send`. -/
inductive TimerPoint where
  | sleep
  | lock
  | sweep (slot : Nat)
  | sending (slot : Nat)
  | stats
  | sendStats

/-- The threads: the one that reads a queue, and the timer thread. -/
inductive Thread where
  | reader (queue : Queue)
  | timer
deriving DecidableEq

/-- The two processes of the program, each of which has a timer lock of its own: the engine, and
the one that runs the analyzers. -/
inductive Process where
  | engine
  | analyzers
deriving DecidableEq

/-- The process of the thread that reads a queue: analyzer queues are read in one process, all
other queues in the other. -/
def processOf : Queue → Process
  | .analyzer _ => .analyzers
  | _ => .engine

/-- The queues, the threads, the locks with their holders, and the timers and the
clock of the timer thread. -/
structure State (Value : Type) where
  queues : Queue → List (List Byte)
  readers : Queue → ReaderPoint Value
  timer : TimerPoint
  locks : Process → Option Thread
  timers : List MleTimer
  clock : Int
  lastTime : Int

/-- A step of a reader, which runs these actions if it receives a message; a step of
the timer thread, with what lies beyond the copy it sends and with the text of the
statistics; a message that arrives; time that passes. -/
inductive Label (Value : Type) where
  | reader (queue : Queue) (actions : List (Action Value))
  | timer (beyond : Nat → Byte) (statistics : List Byte)
  | arrive (index : Nat) (message : List Byte)
  | tick (seconds : Nat)

/-- The constant `DEFAULT_STATS_INTERVAL`: the seconds between two rounds of statistics. -/
def defaultStatsInterval : Int := 60

section Steps

variable {Value : Type} (setup : Setup Value)

/-- Filters send to analyzers and outputs, analyzers to later analyzers and outputs;
both may arm timers. An output writes. -/
def Allowed : Queue → Action Value → Prop
  | .input _, .send (.analyzer index) _ => index < setup.count
  | .analyzer before, .send (.analyzer index) _ =>
      index < setup.count ∧ setup.order before < setup.order index
  | .input _, .send (.output _) _ | .analyzer _, .send (.output _) _ => True
  | .input _, .timerEvent _ _ _ | .analyzer _, .timerEvent _ _ _ => True
  | .output _, .write => True
  | _, _ => False

instance : (queue : Queue) → (action : Action Value) → Decidable (Allowed setup queue action)
  | .input _, .send (.analyzer index) _ => inferInstanceAs (Decidable (index < setup.count))
  | .analyzer before, .send (.analyzer index) _ =>
      inferInstanceAs (Decidable (index < setup.count ∧ setup.order before < setup.order index))
  | .input _, .send (.output _) _ | .analyzer _, .send (.output _) _ => .isTrue trivial
  | .input _, .timerEvent _ _ _ | .analyzer _, .timerEvent _ _ _ => .isTrue trivial
  | .output _, .write => .isTrue trivial
  | .input _, .send (.input _) _ | .analyzer _, .send (.input _) _ => .isFalse id
  | .input _, .write | .analyzer _, .write => .isFalse id
  | .output _, .send _ _ | .output _, .timerEvent _ _ _ => .isFalse id

/-- A queue holds fewer messages than its capacity, so a send to it does not block. -/
def HasRoom (state : State Value) (queue : Queue) : Prop :=
  (state.queues queue).length < setup.capacity queue

instance (state : State Value) (queue : Queue) : Decidable (HasRoom setup state queue) :=
  inferInstanceAs (Decidable (_ < _))

/-- Put a message behind all others of one queue; nothing else of the state changes. -/
def State.put (state : State Value) (queue : Queue) (message : List Byte) : State Value :=
  { state with queues := Function.update state.queues queue (state.queues queue ++ [message]) }

/-- Move the reader of one queue to another point; all other threads stay where they are. -/
def State.moveReader (state : State Value) (queue : Queue) (point : ReaderPoint Value) :
    State Value :=
  { state with readers := Function.update state.readers queue point }

/-- Give the timer lock of a process to a thread, or take it from the thread that holds it. -/
def State.setLock (state : State Value) (process : Process) (holder : Option Thread) :
    State Value :=
  { state with locks := Function.update state.locks process holder }

/-- One step of the reader of a queue: it receives a message and gets the actions of its script,
or performs the first of the actions that are left. It has no step while its queue is empty, the
queue it sends to is full, or the lock it needs is held. -/
def stepReader (state : State Value) (queue : Queue) (script : List (Action Value)) :
    Option (State Value) :=
  match state.readers queue with
  | .recv =>
      match state.queues queue with
      | [] => none
      | _ :: rest =>
          if ∀ action ∈ script, Allowed setup queue action then
            some ({ state with queues := Function.update state.queues queue rest }.moveReader queue
              (.run script))
          else none
  | .run [] => some (state.moveReader queue .recv)
  | .run (.send destination message :: rest) =>
      if HasRoom setup state destination then
        some ((state.put destination message).moveReader queue (.run rest))
      else none
  | .run (.timerEvent slot arguments futureSeconds :: rest) =>
      if state.locks (processOf queue) = none then
        some ((state.setLock (processOf queue) (some (.reader queue))).moveReader queue
          (.locked slot arguments futureSeconds rest))
      else none
  | .run (.write :: rest) => some (state.moveReader queue (.run rest))
  | .locked slot arguments futureSeconds rest =>
      let timers :=
        if processOf queue = .analyzers then
          state.timers.modify slot (armed setup.lua arguments futureSeconds state.clock)
        else state.timers
      some (({ state with timers := timers }.setLock (processOf queue) none).moveReader queue
        (.run rest))

/-- Behind the send of a due timer: its slot is disarmed and the sweep goes on to the slot
behind it. -/
def State.sent (state : State Value) (slot : Nat) : State Value :=
  { state with timers := state.timers.modify slot (disarm state.clock), timer := .sweep (slot + 1) }

/-- A round of the sweep. A send without a queue fails at once. -/
def stepSweep (state : State Value) (slot : Nat) (beyond : Nat → Byte) : Option (State Value) :=
  match state.timers[slot]? with
  | none => none
  | some timer =>
      match timer.tag with
      | none => some { state.setLock .analyzers none with timer := .stats }
      | some _ =>
          if timer.Due state.clock then
            match timer.queue with
            | none => some (state.sent slot)
            | some queue =>
                if HasRoom setup state queue then
                  some ((state.put queue (timer.message beyond)).sent slot)
                else some { state with timer := .sending slot }
          else some { state with timer := .sweep (slot + 1) }

/-- A `msgqueue_send` of the sweep, which puts the message of a due timer into its queue. It
waits as long as this queue is full. -/
def stepSending (state : State Value) (slot : Nat) (beyond : Nat → Byte) : Option (State Value) :=
  (state.timers[slot]?).bind fun timer => timer.queue.bind fun queue =>
    if HasRoom setup state queue then
      some ((state.put queue (timer.message beyond)).sent slot)
    else none

/-- One step of the timer thread. The statistics go to the second output. -/
def stepTimer (state : State Value) (beyond : Nat → Byte) (statistics : List Byte) :
    Option (State Value) :=
  match state.timer with
  | .sleep => some { state with timer := .lock }
  | .lock =>
      if state.locks .analyzers = none then
        some { state.setLock .analyzers (some .timer) with timer := .sweep 0 }
      else none
  | .sweep slot => stepSweep setup state slot beyond
  | .sending slot => stepSending setup state slot beyond
  | .stats =>
      if defaultStatsInterval ≤ state.clock - state.lastTime then
        some { state with lastTime := state.clock, timer := .sendStats }
      else some { state with timer := .sleep }
  | .sendStats =>
      if HasRoom setup state (.output 1) then
        some { state.put (.output 1) statistics with timer := .sleep }
      else none

/-- One step of a thread of either process, the arrival of a message from outside, or some
seconds of time. -/
def step (state : State Value) : Label Value → Option (State Value)
  | .reader queue script => stepReader setup state queue script
  | .timer beyond statistics => stepTimer setup state beyond statistics
  | .arrive index message =>
      if HasRoom setup state (.input index) then some (state.put (.input index) message) else none
  | .tick seconds => some { state with clock := state.clock + seconds }

/-- The threads begin: every queue is empty, every reader stands in front of its receive, no
lock is held, and the timers are those of start-up. -/
def initial (clock : Int) : State Value where
  queues := fun _ => []
  readers := fun _ => .recv
  timer := .sleep
  locks := fun _ => none
  timers := startupTimers setup.configuration
  clock := clock
  lastTime := clock - defaultStatsInterval

/-- The runs of all threads of the two processes together, in any interleaving and with any
messages that arrive. -/
def system : System (State Value) (Label Value) where
  start state := ∃ clock, state = initial setup clock
  next state label := step setup state label

end Steps

end Dragonfly.Blocking
