import Dragonfly.Events
import Dragonfly.Flywheel
import Dragonfly.Transitions

/-!
# The stages: the loops of the input, analyzer and output threads

Each loop receives a message from its queue and handles it: the input loop passes
it to the filter script, the analyzer loop unpacks it and passes the value to the
analyzer script, the output loop writes it to the sink or rotates the sink. A
receive that returns nothing ends the loop, and the thread enters it again while
the engine runs. A message of the size of the buffer is skipped. A script that
raises an error, or a message that cannot be unpacked, ends the process.

A frame is put into a queue and taken from it in one step. The scripts are
functions: the filter calls `analyze_event` once for each line, the analyzer calls
`output_event` once for each value; a script may raise an error after its call.
Logging and statistics are left out, as are the opening and closing of the source
and the sink between two runs of a loop.
-/

namespace Dragonfly.Stages

open Config Events Flywheel

/-- One shared operation of a stage: the load of the flag, a receive from its queue, a call of
its script, or a call of its sink. -/
inductive StageOperation (Argument Point Result : Type) where
  | loadRunning (resume : Bool → Outcome Point Result)
  | recv (len : Nat) (resume : Int → List Byte → Outcome Point Result)
  | callLoop (argument : Argument) (resume : Bool → Outcome Point Result)
  | ioWrite (buffer : List Byte) (resume : Int → Outcome Point Result)
  | ioRotate (resume : Outcome Point Result)

/-- The points of a stage: the loop condition, `msgqueue_recv`, and what is done with
the message. The locals outlive a round. -/
inductive StagePoint (Locals Held : Type) where
  | test (locals : Locals)
  | recv (locals : Locals)
  | handle (locals : Locals) (held : Held)

/-- What the loops have in common. What happens to a message before the next shared
operation is `prepare`. -/
def stageLoop {Locals Held Argument : Type}
    (prepare : Locals → List Byte → Outcome (StagePoint Locals Held) Locals)
    (handle : Locals → Held → StageOperation Argument (StagePoint Locals Held) Locals) :
    StagePoint Locals Held → StageOperation Argument (StagePoint Locals Held) Locals
  | .test locals => .loadRunning fun running =>
      if running then .goto (.recv locals) else .ret locals
  | .recv locals => .recv maxBufferSize fun n buffer =>
      if n ≤ 0 then .ret locals
      else if n = maxBufferSize then .goto (.test locals)
      else prepare locals (buffer.take n.toNat)
  | .handle locals held => handle locals held

/-- `lua_input_loop`: the message is the argument of the filter's `loop`. -/
def luaInputLoop : StagePoint Unit (List Byte) →
    StageOperation (List Byte) (StagePoint Unit (List Byte)) Unit :=
  stageLoop (fun locals message => .goto (.handle locals message))
    fun locals message => .callLoop message fun failed =>
      if failed then .exit else .goto (.test locals)

/-- The constant `ROTATE_MESSAGE`, by which an output is asked to rotate its file. -/
def rotateMessage : List Byte := bytesOf "+rotate+"

/-- `lua_output_loop`: the message is terminated and compared with the rotate
message. -/
def luaOutputLoop : StagePoint Unit (List Byte) →
    StageOperation Empty (StagePoint Unit (List Byte)) Unit :=
  stageLoop (fun locals message => .goto (.handle locals message))
    fun locals message =>
      let buffer := message ++ [0]
      if strcasecmp buffer rotateMessage = 0 then .ioRotate (.goto (.test locals))
      else .ioWrite buffer fun n => if n < 0 then .ret locals else .goto (.test locals)

/-- What stands on the Lua stack of an analyzer: a value, or the function `loop` of its script. -/
inductive StackItem (Value : Type) where
  | value (value : Value)
  | loop
deriving DecidableEq

/-- The Lua stack of an analyzer as a list, the top of the stack first. -/
abbrev Stack (Value : Type) := List (StackItem Value)

/-- The call `lua_insert(L, -2)`, which moves the top below the item under it. -/
def insertBelowTop {Item : Type} : List Item → List Item
  | top :: next :: rest => next :: top :: rest
  | stack => stack

/-- From the received message to the call of `loop`. The message is put below the
stack, `mp_unpack` pushes the values above it, and the message is removed. The top
value is the argument, and what lies below stays on the stack. -/
def prepareCall {Value : Type} (lua : Lua Value) (stack : Stack Value) (message : List Byte) :
    Outcome (StagePoint (Stack Value) Value) (Stack Value) :=
  match lua.unpack message with
  | none => .exit
  | some values =>
      match insertBelowTop (.loop :: (values.map StackItem.value).reverse ++ stack) with
      | .value argument :: .loop :: below => .goto (.handle below argument)
      | _ => .exit

/-- The function `lua_analyzer_loop`: it unpacks what it receives and calls the script with the
last value. One item is popped behind the call. -/
def luaAnalyzerLoop {Value : Type} (lua : Lua Value) : StagePoint (Stack Value) Value →
    StageOperation Value (StagePoint (Stack Value) Value) (Stack Value) :=
  stageLoop (prepareCall lua) fun below argument => .callLoop argument fun failed =>
    if failed then .exit else .goto (.test (below.drop 1))

/-- A message of two values leaves the stack with the first value below the call. -/
theorem prepare_call_two {Value : Type} {lua : Lua Value} {stack : Stack Value}
    {message : List Byte} {name argument : Value}
    (unpacked : lua.unpack message = some [name, argument]) :
    prepareCall lua stack message = .goto (.handle (.value name :: stack) argument) := by
  simp [prepareCall, unpacked, insertBelowTop]

/-! ## The pipeline -/

/-- A source, a filter, an analyzer with its script and an output. -/
structure Setup (Value : Type) where
  lua : Lua Value
  configuration : Configuration
  input : Nat
  analyzer : Nat
  output : Nat
  analyzerName : Value
  filter : List Byte → Value
  outputName : Value
  script : Value → Value

/-- Where a thread is: in its loop, behind it, or gone with its process. -/
inductive Activity (Point Result : Type) where
  | inside (point : Point)
  | outside (result : Result)
  | ended

/-- Where an outcome leaves a thread: inside at a point, outside with a result, or ended with
its process. -/
def Activity.after {Point Result : Type} : Outcome Point Result → Activity Point Result
  | .goto point => .inside point
  | .ret result => .outside result
  | .exit => .ended

/-- The queues, the threads and the lines that were read and written. The analyzer has
a process, and so a `g_running`, of its own. -/
structure State (Value : Type) where
  running : Bool
  analyzerRunning : Bool
  read : List (List Byte)
  queues : Queue → List (List Byte)
  flywheel : Activity LoopPoint Unit
  input : Activity (StagePoint Unit (List Byte)) Unit
  analyzer : Activity (StagePoint (Stack Value) Value) (Stack Value)
  output : Activity (StagePoint Unit (List Byte)) Unit
  written : List (List Byte)

/-- What the environment answers: the line a read returns, or none for an error; the
result of a receive without a message; whether a script raises an error; whether a
write succeeds. -/
structure Answers where
  line : Option (List Byte)
  nothing : Option Int
  raises : Bool
  writes : Bool

/-- The four threads of the pipeline, one for each stage a line goes through. -/
inductive Stage where
  | flywheel
  | input
  | analyzer
  | output
deriving DecidableEq

/-- A step of a thread, or a signal that ends one of the two processes. -/
inductive Label where
  | step (stage : Stage) (answers : Answers)
  | stop
  | stopAnalyzer

variable {Value : Type}

/-- Put a message into a queue, behind those that wait there. -/
def State.put (state : State Value) (queue : Queue) (message : List Byte) : State Value :=
  { state with queues := Function.update state.queues queue (state.queues queue ++ [message]) }

/-- What a call of a script leaves: the message sent, and whether the call failed. A
message without a queue is undefined. -/
def State.called (state : State Value) (raises : Bool) : Call Sending → Option (State Value × Bool)
  | .returned none => some (state, raises)
  | .returned (some (some queue, message)) => some (state.put queue message, raises)
  | .returned (some (none, _)) => none
  | .raised _ => some (state, true)
  | .undefined => none

/-- Perform an operation of a stage with this `g_running`, which reads this queue and
whose script makes this call. An empty queue blocks. -/
def State.perform {Argument Point Result : Type} (state : State Value) (running : Bool)
    (queue : Option Queue) (call : Argument → Call Sending) (answers : Answers) :
    StageOperation Argument Point Result → Option (State Value × Outcome Point Result)
  | .loadRunning resume => some (state, resume running)
  | .recv len resume =>
      match answers.nothing, queue with
      | some n, _ => if n ≤ 0 then some (state, resume n []) else none
      | none, none => none
      | none, some queue =>
          match state.queues queue with
          | [] => none
          | message :: rest =>
              if message.length ≤ len then
                some ({ state with queues := Function.update state.queues queue rest },
                  resume message.length message)
              else none
  | .callLoop argument resume =>
      (state.called answers.raises (call argument)).map fun (after, failed) =>
        (after, resume failed)
  | .ioWrite buffer resume =>
      if answers.writes then
        some ({ state with written := state.written ++ [cString buffer] }, resume 0)
      else some (state, resume (-1))
  | .ioRotate resume => some (state, resume)

/-- Perform an operation of the flywheel: it reads the line that is given, and its messages go
to the queue of the input thread. -/
def State.performFlywheel (state : State Value) (queue : Queue) (answers : Answers) :
    LoopOperation LoopPoint Unit → Option (State Value × Outcome LoopPoint Unit)
  | .loadRunning resume => some (state, resume state.running)
  | .ioRead len resume =>
      match answers.line with
      | none => some (state, resume (-1) [])
      | some line =>
          if line.length ≤ len then
            some ({ state with read := state.read ++ [line] }, resume line.length line)
          else none
  | .send message resume => some (state.put queue message, resume)

/-- A thread in its loop performs its operation; behind its loop it enters it again
while its process runs. -/
def advance {Point Result : Type} (state : State Value) (running : Bool)
    (start : Result → Point) (perform : Point → Option (State Value × Outcome Point Result)) :
    Activity Point Result → Option (State Value × Activity Point Result)
  | .ended => none
  | .outside result =>
      some (state, if running then .inside (start result) else .outside result)
  | .inside point => (perform point).map fun (after, outcome) => (after, .after outcome)

/-- The queue that the thread of the output at a position reads in `lua_output_loop`. -/
def outputQueue (configuration : Configuration) (position : Nat) : Option Queue :=
  (configuration.outputs[position]?).bind OutputConfig.queue

/-- The input thread is gone, and with it the process of the flywheel and the output. -/
def State.engineEnded (state : State Value) : Bool :=
  match state.input with
  | .ended => true
  | _ => false

/-- One step of a thread, with the answers of what it calls. A thread whose process has ended
takes none. -/
def step (setup : Setup Value) (state : State Value) (answers : Answers) :
    Stage → Option (State Value)
  | .flywheel =>
      if state.engineEnded then none
      else
        (advance state state.running (fun _ => .test)
            (fun point => state.performFlywheel (.input setup.input) answers (luaFlywheelLoop point))
            state.flywheel).map
          fun (after, flywheel) => { after with flywheel := flywheel }
  | .input =>
      (advance state state.running .test
          (fun point => state.perform state.running (some (.input setup.input))
            (fun line => analyzeEvent setup.lua setup.configuration
              [setup.analyzerName, setup.filter line]) answers (luaInputLoop point))
          state.input).map
        fun (after, input) => { after with input := input }
  | .analyzer =>
      (advance state state.analyzerRunning .test
          (fun point => state.perform state.analyzerRunning
            (analyzerQueue setup.configuration setup.analyzer)
            (fun value => outputEvent setup.lua setup.configuration
              [setup.outputName, setup.script value]) answers (luaAnalyzerLoop setup.lua point))
          state.analyzer).map
        fun (after, analyzer) => { after with analyzer := analyzer }
  | .output =>
      if state.engineEnded then none
      else
        (advance state state.running .test
            (fun point => state.perform state.running
              (outputQueue setup.configuration setup.output) Empty.elim answers
              (luaOutputLoop point))
            state.output).map
          fun (after, output) => { after with output := output }

/-- The threads stand before their loops, the analyzer with what start-up left on its
stack. -/
def initial (stack : Stack Value) : State Value where
  running := true
  analyzerRunning := true
  read := []
  queues := fun _ => []
  flywheel := .outside ()
  input := .outside ()
  analyzer := .outside stack
  output := .outside ()
  written := []

/-- The runs of the pipeline: steps of the threads, and the flags by which the processes are
stopped. -/
def system (setup : Setup Value) : System (State Value) Label where
  start state := ∃ stack, state = initial stack
  next
    | state, .step stage answers => step setup state answers stage
    | state, .stop => some { state with running := false }
    | state, .stopAnalyzer => some { state with analyzerRunning := false }

end Dragonfly.Stages
