import Dragonfly.Stages

/-!
# The shipped filter and analyzers: `suricata-filter`, `example-alert`, `example-nsm`

The filter decodes a line and forwards it to the analyzer `alert` or `nsm`; each
analyzer decodes it again and sends its encoding to the output `log`, the second one
with a mark. The decoder and the encoder are those of the global `cjson`, which raise
an error where they fail; they are a parameter, as tables are.

The loops are those of the input thread, the analyzer threads and the thread of the
output, whose writes succeed. The queues between them are those of `msgqueue_send`: a
message is cut to the size of the buffer, and the loop that receives one of that size
skips it. The engine runs; a script that raises an error ends its process. A message of
length zero is received as a result of zero, and the thread enters its loop again.
-/

namespace Dragonfly.Shipped

open Config Events Flywheel Stages

/-- A value `cjson.decode` returns. The decoder makes a table of an object and of an
array, and a light userdata of `null`. -/
inductive Decoded (Table : Type) where
  | object (table : Table)
  | array (table : Table)
  | string (bytes : List Byte)
  | number (numeral : List Byte)
  | boolean (value : Bool)
  | null

/-- The global `cjson`, the string a table holds under a key, and a table with `true`
under a key. -/
structure Cjson (Table : Type) where
  decode : List Byte → Option (Decoded Table)
  encode : Decoded Table → Option (List Byte)
  getString : Table → List Byte → Option (List Byte)
  setTrue : Table → List Byte → Table

/-- How a call of `loop` ends: with an error, or after at most one call of the engine. -/
inductive Script where
  | raised
  | returned
  | analyzeEvent (name message : List Byte)
  | outputEvent (name message : List Byte)

section Scripts

variable {Table : Type} (cjson : Cjson Table)

/-- `eve.event_type == "alert"`. A string has the fields of the string library, which
has none of this name; other values have no fields and the access raises an error. -/
def isAlert : Decoded Table → Option Bool
  | .object table | .array table =>
      some (cjson.getString table (bytesOf "event_type") = some (bytesOf "alert"))
  | .string _ => some false
  | _ => none

/-- The assignment `eve["mle"] = true`, which is an error for what is no table. -/
def mark : Decoded Table → Option (Decoded Table)
  | .object table => some (.object (cjson.setTrue table (bytesOf "mle")))
  | .array table => some (.array (cjson.setTrue table (bytesOf "mle")))
  | _ => none

/-- The function `loop` of `suricata-filter.lua`: it decodes the message, drops what is false,
and forwards the message to the analyzer its event type asks for. -/
def suricataFilter (msg : List Byte) : Script :=
  match cjson.decode msg with
  | none => .raised
  | some (.boolean false) => .returned
  | some eve =>
      match isAlert cjson eve with
      | none => .raised
      | some true => .analyzeEvent (bytesOf "alert") msg
      | some false => .analyzeEvent (bytesOf "nsm") msg

/-- The call of `output_event` with the encoding of a value, which is an error where it cannot
be encoded. -/
def logEncoding (eve : Decoded Table) : Script :=
  match cjson.encode eve with
  | none => .raised
  | some message => .outputEvent (bytesOf "log") message

/-- The function `loop` of `example-alert.lua`, which decodes the message and logs it again. -/
def exampleAlert (msg : List Byte) : Script :=
  match cjson.decode msg with
  | none => .raised
  | some eve => logEncoding cjson eve

/-- The function `loop` of `example-nsm.lua`, which decodes the message and logs it again with
the mark. -/
def exampleNsm (msg : List Byte) : Script :=
  match cjson.decode msg with
  | none => .raised
  | some eve =>
      match mark cjson eve with
      | none => .raised
      | some marked => logEncoding cjson marked

end Scripts

/-- The two analyzers of the shipped configuration, for alerts and for everything else. -/
inductive Kind where
  | alert
  | nsm
deriving DecidableEq

/-- The tag of an analyzer, by which the filter and the scripts name it. -/
def Kind.name : Kind → List Byte
  | .alert => bytesOf "alert"
  | .nsm => bytesOf "nsm"

/-- The analyzer that reads a queue, if it is a queue of one of the two. -/
def Kind.ofQueue : Queue → Option Kind
  | .analyzer 0 => some .alert
  | .analyzer 1 => some .nsm
  | _ => none

/-- The entry of an analyzer behind start-up, with its tag, its script and its queue. -/
def shippedAnalyzer (name script : List Byte) (index : Nat) : AnalyzerConfig :=
  ⟨some name, some script, some [], some (bytesOf "log"), some (.analyzer index)⟩

/-- The shipped configuration behind start-up: the two analyzers, and the outputs with the log
among them. -/
def shipped : Configuration where
  analyzers := shippedAnalyzer (bytesOf "alert") (bytesOf "example-alert.lua") 0 ::
    shippedAnalyzer (bytesOf "nsm") (bytesOf "example-nsm.lua") 1 ::
      List.replicate (maxAnalyzerStreams - 2) .unset
  outputs := { logOutput with queue := some (.output 0) } ::
    { statsOutput with queue := some (.output 1) } ::
      ⟨some (bytesOf "log"), some (bytesOf "file://dragonfly-example.log"), some (.output 2)⟩ ::
        List.replicate (maxOutputStreams - 3) .unset

/-- Lua with its strings as values, and the decoder and encoder the scripts use. -/
structure Setup (Value Table : Type) where
  lua : Lua Value
  string : List Byte → Value
  cjson : Cjson Table

/-- An analyzer thread: the messages in its queue, and where it is in its loop. -/
structure Worker (Value : Type) where
  queue : List (List Byte)
  thread : Activity (StagePoint (Stack Value) Value) (Stack Value)

/-- The thread of the output `log`: its queue, where it is and the lines it wrote. -/
structure Log where
  queue : List (List Byte)
  thread : Activity (StagePoint Unit (List Byte)) Unit
  lines : List (List Byte)

/-- The input queue and its thread, the lines that were forwarded to the analyzers, the
analyzers, what they sent to the log, and the log. -/
structure State (Value : Type) where
  queue : List (List Byte)
  input : Activity (StagePoint Unit (List Byte)) Unit
  forwarded : List (Kind × List Byte)
  worker : Kind → Worker Value
  sent : List (Kind × List Byte)
  log : Log

/-- A thread that takes a step: the input thread, one of the analyzers, or the output thread. -/
inductive Thread where
  | input
  | worker (kind : Kind)
  | output

section Engine

variable {Value Table : Type} (setup : Setup Value Table)

/-- What `msgqueue_send` puts into a queue of a message: no more than the size of the buffer. -/
def cut (message : List Byte) : List Byte := message.take maxBufferSize

/-- The state with another analyzer thread in the place of the one of this kind. -/
def State.place (state : State Value) (kind : Kind) (worker : Worker Value) : State Value :=
  { state with worker := Function.update state.worker kind worker }

/-- Put the packed arguments for a line into the queue of an analyzer. -/
def State.forward (state : State Value) (kind : Kind) (line packed : List Byte) : State Value :=
  { state with
    forwarded := state.forwarded ++ [(kind, line)]
    worker := Function.update state.worker kind
      { state.worker kind with queue := (state.worker kind).queue ++ [cut packed] } }

/-- Put the text of an analyzer into the queue of the log. -/
def State.send (state : State Value) (kind : Kind) (text : List Byte) : State Value :=
  { state with
    sent := state.sent ++ [(kind, text)]
    log := { state.log with queue := state.log.queue ++ [cut text] } }

/-- What a run of the filter leaves, and whether it failed. -/
def State.runFilter (state : State Value) : Script → Option (State Value × Bool)
  | .raised => some (state, true)
  | .returned => some (state, false)
  | .analyzeEvent name message =>
      match analyzeEvent setup.lua shipped [setup.string name, setup.string message] with
      | .returned none => some (state, false)
      | .returned (some (none, _)) => none
      | .returned (some (some queue, packed)) =>
          (Kind.ofQueue queue).map fun kind => (state.forward kind message packed, false)
      | .raised _ => some (state, true)
      | .undefined => none
  | .outputEvent _ _ => none

/-- What a run of an analyzer leaves, and whether it failed. -/
def State.runAnalyzer (state : State Value) (kind : Kind) : Script → Option (State Value × Bool)
  | .raised => some (state, true)
  | .returned => some (state, false)
  | .outputEvent name message =>
      match outputEvent setup.lua shipped [setup.string name, setup.string message] with
      | .returned none => some (state, false)
      | .returned (some (none, _)) => none
      | .returned (some (some queue, text)) =>
          if queue = .output 2 then some (state.send kind text, false) else some (state, false)
      | .raised _ => some (state, true)
      | .undefined => none
  | .analyzeEvent _ _ => none

/-- The script of an analyzer on the value it is called with. -/
def Kind.loop (kind : Kind) (msg : Value) : Script :=
  match setup.lua.toString msg with
  | none => .raised
  | some msg =>
      match kind with
      | .alert => exampleAlert setup.cjson msg
      | .nsm => exampleNsm setup.cjson msg

/-- Perform an operation of the input loop. An empty queue blocks. -/
def State.perform {Point Result : Type} (state : State Value) :
    StageOperation (List Byte) Point Result → Option (State Value × Outcome Point Result)
  | .loadRunning resume => some (state, resume true)
  | .recv len resume =>
      match state.queue with
      | [] => none
      | message :: rest =>
          if message.length ≤ len then
            some ({ state with queue := rest }, resume message.length message)
          else none
  | .callLoop argument resume =>
      (state.runFilter setup (suricataFilter setup.cjson argument)).map fun (after, failed) =>
        (after, resume failed)
  | _ => none

/-- Perform an operation of the loop of an analyzer. A receive from its empty queue has no
result: the thread waits. -/
def State.performWorker {Point Result : Type} (state : State Value) (kind : Kind) :
    StageOperation Value Point Result → Option (State Value × Outcome Point Result)
  | .loadRunning resume => some (state, resume true)
  | .recv len resume =>
      match (state.worker kind).queue with
      | [] => none
      | message :: rest =>
          if message.length ≤ len then
            some (state.place kind { state.worker kind with queue := rest },
              resume message.length message)
          else none
  | .callLoop argument resume =>
      (state.runAnalyzer setup kind (kind.loop setup argument)).map fun (after, failed) =>
        (after, resume failed)
  | _ => none

/-- Perform an operation of the output loop. What is written of a buffer ends at its first
zero byte, and rotating the file writes nothing. -/
def Log.perform {Point Result : Type} (log : Log) :
    StageOperation Empty Point Result → Option (Log × Outcome Point Result)
  | .loadRunning resume => some (log, resume true)
  | .recv len resume =>
      match log.queue with
      | [] => none
      | message :: rest =>
          if message.length ≤ len then
            some ({ log with queue := rest }, resume message.length message)
          else none
  | .callLoop argument _ => argument.elim
  | .ioWrite buffer resume => some ({ log with lines := log.lines ++ [cString buffer] }, resume 0)
  | .ioRotate resume => some (log, resume)

/-- A thread in its loop performs its operation; behind its loop it enters it again. -/
def proceed {Machine Point Result : Type} (machine : Machine) (start : Result → Point)
    (perform : Point → Option (Machine × Outcome Point Result)) :
    Activity Point Result → Option (Machine × Activity Point Result)
  | .ended => none
  | .outside result => some (machine, .inside (start result))
  | .inside point => (perform point).map fun (after, outcome) => (after, .after outcome)

/-- One step of a thread: it goes on in its loop, or begins it again behind a return. -/
def step (state : State Value) : Thread → Option (State Value)
  | .input =>
      (proceed state .test (fun point => state.perform setup (luaInputLoop point)) state.input).map
        fun (after, input) => { after with input := input }
  | .worker kind =>
      (proceed state .test
          (fun point => state.performWorker setup kind (luaAnalyzerLoop setup.lua point))
          (state.worker kind).thread).map
        fun (after, thread) => after.place kind { after.worker kind with thread := thread }
  | .output =>
      (proceed state.log .test (fun point => state.log.perform (luaOutputLoop point))
          state.log.thread).map
        fun (after, thread) => { state with log := { after with thread := thread } }

/-- The lines wait for the input thread; the analyzers have what start-up left on their
stacks. -/
def initial (startStack : Kind → Stack Value) (lines : List (List Byte)) : State Value where
  queue := lines.map cut
  input := .inside (.test ())
  forwarded := []
  worker := fun kind => ⟨[], .inside (.test (startStack kind))⟩
  sent := []
  log := ⟨[], .inside (.test ()), []⟩

/-- The runs over these lines, which all wait in the queue of the input thread at the beginning. -/
def system (startStack : Kind → Stack Value) (lines : List (List Byte)) :
    System (State Value) Thread where
  start state := state = initial startStack lines
  next state thread := step setup state thread

end Engine

end Dragonfly.Shipped
