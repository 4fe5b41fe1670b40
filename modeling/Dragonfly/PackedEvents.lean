import Dragonfly.AnalyzerStack
import Dragonfly.MessagePackDelivery

/-!
# What an analyzer hears of events

The loop of an analyzer over the messages of `analyze_event`, with the packer and unpacker of
`lua_cmsgpack.c`. Its script is called with what is received of each event, in the order of the
calls. A message of the size of the buffer is skipped, and the first event that cannot be
unpacked, since a key in it arrives as nil, ends the process with whatever is behind it in the
queue.

The tag of an event is a string: `luaL_checkstring` refuses anything but a string and a number,
and a number has become a string on the stack before it is packed. The engine runs, and the
script returns from each of its calls.
-/

namespace Dragonfly.PackedEvents

open Events Flywheel LuaValues MessagePack Stages

/-- A call of `analyze_event`: the tag of the analyzer and the value. -/
abbrev Event := List Byte × Value

/-- The message that `mp_pack` makes of the tag and the value of an event. -/
def message (event : Event) : List Byte :=
  [.string event.1, event.2].flatMap (mpEncodeLuaType maxNesting)

/-- What becomes of an event in the loop: it is skipped, the script is called with a value, or
the process ends. -/
inductive Fate where
  | skipped
  | called (argument : Value)
  | exits

/-- The loop goes on behind an event unless the process ends because of it. -/
def Fate.survives : Fate → Bool
  | .exits => false
  | _ => true

/-- The calls of the script for an event, which are one at the most. -/
def Fate.calls : Fate → List Value
  | .called argument => [argument]
  | _ => []

/-- The call of `analyze_event` as the origin of its message. -/
def origin (event : Event) : Origin Value := .analyzeEvent (.string event.1) event.2

/-- The messages of these events as they stand in the queue, each of them cut to the size of the
buffer. -/
def frames (events : List Event) : List (List Byte) :=
  events.map fun event => (message event).take Msgqueue.maxMessageSize.toNat

section Loop

variable {toString : Value → Option (List Byte)} {toInteger : Value → Int}

/-- What is left to do: every message takes the loop around. -/
def left (state : Service Value) : Nat :=
  3 * state.queue.length +
    match state.thread with
    | .inside (.handle _ _) => 3
    | .inside (.test _) => 2
    | .inside (.recv _) => 1
    | _ => 0

end Loop

end Dragonfly.PackedEvents
