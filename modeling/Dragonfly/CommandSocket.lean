import Dragonfly.Config
import Dragonfly.FileSystem

/-!
# The command channel of Suricata

`suricata_initialize` connects the process-wide command socket and exchanges versions, and
`suricata_command` sends a command and reads once. `responder_setup` and `responder_event`
find them in the table `responder_initialize` fills.

The socket is a byte stream: what the peer answers is appended to the bytes that were not
read yet, and a read returns any number of these that fit its buffer, at least one. A call
may fail for a reason of its own. On a socket that was connected before `connect` fails, and
once the peer has reset the connection so do `send` and `read`. The peer answers every
message that was sent to it. Logging is left out, and with it what `errno` says.
-/

namespace Dragonfly.CommandSocket

open Config

/-- The constant `MAX_RESPONDER_COMMANDS`: the number of places in the table of the responders. -/
def maxResponderCommands : Nat := 2

/-- The size of `sun_path` in the address of a Unix socket, which bounds the path of a
responder. -/
def sunPathSize : Nat := 108

/-- The error number `ECONNRESET`: the peer has reset the connection. -/
def econnreset : Int := 104

/-- The text `VERSION_MSG`, which is the first message on a new command socket. -/
def versionMsg : List Byte := bytesOf "\x7b \"version\": \"0.1\" \x7d"

/-- One operation of the responder: a system call, or one on the globals
`g_command_socket` and `g_command_path`. -/
inductive SocketOperation (Point Result : Type) where
  | loadSocket (resume : Int → Outcome Point Result)
  | storeSocket (fd : Int) (resume : Outcome Point Result)
  | loadPath (resume : Option (List Byte) → Outcome Point Result)
  | storePath (path : List Byte) (resume : Outcome Point Result)
  | socket (resume : Int → Outcome Point Result)
  | connect (path : List Byte) (resume : Int → Outcome Point Result)
  | send (bytes : List Byte) (resume : Int → Outcome Point Result)
  | read (len : Nat) (resume : Int → List Byte → Outcome Point Result)

/-- An operation of a function that is called becomes one of its caller: what the callee returns
is given to the caller's continuation. -/
def SocketOperation.call {Point Result Outer Final : Type} (inside : Point → Outer)
    (returned : Result → Outcome Outer Final) :
    SocketOperation Point Result → SocketOperation Outer Final
  | .loadSocket resume => .loadSocket fun fd => (resume fd).call inside returned
  | .storeSocket fd resume => .storeSocket fd (resume.call inside returned)
  | .loadPath resume => .loadPath fun path => (resume path).call inside returned
  | .storePath path resume => .storePath path (resume.call inside returned)
  | .socket resume => .socket fun fd => (resume fd).call inside returned
  | .connect path resume => .connect path fun s => (resume s).call inside returned
  | .send bytes resume => .send bytes fun s => (resume s).call inside returned
  | .read len resume => .read len fun s buffer => (resume s buffer).call inside returned

/-! ## `suricata_initialize` -/

/-- The points of `suricata_initialize` between its shared operations, with what its local
variables hold there. -/
inductive InitializePoint where
  | enter (path : List Byte)
  | create (path : List Byte)
  | created (path : List Byte) (fd : Int)
  | connect (path : List Byte)
  | send (path : List Byte)
  | read (path : List Byte)
  | loadPath (path : List Byte)
  | storePath (path : List Byte)

/-- The function `suricata_initialize` up to its first shared operation. It refuses a missing
path. -/
def suricataInitialize : Option (List Byte) → Outcome InitializePoint Int
  | none => .ret (-1)
  | some path => .goto (.enter path)

/-- The rest of `suricata_initialize`: it makes a socket where there is none, connects it, sends
the version and reads the reply. Every failure returns at once, and a path that is the first one
is stored at the end. -/
def initializeOperation : InitializePoint → SocketOperation InitializePoint Int
  | .enter path => .loadSocket fun fd =>
      if fd < 0 then .goto (.create path) else .goto (.connect path)
  | .create path => .socket fun fd => .goto (.created path fd)
  | .created path fd => .storeSocket fd (if fd < 0 then .ret (-1) else .goto (.connect path))
  | .connect path => .connect (path.take sunPathSize) fun s =>
      if s < 0 then .ret (-1) else .goto (.send path)
  | .send path => .send versionMsg fun s => if s < 0 then .ret (-1) else .goto (.read path)
  | .read path => .read 128 fun s _ => if s < 0 then .ret (-1) else .goto (.loadPath path)
  | .loadPath path => .loadPath fun saved =>
      if saved = none then .goto (.storePath path) else .ret 0
  | .storePath path => .storePath path (.ret 0)

/-! ## `suricata_command` -/

/-- The points of `suricata_command`: its loop, the reconnection in it, and the read. -/
inductive CommandPoint where
  | send (command : List Byte) (maxResponse : Nat)
  | reconnect (command : List Byte) (maxResponse : Nat)
  | reconnecting (command : List Byte) (maxResponse : Nat) (point : InitializePoint)
  | read (maxResponse : Nat)

/-- What a call returns, and what it read into `response`. -/
structure Returned where
  n : Int
  response : List Byte
deriving DecidableEq

/-- The bytes of a command that are sent: it is a C string, and no more than 4096 bytes of it
are. -/
def sentBytes (command : List Byte) : List Byte := command.take (strnlen command 4096)

/-- The loop of `suricata_command`: a failed send ends it with an error, unless its result is
`ECONNRESET`, which it never is; a successful one is followed by a single read. -/
def suricataCommand : CommandPoint → SocketOperation CommandPoint Returned
  | .send command maxResponse => .send (sentBytes command) fun s =>
      if s < 0 then
        -- the result of `send` is compared with an error number
        if s = econnreset then .goto (.reconnect command maxResponse) else .ret ⟨-1, []⟩
      else .goto (.read maxResponse)
  | .reconnect command maxResponse => .loadPath fun path =>
      (suricataInitialize path).call (.reconnecting command maxResponse) fun _ =>
        .goto (.send command maxResponse)
  | .reconnecting command maxResponse point =>
      (initializeOperation point).call (.reconnecting command maxResponse) fun _ =>
        .goto (.send command maxResponse)
  | .read maxResponse => .read (maxResponse - 1) fun s buffer =>
      if s < 0 then .ret ⟨-1, []⟩ else .ret ⟨0, buffer⟩

/-! ## The table of responders -/

/-- `g_responder`, by the tags of its entries. Only the Suricata responder has one. -/
abbrev Responders := List (Option (List Byte))

/-- The tag under which `responder_initialize` enters the Suricata responder. -/
def suricataTag : List Byte := bytesOf "suricata"

/-- The table of the responders before any call: all its places are empty. -/
def noResponders : Responders := List.replicate maxResponderCommands none

/-- The table behind `responder_initialize`: the Suricata responder in its first place, and the
others empty. -/
def responderInitialize : Responders :=
  some suricataTag :: List.replicate (maxResponderCommands - 1) none

/-- Whether the loops of `responder_setup` and `responder_event` find a tag. -/
def findsResponder (responders : Responders) (tag : List Byte) : Bool :=
  responders.any fun entry =>
    match entry with
    | some name => decide (strcasecmp tag name = 0)
    | none => false

/-- The function `responder_setup`: where the table has the tag, it calls `suricata_initialize`,
and otherwise it returns an error. -/
def responderSetup (responders : Responders) (tag : List Byte) (parameter : Option (List Byte)) :
    Outcome InitializePoint Int :=
  if findsResponder responders tag then suricataInitialize parameter else .ret (-1)

/-- The function `responder_event`: where the table has the tag, it calls `suricata_command`,
and otherwise it returns an error. -/
def responderEvent (responders : Responders) (tag command : List Byte) (maxResponse : Nat) :
    Outcome CommandPoint Returned :=
  if findsResponder responders tag then .goto (.send command maxResponse) else .ret ⟨-1, []⟩

/-- The table finds exactly the tags that are the Suricata tag, ignoring case. -/
theorem finds_suricata_iff (tag : List Byte) :
    findsResponder responderInitialize tag = true ↔ strcasecmp tag suricataTag = 0 := by
  simp [findsResponder, responderInitialize]

/-! ## The process and its socket -/

/-- A command socket. `incoming` is what the peer sent and nobody has read. -/
inductive Connection where
  | unconnected
  | connected (incoming : List Byte)
  | reset
deriving DecidableEq

/-- The table, the globals, the socket, how often it was connected, and what the peer
answered so far. -/
structure Process where
  responders : Responders
  socket : Int
  path : Option (List Byte)
  connection : Connection
  connects : Nat
  replies : List (List Byte)

/-- What the environment decides in a system call: whether it fails, the descriptor or the
number of bytes it returns, and what the peer answers. -/
structure Answers where
  failure : Bool
  value : Nat
  reply : List Byte

/-- A process before any call: no responder is entered, there is no socket and no path, and
nothing was connected. -/
def Process.initial : Process where
  responders := noResponders
  socket := -1
  path := none
  connection := .unconnected
  connects := 0
  replies := []

/-- Perform an operation. A `read` blocks as long as there is nothing to return. -/
def Process.perform {Point Result : Type} (process : Process) (answers : Answers) :
    SocketOperation Point Result → Option (Process × Outcome Point Result)
  | .loadSocket resume => some (process, resume process.socket)
  | .storeSocket fd resume => some ({ process with socket := fd }, resume)
  | .loadPath resume => some (process, resume process.path)
  | .storePath path resume => some ({ process with path := some path }, resume)
  | .socket resume =>
      if answers.failure then some (process, resume (-1))
      else some ({ process with connection := .unconnected }, resume answers.value)
  | .connect _ resume =>
      match process.connection, answers.failure with
      | .unconnected, false =>
          some ({ process with connection := .connected [], connects := process.connects + 1 },
            resume 0)
      | _, _ => some (process, resume (-1))
  | .send bytes resume =>
      match process.connection, answers.failure with
      | .connected incoming, false =>
          some ({ process with
              connection := .connected (incoming ++ answers.reply)
              replies := process.replies ++ [answers.reply] }, resume bytes.length)
      | _, _ => some (process, resume (-1))
  | .read len resume =>
      match process.connection, answers.failure with
      | .connected incoming, false =>
          if answers.value ≤ len ∧ answers.value ≤ incoming.length ∧
              (0 < answers.value ∨ len = 0) then
            some ({ process with connection := .connected (incoming.drop answers.value) },
              resume answers.value (incoming.take answers.value))
          else none
      | _, _ => some (process, resume (-1) [])

/-- A callee's operation does in its caller what it does in the callee. -/
theorem perform_call {Point Result Outer Final : Type} (process : Process) (answers : Answers)
    (inside : Point → Outer) (returned : Result → Outcome Outer Final)
    (operation : SocketOperation Point Result) :
    process.perform answers (operation.call inside returned) =
      (process.perform answers operation).map fun (after, outcome) =>
        (after, outcome.call inside returned) := by
  cases operation with
  | loadSocket | storeSocket | loadPath | storePath => rfl
  | socket resume =>
    simp only [SocketOperation.call, Process.perform]
    split <;> rfl
  | connect path resume =>
    simp only [SocketOperation.call, Process.perform]
    split <;> rfl
  | send bytes resume =>
    simp only [SocketOperation.call, Process.perform]
    split <;> rfl
  | read len resume =>
    simp only [SocketOperation.call, Process.perform]
    split
    · split <;> rfl
    · rfl

end Dragonfly.CommandSocket
