import Dragonfly.CommandSocket
import Dragonfly.Transitions

/-!
# Commands and replies

Commands are issued one after the other through `responder_event`. There is no framing: a
call sends its command and reads once, whatever that read returns. So replies go with
commands as long as each read returns all its reply has for the buffer, and nothing of an
earlier reply is left when a command is issued.

A failed `send` ends the call. Its result is never `ECONNRESET`, so nothing reconnects once
the peer has reset the connection.
-/

namespace Dragonfly.CommandChannel

open CommandSocket Config

/-- The process, the call it is in, and what the calls before returned. -/
structure State where
  process : Process
  call : Option CommandPoint
  results : List Returned

/-- `responder_event` is called, the call makes a step, or the peer resets the connection. -/
inductive Label where
  | event (tag command : List Byte)
  | step (answers : Answers)
  | reset

/-- Behind an operation the call goes on at its next point, or it returns and its result is
kept; `response` is part of the result. -/
def State.continued (state : State) : Outcome CommandPoint Returned → State
  | .goto point => { state with call := some point }
  | .ret returned => { state with call := none, results := state.results ++ [returned] }
  | .exit => { state with call := none }

section Runs

variable (room : Nat)

/-- One step. Each response has a buffer of `room` bytes and the terminator. -/
def next (state : State) : Label → Option State
  | .event tag command =>
      match state.call with
      | none =>
          some (state.continued
            (responderEvent state.process.responders tag command (room + 1)))
      | some _ => none
  | .step answers => state.call.bind fun point =>
      (state.process.perform answers (suricataCommand point)).map fun (process, outcome) =>
        { state with process := process }.continued outcome
  | .reset =>
      match state.process.connection with
      | .connected _ =>
          some { state with process := { state.process with connection := .reset } }
      | _ => none

/-- The responder is set up: the socket is connected, and the version reply was read. -/
structure Ready (state : State) : Prop where
  responders : state.process.responders = responderInitialize
  connected : state.process.connection = .connected []
  replies : state.process.replies = []
  idle : state.call = none
  results : state.results = []

/-- The runs of the command channel behind its setup: commands are issued one after the other,
and each step of a call comes with the answers of the socket. -/
def system : System State Label where
  start := Ready
  next := next room

/-- The call has sent its command and is now at its `read`. -/
def reading : Option CommandPoint → Bool
  | some (.read _) => true
  | _ => false

/-- Commands of at most 4096 bytes on a socket that delivers the replies: no read fails and
the peer does not reset the connection. -/
def Delivers (state : State) : Label → Prop
  | .event _ command => command.length ≤ 4096
  | .step answers => ¬ (answers.failure = true ∧ reading state.call = true)
  | .reset => False

/-- A command is only issued when nothing of an earlier reply is left. -/
def Drained (state : State) : Label → Prop
  | .event _ _ => state.process.connection = .connected []
  | _ => True

/-- The bytes of the peer that arrived at the socket and that nobody has read yet. -/
def unread : Connection → List Byte
  | .connected incoming => incoming
  | _ => []

/-- A read returns everything its reply has for the buffer: all that arrived, or as much of it
as fits. -/
def ReadsAll (state : State) : Label → Prop
  | .step answers => reading state.call = true →
      answers.value = min room (unread state.process.connection).length
  | _ => True

instance : ∀ state label, Decidable (Delivers state label)
  | _, .event _ command => inferInstanceAs (Decidable (command.length ≤ 4096))
  | state, .step answers =>
      inferInstanceAs (Decidable (¬ (answers.failure = true ∧ reading state.call = true)))
  | _, .reset => .isFalse id

instance : ∀ state label, Decidable (Drained state label)
  | state, .event _ _ =>
      inferInstanceAs (Decidable (state.process.connection = Connection.connected []))
  | _, .step _ => .isTrue trivial
  | _, .reset => .isTrue trivial

instance : ∀ state label, Decidable (ReadsAll room state label)
  | state, .step answers => inferInstanceAs (Decidable (reading state.call = true →
      answers.value = min room (unread state.process.connection).length))
  | _, .event _ _ => .isTrue trivial
  | _, .reset => .isTrue trivial

/-- What the calls that returned zero left in `response`, in the order of the calls; calls that
failed leave nothing here. -/
def responses (state : State) : List (List Byte) :=
  (state.results.filter fun returned => decide (returned.n = 0)).map Returned.response

/-- Each of these is the reply of the same number, cut to the buffer. -/
def Paired (state : State) : Prop :=
  ∀ (number : Nat) (response : List Byte), (responses state)[number]? = some response →
    ∃ reply : List Byte, state.process.replies[number]? = some reply ∧ response = reply.take room

/-- The responses, one after the other, are what was read of the replies, and the rest is
still to be read: no byte is lost, repeated or moved. -/
def Consecutive (state : State) : Prop :=
  ∃ incoming, state.process.connection = .connected incoming ∧
    (responses state).flatten ++ incoming = state.process.replies.flatten

/-! ## One step -/

/-- A call that returns an error leaves no response behind, so the responses are those there
were before it. -/
theorem responses_failed (process : Process) (call : Option CommandPoint)
    (results : List Returned) (response : List Byte) :
    responses ⟨process, call, results ++ [⟨-1, response⟩]⟩ =
      responses ⟨process, call, results⟩ := by
  simp [responses]

/-- A call that returns zero leaves one response more, behind those of the calls before it. -/
theorem responses_read (process : Process) (call : Option CommandPoint)
    (results : List Returned) (response : List Byte) :
    responses ⟨process, call, results ++ [⟨0, response⟩]⟩ =
      responses ⟨process, call, results⟩ ++ [response] := by
  simp [responses]

/-- Where a call stands that has not reconnected: at its `send` or at its `read`, or nowhere
because no call is being made. -/
inductive Plain : Option CommandPoint → Prop where
  | idle : Plain none
  | send (command : List Byte) : Plain (some (.send command (room + 1)))
  | read : Plain (some (.read (room + 1)))

/-- What a step does on a connected socket with these bytes to be read: a command is issued
or has an unknown tag, its `send` fails or has it answered, or a part of the bytes is read. -/
inductive Moves (state : State) (incoming : List Byte) : Label → State → Prop where
  | issued (tag command : List Byte) (idle : state.call = none) :
      Moves state incoming (.event tag command)
        { state with call := some (.send command (room + 1)) }
  | unknown (tag command : List Byte) (idle : state.call = none) :
      Moves state incoming (.event tag command)
        { state with call := none, results := state.results ++ [⟨-1, []⟩] }
  | unsent (answers : Answers) (command : List Byte)
      (place : state.call = some (.send command (room + 1))) :
      Moves state incoming (.step answers)
        { state with call := none, results := state.results ++ [⟨-1, []⟩] }
  | sent (answers : Answers) (command : List Byte)
      (place : state.call = some (.send command (room + 1))) :
      Moves state incoming (.step answers)
        { state with
          process := { state.process with
            connection := .connected (incoming ++ answers.reply)
            replies := state.process.replies ++ [answers.reply] }
          call := some (.read (room + 1)) }
  | read (answers : Answers) (place : state.call = some (.read (room + 1))) :
      Moves state incoming (.step answers)
        { state with
          process := { state.process with connection := .connected (incoming.drop answers.value) }
          call := none
          results := state.results ++ [⟨0, incoming.take answers.value⟩] }

variable {room} {state after : State} {answers : Answers}

/-- A failed `send` ends the call with an error, because its result is no `ECONNRESET`. The
socket is left as it was. -/
theorem send_failed {command : List Byte} (place : state.call = some (.send command (room + 1)))
    (unsent : (∀ incoming, state.process.connection ≠ .connected incoming) ∨
      answers.failure = true) :
    next room state (.step answers) =
      some { state with call := none, results := state.results ++ [⟨-1, []⟩] } := by
  have failed : state.process.perform answers (suricataCommand (.send command (room + 1))) =
      some (state.process, .ret ⟨-1, []⟩) := by
    rcases unsent with disconnected | failure
    · cases connection : state.process.connection with
      | connected incoming => exact absurd connection (disconnected incoming)
      | unconnected => simp [suricataCommand, Process.perform, connection, econnreset]
      | reset => simp [suricataCommand, Process.perform, connection, econnreset]
    · simp [suricataCommand, Process.perform, failure, econnreset]
  simp [next, place, failed, State.continued]

/-- The first step of a call sends the command on a connection that is there; the peer answers,
and the call goes on to its `read`. -/
theorem send_moves {incoming command : List Byte}
    (connected : state.process.connection = .connected incoming)
    (place : state.call = some (.send command (room + 1)))
    (moved : next room state (.step answers) = some after) :
    Moves room state incoming (.step answers) after := by
  cases failure : answers.failure with
  | true =>
    rw [send_failed place (.inr failure)] at moved
    obtain rfl := Option.some.inj moved
    exact .unsent answers command place
  | false =>
    have nonnegative : ¬ ((sentBytes command).length : Int) < 0 := by omega
    simp only [next, place, Option.bind_some, suricataCommand, Process.perform, connected,
      failure, if_neg nonnegative, Option.map_some, State.continued] at moved
    obtain rfl := Option.some.inj moved
    exact .sent answers command place

/-- The second step of a call, where the read does not fail: it takes some bytes from the front
of those that arrived, and the call returns zero. -/
theorem read_moves {incoming : List Byte}
    (connected : state.process.connection = .connected incoming)
    (place : state.call = some (.read (room + 1))) (delivered : answers.failure = false)
    (moved : next room state (.step answers) = some after) :
    Moves room state incoming (.step answers) after := by
  have nonnegative : ¬ (answers.value : Int) < 0 := by omega
  simp only [next, place, Option.bind_some, suricataCommand, Process.perform, connected,
    delivered, if_neg nonnegative] at moved
  split at moved
  · simp only [Option.map_some, State.continued] at moved
    obtain rfl := Option.some.inj moved
    exact .read answers place
  · cases moved

/-- A step of a run on a socket that delivers the replies. -/
theorem step_moves {label : Label} {incoming : List Byte} (plain : Plain room state.call)
    (connected : state.process.connection = .connected incoming)
    (delivers : Delivers state label) (moved : next room state label = some after) :
    Moves room state incoming label after := by
  cases label with
  | reset => exact delivers.elim
  | event tag command =>
    generalize place : state.call = call at plain
    cases plain with
    | idle =>
      simp only [next, place] at moved
      obtain rfl := Option.some.inj moved
      rw [responderEvent]
      split
      · exact .issued tag command place
      · exact .unknown tag command place
    | send => simp [next, place] at moved
    | read => simp [next, place] at moved
  | step answers =>
    generalize place : state.call = call at plain
    cases plain with
    | idle => simp [next, place] at moved
    | send command => exact send_moves connected place moved
    | read =>
      have delivered : answers.failure = false :=
        Bool.eq_false_iff.mpr fun failure => delivers ⟨failure, by rw [place]; rfl⟩
      exact read_moves connected place delivered moved

/-! ## The stream -/

/-- A step keeps the stream in order: what was read so far, followed by what has arrived and was
not read, is what the peer has sent. -/
theorem stream_kept {label : Label} (plain : Plain room state.call)
    (consecutive : Consecutive state) (delivers : Delivers state label)
    (moved : next room state label = some after) :
    Plain room after.call ∧ Consecutive after := by
  obtain ⟨incoming, connected, stream⟩ := consecutive
  cases step_moves plain connected delivers moved with
  | issued tag command idle => exact ⟨.send command, incoming, connected, stream⟩
  | unknown tag command idle =>
    exact ⟨.idle, incoming, connected, by rw [responses_failed]; exact stream⟩
  | unsent answers command place =>
    exact ⟨.idle, incoming, connected, by rw [responses_failed]; exact stream⟩
  | sent answers command place =>
    refine ⟨.read, _, rfl, ?_⟩
    change (responses state).flatten ++ (incoming ++ answers.reply) =
      (state.process.replies ++ [answers.reply]).flatten
    rw [← List.append_assoc, stream, List.flatten_concat]
  | read answers place =>
    refine ⟨.idle, _, rfl, ?_⟩
    rw [responses_read, List.flatten_concat, List.append_assoc, List.take_append_drop]
    exact stream

/-- In every run on such a socket, however it cuts the replies, the responses are
consecutive parts of them. -/
theorem responses_consecutive (reached : (system room).Reaches Delivers state) :
    Plain room state.call ∧ Consecutive state := by
  refine reached.invariant (fun state => Plain room state.call ∧ Consecutive state) ?_ ?_
  · intro state ready
    rw [ready.idle]
    exact ⟨.idle, [], ready.connected, by simp [responses, ready.results, ready.replies]⟩
  · exact fun before label after holds admitted moved =>
      stream_kept holds.1 holds.2 admitted moved

/-! ## Pairing -/

/-- Where a run stands: the replies are answered up to the one that is being read. -/
inductive Stands (room : Nat) (state : State) : Option CommandPoint → Prop where
  | idle (answered : responses state = state.process.replies.map (List.take room)) :
      Stands room state none
  | send (command : List Byte) (connected : state.process.connection = .connected [])
      (answered : responses state = state.process.replies.map (List.take room)) :
      Stands room state (some (.send command (room + 1)))
  | read (earlier : List (List Byte)) (reply : List Byte)
      (connected : state.process.connection = .connected reply)
      (replies : state.process.replies = earlier ++ [reply])
      (answered : responses state = earlier.map (List.take room)) :
      Stands room state (some (.read (room + 1)))

/-- A step keeps the pairing where the replies are read as a whole. -/
theorem pairing_kept {label : Label} {incoming : List Byte}
    (connected : state.process.connection = .connected incoming)
    (stands : Stands room state state.call) (drained : Drained state label)
    (whole : ReadsAll room state label) (moves : Moves room state incoming label after) :
    Stands room after after.call := by
  generalize before : state.call = call at stands
  cases moves with
  | issued tag command idle =>
    obtain rfl := before.symm.trans idle
    cases stands with
    | idle answered => exact .send command drained answered
  | unknown tag command idle =>
    obtain rfl := before.symm.trans idle
    cases stands with
    | idle answered => exact .idle ((responses_failed _ _ _ _).trans answered)
  | unsent answers command place =>
    obtain rfl := before.symm.trans place
    cases stands with
    | send _ _ answered => exact .idle ((responses_failed _ _ _ _).trans answered)
  | sent answers command place =>
    obtain rfl := before.symm.trans place
    cases stands with
    | send _ empty answered =>
      obtain rfl : incoming = [] := Connection.connected.inj (connected.symm.trans empty)
      exact .read state.process.replies answers.reply rfl rfl answered
  | read answers place =>
    obtain rfl := before.symm.trans place
    cases stands with
    | read earlier reply held replies answered =>
      obtain rfl : incoming = reply := Connection.connected.inj (connected.symm.trans held)
      have taken : incoming.take answers.value = incoming.take room := by
        have all : answers.value = min room (unread state.process.connection).length :=
          whole (by rw [place]; rfl)
        rw [connected, unread] at all
        rw [all, ← List.take_take, List.take_length]
      refine .idle ?_
      rw [responses_read]
      change responses state ++ _ = state.process.replies.map (List.take room)
      rw [answered, replies, taken, List.map_append, List.map_singleton]

/-- Behind a run that reads the replies as a whole the responses are the replies. -/
theorem stands_paired (stands : Stands room state state.call) : Paired room state := by
  have answered : ∃ answered waiting, state.process.replies = answered ++ waiting ∧
      responses state = answered.map (List.take room) := by
    generalize state.call = call at stands
    cases stands with
    | idle answered => exact ⟨_, [], (List.append_nil _).symm, answered⟩
    | send command connected answered => exact ⟨_, [], (List.append_nil _).symm, answered⟩
    | read earlier reply connected replies answered => exact ⟨_, _, replies, answered⟩
  obtain ⟨earlier, waiting, replies, shown⟩ := answered
  intro number response found
  rw [shown, List.getElem?_map, Option.map_eq_some_iff] at found
  obtain ⟨reply, known, rfl⟩ := found
  have inside : number < earlier.length := (List.getElem?_eq_some_iff.mp known).1
  exact ⟨reply, by rw [replies, List.getElem?_append_left inside, known], rfl⟩

variable (room)

/-- However the socket cuts the replies, the responses are consecutive parts of them. Where
no command is issued before the reply of the one before was read to its end, and each read
returns all of its reply that fits the buffer, each response is the reply of its command,
cut to the buffer. -/
theorem replies_consecutive_and_paired (state : State) :
    ((system room).Reaches Delivers state → Consecutive state) ∧
      ((system room).Reaches (fun state label => Delivers state label ∧ Drained state label ∧
        ReadsAll room state label) state → Paired room state) := by
  refine ⟨fun reached => (responses_consecutive reached).2, fun reached => ?_⟩
  have holds := reached.invariant
    (fun state => (Plain room state.call ∧ Consecutive state) ∧ Stands room state state.call)
    (fun state ready => ⟨responses_consecutive (System.Reaches.initial ready), by
      rw [ready.idle]
      exact .idle (by simp [responses, ready.results, ready.replies])⟩)
    (fun before label after holds admitted moved => by
      obtain ⟨⟨plain, consecutive⟩, stands⟩ := holds
      have kept := stream_kept plain consecutive admitted.1 moved
      obtain ⟨incoming, connected, _⟩ := consecutive
      exact ⟨kept, pairing_kept connected stands admitted.2.1 admitted.2.2
        (step_moves plain connected admitted.1 moved)⟩)
  exact stands_paired holds.2

end Runs

/-- A process whose responder was set up, and whose socket has no bytes left to read. -/
def ready : State where
  process := { Process.initial with
    responders := responderInitialize
    socket := 3
    path := some (bytesOf "/run/s")
    connection := .connected []
    connects := 1 }
  call := none
  results := []

/-- Such a process meets the conditions on the beginning of a run. -/
theorem ready_ready : Ready ready := ⟨rfl, rfl, rfl, rfl, rfl⟩

/-- A command that is answered by `reply`, of which one read returns `count` bytes. -/
def exchange (reply : List Byte) (count : Nat) : List Label :=
  [.event suricataTag [97], .step ⟨false, 0, reply⟩, .step ⟨false, count, []⟩]

/-- The law at work for one command: its reply of two bytes is read whole, and is the response. -/
theorem replies_paired_once : ∃ state, responses state = [[98, 99]] ∧ Consecutive state ∧
    Paired 2047 state := by
  obtain ⟨state, completed, shown⟩ : ∃ state,
      (system 2047).follow (exchange [98, 99] 2) ready = some state ∧
        responses state = [[98, 99]] := ⟨_, rfl, rfl⟩
  have law := replies_consecutive_and_paired 2047 state
  refine ⟨state, shown, law.1 ?_, law.2 ?_⟩
  · exact (System.Reaches.initial ready_ready).followed _ state (by decide) completed
  · exact (System.Reaches.initial ready_ready).followed _ state (by decide) completed

/-- A run to a response that is not its reply refutes the pairing. -/
theorem unpaired {room : Nat} {guard : State → Label → Prop} {labels : List Label}
    {state : State} {number : Nat} {response reply : List Byte}
    (admitted : (system room).Admits guard labels ready)
    (completed : (system room).follow labels ready = some state)
    (shown : (responses state)[number]? = some response)
    (known : state.process.replies[number]? = some reply) (differs : response ≠ reply.take room) :
    ¬ ∀ state, (system room).Reaches guard state → Paired room state := by
  intro claimed
  have reached := (System.Reaches.initial ready_ready).followed labels state admitted completed
  obtain ⟨other, same, paired⟩ := claimed state reached number response shown
  obtain rfl : reply = other := Option.some.inj (known.symm.trans same)
  exact differs paired

/-- A reply of two bytes is read one byte at a time; and with a buffer of one byte the second
byte of a reply is read for the reply of the next command. -/
theorem short_read_and_long_reply_unpaired :
    (¬ ∀ state, (system 2047).Reaches
        (fun state label => Delivers state label ∧ Drained state label) state →
          Paired 2047 state) ∧
      ¬ ∀ state, (system 1).Reaches
        (fun state label => Delivers state label ∧ ReadsAll 1 state label) state →
          Paired 1 state := by
  constructor
  · obtain ⟨state, completed, shown, known⟩ : ∃ state,
        (system 2047).follow (exchange [98, 99] 1) ready = some state ∧
          (responses state)[0]? = some [98] ∧ state.process.replies[0]? = some [98, 99] :=
      ⟨_, rfl, rfl, rfl⟩
    exact unpaired (by decide) completed shown known (by decide)
  · obtain ⟨state, completed, shown, known⟩ : ∃ state,
        (system 1).follow (exchange [98, 99] 1 ++ exchange [100] 1) ready = some state ∧
          (responses state)[1]? = some [99] ∧ state.process.replies[1]? = some [100] :=
      ⟨_, rfl, rfl, rfl⟩
    exact unpaired (by decide) completed shown known (by decide)

end Dragonfly.CommandChannel
