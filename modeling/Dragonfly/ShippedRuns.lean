import Dragonfly.AnalyzerStack
import Dragonfly.ShippedScripts

/-!
# Runs of the shipped scripts over their lines

Every line should get through: a line that decodes to an object goes to one analyzer
and is logged once, any other line is dropped, and no thread ends the process.

The filter and the analyzers decode with the global `cjson`, which raises an error on
malformed text, and a raised error ends the process. What an analyzer sends to the log
passes one more queue, and the output thread writes it only if it is neither empty nor as
large as the buffer, has no zero byte and is not the rotate message. So the lines that get
through are the ones described by `Acceptable`.

The steps of a thread are put together here to rounds of its loop, and these to runs in
which one thread after the other takes all that waits for it.
-/

namespace Dragonfly.Shipped

open Config Events Flywheel Stages

section Expectations

variable {Value Table : Type} (setup : Setup Value Table)

/-- The analyzer that an object is for, which the filter tells from the event type of the
object. -/
def kindOf (table : Table) : Kind :=
  if setup.cjson.getString table (bytesOf "event_type") = some (bytesOf "alert") then .alert
  else .nsm

/-- What an analyzer encodes of an object: the second one with a mark. -/
def Kind.record (kind : Kind) (table : Table) : Decoded Table :=
  match kind with
  | .alert => .object table
  | .nsm => .object (setup.cjson.setTrue table (bytesOf "mle"))

/-- What an analyzer logs of an object: the encoding of its record, if it has one. -/
def Kind.text (kind : Kind) (table : Table) : Option (List Byte) :=
  setup.cjson.encode (kind.record setup table)

/-- The bytes `mp_pack` makes of the call for an analyzer. -/
def Kind.packed (kind : Kind) (line : List Byte) : List Byte :=
  setup.lua.pack [setup.string kind.name, setup.string line]

/-- A line that decodes to an object is for one analyzer, any other line for none. -/
def expected (line : List Byte) : Option (Kind × List Byte) :=
  match setup.cjson.decode line with
  | some (.object table) => some (kindOf setup table, line)
  | _ => none

/-- What an analyzer is to log of a line: the encoding of its object, and nothing if it is no
object. -/
def Kind.entry (kind : Kind) (line : List Byte) : Option (List Byte) :=
  match setup.cjson.decode line with
  | some (.object table) => kind.text setup table
  | _ => none

/-- What a list has for an analyzer: of the forwarded lines those it is to take, of the texts
that were sent to the log those it sent. -/
def linesFor (kind : Kind) (listed : List (Kind × List Byte)) : List (List Byte) :=
  (listed.filter fun entry => entry.1 = kind).map Prod.snd

/-- The message is neither empty nor as large as the buffer. -/
def InRange (message : List Byte) : Prop := 0 < message.length ∧ message.length < maxBufferSize

instance (message : List Byte) : Decidable (InRange message) :=
  inferInstanceAs (Decidable (_ ∧ _))

/-- The output thread writes the text as it is: it is received, has no zero byte, and is not the
rotate message, whatever the case of its letters. -/
def Writable (text : List Byte) : Prop :=
  InRange text ∧ 0 ∉ text ∧ strcasecmp text rotateMessage ≠ 0

instance (text : List Byte) : Decidable (Writable text) :=
  inferInstanceAs (Decidable (_ ∧ _ ∧ _))

/-- What is packed of a call for an analyzer and reaches it whole is unpacked to the two strings
again. -/
def Unpacks (kind : Kind) (line : List Byte) : Prop :=
  InRange (kind.packed setup line) →
    setup.lua.unpack (kind.packed setup line) = some [setup.string kind.name, setup.string line]

/-- The lines that get through: an object whose line and packed line are received and
whose encoding succeeds and can be written; `false`; and what else is not received at all. -/
def Acceptable (line : List Byte) : Prop :=
  match setup.cjson.decode line with
  | some (.object table) =>
      InRange line ∧ InRange ((kindOf setup table).packed setup line) ∧
        ∃ text, (kindOf setup table).text setup table = some text ∧ Writable text
  | some (.boolean false) => True
  | _ => ¬ InRange line

/-- The thread has not ended its process: it is inside its loop, or has left it by a return. -/
def Alive {Point Result : Type} : Activity Point Result → Prop
  | .ended => False
  | _ => True

/-- The thread has no message in its hands: it is at the head of its loop, or waits for the next
message. -/
def Idle {Locals Held Result : Type} : Activity (StagePoint Locals Held) Result → Prop
  | .inside (.test _) => True
  | .inside (.recv _) => True
  | _ => False

/-- Nothing is left to do: all queues are empty, and no thread has a message in its hands. -/
structure Drained (state : State Value) : Prop where
  input : state.queue = [] ∧ Idle state.input
  workers : ∀ kind, (state.worker kind).queue = [] ∧ Idle (state.worker kind).thread
  log : state.log.queue = [] ∧ Idle state.log.thread

/-- The lines cannot stop the engine: no thread ends; with no line in its hands the input
thread has forwarded the objects among the lines it took, each to its analyzer, and
nothing else; with no message in its hands an analyzer has sent the entries of the lines it
took to the log, once each and in order; with no text in its hands the output thread has
written each text it took as a line, once and in order. And all lines get through: in
whatever order the threads take their steps the run comes to an end, where nothing is left
to do. -/
structure Survives (startStack : Kind → Stack Value) (lines : List (List Byte)) : Prop where
  runs : ∀ state, (system setup startStack lines).Reachable state →
    Alive state.input ∧ (∀ kind, Alive (state.worker kind).thread) ∧ Alive state.log.thread
  forwards : ∀ state, (system setup startStack lines).Reachable state → Idle state.input →
    state.forwarded =
      (lines.take (lines.length - state.queue.length)).filterMap (expected setup)
  sends : ∀ state kind, (system setup startStack lines).Reachable state →
    Idle (state.worker kind).thread →
    (linesFor kind state.sent).map some =
      ((linesFor kind state.forwarded).take
        ((linesFor kind state.forwarded).length - (state.worker kind).queue.length)).map
          (kind.entry setup)
  logs : ∀ state, (system setup startStack lines).Reachable state → Idle state.log.thread →
    state.log.lines =
      (state.sent.take (state.sent.length - state.log.queue.length)).map Prod.snd
  ends : ∃ bound, ∀ threads state,
    (system setup startStack lines).follow threads (initial startStack lines) = some state →
      threads.length ≤ bound
  drains : ∀ state, (system setup startStack lines).Reachable state →
    (∀ thread, step setup state thread = none) → Drained state

end Expectations

section Calls

variable {Value Table : Type} {setup : Setup Value Table}

/-- The analyzer that the filter names in its call is found in the shipped configuration under
this name. -/
theorem search_kind (kind : Kind) :
    search kind.name 0 (shipped.analyzers.map fun analyzer => (analyzer.tag, analyzer.tag)) =
      .found (match kind with | .alert => 0 | .nsm => 1) := by
  cases kind <;> decide

/-- The output that the analyzers name in their calls is found in the shipped configuration
behind the internal ones. -/
theorem search_log :
    search (bytesOf "log") 2 ((shipped.outputs.drop 2).map fun output =>
      (output.tag, output.tag)) = .found 2 := by decide

/-- A call of the filter puts the packed line into the queue of the analyzer. -/
theorem forward_call (strings : ∀ bytes, setup.lua.toString (setup.string bytes) = some bytes)
    (state : State Value) (kind : Kind) (line : List Byte) :
    state.runFilter setup (.analyzeEvent kind.name line) =
      some (state.forward kind line (kind.packed setup line), false) := by
  simp only [State.runFilter, analyzeEvent, strings, search_kind]
  cases kind <;> rfl

/-- A call of an analyzer sends the encoding to the log. -/
theorem log_call (strings : ∀ bytes, setup.lua.toString (setup.string bytes) = some bytes)
    (state : State Value) (kind : Kind) (text : List Byte) :
    state.runAnalyzer setup kind (.outputEvent (bytesOf "log") text) =
      some (state.send kind text, false) := by
  simp only [State.runAnalyzer, outputEvent, strings, search_log]
  rfl

/-- The filter forwards what has the fields of a table or a string. -/
theorem filter_forwards {line : List Byte} {eve : Decoded Table} {alert : Bool}
    (decoded : setup.cjson.decode line = some eve) (typed : isAlert setup.cjson eve = some alert) :
    suricataFilter setup.cjson line =
      .analyzeEvent (if alert then Kind.alert else Kind.nsm).name line := by
  cases eve <;> cases alert <;> simp_all [suricataFilter, isAlert, Kind.name]

/-- The filter forwards a line with an object to the analyzer of this object, and changes
nothing of the line. -/
theorem filter_object {line : List Byte} {table : Table}
    (decoded : setup.cjson.decode line = some (.object table)) :
    suricataFilter setup.cjson line = .analyzeEvent (kindOf setup table).name line := by
  have typed : isAlert setup.cjson (.object table) =
      some (decide (setup.cjson.getString table (bytesOf "event_type") =
        some (bytesOf "alert"))) := rfl
  rw [filter_forwards decoded typed, kindOf]
  simp only [decide_eq_true_eq]

/-- A run of the filter on an object forwards it to its analyzer. -/
theorem object_forwarded (strings : ∀ bytes, setup.lua.toString (setup.string bytes) = some bytes)
    {line : List Byte} {table : Table}
    (decoded : setup.cjson.decode line = some (.object table)) (state : State Value) :
    state.runFilter setup (suricataFilter setup.cjson line) =
      some (state.forward (kindOf setup table) line ((kindOf setup table).packed setup line),
        false) := by
  rw [filter_object decoded]
  exact forward_call strings state (kindOf setup table) line

/-- An analyzer encodes an object and sends it to the log. -/
theorem analyzer_object (strings : ∀ bytes, setup.lua.toString (setup.string bytes) = some bytes)
    {line : List Byte} {table : Table}
    (decoded : setup.cjson.decode line = some (.object table)) (kind : Kind) :
    kind.loop setup (setup.string line) = logEncoding setup.cjson (kind.record setup table) := by
  cases kind <;>
    simp only [Kind.loop, strings, exampleAlert, exampleNsm, decoded, mark, Kind.record]

end Calls

section Steps

variable {Value Table : Type} {setup : Setup Value Table} {startStack : Kind → Stack Value}
  {lines : List (List Byte)}

/-- The messages of lines in the queue of an analyzer. -/
def Kind.frames (kind : Kind) (setup : Setup Value Table) (waiting : List (List Byte)) :
    List (List Byte) := waiting.map fun line => cut (kind.packed setup line)

/-- A message that is shorter than the buffer is not cut when it is sent. -/
theorem cut_short {message : List Byte} (short : message.length < maxBufferSize) :
    cut message = message := List.take_of_length_le (Nat.le_of_lt short)

/-- The queue delivers of a message no more than the size of the buffer. -/
theorem cut_length (message : List Byte) :
    (cut message).length = min maxBufferSize message.length := List.length_take

/-- What a receive of a message leads to: an empty one ends the loop, one that fills the buffer
is skipped, and any other is prepared for its handler. -/
def receive {Locals Held : Type}
    (prepare : Locals → List Byte → Outcome (StagePoint Locals Held) Locals) (locals : Locals)
    (message : List Byte) : Outcome (StagePoint Locals Held) Locals :=
  if message.length = 0 then .ret locals
  else if maxBufferSize ≤ message.length then .goto (.test locals)
  else prepare locals message

/-- The branches of the loop on a received message are those of `receive`. -/
theorem receive_branches {Locals Held : Type}
    (prepare : Locals → List Byte → Outcome (StagePoint Locals Held) Locals) (locals : Locals)
    (message : List Byte) :
    (if ((cut message).length : Int) ≤ 0 then .ret locals
      else if ((cut message).length : Int) = (maxBufferSize : Nat) then .goto (.test locals)
      else prepare locals ((cut message).take ((cut message).length : Int).toNat)) =
      receive prepare locals message := by
  have length := cut_length message
  have positive : 0 < maxBufferSize := by decide
  rw [receive]
  by_cases empty : message.length = 0
  · rw [if_pos (by omega), if_pos empty]
  · by_cases large : maxBufferSize ≤ message.length
    · rw [if_neg (by omega), if_pos (by omega), if_neg empty, if_pos large]
    · rw [if_neg (by omega), if_neg (by omega), if_neg empty, if_neg large, Int.toNat_natCast,
        List.take_length, cut_short (Nat.lt_of_not_le large)]

/-- The input thread receives the next line of its queue, which was cut to the size of the
buffer. -/
theorem input_receives (state : State Value) (line : List Byte) (rest : List (List Byte))
    (queued : state.queue = cut line :: rest) (ready : state.input = .inside (.recv ())) :
    step setup state .input = some { state with
      queue := rest
      input := .after
        (receive (fun locals message => .goto (.handle locals message)) () line) } := by
  have within : (cut line).length ≤ maxBufferSize := by
    rw [cut_length]
    exact Nat.min_le_left _ _
  rw [← receive_branches]
  simp only [step, proceed, ready, luaInputLoop, stageLoop, State.perform, queued, if_pos within,
    Option.map_some]

/-- An analyzer receives the next message of its queue, which was cut to the size of the buffer. -/
theorem worker_receives (state : State Value) (kind : Kind) (message : List Byte)
    (rest : List (List Byte)) (stack : Stack Value)
    (queued : (state.worker kind).queue = cut message :: rest)
    (ready : (state.worker kind).thread = .inside (.recv stack)) :
    step setup state (.worker kind) = some (state.place kind
      ⟨rest, .after (receive (prepareCall setup.lua) stack message)⟩) := by
  have within : (cut message).length ≤ maxBufferSize := by
    rw [cut_length]
    exact Nat.min_le_left _ _
  rw [← receive_branches]
  simp only [step, proceed, ready, luaAnalyzerLoop, stageLoop, State.performWorker, queued,
    if_pos within, Option.map_some, State.place, Function.update_self, Function.update_idem]

/-- The output thread receives the next text of its queue, which was cut to the size of the
buffer. -/
theorem output_receives (state : State Value) (text : List Byte) (rest : List (List Byte))
    (queued : state.log.queue = cut text :: rest) (ready : state.log.thread = .inside (.recv ())) :
    step setup state .output = some { state with
      log := ⟨rest, .after (receive (fun locals message => .goto (.handle locals message)) () text),
        state.log.lines⟩ } := by
  have within : (cut text).length ≤ maxBufferSize := by
    rw [cut_length]
    exact Nat.min_le_left _ _
  rw [← receive_branches]
  simp only [step, proceed, ready, luaOutputLoop, stageLoop, Log.perform, queued, if_pos within,
    Option.map_some]

/-- The text as the output thread writes it, if it does: it is neither empty nor skipped, it does
not rotate the file, and it ends at its first zero byte. -/
def written (text : List Byte) : List (List Byte) :=
  if InRange text ∧ strcasecmp text rotateMessage ≠ 0 then [cString text] else []

/-- A text is written as it is exactly if it is writable. -/
theorem written_iff (text : List Byte) : written text = [text] ↔ Writable text := by
  rw [written]
  by_cases kept : InRange text ∧ strcasecmp text rotateMessage ≠ 0
  · rw [if_pos kept, List.singleton_inj]
    constructor
    · intro whole
      refine ⟨kept.1, fun zero => ?_, kept.2⟩
      rw [← whole] at zero
      exact zero_not_mem_cString text zero
    · exact fun writable => cString_whole text writable.2.1
  · rw [if_neg kept]
    constructor
    · intro empty
      cases empty
    · exact fun writable => absurd ⟨writable.1, writable.2.2⟩ kept

/-- The output thread writes a text that it holds, if the text is none of those it treats in
another way. -/
theorem output_handles (state : State Value) {text : List Byte} (inRange : InRange text)
    (holding : state.log.thread = .inside (.handle () text)) :
    step setup state .output = some { state with
      log := ⟨state.log.queue, .inside (.test ()), state.log.lines ++ written text⟩ } := by
  have terminated : cString (text ++ [0]) = cString text := cString_zero text
  have compared : strcasecmp (text ++ [0]) rotateMessage = strcasecmp text rotateMessage := by
    rw [strcasecmp, terminated, strcasecmp]
  simp only [step, proceed, holding, luaOutputLoop, stageLoop]
  by_cases rotates : strcasecmp text rotateMessage = 0
  · rw [if_pos (compared.trans rotates), written, if_neg fun kept => kept.2 rotates,
      List.append_nil]
    rfl
  · rw [if_neg fun rotating => rotates (compared.symm.trans rotating), written,
      if_pos ⟨inRange, rotates⟩, ← terminated]
    rfl

section Moves

variable {queue rest : List (List Byte)} {line : List Byte}
  {input : Activity (StagePoint Unit (List Byte)) Unit} {forwarded : List (Kind × List Byte)}
  {worker : Kind → Worker Value} {sent : List (Kind × List Byte)} {log : Log}

/-- The input thread at the head of its loop receives the next line. -/
theorem line_taken (reached : (system setup startStack lines).Reachable
      ⟨cut line :: rest, .inside (.test ()), forwarded, worker, sent, log⟩) :
    (system setup startStack lines).Reachable ⟨rest,
      .after (receive (fun locals message => .goto (.handle locals message)) () line),
      forwarded, worker, sent, log⟩ := by
  have waiting : (system setup startStack lines).Reachable
      ⟨cut line :: rest, .inside (.recv ()), forwarded, worker, sent, log⟩ :=
    reached.extend .input trivial rfl
  exact waiting.extend .input trivial
    (input_receives ⟨cut line :: rest, .inside (.recv ()), forwarded, worker, sent, log⟩ line rest
      rfl rfl)

/-- A line that is not received is passed over; an empty one ends the loop, which is
entered again. -/
theorem line_skipped (outside : ¬ InRange line)
    (reached : (system setup startStack lines).Reachable
      ⟨cut line :: rest, .inside (.test ()), forwarded, worker, sent, log⟩) :
    (system setup startStack lines).Reachable
      ⟨rest, .inside (.test ()), forwarded, worker, sent, log⟩ := by
  have received := line_taken reached
  by_cases empty : line.length = 0
  · simp only [receive, if_pos empty, Activity.after] at received
    exact received.extend .input trivial rfl
  · have large : maxBufferSize ≤ line.length := by
      by_contra short
      exact outside ⟨Nat.pos_of_ne_zero empty, Nat.lt_of_not_le short⟩
    simp only [receive, if_neg empty, if_pos large, Activity.after] at received
    exact received

/-- A line that is neither empty nor too long is received and passed to the filter. -/
theorem line_received (inRange : InRange line)
    (reached : (system setup startStack lines).Reachable
      ⟨cut line :: rest, .inside (.test ()), forwarded, worker, sent, log⟩) :
    (system setup startStack lines).Reachable
      ⟨rest, .inside (.handle () line), forwarded, worker, sent, log⟩ := by
  have received := line_taken reached
  simp only [receive, if_neg (Nat.ne_of_gt inRange.1), if_neg (Nat.not_le_of_lt inRange.2),
    Activity.after] at received
  exact received

/-- The filter runs on the line the input thread holds, and the run goes on to the state its
call has led to. -/
theorem filter_called {after : State Value} {failed : Bool}
    (reached : (system setup startStack lines).Reachable
      ⟨rest, .inside (.handle () line), forwarded, worker, sent, log⟩)
    (called : State.runFilter setup ⟨rest, .inside (.handle () line), forwarded, worker, sent, log⟩
      (suricataFilter setup.cjson line) = some (after, failed)) :
    (system setup startStack lines).Reachable
      { after with input := if failed then .ended else .inside (.test ()) } := by
  apply reached.extend .input trivial
  simp only [system, step, proceed, luaInputLoop, stageLoop, State.perform, called,
    Option.map_some]
  cases failed <;> rfl

/-- An analyzer at the head of its loop goes on to receive. -/
theorem message_awaited {kind : Kind} {frames : List (List Byte)} {stack : Stack Value}
    (reached : (system setup startStack lines).Reachable ⟨queue, input, forwarded,
      Function.update worker kind ⟨frames, .inside (.test stack)⟩, sent, log⟩) :
    (system setup startStack lines).Reachable ⟨queue, input, forwarded,
      Function.update worker kind ⟨frames, .inside (.recv stack)⟩, sent, log⟩ := by
  apply reached.extend (.worker kind) trivial
  simp [system, step, proceed, luaAnalyzerLoop, stageLoop, State.performWorker, State.place,
    Activity.after]

/-- An analyzer passes over a message that is not received. -/
theorem message_skipped {kind : Kind} {message : List Byte} {stack : Stack Value}
    (outside : ¬ InRange message)
    (reached : (system setup startStack lines).Reachable ⟨queue, input, forwarded,
      Function.update worker kind ⟨cut message :: rest, .inside (.test stack)⟩, sent, log⟩) :
    (system setup startStack lines).Reachable ⟨queue, input, forwarded,
      Function.update worker kind ⟨rest, .inside (.test stack)⟩, sent, log⟩ := by
  have received := (message_awaited reached).extend (.worker kind) trivial
    (worker_receives _ kind message rest stack (by simp) (by simp))
  simp only [State.place, Function.update_idem] at received
  by_cases empty : message.length = 0
  · simp only [receive, if_pos empty, Activity.after] at received
    apply received.extend (.worker kind) trivial
    simp [system, step, proceed, State.place]
  · have large : maxBufferSize ≤ message.length := by
      by_contra short
      exact outside ⟨Nat.pos_of_ne_zero empty, Nat.lt_of_not_le short⟩
    simp only [receive, if_neg empty, if_pos large, Activity.after] at received
    exact received

/-- An analyzer passes the line of a message in range to its script. -/
theorem message_received {kind : Kind} {stack : Stack Value}
    (inRange : InRange (kind.packed setup line))
    (unpacked : setup.lua.unpack (kind.packed setup line) =
      some [setup.string kind.name, setup.string line])
    (reached : (system setup startStack lines).Reachable ⟨queue, input, forwarded,
      Function.update worker kind
        ⟨cut (kind.packed setup line) :: rest, .inside (.test stack)⟩, sent, log⟩) :
    (system setup startStack lines).Reachable ⟨queue, input, forwarded,
      Function.update worker kind ⟨rest,
        .inside (.handle (.value (setup.string kind.name) :: stack) (setup.string line))⟩,
        sent, log⟩ := by
  have received := (message_awaited reached).extend (.worker kind) trivial
    (worker_receives _ kind (kind.packed setup line) rest stack (by simp) (by simp))
  simp only [State.place, Function.update_idem, receive,
    if_neg (Nat.ne_of_gt inRange.1), if_neg (Nat.not_le_of_lt inRange.2),
    prepare_call_two unpacked, Activity.after] at received
  exact received

/-- The script of an analyzer runs on the value its thread holds, and the run goes on to the
state its call has led to. -/
theorem analyzer_called {kind : Kind} {argument : Value} {below : Stack Value}
    {after : State Value} {failed : Bool}
    (reached : (system setup startStack lines).Reachable ⟨queue, input, forwarded,
      Function.update worker kind ⟨rest, .inside (.handle below argument)⟩, sent, log⟩)
    (called : State.runAnalyzer setup ⟨queue, input, forwarded,
      Function.update worker kind ⟨rest, .inside (.handle below argument)⟩, sent, log⟩ kind
      (kind.loop setup argument) = some (after, failed)) :
    (system setup startStack lines).Reachable (after.place kind { after.worker kind with
      thread := if failed then .ended else .inside (.test (below.drop 1)) }) := by
  apply reached.extend (.worker kind) trivial
  simp only [system, step, Function.update_self, proceed, luaAnalyzerLoop, stageLoop,
    State.performWorker, called, Option.map_some]
  cases failed <;> rfl

/-- The output thread at the head of its loop takes the next text: it writes what there is to
write of it and is there again. -/
theorem text_taken {text : List Byte} {written : List (List Byte)}
    (reached : (system setup startStack lines).Reachable ⟨queue, input, forwarded, worker, sent,
      ⟨cut text :: rest, .inside (.test ()), written⟩⟩) :
    (system setup startStack lines).Reachable ⟨queue, input, forwarded, worker, sent,
      ⟨rest, .inside (.test ()), written ++ Shipped.written text⟩⟩ := by
  have waiting : (system setup startStack lines).Reachable ⟨queue, input, forwarded, worker, sent,
      ⟨cut text :: rest, .inside (.recv ()), written⟩⟩ := reached.extend .output trivial rfl
  have receives : step setup ⟨queue, input, forwarded, worker, sent,
      ⟨cut text :: rest, .inside (.recv ()), written⟩⟩ .output = some _ :=
    output_receives _ text rest rfl rfl
  have received := waiting.extend .output trivial receives
  by_cases inRange : InRange text
  · simp only [receive, if_neg (Nat.ne_of_gt inRange.1), if_neg (Nat.not_le_of_lt inRange.2),
      Activity.after] at received
    have handles : step setup ⟨queue, input, forwarded, worker, sent,
        ⟨rest, .inside (.handle () text), written⟩⟩ .output = some _ :=
      output_handles _ inRange rfl
    exact received.extend .output trivial handles
  · rw [Shipped.written, if_neg fun kept => inRange kept.1, List.append_nil]
    by_cases empty : text.length = 0
    · simp only [receive, if_pos empty, Activity.after] at received
      exact received.extend .output trivial rfl
    · have large : maxBufferSize ≤ text.length := by
        by_contra short
        exact inRange ⟨Nat.pos_of_ne_zero empty, Nat.lt_of_not_le short⟩
      simp only [receive, if_neg empty, if_pos large, Activity.after] at received
      exact received

end Moves

end Steps

section Fronts

variable {Value Table : Type} {setup : Setup Value Table} {startStack : Kind → Stack Value}
  {lines : List (List Byte)}

/-- What an analyzer logs of a line that it receives: the text of the object the line decodes
to. -/
def Logs (setup : Setup Value Table) (kind : Kind) (line text : List Byte) : Prop :=
  ∃ table, setup.cjson.decode line = some (.object table) ∧ kind.text setup table = some text

/-- A line that gets through an analyzer: its message is received, is unpacked to the
call again, and is logged as a text the output can write. -/
structure Passes (setup : Setup Value Table) (kind : Kind) (line : List Byte) : Prop where
  inRange : InRange (kind.packed setup line)
  unpacked : setup.lua.unpack (kind.packed setup line) =
    some [setup.string kind.name, setup.string line]
  logs : ∃ text, Logs setup kind line text ∧ Writable text

/-- What an analyzer logs of a line that it receives is the entry of this line. -/
theorem Logs.entry {kind : Kind} {line text : List Byte} (logs : Logs setup kind line text) :
    kind.entry setup line = some text := by
  obtain ⟨table, decoded, encoded⟩ := logs
  simp only [Kind.entry, decoded, encoded]

/-- A run of the analyzer on the line sends it to the log. -/
theorem Logs.run (strings : ∀ bytes, setup.lua.toString (setup.string bytes) = some bytes)
    {kind : Kind} {line text : List Byte} (logs : Logs setup kind line text)
    (state : State Value) :
    state.runAnalyzer setup kind (kind.loop setup (setup.string line)) =
      some (state.send kind text, false) := by
  obtain ⟨table, decoded, encoded⟩ := logs
  rw [Kind.text] at encoded
  rw [analyzer_object strings decoded, logEncoding, encoded]
  exact log_call strings state kind text

/-- An acceptable line is an object that is forwarded and logged, or is dropped. -/
theorem acceptable_cases {line : List Byte} (acceptable : Acceptable setup line) :
    (∃ table text, setup.cjson.decode line = some (.object table) ∧
        expected setup line = some (kindOf setup table, line) ∧ InRange line ∧
        InRange ((kindOf setup table).packed setup line) ∧
        Logs setup (kindOf setup table) line text ∧ Writable text) ∨
      (expected setup line = none ∧
        (¬ InRange line ∨ suricataFilter setup.cjson line = .returned)) := by
  unfold Acceptable at acceptable
  split at acceptable
  · rename_i table decoded
    obtain ⟨inRange, packed, text, encoded, writable⟩ := acceptable
    exact .inl ⟨table, text, decoded, by rw [expected, decoded], inRange, packed,
      ⟨table, decoded, encoded⟩, writable⟩
  · rename_i decoded
    exact .inr ⟨by rw [expected, decoded], .inr (by rw [suricataFilter, decoded])⟩
  · rename_i noObject _
    refine .inr ⟨?_, .inl acceptable⟩
    rw [expected]
    split
    · rename_i table decoded
      exact absurd decoded (noObject table)
    · rfl

/-- The input thread has taken some lines, the analyzers have not begun. -/
def standing (setup : Setup Value Table) (startStack : Kind → Stack Value)
    (handled rest : List (List Byte)) : State Value where
  queue := rest.map cut
  input := .inside (.test ())
  forwarded := handled.filterMap (expected setup)
  worker := fun kind => ⟨kind.frames setup (linesFor kind (handled.filterMap (expected setup))),
    .inside (.test (startStack kind))⟩
  sent := []
  log := ⟨[], .inside (.test ()), []⟩

/-- What joins the end of a list is for its analyzer and for no other. -/
theorem lines_for_concat (kind other : Kind) (forwarded : List (Kind × List Byte))
    (line : List Byte) :
    linesFor kind (forwarded ++ [(other, line)]) =
      if kind = other then linesFor kind forwarded ++ [line] else linesFor kind forwarded := by
  by_cases same : kind = other
  · simp [linesFor, same]
  · have different : ¬ other = kind := fun equal => same equal.symm
    simp [linesFor, same, different]

/-- What one analyzer alone has sent is its own, and nothing of it belongs to the other one. -/
theorem lines_for_own (kind : Kind) (texts : List (List Byte)) :
    linesFor kind (texts.map (Prod.mk kind)) = texts := by
  induction texts using List.reverseRecOn with
  | nil => rfl
  | append_singleton texts text inductionHypothesis =>
    rw [List.map_append, List.map_singleton, lines_for_concat, if_pos rfl, inductionHypothesis]

/-- Forwarding a line leaves the analyzers with one more message for the line. -/
theorem standing_forward (startStack : Kind → Stack Value) (handled rest : List (List Byte))
    {line : List Byte} {kind : Kind} (forwards : expected setup line = some (kind, line))
    (input : Activity (StagePoint Unit (List Byte)) Unit) :
    { ({ standing setup startStack handled rest with input := input } : State Value).forward kind
        line (kind.packed setup line) with input := .inside (.test ()) } =
      standing setup startStack (handled ++ [line]) rest := by
  have sent : (handled ++ [line]).filterMap (expected setup) =
      handled.filterMap (expected setup) ++ [(kind, line)] := by
    simp [forwards]
  simp only [standing, State.forward, sent]
  congr 1
  funext other
  by_cases same : other = kind
  · subst same
    simp [lines_for_concat, Kind.frames]
  · simp [lines_for_concat, same]

/-- An acceptable line takes the input thread once around its loop: behind it the thread is at
its test again, and the line was forwarded or dropped. -/
theorem line_handled (strings : ∀ bytes, setup.lua.toString (setup.string bytes) = some bytes)
    {handled rest : List (List Byte)} {line : List Byte} (acceptable : Acceptable setup line)
    (reached : (system setup startStack lines).Reachable
      (standing setup startStack handled (line :: rest))) :
    (system setup startStack lines).Reachable
      (standing setup startStack (handled ++ [line]) rest) := by
  obtain ⟨table, text, decoded, forwards, inRange, -⟩ | ⟨dropped, outcome⟩ :=
    acceptable_cases acceptable
  · have received := line_received inRange reached
    have called := filter_called received (object_forwarded strings decoded _)
    have after := standing_forward startStack handled rest forwards (.inside (.handle () line))
    exact after ▸ called
  · have same : standing setup startStack (handled ++ [line]) rest =
        standing setup startStack handled rest := by
      simp [standing, dropped]
    rw [same]
    rcases outcome with outside | returned
    · exact line_skipped outside reached
    · by_cases inRange : InRange line
      · have received := line_received inRange reached
        exact filter_called received (congrArg _ returned)
      · exact line_skipped inRange reached

/-- The input thread gets through all acceptable lines at the front. -/
theorem front_handled (startStack : Kind → Stack Value)
    (strings : ∀ bytes, setup.lua.toString (setup.string bytes) = some bytes)
    (handled rest : List (List Byte)) (whole : lines = handled ++ rest)
    (acceptable : ∀ line ∈ handled, Acceptable setup line) :
    (system setup startStack lines).Reachable (standing setup startStack handled rest) := by
  induction handled using List.reverseRecOn generalizing rest with
  | nil =>
    obtain rfl : lines = rest := whole
    exact .initial rfl
  | append_singleton handled line inductionHypothesis =>
    have before := inductionHypothesis (line :: rest) (by simp [whole])
      (fun other listed => acceptable other (List.mem_append_left _ listed))
    exact line_handled strings (acceptable line (List.mem_append_right _ List.mem_cons_self)) before

section Moves

variable {queue : List (List Byte)} {input : Activity (StagePoint Unit (List Byte)) Unit}
  {forwarded : List (Kind × List Byte)} {worker : Kind → Worker Value}
  {sent : List (Kind × List Byte)} {log : Log} {kind : Kind} {stack : Stack Value}

/-- A message whose line is logged takes its analyzer once around, and the text waits for the
output thread. -/
theorem message_logged (strings : ∀ bytes, setup.lua.toString (setup.string bytes) = some bytes)
    {line text : List Byte} {rest : List (List Byte)} (logs : Logs setup kind line text)
    (inRange : InRange (kind.packed setup line))
    (unpacked : setup.lua.unpack (kind.packed setup line) =
      some [setup.string kind.name, setup.string line])
    (reached : (system setup startStack lines).Reachable ⟨queue, input, forwarded,
      Function.update worker kind
        ⟨cut (kind.packed setup line) :: rest, .inside (.test stack)⟩, sent, log⟩) :
    (system setup startStack lines).Reachable ⟨queue, input, forwarded,
      Function.update worker kind ⟨rest, .inside (.test stack)⟩, sent ++ [(kind, text)],
      { log with queue := log.queue ++ [cut text] }⟩ := by
  have received := message_received inRange unpacked reached
  have called := analyzer_called received (logs.run strings _)
  simp only [State.send, State.place, Function.update_self, Function.update_idem] at called
  exact called

/-- An analyzer logs the lines at the front of its queue, and their texts wait for the output
thread. -/
theorem messages_logged (strings : ∀ bytes, setup.lua.toString (setup.string bytes) = some bytes)
    (front rest : List (List Byte)) (passes : ∀ line ∈ front, Passes setup kind line)
    (reached : (system setup startStack lines).Reachable ⟨queue, input, forwarded,
      Function.update worker kind
        ⟨kind.frames setup (front ++ rest), .inside (.test stack)⟩, sent, log⟩) :
    ∃ texts : List (List Byte), texts.map some = front.map (kind.entry setup) ∧
      (∀ text ∈ texts, Writable text) ∧
      (system setup startStack lines).Reachable ⟨queue, input, forwarded,
        Function.update worker kind ⟨kind.frames setup rest, .inside (.test stack)⟩,
        sent ++ texts.map (Prod.mk kind), { log with queue := log.queue ++ texts.map cut }⟩ := by
  induction front using List.reverseRecOn generalizing rest with
  | nil =>
    refine ⟨[], rfl, by simp, ?_⟩
    rw [List.map_nil, List.map_nil, List.append_nil, List.append_nil]
    exact reached
  | append_singleton front line inductionHypothesis =>
    obtain ⟨inRange, unpacked, text, last, writable⟩ :=
      passes line (List.mem_append_right _ List.mem_cons_self)
    rw [List.append_assoc] at reached
    obtain ⟨texts, entries, all, before⟩ := inductionHypothesis (line :: rest)
      (fun other listed => passes other (List.mem_append_left _ listed)) reached
    have after := message_logged strings last inRange unpacked before
    refine ⟨texts ++ [text], ?_, ?_, ?_⟩
    · rw [List.map_append, List.map_append, entries, List.map_singleton, List.map_singleton,
        last.entry]
    · intro other listed
      rcases List.mem_append.mp listed with earlier | here
      · exact all other earlier
      · exact List.mem_singleton.mp here ▸ writable
    · simpa only [Kind.frames, List.map_append, List.map_singleton, List.append_assoc] using after

/-- The output thread takes the texts at the front of its queue. -/
theorem texts_taken (front rest lines' : List (List Byte))
    (reached : (system setup startStack lines).Reachable ⟨queue, input, forwarded, worker, sent,
      ⟨front.map cut ++ rest, .inside (.test ()), lines'⟩⟩) :
    (system setup startStack lines).Reachable ⟨queue, input, forwarded, worker, sent,
      ⟨rest, .inside (.test ()), lines' ++ front.flatMap written⟩⟩ := by
  induction front generalizing lines' with
  | nil =>
    rw [List.flatMap_nil, List.append_nil]
    exact reached
  | cons text front inductionHypothesis =>
    have after := inductionHypothesis (lines' ++ written text) (text_taken reached)
    rwa [List.append_assoc] at after

/-- Texts that can be written are written as they are. -/
theorem all_written {texts : List (List Byte)} (writable : ∀ text ∈ texts, Writable text) :
    texts.flatMap written = texts := by
  have single : texts.flatMap written = texts.flatMap fun text => [text] :=
    List.flatMap_congr fun text listed => (written_iff text).mpr (writable text listed)
  rw [single, List.flatMap_singleton']

end Moves

end Fronts

end Dragonfly.Shipped
