import Dragonfly.ShippedRuns

/-!
# Where the shipped threads stand, and what they have left to do

The threads take their steps in any order. Over lines that get through the input thread
always stands among the lines, each analyzer among those that were forwarded to it, and the
output thread among their texts; a thread that cannot take a step has nothing left to do.

Every step leaves less to do, whatever the lines are: a line in its queue is worth more
than the message that is made of it, and this one more than its text. So every run ends.
-/

namespace Dragonfly.Shipped

open Config Events Flywheel Stages

section Positions

variable {Value Table : Type} {setup : Setup Value Table} {startStack : Kind → Stack Value}
  {lines : List (List Byte)}

/-- Where the input thread stands among the lines: behind those it has handled, and in front of
the others. -/
inductive InputAt (setup : Setup Value Table) (lines : List (List Byte)) :
    List (List Byte) → Activity (StagePoint Unit (List Byte)) Unit →
      List (Kind × List Byte) → Prop where
  | test (handled rest : List (List Byte)) (whole : lines = handled ++ rest) :
      InputAt setup lines (rest.map cut) (.inside (.test ())) (handled.filterMap (expected setup))
  | recv (handled rest : List (List Byte)) (whole : lines = handled ++ rest) :
      InputAt setup lines (rest.map cut) (.inside (.recv ())) (handled.filterMap (expected setup))
  | outside (handled rest : List (List Byte)) (whole : lines = handled ++ rest) :
      InputAt setup lines (rest.map cut) (.outside ()) (handled.filterMap (expected setup))
  | handle (handled rest : List (List Byte)) (line : List Byte)
      (whole : lines = handled ++ line :: rest) (inRange : InRange line) :
      InputAt setup lines (rest.map cut) (.inside (.handle () line))
        (handled.filterMap (expected setup))

/-- Where an analyzer stands among the lines that were forwarded to it, with the texts it sent to
the log. -/
inductive WorkerAt (setup : Setup Value Table) (kind : Kind) (pending texts : List (List Byte)) :
    Worker Value → Prop where
  | test (handled rest : List (List Byte)) (stack : Stack Value)
      (whole : pending = handled ++ rest)
      (entries : texts.map some = handled.map (kind.entry setup)) :
      WorkerAt setup kind pending texts ⟨kind.frames setup rest, .inside (.test stack)⟩
  | recv (handled rest : List (List Byte)) (stack : Stack Value)
      (whole : pending = handled ++ rest)
      (entries : texts.map some = handled.map (kind.entry setup)) :
      WorkerAt setup kind pending texts ⟨kind.frames setup rest, .inside (.recv stack)⟩
  | handle (handled rest : List (List Byte)) (line : List Byte) (below : Stack Value)
      (whole : pending = handled ++ line :: rest)
      (entries : texts.map some = handled.map (kind.entry setup)) :
      WorkerAt setup kind pending texts
        ⟨kind.frames setup rest, .inside (.handle below (setup.string line))⟩

/-- Where the output thread stands among the texts that were sent to the log. -/
inductive LogAt : List (List Byte) → Log → Prop where
  | test (done rest : List (List Byte)) :
      LogAt (done ++ rest) ⟨rest.map cut, .inside (.test ()), done⟩
  | recv (done rest : List (List Byte)) :
      LogAt (done ++ rest) ⟨rest.map cut, .inside (.recv ()), done⟩
  | handle (done rest : List (List Byte)) (text : List Byte) :
      LogAt (done ++ text :: rest) ⟨rest.map cut, .inside (.handle () text), done⟩

/-- One more line waits in the queue of an analyzer, which stands where it stood. -/
theorem WorkerAt.append {kind : Kind} {pending texts : List (List Byte)} {worker : Worker Value}
    (standing : WorkerAt setup kind pending texts worker) (line : List Byte) :
    WorkerAt setup kind (pending ++ [line]) texts
      { worker with queue := worker.queue ++ [cut (kind.packed setup line)] } := by
  have frames (rest : List (List Byte)) :
      kind.frames setup rest ++ [cut (kind.packed setup line)] =
        kind.frames setup (rest ++ [line]) := by
    simp [Kind.frames]
  cases standing with
  | test handled rest stack whole entries =>
    rw [frames]
    exact .test handled (rest ++ [line]) stack (by simp [whole]) entries
  | recv handled rest stack whole entries =>
    rw [frames]
    exact .recv handled (rest ++ [line]) stack (by simp [whole]) entries
  | handle handled rest current below whole entries =>
    rw [frames]
    exact .handle handled (rest ++ [line]) current below (by simp [whole]) entries

/-- One more text waits in the queue of the output thread, which stands where it stood. -/
theorem LogAt.append {texts : List (List Byte)} {log : Log} (standing : LogAt texts log)
    (text : List Byte) :
    LogAt (texts ++ [text]) { log with queue := log.queue ++ [cut text] } := by
  have frames (rest : List (List Byte)) : rest.map cut ++ [cut text] = (rest ++ [text]).map cut := by
    simp
  cases standing with
  | test done rest =>
    rw [frames, List.append_assoc]
    exact .test done (rest ++ [text])
  | recv done rest =>
    rw [frames, List.append_assoc]
    exact .recv done (rest ++ [text])
  | handle done rest current =>
    rw [frames, List.append_assoc]
    exact .handle done (rest ++ [text]) current

/-- What was forwarded are the objects among some lines at the front. -/
theorem InputAt.sent {queue : List (List Byte)}
    {input : Activity (StagePoint Unit (List Byte)) Unit} {forwarded : List (Kind × List Byte)}
    (standing : InputAt setup lines queue input forwarded) :
    ∃ handled rest, lines = handled ++ rest ∧
      forwarded = handled.filterMap (expected setup) := by
  cases standing with
  | test handled rest whole => exact ⟨handled, rest, whole, rfl⟩
  | recv handled rest whole => exact ⟨handled, rest, whole, rfl⟩
  | outside handled rest whole => exact ⟨handled, rest, whole, rfl⟩
  | handle handled rest line whole inRange => exact ⟨handled, line :: rest, whole, rfl⟩

/-- A line that is dropped adds nothing to what the lines in front of it have forwarded. -/
theorem sent_dropped {line : List Byte} (dropped : expected setup line = none)
    (handled : List (List Byte)) :
    (handled ++ [line]).filterMap (expected setup) = handled.filterMap (expected setup) := by
  simp [dropped]

/-- One step of the input thread over acceptable lines. It leaves the analyzers as they
are, or forwards a line, and it leaves the log alone. -/
theorem input_step (strings : ∀ bytes, setup.lua.toString (setup.string bytes) = some bytes)
    (acceptable : ∀ line ∈ lines, Acceptable setup line) {state after : State Value}
    (standing : InputAt setup lines state.queue state.input state.forwarded)
    (moved : step setup state .input = some after) :
    InputAt setup lines after.queue after.input after.forwarded ∧
      (after.sent = state.sent ∧ after.log = state.log) ∧
      ((after.forwarded = state.forwarded ∧ after.worker = state.worker) ∨
        ∃ kind line, after.forwarded = state.forwarded ++ [(kind, line)] ∧
          after.worker = Function.update state.worker kind { state.worker kind with
            queue := (state.worker kind).queue ++ [cut (kind.packed setup line)] }) := by
  obtain ⟨queue, input, forwarded, worker, sent, log⟩ := state
  dsimp only at standing
  cases standing with
  | test handled rest whole =>
    cases moved
    exact ⟨.recv handled rest whole, ⟨rfl, rfl⟩, .inl ⟨rfl, rfl⟩⟩
  | outside handled rest whole =>
    cases moved
    exact ⟨.test handled rest whole, ⟨rfl, rfl⟩, .inl ⟨rfl, rfl⟩⟩
  | recv handled rest whole =>
    cases rest with
    | nil => cases moved
    | cons line rest =>
      have front : lines = (handled ++ [line]) ++ rest := by simp [whole]
      rw [input_receives _ line (rest.map cut) rfl rfl, receive] at moved
      have unforwarded : ¬ InRange line → expected setup line = none := by
        intro outside
        obtain ⟨_, _, _, _, inRange, _⟩ | ⟨dropped, _⟩ :=
          acceptable_cases (acceptable line (by simp [whole]))
        · exact absurd inRange outside
        · exact dropped
      by_cases empty : line.length = 0
      · have dropped := unforwarded fun inRange => Nat.ne_of_gt inRange.1 empty
        rw [if_pos empty] at moved
        cases moved
        rw [← sent_dropped dropped handled]
        exact ⟨.outside (handled ++ [line]) rest front, ⟨rfl, rfl⟩, .inl ⟨rfl, rfl⟩⟩
      · by_cases large : maxBufferSize ≤ line.length
        · have dropped := unforwarded fun inRange => Nat.not_le_of_lt inRange.2 large
          rw [if_neg empty, if_pos large] at moved
          cases moved
          rw [← sent_dropped dropped handled]
          exact ⟨.test (handled ++ [line]) rest front, ⟨rfl, rfl⟩, .inl ⟨rfl, rfl⟩⟩
        · rw [if_neg empty, if_neg large] at moved
          cases moved
          exact ⟨.handle handled rest line whole
            ⟨Nat.pos_of_ne_zero empty, Nat.lt_of_not_le large⟩, ⟨rfl, rfl⟩, .inl ⟨rfl, rfl⟩⟩
  | handle handled rest line whole inRange =>
    have front : lines = (handled ++ [line]) ++ rest := by simp [whole]
    simp only [step, proceed, luaInputLoop, stageLoop, State.perform] at moved
    obtain ⟨table, text, decoded, forwards, -⟩ | ⟨dropped, outcome⟩ :=
      acceptable_cases (acceptable line (by simp [whole]))
    · rw [object_forwarded strings decoded] at moved
      cases moved
      have sent : handled.filterMap (expected setup) ++ [(kindOf setup table, line)] =
          (handled ++ [line]).filterMap (expected setup) := by
        simp [forwards]
      refine ⟨?_, ⟨rfl, rfl⟩, .inr ⟨kindOf setup table, line, rfl, rfl⟩⟩
      simp only [State.forward, sent]
      exact .test (handled ++ [line]) rest front
    · have returned : suricataFilter setup.cjson line = .returned :=
        outcome.resolve_left (not_not_intro inRange)
      rw [returned] at moved
      cases moved
      rw [← sent_dropped dropped handled]
      exact ⟨.test (handled ++ [line]) rest front, ⟨rfl, rfl⟩, .inl ⟨rfl, rfl⟩⟩

/-- A line that was forwarded to an analyzer gets through it. -/
theorem forwarded_passes (acceptable : ∀ line ∈ lines, Acceptable setup line)
    {queue : List (List Byte)} {input : Activity (StagePoint Unit (List Byte)) Unit}
    {forwarded : List (Kind × List Byte)}
    (standing : InputAt setup lines queue input forwarded) {kind : Kind}
    (unpacks : ∀ line ∈ lines, Unpacks setup kind line)
    {line : List Byte} (listed : line ∈ linesFor kind forwarded) : Passes setup kind line := by
  obtain ⟨handled, rest, whole, rfl⟩ := standing.sent
  have sent : (kind, line) ∈ handled.filterMap (expected setup) := by
    simpa [linesFor] using listed
  obtain ⟨origin, member, forwards⟩ := List.mem_filterMap.mp sent
  have inLines : origin ∈ lines := whole ▸ List.mem_append_left rest member
  obtain ⟨table, text, _, forwarding, _, packed, logs⟩ | ⟨dropped, _⟩ :=
    acceptable_cases (acceptable origin inLines)
  · rw [forwarding] at forwards
    cases forwards
    exact ⟨packed, unpacks line inLines packed, text, logs⟩
  · rw [dropped] at forwards
    cases forwards

/-- One step of the output thread over texts that can be written. -/
theorem output_step {state after : State Value} {texts : List (List Byte)}
    (writable : ∀ text ∈ texts, Writable text) (standing : LogAt texts state.log)
    (moved : step setup state .output = some after) :
    ∃ log, LogAt texts log ∧ after = { state with log := log } := by
  generalize here : state.log = log at standing
  cases standing with
  | test done rest =>
    simp only [step, here, proceed, luaOutputLoop, stageLoop, Log.perform, Option.map_some,
      if_true] at moved
    cases moved
    exact ⟨_, .recv done rest, rfl⟩
  | recv done rest =>
    cases rest with
    | nil =>
      simp only [step, here, proceed, luaOutputLoop, stageLoop, Log.perform, List.map_nil,
        Option.map_none] at moved
      cases moved
    | cons text rest =>
      have inRange := (writable text (by simp)).1
      rw [output_receives state text (rest.map cut) (by rw [here]; rfl) (by rw [here]), receive,
        if_neg (Nat.ne_of_gt inRange.1), if_neg (Nat.not_le_of_lt inRange.2), here] at moved
      cases moved
      exact ⟨_, .handle done rest text, rfl⟩
  | handle done rest text =>
    have whole := writable text (by simp)
    rw [output_handles state whole.1 (by rw [here]), (written_iff text).mpr whole, here] at moved
    cases moved
    have advanced := LogAt.test (done ++ [text]) rest
    rw [List.append_assoc] at advanced
    exact ⟨_, advanced, rfl⟩

/-- An input thread over acceptable lines that cannot take a step waits for a line, and none is
left. -/
theorem InputAt.drained (strings : ∀ bytes, setup.lua.toString (setup.string bytes) = some bytes)
    (acceptable : ∀ line ∈ lines, Acceptable setup line) {state : State Value}
    (standing : InputAt setup lines state.queue state.input state.forwarded)
    (stuck : step setup state .input = none) : state.queue = [] ∧ Idle state.input := by
  obtain ⟨queue, input, forwarded, worker, sent, log⟩ := state
  dsimp only at standing
  cases standing with
  | test handled rest whole => cases stuck
  | outside handled rest whole => cases stuck
  | recv handled rest whole =>
    cases rest with
    | nil => exact ⟨rfl, trivial⟩
    | cons line rest =>
      rw [input_receives _ line (rest.map cut) rfl rfl] at stuck
      cases stuck
  | handle handled rest line whole inRange =>
    simp only [step, proceed, luaInputLoop, stageLoop, State.perform] at stuck
    obtain ⟨table, text, decoded, -⟩ | ⟨-, outcome⟩ :=
      acceptable_cases (acceptable line (by simp [whole]))
    · rw [object_forwarded strings decoded] at stuck
      cases stuck
    · rw [outcome.resolve_left (not_not_intro inRange)] at stuck
      cases stuck

/-- An analyzer over lines that get through it and cannot take a step waits for a message, and
none is left. -/
theorem WorkerAt.drained (strings : ∀ bytes, setup.lua.toString (setup.string bytes) = some bytes)
    {kind : Kind} {state : State Value} {pending texts : List (List Byte)}
    (passes : ∀ line ∈ pending, Passes setup kind line)
    (standing : WorkerAt setup kind pending texts (state.worker kind))
    (stuck : step setup state (.worker kind) = none) :
    (state.worker kind).queue = [] ∧ Idle (state.worker kind).thread := by
  generalize here : state.worker kind = worker at standing ⊢
  cases standing with
  | test handled rest stack whole entries =>
    simp [step, here, proceed, luaAnalyzerLoop, stageLoop, State.performWorker] at stuck
  | recv handled rest stack whole entries =>
    cases rest with
    | nil => exact ⟨rfl, trivial⟩
    | cons line rest =>
      rw [worker_receives state kind (kind.packed setup line) (kind.frames setup rest) stack
        (by rw [here]; rfl) (by rw [here])] at stuck
      cases stuck
  | handle handled rest line below whole entries =>
    obtain ⟨_, _, text, last, _⟩ := passes line (by simp [whole])
    simp [step, here, proceed, luaAnalyzerLoop, stageLoop, State.performWorker, last.run strings]
      at stuck

/-- An output thread over texts that can be written and cannot take a step waits for a text, and
none is left. -/
theorem LogAt.drained {state : State Value} {texts : List (List Byte)}
    (writable : ∀ text ∈ texts, Writable text) (standing : LogAt texts state.log)
    (stuck : step setup state .output = none) : state.log.queue = [] ∧ Idle state.log.thread := by
  generalize here : state.log = log at standing ⊢
  cases standing with
  | test done rest =>
    simp [step, here, proceed, luaOutputLoop, stageLoop, Log.perform] at stuck
  | recv done rest =>
    cases rest with
    | nil => exact ⟨rfl, trivial⟩
    | cons text rest =>
      rw [output_receives state text (rest.map cut) (by rw [here]; rfl) (by rw [here])] at stuck
      cases stuck
  | handle done rest text =>
    rw [output_handles state (writable text (by simp)).1 (by rw [here])] at stuck
    cases stuck

end Positions

section Ends

variable {Value Table : Type} {setup : Setup Value Table}

/-- What a thread has still to do until it waits again. Handling the message in its hands counts
as much as its steps and the message it may send. -/
def cost {Locals Held Result : Type} (handling : Nat) :
    Activity (StagePoint Locals Held) Result → Nat
  | .ended => 0
  | .inside (.recv _) => 0
  | .inside (.test _) => 1
  | .outside _ => 2
  | .inside (.handle _ _) => handling

/-- What the output thread has still to do with the texts in its queue and in its hands. -/
def Log.rank (log : Log) : Nat := 4 * log.queue.length + cost 2 log.thread

/-- What an analyzer has still to do, where each message may give the output thread a text. -/
def Worker.rank (worker : Worker Value) : Nat := 10 * worker.queue.length + cost 6 worker.thread

/-- A bound on the steps of all threads, where each line may give an analyzer a message. -/
def State.rank (state : State Value) : Nat :=
  20 * state.queue.length + cost 13 state.input +
    ((state.worker .alert).rank + (state.worker .nsm).rank) + state.log.rank

/-- Wherever a thread stands, it has no more to do than to handle a message or to enter its loop. -/
theorem cost_le {Locals Held Result : Type} {handling : Nat} (most : 2 ≤ handling)
    (thread : Activity (StagePoint Locals Held) Result) : cost handling thread ≤ handling := by
  unfold cost
  split <;> omega

/-- Behind a call of its script a thread is at the head of its loop, or it has ended. -/
theorem called_cost {Locals Held : Type} (handling : Nat) (failed : Bool) (locals : Locals) :
    cost handling (.after (if failed then .exit else .goto (.test locals)) :
      Activity (StagePoint Locals Held) Locals) ≤ 1 := by
  cases failed
  · exact Nat.le_refl 1
  · exact Nat.zero_le 1

/-- With another analyzer in the place of one, what both have to do changes by what that one has. -/
theorem update_rank (worker : Kind → Worker Value) (kind : Kind) (other : Worker Value) :
    (Function.update worker kind other .alert).rank +
        (Function.update worker kind other .nsm).rank + (worker kind).rank =
      (worker .alert).rank + (worker .nsm).rank + other.rank := by
  cases kind <;> simp [Function.update] <;> omega

/-- A message is worth ten in the queue of an analyzer. -/
theorem forward_rank (state : State Value) (kind : Kind) (line packed : List Byte) :
    (state.forward kind line packed).rank = state.rank + 10 := by
  have changed := update_rank state.worker kind
    { state.worker kind with queue := (state.worker kind).queue ++ [cut packed] }
  simp only [State.rank, State.forward]
  simp only [Worker.rank, List.length_append, List.length_singleton] at changed ⊢
  omega

/-- A text is worth four in the queue of the output thread. -/
theorem send_rank (state : State Value) (kind : Kind) (text : List Byte) :
    (state.send kind text).rank = state.rank + 4 := by
  simp only [State.rank, State.send, Log.rank, List.length_append, List.length_singleton]
  omega

/-- A run of the filter gives an analyzer one message at the most, and leaves the input thread
where it is. -/
theorem filter_rank {state after : State Value} {script : Script} {failed : Bool}
    (called : state.runFilter setup script = some (after, failed)) :
    after.rank ≤ state.rank + 10 ∧ after.input = state.input := by
  unfold State.runFilter at called
  split at called
  · cases called
    exact ⟨Nat.le_add_right _ _, rfl⟩
  · cases called
    exact ⟨Nat.le_add_right _ _, rfl⟩
  · split at called
    · cases called
      exact ⟨Nat.le_add_right _ _, rfl⟩
    · cases called
    · obtain ⟨kind, _, forwarded⟩ := Option.map_eq_some_iff.mp called
      cases forwarded
      exact ⟨Nat.le_of_eq (forward_rank state kind _ _), rfl⟩
    · cases called
      exact ⟨Nat.le_add_right _ _, rfl⟩
    · cases called
  · cases called

/-- A run of an analyzer gives the output thread one text at the most, and leaves the analyzers
where they are. -/
theorem analyzer_rank {state after : State Value} {kind : Kind} {script : Script} {failed : Bool}
    (called : state.runAnalyzer setup kind script = some (after, failed)) :
    after.rank ≤ state.rank + 4 ∧ after.worker = state.worker := by
  unfold State.runAnalyzer at called
  split at called
  · cases called
    exact ⟨Nat.le_add_right _ _, rfl⟩
  · cases called
    exact ⟨Nat.le_add_right _ _, rfl⟩
  · split at called
    · cases called
      exact ⟨Nat.le_add_right _ _, rfl⟩
    · cases called
    · split at called
      · cases called
        exact ⟨Nat.le_of_eq (send_rank state kind _), rfl⟩
      · cases called
        exact ⟨Nat.le_add_right _ _, rfl⟩
    · cases called
      exact ⟨Nat.le_add_right _ _, rfl⟩
    · cases called
  · cases called

/-- A receive that has a result took the first message of the queue. -/
theorem receive_takes {Machine Point Result : Type} {queue : List (List Byte)} {len : Nat}
    (put : List (List Byte) → Machine) {answer : List Byte → Outcome Point Result}
    {reached : Machine} {outcome : Outcome Point Result}
    (received : (match queue with
      | [] => none
      | message :: rest =>
          if message.length ≤ len then some (put rest, answer message) else none) =
      some (reached, outcome)) :
    ∃ message rest, queue = message :: rest ∧ reached = put rest := by
  cases queue with
  | nil => cases received
  | cons message rest =>
    dsimp only at received
    split at received
    · exact ⟨message, rest, rfl, (Prod.mk.inj (Option.some.inj received)).1.symm⟩
    · cases received

/-- An operation of the input thread leaves less to do, and leaves the thread where it is. -/
theorem input_performs {state reached : State Value} {point : StagePoint Unit (List Byte)}
    {outcome : Outcome (StagePoint Unit (List Byte)) Unit}
    (performed : state.perform setup (luaInputLoop point) = some (reached, outcome)) :
    reached.input = state.input ∧
      reached.rank + cost 13 (.after outcome) <
        state.rank + cost 13 (.inside point : Activity _ Unit) := by
  cases point with
  | test locals =>
    cases performed
    exact ⟨rfl, Nat.lt_succ_self _⟩
  | recv locals =>
    simp only [luaInputLoop, stageLoop, State.perform] at performed
    obtain ⟨message, rest, queued, rfl⟩ :=
      receive_takes (fun rest => { state with queue := rest }) performed
    have most := cost_le (show 2 ≤ 13 by decide) (Activity.after outcome)
    refine ⟨rfl, ?_⟩
    simp only [State.rank, queued, List.length_cons]
    omega
  | handle locals line =>
    obtain ⟨⟨called, failed⟩, runs, same⟩ := Option.map_eq_some_iff.mp performed
    cases same
    obtain ⟨more, kept⟩ := filter_rank runs
    have waits := @called_cost Unit (List Byte) 13 failed locals
    refine ⟨kept, ?_⟩
    exact lt_of_le_of_lt (Nat.add_le_add more waits) (by simp only [cost]; omega)

/-- An operation of an analyzer leaves less to do, and leaves the thread where it is. -/
theorem worker_performs {state reached : State Value} {kind : Kind}
    {point : StagePoint (Stack Value) Value}
    {outcome : Outcome (StagePoint (Stack Value) Value) (Stack Value)}
    (performed : state.performWorker setup kind (luaAnalyzerLoop setup.lua point) =
      some (reached, outcome)) :
    (reached.worker kind).thread = (state.worker kind).thread ∧
      reached.rank + cost 6 (.after outcome) <
        state.rank + cost 6 (.inside point : Activity _ (Stack Value)) := by
  cases point with
  | test locals =>
    cases performed
    exact ⟨rfl, Nat.lt_succ_self _⟩
  | recv locals =>
    simp only [luaAnalyzerLoop, stageLoop, State.performWorker] at performed
    obtain ⟨message, rest, queued, rfl⟩ := receive_takes
      (fun rest => state.place kind { state.worker kind with queue := rest }) performed
    have most := cost_le (show 2 ≤ 6 by decide) (Activity.after outcome)
    have changed := update_rank state.worker kind { state.worker kind with queue := rest }
    constructor
    · simp only [State.place, Function.update_self]
    · simp only [State.rank, State.place, Worker.rank, queued, List.length_cons] at changed ⊢
      omega
  | handle below argument =>
    obtain ⟨⟨called, failed⟩, runs, same⟩ := Option.map_eq_some_iff.mp performed
    cases same
    obtain ⟨more, kept⟩ := analyzer_rank runs
    have waits := @called_cost (Stack Value) Value 6 failed (below.drop 1)
    refine ⟨by rw [kept], ?_⟩
    exact lt_of_le_of_lt (Nat.add_le_add more waits) (by simp only [cost]; omega)

/-- An operation of the output thread leaves less to do, and leaves the thread where it is. -/
theorem output_performs {log reached : Log} {point : StagePoint Unit (List Byte)}
    {outcome : Outcome (StagePoint Unit (List Byte)) Unit}
    (performed : log.perform (luaOutputLoop point) = some (reached, outcome)) :
    reached.thread = log.thread ∧
      reached.rank + cost 2 (.after outcome) <
        log.rank + cost 2 (.inside point : Activity _ Unit) := by
  cases point with
  | test locals =>
    cases performed
    exact ⟨rfl, Nat.lt_succ_self _⟩
  | recv locals =>
    simp only [luaOutputLoop, stageLoop, Log.perform] at performed
    obtain ⟨message, rest, queued, rfl⟩ :=
      receive_takes (fun rest => { log with queue := rest }) performed
    have most := cost_le (show 2 ≤ 2 by decide) (Activity.after outcome)
    refine ⟨rfl, ?_⟩
    simp only [Log.rank, queued, List.length_cons]
    omega
  | handle locals text =>
    simp only [luaOutputLoop, stageLoop] at performed
    split at performed
    · cases performed
      exact ⟨rfl, Nat.lt_succ_self _⟩
    · cases performed
      exact ⟨rfl, Nat.lt_succ_self _⟩

/-- A thread whose operations leave less to do leaves less to do with each of its steps. -/
theorem proceed_lower {Machine Locals Held Place : Type} (place : Machine → Place)
    {rank : Machine → Nat} {handling : Nat} {machine after : Machine}
    {perform : StagePoint Locals Held →
      Option (Machine × Outcome (StagePoint Locals Held) Locals)}
    (lowers : ∀ point reached outcome, perform point = some (reached, outcome) →
      place reached = place machine ∧
        rank reached + cost handling (.after outcome) <
          rank machine + cost handling (.inside point : Activity _ Locals))
    {thread next : Activity (StagePoint Locals Held) Locals}
    (moved : proceed machine .test perform thread = some (after, next)) :
    place after = place machine ∧
      rank after + cost handling next < rank machine + cost handling thread := by
  cases thread with
  | ended => cases moved
  | outside locals =>
    cases moved
    exact ⟨rfl, Nat.lt_succ_self _⟩
  | inside point =>
    obtain ⟨⟨reached, outcome⟩, performed, same⟩ := Option.map_eq_some_iff.mp moved
    cases same
    exact lowers point _ outcome performed

/-- Every step of a thread leaves less to do, whatever the lines are. -/
theorem step_lower {state after : State Value} {thread : Thread}
    (moved : step setup state thread = some after) : after.rank < state.rank := by
  cases thread with
  | input =>
    obtain ⟨⟨reached, next⟩, moves, rfl⟩ := Option.map_eq_some_iff.mp moved
    obtain ⟨kept, lower⟩ := proceed_lower State.input
      (fun _ _ _ performed => input_performs performed) moves
    simp only [State.rank, kept] at lower ⊢
    omega
  | worker kind =>
    obtain ⟨⟨reached, next⟩, moves, rfl⟩ := Option.map_eq_some_iff.mp moved
    obtain ⟨kept, lower⟩ := proceed_lower (fun state => (state.worker kind).thread)
      (fun _ _ _ performed => worker_performs performed) moves
    have changed := update_rank reached.worker kind { reached.worker kind with thread := next }
    simp only [State.rank, State.place, Worker.rank, kept] at lower changed ⊢
    omega
  | output =>
    obtain ⟨⟨reached, next⟩, moves, rfl⟩ := Option.map_eq_some_iff.mp moved
    obtain ⟨kept, lower⟩ := proceed_lower Log.thread
      (fun _ _ _ performed => output_performs performed) moves
    simp only [State.rank, Log.rank, kept] at lower ⊢
    omega

end Ends

end Dragonfly.Shipped
