import Dragonfly.Fifo
import Dragonfly.Scalars
import Dragonfly.Stages

/-!
# The pipeline as one channel

Seen from outside, the four loops and the three queues between them are a channel:
a line read from the source is put at its back, a line written to the sink is taken
from its front. What waits in the channel is what the threads hold and the queues
contain, each mapped through the scripts behind it.

The law holds while every message on the way is neither empty nor too long, holds no
zero byte and is not the rotate message up to case, and while the sink accepts every
line. A message that equals the rotate message only up to case rotates the sink and
is gone; so is a line the sink refuses.
-/

namespace Dragonfly.Stages

open Config Events Flywheel Scalars

variable {Value : Type}

/-! ## What is on the way -/

/-- What a receiving loop has in hand: the message it is about to handle, and nothing at its
other points. -/
def StagePoint.held {Locals Held : Type} : StagePoint Locals Held → List Held
  | .handle _ held => [held]
  | _ => []

/-- What a receiving thread has in hand: what its loop has, and nothing outside the loop. -/
def Activity.held {Locals Held Result : Type} :
    Activity (StagePoint Locals Held) Result → List Held
  | .inside point => point.held
  | _ => []

/-- The line the flywheel has in hand, between reading it and putting it into the queue. -/
def lineHeld : Activity LoopPoint Unit → List (List Byte)
  | .inside (.send line) => [line]
  | _ => []

/-- What the analyzer script makes of a value, as the string it passes to `output_event`. -/
def Setup.spoken (setup : Setup Value) (value : Value) : List Byte :=
  (setup.lua.toString (setup.script value)).getD []

/-- What the filter makes of a line: the packed call of `analyze_event` with what its script
returns. -/
def Setup.packed (setup : Setup Value) (line : List Byte) : List Byte :=
  setup.lua.pack [setup.analyzerName, setup.filter line]

/-- What the analyzer makes of a message: the string for the last of the values it unpacks to. -/
def Setup.analyzed (setup : Setup Value) (message : List Byte) : List Byte :=
  match (setup.lua.unpack message).bind List.getLast? with
  | some value => setup.spoken value
  | none => []

/-- What the scripts make of a line on its whole way: what the analyzer says of what the filter
makes of it. -/
def Setup.transformed (setup : Setup Value) (line : List Byte) : List Byte :=
  setup.spoken (setup.filter line)

/-- What the threads hold and the queues contain, the front of the pipeline first. -/
def State.inFlight (setup : Setup Value) (state : State Value) : List (List Byte) :=
  state.output.held ++ state.queues (.output setup.output) ++
    state.analyzer.held.map setup.spoken ++
    (state.queues (.analyzer setup.analyzer)).map setup.analyzed ++
    state.input.held.map setup.transformed ++
    (state.queues (.input setup.input)).map setup.transformed ++
    (lineHeld state.flywheel).map setup.transformed

/-- A message that may travel: it is not empty, short, has no zero byte, and is none of those
the stage treats in another way. -/
structure Admissible (differs : List Byte → Prop) (message : List Byte) : Prop where
  nonempty : message ≠ []
  short : message.length < 2048
  string : 0 ∉ message
  ordinary : differs message

/-- A message that may travel fits into the buffers of all loops. -/
theorem Admissible.fills {differs : List Byte → Prop} {message : List Byte}
    (admissible : Admissible differs message) : message.length < maxBufferSize :=
  Nat.lt_trans admissible.short (by decide)

instance (differs : List Byte → Prop) [DecidablePred differs] (message : List Byte) :
    Decidable (Admissible differs message) :=
  decidable_of_iff
    (message ≠ [] ∧ message.length < 2048 ∧ 0 ∉ message ∧ differs message)
    ⟨fun ⟨nonempty, short, string, ordinary⟩ => ⟨nonempty, short, string, ordinary⟩,
      fun admissible => ⟨admissible.nonempty, admissible.short, admissible.string,
        admissible.ordinary⟩⟩

/-- A line whose messages may travel at every hop: as it is read, as it is packed, and as it is
written. -/
structure Fits (setup : Setup Value) (differs : List Byte → Prop) (line : List Byte) : Prop where
  read : Admissible differs line
  packed : Admissible differs (setup.packed line)
  written : Admissible differs (setup.transformed line)

instance (setup : Setup Value) (differs : List Byte → Prop) [DecidablePred differs]
    (line : List Byte) : Decidable (Fits setup differs line) :=
  decidable_of_iff
    (Admissible differs line ∧ Admissible differs (setup.packed line) ∧
      Admissible differs (setup.transformed line))
    ⟨fun ⟨read, packed, written⟩ => ⟨read, packed, written⟩,
      fun fits => ⟨fits.read, fits.packed, fits.written⟩⟩

/-- The source yields only lines that fit, and a reliable sink accepts every line. -/
def Assumed (setup : Setup Value) (differs : List Byte → Prop) (reliable : Bool) :
    State Value → Label → Prop
  | _, .step _ answers =>
      (∀ line ∈ answers.line, Fits setup differs line) ∧ (reliable → answers.writes)
  | _, .stop => True
  | _, .stopAnalyzer => True

instance (setup : Setup Value) (differs : List Byte → Prop) [DecidablePred differs]
    (reliable : Bool) (state : State Value) (label : Label) :
    Decidable (Assumed setup differs reliable state label) :=
  match label with
  | .step _ _ => inferInstanceAs (Decidable (_ ∧ _))
  | .stop => .isTrue trivial
  | .stopAnalyzer => .isTrue trivial

/-- The message differs from the rotate message even up to case. -/
def NoRotation (message : List Byte) : Prop := strcasecmp message rotateMessage ≠ 0

instance : DecidablePred NoRotation := fun _ => inferInstanceAs (Decidable (_ ≠ _))

/-- The calls of the scripts and the loops behind them meet at the same queues. -/
structure Routed (setup : Setup Value) : Prop where
  analyze : ∀ value, analyzeEvent setup.lua setup.configuration [setup.analyzerName, value] =
    .returned (some (some (.analyzer setup.analyzer), setup.lua.pack [setup.analyzerName, value]))
  analyzerReads :
    analyzerQueue setup.configuration setup.analyzer = some (.analyzer setup.analyzer)
  output : ∀ value, outputEvent setup.lua setup.configuration [setup.outputName, value] =
    .returned (some (some (.output setup.output), (setup.lua.toString value).getD []))
  outputReads : outputQueue setup.configuration setup.output = some (.output setup.output)

/-- The lines at each place of the pipeline, from those about to be written back to those just
read. -/
structure Flight where
  writing : List (List Byte)
  outputs : List (List Byte)
  analyzing : List (List Byte)
  events : List (List Byte)
  filtering : List (List Byte)
  lines : List (List Byte)
  reading : List (List Byte)

/-- All lines in the pipeline, in the order in which they were read; those that are written
first stand in front. -/
def Flight.all (flight : Flight) : List (List Byte) :=
  flight.writing ++ flight.outputs ++ flight.analyzing ++ flight.events ++ flight.filtering ++
    flight.lines ++ flight.reading

/-- The state carries these lines, each as the message it is at its place. -/
structure Carries (setup : Setup Value) (state : State Value) (flight : Flight) : Prop where
  fits : ∀ line ∈ flight.all, Fits setup NoRotation line
  writing : state.output.held = flight.writing.map setup.transformed
  outputs : state.queues (.output setup.output) = flight.outputs.map setup.transformed
  analyzing : state.analyzer.held = flight.analyzing.map setup.filter
  events : state.queues (.analyzer setup.analyzer) = flight.events.map setup.packed
  filtering : state.input.held = flight.filtering
  lines : state.queues (.input setup.input) = flight.lines
  reading : lineHeld state.flywheel = flight.reading

/-- What a step does to the lines on the way: nothing, a new one at the back, or the
one at the front to the sink. -/
inductive Moves (setup : Setup Value) (state after : State Value) (flight next : Flight) :
    Prop where
  | within (same : next.all = flight.all) (read : after.read = state.read)
      (written : after.written = state.written)
  | put (line : List Byte) (extended : next.all = flight.all ++ [line])
      (read : after.read = state.read ++ [line]) (written : after.written = state.written)
  | take (line : List Byte) (front : flight.all = line :: next.all)
      (read : after.read = state.read)
      (written : after.written = state.written ++ [setup.transformed line])

/-! ## The steps of a stage -/

/-- What a step of a receiving thread can do: nothing to a message, take one from the
queue, or handle the one in hand. -/
inductive StageStep {Locals Held Argument : Type}
    (prepare : Locals → List Byte → Outcome (StagePoint Locals Held) Locals)
    (handle : Locals → Held → StageOperation Argument (StagePoint Locals Held) Locals)
    (state : State Value) (running : Bool) (queue : Option Queue)
    (call : Argument → Call Sending) (answers : Answers) :
    Activity (StagePoint Locals Held) Locals → State Value →
      Activity (StagePoint Locals Held) Locals → Prop where
  | idle (activity next : Activity (StagePoint Locals Held) Locals) (before : activity.held = [])
      (behind : next.held = []) :
      StageStep prepare handle state running queue call answers activity state next
  | taken (locals : Locals) (place : Queue) (message : List Byte) (rest : List (List Byte))
      (outcome : Outcome (StagePoint Locals Held) Locals) (reads : queue = some place)
      (front : state.queues place = message :: rest)
      (prepared : message ≠ [] → message.length < maxBufferSize →
        outcome = prepare locals message) :
      StageStep prepare handle state running queue call answers (.inside (.recv locals))
        { state with queues := Function.update state.queues place rest } (.after outcome)
  | handled (locals : Locals) (held : Held) (after : State Value)
      (outcome : Outcome (StagePoint Locals Held) Locals)
      (done : state.perform running queue call answers (handle locals held) =
        some (after, outcome)) :
      StageStep prepare handle state running queue call answers (.inside (.handle locals held))
        after (.after outcome)

/-- Every step of a receiving thread is one of these. -/
theorem stage_step {Locals Held Argument : Type}
    {prepare : Locals → List Byte → Outcome (StagePoint Locals Held) Locals}
    {handle : Locals → Held → StageOperation Argument (StagePoint Locals Held) Locals}
    {state after : State Value} {running : Bool} {queue : Option Queue}
    {call : Argument → Call Sending} {answers : Answers}
    {activity next : Activity (StagePoint Locals Held) Locals}
    (moved : advance state running .test (fun point =>
      state.perform running queue call answers (stageLoop prepare handle point)) activity =
        some (after, next)) :
    StageStep prepare handle state running queue call answers activity after next := by
  cases activity with
  | ended => cases moved
  | outside locals =>
    cases moved
    exact .idle _ _ rfl (by cases running <;> rfl)
  | inside point =>
    obtain ⟨⟨middle, outcome⟩, performed, same⟩ := Option.map_eq_some_iff.mp moved
    cases same
    cases point with
    | test locals =>
      cases performed
      exact .idle _ _ rfl (by cases running <;> rfl)
    | recv locals =>
      simp only [stageLoop, State.perform] at performed
      split at performed
      · split at performed
        · cases performed
          exact .idle _ _ rfl rfl
        · cases performed
      · cases performed
      · rename_i place _
        split at performed
        · cases performed
        · rename_i message rest front
          split at performed
          · cases performed
            refine .taken locals place message rest _ rfl front ?_
            intro nonempty short
            have positive : 0 < message.length := List.length_pos_of_ne_nil nonempty
            rw [if_neg (by omega), if_neg (by omega), Int.toNat_natCast, List.take_length]
          · cases performed
    | handle locals held => exact .handled locals held after outcome performed

section Steps

variable {setup : Setup Value} {state after : State Value} {answers : Answers} {flight : Flight}

/-- A step of the flywheel moves the line it has in hand, or reads another one that fits. -/
theorem flywheel_step (carries : Carries setup state flight)
    (fitting : ∀ line ∈ answers.line, Fits setup NoRotation line)
    (moved : step setup state answers .flywheel = some after) :
    ∃ next, Carries setup after next ∧ Moves setup state after flight next := by
  simp only [step, Option.ite_none_left_eq_some] at moved
  obtain ⟨⟨middle, activity⟩, advanced, same⟩ := Option.map_eq_some_iff.mp moved.2
  subst same
  have held := carries.reading
  have idle (next : Activity LoopPoint Unit) (before : lineHeld state.flywheel = [])
      (behind : lineHeld next = []) :
      ∃ later, Carries setup { state with flywheel := next } later ∧
        Moves setup state { state with flywheel := next } flight later :=
    ⟨flight, { carries with reading := behind.trans (before.symm.trans held) },
      .within rfl rfl rfl⟩
  generalize state.flywheel = before at advanced held idle
  cases before with
  | ended => cases advanced
  | outside result =>
    cases advanced
    exact idle _ rfl (by cases state.running <;> rfl)
  | inside point =>
    obtain ⟨⟨final, outcome⟩, performed, same⟩ := Option.map_eq_some_iff.mp advanced
    cases same
    cases point with
    | test =>
      cases performed
      exact idle _ rfl (by cases state.running <;> rfl)
    | read =>
      simp only [luaFlywheelLoop, State.performFlywheel] at performed
      split at performed
      · cases performed
        exact idle _ rfl rfl
      · rename_i line answered
        have fits := fitting line answered
        have short := fits.read.fills
        have after : afterRead line.length line = .goto (.send line) := by
          rw [afterRead, if_neg (by omega), if_neg (by omega), Int.toNat_natCast, List.take_length]
        rw [if_pos (Nat.le_of_lt short), after] at performed
        cases performed
        have empty : flight.reading = [] := held.symm
        refine ⟨{ flight with reading := [line] }, { carries with fits := ?_, reading := rfl },
          .put line ?_ rfl rfl⟩
        · intro other listed
          rcases List.mem_append.mp listed with old | new
          · exact carries.fits other (by simpa [Flight.all, empty] using old)
          · rw [List.mem_singleton.mp new]
            exact fits
        · simp [Flight.all, empty]
    | send line =>
      cases performed
      have busy : flight.reading = [line] := held.symm
      refine ⟨{ flight with lines := flight.lines ++ [line], reading := [] },
        { carries with fits := ?_, outputs := ?_, events := ?_, lines := ?_, reading := rfl },
        .within ?_ rfl rfl⟩
      · simpa [Flight.all, busy] using carries.fits
      · simpa [State.put] using carries.outputs
      · simpa [State.put] using carries.events
      · simp [State.put, carries.lines]
      · simp [Flight.all, busy]

/-- A step of the input thread moves the line it has in hand, or takes the next one from its
queue. -/
theorem input_step (routed : Routed setup) (carries : Carries setup state flight)
    (moved : step setup state answers .input = some after) :
    ∃ next, Carries setup after next ∧ Moves setup state after flight next := by
  obtain ⟨⟨middle, activity⟩, advanced, same⟩ := Option.map_eq_some_iff.mp moved
  subst same
  have held := carries.filtering
  generalize state.input = before at advanced held
  cases stage_step advanced with
  | idle _ _ nothing behind =>
    exact ⟨flight, { carries with filtering := behind.trans (nothing.symm.trans held) },
      .within rfl rfl rfl⟩
  | taken locals place message rest _ reads front prepared =>
    cases reads
    have empty : flight.filtering = [] := held.symm
    have waiting : flight.lines = message :: rest := carries.lines.symm.trans front
    have fits := carries.fits message (by simp [Flight.all, waiting])
    have goes := prepared fits.read.nonempty fits.read.fills
    subst goes
    refine ⟨{ flight with filtering := [message], lines := rest },
      { carries with fits := ?_, outputs := ?_, events := ?_, filtering := rfl, lines := ?_ },
      .within ?_ rfl rfl⟩
    · simpa [Flight.all, empty, waiting] using carries.fits
    · simpa using carries.outputs
    · simpa using carries.events
    · simp
    · simp [Flight.all, empty, waiting]
  | handled locals line _ _ done =>
    have busy : flight.filtering = [line] := held.symm
    simp only [State.perform, State.called, routed.analyze, Option.map_some,
      Option.some.injEq, Prod.mk.injEq] at done
    obtain ⟨rfl, rfl⟩ := done
    refine ⟨{ flight with events := flight.events ++ [line], filtering := [] },
      { carries with fits := ?_, outputs := ?_, events := ?_, filtering := ?_, lines := ?_ },
      .within ?_ rfl rfl⟩
    · simpa [Flight.all, busy] using carries.fits
    · simpa [State.put] using carries.outputs
    · simp [State.put, carries.events, Setup.packed]
    · cases answers.raises <;> rfl
    · simpa [State.put] using carries.lines
    · simp [Flight.all, busy]

/-- A step of the analyzer thread, when a message unpacks to what was packed. -/
theorem analyzer_step (routed : Routed setup)
    (unpacked : ∀ line, Fits setup NoRotation line →
      setup.lua.unpack (setup.packed line) = some [setup.analyzerName, setup.filter line])
    (carries : Carries setup state flight)
    (moved : step setup state answers .analyzer = some after) :
    ∃ next, Carries setup after next ∧ Moves setup state after flight next := by
  obtain ⟨⟨middle, activity⟩, advanced, same⟩ := Option.map_eq_some_iff.mp moved
  subst same
  have held := carries.analyzing
  generalize state.analyzer = before at advanced held
  cases stage_step advanced with
  | idle _ _ nothing behind =>
    exact ⟨flight, { carries with analyzing := behind.trans (nothing.symm.trans held) },
      .within rfl rfl rfl⟩
  | taken locals place message rest _ reads front prepared =>
    rw [routed.analyzerReads] at reads
    cases reads
    have empty : flight.analyzing = [] := List.map_eq_nil_iff.mp held.symm
    obtain ⟨line, others, waiting, rfl, rfl⟩ :=
      List.map_eq_cons_iff.mp (carries.events.symm.trans front)
    have fits := carries.fits line (by simp [Flight.all, waiting])
    have goes := prepared fits.packed.nonempty fits.packed.fills
    rw [prepare_call_two (unpacked line fits)] at goes
    subst goes
    refine ⟨{ flight with analyzing := [line], events := others },
      { carries with fits := ?_, outputs := ?_, analyzing := rfl, events := ?_, lines := ?_ },
      .within ?_ rfl rfl⟩
    · simpa [Flight.all, empty, waiting] using carries.fits
    · simpa using carries.outputs
    · simp
    · simpa using carries.lines
    · simp [Flight.all, empty, waiting]
  | handled locals value _ _ done =>
    obtain ⟨line, busy, rfl⟩ := List.map_eq_singleton_iff.mp held.symm
    simp only [State.perform, State.called, routed.output, Option.map_some,
      Option.some.injEq, Prod.mk.injEq] at done
    obtain ⟨rfl, rfl⟩ := done
    refine ⟨{ flight with outputs := flight.outputs ++ [line], analyzing := [] },
      { carries with fits := ?_, outputs := ?_, analyzing := ?_, events := ?_, lines := ?_ },
      .within ?_ rfl rfl⟩
    · simpa [Flight.all, busy] using carries.fits
    · simp [State.put, carries.outputs, Setup.transformed, Setup.spoken]
    · cases answers.raises <;> rfl
    · simpa [State.put] using carries.events
    · simpa [State.put] using carries.lines
    · simp [Flight.all, busy]

/-- A terminated message that fits is no rotate message and is written as it is. -/
theorem terminated_written {message : List Byte} (admissible : Admissible NoRotation message) :
    cString (message ++ [0]) = message ∧ strcasecmp (message ++ [0]) rotateMessage ≠ 0 := by
  have whole := cString_terminated message [] admissible.string
  have ordinary := admissible.ordinary
  rw [NoRotation, strcasecmp, cString_whole message admissible.string] at ordinary
  rw [strcasecmp, whole]
  exact ⟨rfl, ordinary⟩

/-- A step of the output thread moves the line it has in hand, or takes the next one from its
queue; its writes succeed. -/
theorem output_step (routed : Routed setup) (carries : Carries setup state flight)
    (accepted : answers.writes = true) (moved : step setup state answers .output = some after) :
    ∃ next, Carries setup after next ∧ Moves setup state after flight next := by
  simp only [step, Option.ite_none_left_eq_some] at moved
  obtain ⟨⟨middle, activity⟩, advanced, same⟩ := Option.map_eq_some_iff.mp moved.2
  subst same
  have held := carries.writing
  generalize state.output = before at advanced held
  cases stage_step advanced with
  | idle _ _ nothing behind =>
    exact ⟨flight, { carries with writing := behind.trans (nothing.symm.trans held) },
      .within rfl rfl rfl⟩
  | taken locals place message rest _ reads front prepared =>
    rw [routed.outputReads] at reads
    cases reads
    have empty : flight.writing = [] := List.map_eq_nil_iff.mp held.symm
    obtain ⟨line, others, waiting, rfl, rfl⟩ :=
      List.map_eq_cons_iff.mp (carries.outputs.symm.trans front)
    have fits := carries.fits line (by simp [Flight.all, waiting])
    have goes := prepared fits.written.nonempty fits.written.fills
    subst goes
    refine ⟨{ flight with writing := [line], outputs := others },
      { carries with fits := ?_, writing := rfl, outputs := ?_, events := ?_, lines := ?_ },
      .within ?_ rfl rfl⟩
    · simpa [Flight.all, empty, waiting] using carries.fits
    · simp
    · simpa using carries.events
    · simpa using carries.lines
    · simp [Flight.all, empty, waiting]
  | handled locals message _ _ done =>
    obtain ⟨line, busy, rfl⟩ := List.map_eq_singleton_iff.mp held.symm
    have fits := carries.fits line (by simp [Flight.all, busy])
    obtain ⟨whole, ordinary⟩ := terminated_written fits.written
    simp only [if_neg ordinary, State.perform, accepted, if_true, whole,
      Option.some.injEq, Prod.mk.injEq] at done
    obtain ⟨rfl, rfl⟩ := done
    refine ⟨{ flight with writing := [] }, { carries with fits := ?_, writing := rfl },
      .take line ?_ rfl rfl⟩
    · intro other listed
      exact carries.fits other (by simp [Flight.all, busy] at listed ⊢; exact .inr listed)
    · simp [Flight.all, busy]

end Steps

/-! ## The channel -/

/-- The state is this channel of lines: what was read, what is in flight and what was written,
all as the scripts transform it. -/
def Represents (setup : Setup Value) (state : State Value) (channel : Fifo (List Byte)) : Prop :=
  ∃ flight, Carries setup state flight ∧
    channel = ⟨state.read.map setup.transformed, flight.all.map setup.transformed, state.written⟩

/-- The pipeline is a channel: a read puts a line into it, a write takes one from it,
and every other step goes unseen. -/
theorem pipeline_simulates_channel {setup : Setup Value} (routed : Routed setup)
    (unpacked : ∀ line, Fits setup NoRotation line →
      setup.lua.unpack (setup.packed line) = some [setup.analyzerName, setup.filter line]) :
    Simulation (system setup) (Assumed setup NoRotation true) (Fifo.system (List Byte))
      (Represents setup) := by
  constructor
  · rintro state ⟨stack, rfl⟩
    refine ⟨⟨[], [], []⟩, rfl, ⟨[], [], [], [], [], [], []⟩, ⟨?_, rfl, rfl, rfl, rfl, rfl, rfl, rfl⟩,
      rfl⟩
    intro line listed
    cases listed
  · rintro state label after channel ⟨flight, carries, rfl⟩ admitted moved
    have stepped : ∃ next, Carries setup after next ∧ Moves setup state after flight next := by
      cases label with
      | step stage answers =>
        obtain ⟨fitting, accepted⟩ := admitted
        cases stage with
        | flywheel => exact flywheel_step carries fitting moved
        | input => exact input_step routed carries moved
        | analyzer => exact analyzer_step routed unpacked carries moved
        | output => exact output_step routed carries (accepted rfl) moved
      | stop =>
        cases moved
        obtain ⟨fits, writing, outputs, analyzing, events, filtering, lines, reading⟩ := carries
        exact ⟨flight, ⟨fits, writing, outputs, analyzing, events, filtering, lines, reading⟩,
          .within rfl rfl rfl⟩
      | stopAnalyzer =>
        cases moved
        obtain ⟨fits, writing, outputs, analyzing, events, filtering, lines, reading⟩ := carries
        exact ⟨flight, ⟨fits, writing, outputs, analyzing, events, filtering, lines, reading⟩,
          .within rfl rfl rfl⟩
    obtain ⟨next, carried, moves⟩ := stepped
    cases moves with
    | within same read written =>
      exact .inl ⟨next, carried, by rw [same, read, written]⟩
    | put line extended read written =>
      refine .inr ⟨.put (setup.transformed line), _, rfl, next, carried, ?_⟩
      simp [extended, read, written]
    | take line front read written =>
      refine .inr ⟨.take, ⟨state.read.map setup.transformed, next.all.map setup.transformed,
        state.written ++ [setup.transformed line]⟩, ?_, next, carried, ?_⟩
      · simp only [Fifo.system, Fifo.act, front, List.map_cons]
      · rw [read, written]

/-- The lines on the way are what the threads hold and the queues contain. -/
theorem Carries.in_flight {setup : Setup Value} {state : State Value} {flight : Flight}
    (carries : Carries setup state flight)
    (unpacked : ∀ line, Fits setup NoRotation line →
      setup.lua.unpack (setup.packed line) = some [setup.analyzerName, setup.filter line]) :
    state.inFlight setup = flight.all.map setup.transformed := by
  have analyzed : (flight.events.map setup.packed).map setup.analyzed =
      flight.events.map setup.transformed := by
    rw [List.map_map]
    apply List.map_congr_left
    intro line listed
    have fits := carries.fits line (by simp [Flight.all, listed])
    simp [Setup.analyzed, unpacked line fits, Setup.transformed]
  have spoken : (flight.analyzing.map setup.filter).map setup.spoken =
      flight.analyzing.map setup.transformed := List.map_map
  simp only [State.inFlight, carries.writing, carries.outputs, carries.analyzing, carries.events,
    carries.filtering, carries.lines, carries.reading, analyzed, spoken, Flight.all,
    List.map_append]

/-! ## Loaded configurations -/

/-- The filter names the analyzer and the script names the output: the scans of
`analyze_event` and `output_event` stop at them. -/
structure Names (setup : Setup Value) : Prop where
  analyzer : ∃ name, setup.lua.toString setup.analyzerName = some name ∧
    search name 0 (setup.configuration.analyzers.map fun analyzer =>
      (analyzer.tag, analyzer.tag)) = .found setup.analyzer
  output : ∃ name, setup.lua.toString setup.outputName = some name ∧
    search name 2 ((setup.configuration.outputs.drop 2).map fun output =>
      (output.tag, output.tag)) = .found setup.output

/-- In a configuration that was started the calls of the scripts reach the queues of
the loops. -/
theorem Names.routed {setup : Setup Value} (names : Names setup) {count : Nat}
    (started : Started setup.configuration count) : Routed setup := by
  obtain ⟨analyzerText, analyzerString, foundAnalyzer⟩ := names.analyzer
  obtain ⟨outputText, outputString, foundOutput⟩ := names.output
  have analyzerReads :
      analyzerQueue setup.configuration setup.analyzer = some (.analyzer setup.analyzer) := by
    obtain ⟨position, _, tag, numbered, row, _⟩ := search_sound foundAnalyzer
    rw [List.getElem?_map] at row
    obtain ⟨analyzer, stored, same⟩ := Option.map_eq_some_iff.mp row
    have tagged : analyzerTag setup.configuration setup.analyzer = some tag := by
      rw [numbered, Nat.zero_add, analyzerTag, stored]
      exact (Prod.mk.inj same).2
    exact analyzer_queue_own started (tagged_inside started tagged)
  have outputReads :
      outputQueue setup.configuration setup.output = some (.output setup.output) := by
    obtain ⟨position, _, tag, numbered, row, _⟩ := search_sound foundOutput
    rw [List.getElem?_map, List.getElem?_drop, ← numbered] at row
    obtain ⟨output, stored, same⟩ := Option.map_eq_some_iff.mp row
    have tagged : output.tag ≠ none := by
      rw [(Prod.mk.inj same).2]
      exact Option.some_ne_none _
    rw [outputQueue, stored]
    exact started.sinks setup.output output stored tagged
  constructor
  · intro value
    simp only [analyzeEvent, analyzerString, foundAnalyzer]
    rw [← analyzerReads, analyzerQueue]
  · exact analyzerReads
  · intro value
    simp only [outputEvent, outputString, foundOutput]
    rw [← outputReads, outputQueue]
  · exact outputReads

/-- Nothing is lost, doubled or reordered: the lines in the sink, followed by what the
threads hold and the queues contain, are the lines read, each mapped through the
scripts. -/
theorem pipeline_conserves {isRegular : List Byte → Bool} {directory : List Byte}
    {analyzers outputs : Option (List Entry)} {loaded : Configuration}
    (initialized : initializeConfiguration isRegular directory analyzers outputs = .ok loaded)
    {setup : Setup Value} (configured : setup.configuration = createMessageQueues loaded)
    (names : Names setup)
    (unpacked : ∀ line, Fits setup NoRotation line →
      setup.lua.unpack (setup.packed line) = some [setup.analyzerName, setup.filter line])
    {state : State Value} (reached : (system setup).Reaches (Assumed setup NoRotation true) state) :
    state.written ++ state.inFlight setup = state.read.map setup.transformed := by
  obtain ⟨entries, _, started⟩ := configuration_started initialized
  rw [← configured] at started
  obtain ⟨channel, visited, flight, carries, rfl⟩ :=
    (pipeline_simulates_channel (names.routed started) unpacked).reached reached
  rw [carries.in_flight unpacked]
  exact Fifo.conserved visited

/-! ## Runs of a small pipeline -/

/-- A filter and a script that pass a short line on. -/
def echo (configuration : Configuration) : Setup Scalar where
  lua := scalars
  configuration := configuration
  input := 0
  analyzer := 0
  output := 2
  analyzerName := letterA
  filter line := if short : line.length < 32 then .string ⟨line, short⟩ else .boolean false
  outputName := text "o" (by decide)
  script := id

/-- The start-up of the configuration of the example leads to these lists. -/
def EchoLoads (loaded : Configuration) : Prop :=
  initializeConfiguration (fun _ => true) [] (some [analyzerEntry "a"]) (some [outputEntry "o"]) =
    .ok loaded

/-- The scripts of the example name the analyzer and the output of its configuration. -/
theorem echo_names {loaded : Configuration} (initialized : EchoLoads loaded) :
    Names (echo (createMessageQueues loaded)) := by
  cases initialized
  exact ⟨⟨[97], by decide, by decide⟩, ⟨[111], by decide, by decide⟩⟩

/-- The threads in the order of the pipeline, each from its entry to the end of a round. -/
def round (line : List Byte) (writes : Bool) : List Label :=
  (List.replicate 4 Stage.flywheel ++ List.replicate 4 Stage.input ++
    List.replicate 4 Stage.analyzer ++ List.replicate 4 Stage.output).map
      fun stage => .step stage ⟨some line, none, false, writes⟩

/-- One line is written and another is on its way. -/
theorem pipeline_conserves_two_lines :
    ∃ loaded state, EchoLoads loaded ∧
      (system (echo (createMessageQueues loaded))).follow
        (round [120] true ++ List.replicate 3 (.step .flywheel ⟨some [121], none, false, true⟩))
        (initial []) = some state ∧
      state.written = [[120]] ∧
      state.written ++ state.inFlight (echo (createMessageQueues loaded)) =
        state.read.map (echo (createMessageQueues loaded)).transformed := by
  obtain ⟨loaded, initialized⟩ : ∃ loaded, EchoLoads loaded := ⟨_, rfl⟩
  obtain ⟨state, completed, written⟩ : ∃ state,
      (system (echo (createMessageQueues loaded))).follow
        (round [120] true ++ List.replicate 3 (.step .flywheel ⟨some [121], none, false, true⟩))
        (initial []) = some state ∧ state.written = [[120]] := by
    cases initialized
    exact ⟨_, rfl, rfl⟩
  have reached : (system (echo (createMessageQueues loaded))).Reaches
      (Assumed (echo (createMessageQueues loaded)) NoRotation true) state := by
    have started : (system (echo (createMessageQueues loaded))).start (initial []) := ⟨[], rfl⟩
    refine (System.Reaches.initial started).followed _ state ?_ completed
    cases initialized
    decide
  exact ⟨loaded, state, initialized, completed, written,
    pipeline_conserves initialized rfl (echo_names initialized) (fun _ _ => unpack_pack _) reached⟩

/-- A round with this line and this sink ends with the line neither written nor on its
way. -/
def Loses (loaded : Configuration) (line : List Byte) (writes : Bool) (state : State Scalar) :
    Prop :=
  (system (echo (createMessageQueues loaded))).follow (round line writes) (initial []) =
      some state ∧
    state.written ++ state.inFlight (echo (createMessageQueues loaded)) = [] ∧
    state.read = [line]

/-- The state conserves what was read: what was written and what is in flight are the lines
read, in their order. -/
def Conserves (loaded : Configuration) (state : State Scalar) : Prop :=
  state.written ++ state.inFlight (echo (createMessageQueues loaded)) =
    state.read.map (echo (createMessageQueues loaded)).transformed

/-- Where a round that is admitted loses its line, not every run conserves what was read. -/
theorem round_not_conserved {loaded : Configuration} {differs : List Byte → Prop}
    {reliable writes : Bool} {line : List Byte}
    (admitted : (system (echo (createMessageQueues loaded))).Admits
      (Assumed (echo (createMessageQueues loaded)) differs reliable) (round line writes)
      (initial []))
    (lost : ∃ state, Loses loaded line writes state) :
    ¬ ∀ state, (system (echo (createMessageQueues loaded))).Reaches
      (Assumed (echo (createMessageQueues loaded)) differs reliable) state →
        Conserves loaded state := by
  intro claimed
  obtain ⟨state, completed, gone, read⟩ := lost
  have started : (system (echo (createMessageQueues loaded))).start (initial []) := ⟨[], rfl⟩
  have kept := claimed state ((System.Reaches.initial started).followed _ state admitted completed)
  rw [Conserves, gone, read] at kept
  cases kept

/-- The message `"+ROTATE+"`, which differs from the rotate message, is taken for it and
never written; so is a line the sink refuses. -/
theorem rotation_and_refusal_lose_lines :
    ∃ loaded, EchoLoads loaded ∧ Names (echo (createMessageQueues loaded)) ∧
      (¬ ∀ state, (system (echo (createMessageQueues loaded))).Reaches
          (Assumed (echo (createMessageQueues loaded)) (fun message => message ≠ rotateMessage)
            true) state → Conserves loaded state) ∧
      ¬ ∀ state, (system (echo (createMessageQueues loaded))).Reaches
          (Assumed (echo (createMessageQueues loaded)) NoRotation false) state →
            Conserves loaded state := by
  obtain ⟨loaded, initialized⟩ : ∃ loaded, EchoLoads loaded := ⟨_, rfl⟩
  have names := echo_names initialized
  refine ⟨loaded, initialized, names, ?_, ?_⟩
  · have lost : ∃ state, Loses loaded (bytesOf "+ROTATE+") true state := by
      cases initialized
      exact ⟨_, rfl, rfl, rfl⟩
    refine round_not_conserved ?_ lost
    cases initialized
    decide
  · have lost : ∃ state, Loses loaded [120] false state := by
      cases initialized
      exact ⟨_, rfl, rfl, rfl⟩
    refine round_not_conserved ?_ lost
    cases initialized
    decide

end Dragonfly.Stages
