import Dragonfly.FileOutput
import Dragonfly.Scalars
import Dragonfly.Stages

/-!
# `lua_output_thread` with an output file

The thread opens the file, runs `lua_output_loop` on it and closes it, as long as
the engine runs. Calls of `output_event` and of `signal_log_rotate` put messages
into its queue at any time, and the rotate message is one of them.

Calls on the file succeed; a frame is put into the queue and taken from it in one
step. A message of length zero is received as a result of zero. Statistics and the
barrier before the loop are left out.
-/

namespace Dragonfly.OutputThread

open Config Events FileOutput Flywheel Stages

/-- What follows `file://` in the URI, the log directory and the time zone. The path of
the file is not too long for `fopen`. -/
structure Sink where
  logdir : List Byte
  path : List Byte
  localtime : Int → Tm
  accepted : (outputMode (filePath logdir path)).1.length < pathMax

/-- The handle of the file of a sink, under its path without the sign for the mode. -/
def Sink.handle (sink : Sink) : Handle :=
  ⟨(outputMode (filePath sink.logdir sink.path)).1, sink.accepted⟩

/-- The mode in which the file of a sink is opened, by the sign at the end of its path. -/
def Sink.mode (sink : Sink) : Mode := (outputMode (filePath sink.logdir sink.path)).2

/-- Opening the file of a sink succeeds and gives its handle, with the file opened in its mode. -/
theorem file_open_sink (sink : Sink) (directory : Directory) :
    fileOpen sink.logdir sink.path directory =
      some (sink.handle, fopen directory sink.handle.path sink.mode) := by
  exact dif_pos sink.accepted

/-- One shared operation of the thread: a load of the flag, the opening and closing of the file,
or an operation of the loop. -/
inductive Operation (Point Result : Type) where
  | loadRunning (resume : Bool → Outcome Point Result)
  | ioOpen (resume : Option Handle → Outcome Point Result)
  | stage (handle : Handle) (operation : StageOperation Empty Point Result)
  | ioClose (handle : Handle) (resume : Outcome Point Result)

/-- The points of `lua_output_thread`: the loop condition, `dragonfly_io_open`, the
loop on the handle, and `dragonfly_io_close`. -/
inductive ThreadPoint where
  | test
  | opening
  | loop (handle : Handle) (point : StagePoint Unit (List Byte))
  | closing (handle : Handle)

/-- An operation of a function that is called becomes one of its caller: what the callee returns
is given to the caller's continuation. -/
def callStage {Argument Point Result Outer Final : Type} (inside : Point → Outer)
    (returned : Result → Outcome Outer Final) :
    StageOperation Argument Point Result → StageOperation Argument Outer Final
  | .loadRunning resume => .loadRunning fun running => (resume running).call inside returned
  | .recv len resume => .recv len fun n buffer => (resume n buffer).call inside returned
  | .callLoop argument resume =>
      .callLoop argument fun failed => (resume failed).call inside returned
  | .ioWrite buffer resume => .ioWrite buffer fun n => (resume n).call inside returned
  | .ioRotate resume => .ioRotate (resume.call inside returned)

/-- The function `lua_output_thread`: while the engine runs it opens the file, runs the loop on
it and closes it behind the loop. -/
def luaOutputThread : ThreadPoint → Operation ThreadPoint Unit
  | .test => .loadRunning fun running => if running then .goto .opening else .ret ()
  | .opening => .ioOpen fun
      | none => .ret ()
      | some handle => .goto (.loop handle (.test ()))
  | .loop handle point =>
      .stage handle (callStage (.loop handle) (fun _ => .goto (.closing handle))
        (luaOutputLoop point))
  | .closing handle => .ioClose handle (.goto .test)

/-- What the thread did to the file: it wrote a line, or it rotated the file at some time. -/
inductive Effect where
  | wrote (line : List Byte)
  | rotated (now : Int)
deriving DecidableEq

/-- The line that was written, if the effect is the writing of one. -/
def Effect.line : Effect → Option (List Byte)
  | .wrote line => some line
  | .rotated _ => none

/-- A request to the thread: a message of `output_event`, or the rotation that
`signal_log_rotate` asks for. -/
inductive Request where
  | data (message : List Byte)
  | rotate
deriving DecidableEq

/-- What `msgqueue_send` puts into the queue for a request: the message, cut to the size of the
buffer, or the rotate message. -/
def Request.frame : Request → List Byte
  | .data message => message.take maxBufferSize
  | .rotate => rotateMessage

/-- `g_running`, the thread, its queue and the files; how often the file was opened,
what was done to it since, and all requests so far. -/
structure State where
  running : Bool
  thread : Activity ThreadPoint Unit
  queue : List (List Byte)
  directory : Directory
  opens : Nat
  effects : List Effect
  requests : List Request

/-- Put a request into the queue, behind those that wait there, and record it. -/
def State.put (state : State) (request : Request) : State :=
  { state with
    queue := state.queue ++ [request.frame]
    requests := state.requests ++ [request] }

/-- Perform an operation of the loop on the file at this time. -/
def State.performStage {Point Result : Type} (state : State) (sink : Sink) (handle : Handle)
    (now : Int) : StageOperation Empty Point Result → Option (State × Outcome Point Result)
  | .loadRunning resume => some (state, resume state.running)
  | .recv len resume =>
      match state.queue with
      | [] => none
      | message :: rest =>
          if message.length ≤ len then
            some ({ state with queue := rest }, resume message.length message)
          else none
  | .callLoop argument _ => argument.elim
  | .ioWrite buffer resume => some
      ({ state with
        directory := fileWriteLine handle buffer state.directory
        effects := state.effects ++ [.wrote (line buffer)] }, resume 0)
  | .ioRotate resume => some
      ({ state with
        directory := fileRotate handle (sink.localtime now) state.directory
        effects := state.effects ++ [.rotated now] }, resume)

/-- Perform an operation of the thread at a time. An operation on an empty queue has no result:
the thread waits. -/
def State.perform {Point Result : Type} (state : State) (sink : Sink) (now : Int) :
    Operation Point Result → Option (State × Outcome Point Result)
  | .loadRunning resume => some (state, resume state.running)
  | .ioOpen resume =>
      match fileOpen sink.logdir sink.path state.directory with
      | none => some (state, resume none)
      | some (handle, directory) =>
          some ({ state with directory := directory, opens := state.opens + 1 },
            resume (some handle))
  | .stage handle operation => state.performStage sink handle now operation
  | .ioClose _ resume => some (state, resume)

/-- One step of the thread at a time. It has none when it has ended, or waits for a message. -/
def step (sink : Sink) (state : State) (now : Int) : Option State :=
  match state.thread with
  | .inside point =>
      (state.perform sink now (luaOutputThread point)).map fun (after, outcome) =>
        { after with thread := .after outcome }
  | _ => none

/-- A call of `output_event` or `signal_log_rotate`, a step of the thread at this
time, or the end of the engine. -/
inductive Label (Value : Type) where
  | outputEvent (arguments : List Value)
  | signalLogRotate
  | step (now : Int)
  | stop

section System

variable {Value : Type} (lua : Lua Value) (configuration : Configuration) (queue : Queue)

/-- The message a call of `output_event` puts into this queue. -/
def delivered (arguments : List Value) : Option (List Byte) :=
  match outputEvent lua configuration arguments with
  | .returned (some (target, message)) => if target = some queue then some message else none
  | _ => none

/-- The thread in front of its first test of the flag, with an empty queue and these files. -/
def initial (before : Directory) : State where
  running := true
  thread := .inside .test
  queue := []
  directory := before
  opens := 0
  effects := []
  requests := []

/-- The runs of the thread, its queue and its files. -/
def system (sink : Sink) (before : Directory) : System State (Label Value) where
  start state := state = initial before
  next
    | state, .outputEvent arguments =>
        match delivered lua configuration queue arguments with
        | some message => some (state.put (.data message))
        | none => some state
    | state, .signalLogRotate => some (state.put .rotate)
    | state, .step now => step sink state now
    | state, .stop => some { state with running := false }

end System

/-! ## What the thread does with a message -/

/-- What an effect does to the files: a line is put at the end of the file, or the file is
rotated. -/
def Effect.apply (sink : Sink) (directory : Directory) : Effect → Directory
  | .wrote line =>
      Function.update directory sink.handle.path
        (some (contents directory sink.handle.path ++ line))
  | .rotated now => fileRotate sink.handle (sink.localtime now) directory

/-- Writing the string of a buffer has the effect of the line that this string makes. -/
theorem write_line_effect (sink : Sink) (buffer : List Byte) (directory : Directory) :
    fileWriteLine sink.handle buffer directory =
      (Effect.wrote (line buffer)).apply sink directory := by
  funext path
  by_cases same : path = sink.handle.path
  · subst same
    rw [file_write_line_own, Effect.apply, Function.update_self]
  · rw [file_write_line_other _ _ _ same, Effect.apply, Function.update_of_ne same]

/-- What is done with a frame that is not empty: it is skipped, it rotates the file, or
it is a line. -/
def served (frame : List Byte) : Option (Option (List Byte)) :=
  if frame.length = maxBufferSize then none
  else if strcasecmp (frame ++ [0]) rotateMessage = 0 then some none
  else some (some (line (frame ++ [0])))

/-- Where the thread stands while it never received an empty message: how often it
opened the file, and the message it holds. -/
inductive Stands (sink : Sink) : Bool → Activity ThreadPoint Unit → Nat → List (List Byte) → Prop
  where
  | start (running : Bool) : Stands sink running (.inside .test) 0 []
  | opening (running : Bool) : Stands sink running (.inside .opening) 0 []
  | test (running : Bool) : Stands sink running (.inside (.loop sink.handle (.test ()))) 1 []
  | recv (running : Bool) : Stands sink running (.inside (.loop sink.handle (.recv ()))) 1 []
  | handle (running : Bool) (message : List Byte) (kept : message.length ≠ maxBufferSize) :
      Stands sink running (.inside (.loop sink.handle (.handle () message))) 1 [message]
  | closing : Stands sink false (.inside (.closing sink.handle)) 1 []
  | last : Stands sink false (.inside .test) 1 []
  | ended (opens : Nat) (once : opens ≤ 1) : Stands sink false (.outside ()) opens []

/-- The frames that were handled, the frame in hand and the queue are the requests in
order, the effects are those of the handled frames, and the files are what the effects
made of them since the file was opened. -/
structure Serves (sink : Sink) (before : Directory) (state : State)
    (handled held : List (List Byte)) : Prop where
  requests : state.requests.map Request.frame = handled ++ held ++ state.queue
  stands : Stands sink state.running state.thread state.opens held
  effects : state.effects.map Effect.line = handled.filterMap served
  unopened : state.opens = 0 → state.effects = []
  directory : state.directory = state.effects.foldl (Effect.apply sink)
    (if state.opens = 0 then before else fopen before sink.handle.path sink.mode)

/-- A message of the size of the buffer is skipped. -/
theorem served_skipped {frame : List Byte} (full : frame.length = maxBufferSize) :
    served frame = none := if_pos full

/-- Any other message than the rotate message is served by writing its line, if it does not fill
the buffer. -/
theorem served_line {frame : List Byte} (kept : frame.length ≠ maxBufferSize)
    (other : strcasecmp (frame ++ [0]) rotateMessage ≠ 0) :
    served frame = some (some (line (frame ++ [0]))) := by
  rw [served, if_neg kept, if_neg other]

/-- No frame in the queue is larger than the buffer, because `msgqueue_send` cuts it. -/
theorem frame_bounded (request : Request) : request.frame.length ≤ maxBufferSize := by
  cases request with
  | data message => exact List.length_take_le _ _
  | rotate => decide

/-- The frames that wait in the queue are those of requests that were made. -/
theorem Serves.waiting {sink : Sink} {before : Directory} {state : State}
    {handled held : List (List Byte)} (serves : Serves sink before state handled held)
    {frame : List Byte} (queued : frame ∈ state.queue) :
    ∃ request ∈ state.requests, request.frame = frame := by
  have listed : frame ∈ state.requests.map Request.frame := by
    rw [serves.requests]
    exact List.mem_append_right _ queued
  obtain ⟨request, asked, same⟩ := List.mem_map.mp listed
  exact ⟨request, asked, same⟩

/-- None of the frames that wait in the queue is larger than the buffer. -/
theorem Serves.bounded {sink : Sink} {before : Directory} {state : State}
    {handled held : List (List Byte)} (serves : Serves sink before state handled held) :
    ∀ frame ∈ state.queue, frame.length ≤ maxBufferSize := by
  intro frame queued
  obtain ⟨request, _, rfl⟩ := serves.waiting queued
  exact frame_bounded request

/-- A frame is received at the head of the queue. -/
theorem frame_received {sink : Sink} (state : State) {frame : List Byte}
    {rest : List (List Byte)} (bounded : frame.length ≤ maxBufferSize) (nonempty : frame ≠ [])
    (waiting : state.thread = .inside (.loop sink.handle (.recv ())))
    (queued : state.queue = frame :: rest) (now : Int) :
    step sink state now = some
      { state with
        queue := rest
        thread := .inside (.loop sink.handle
          (if frame.length = maxBufferSize then .test () else .handle () frame)) } := by
  have positive : ¬ (frame.length : Int) ≤ 0 := by
    have length := List.length_pos_of_ne_nil nonempty
    omega
  simp only [step, waiting, luaOutputThread, luaOutputLoop, stageLoop, callStage, State.perform,
    State.performStage, queued, if_pos bounded, if_neg positive, Option.map_some]
  by_cases full : frame.length = maxBufferSize
  · have fullInt : (frame.length : Int) = (maxBufferSize : Nat) := by omega
    simp only [if_pos fullInt, if_pos full, Outcome.call, Activity.after]
  · have shortInt : ¬ (frame.length : Int) = (maxBufferSize : Nat) := by omega
    simp only [if_neg shortInt, if_neg full, Outcome.call, Activity.after, Int.toNat_natCast,
      List.take_length]

/-- The effect of a frame that is not skipped: a rotation for the rotate message, and otherwise
its line. -/
def effectOf (frame : List Byte) (now : Int) : Effect :=
  if strcasecmp (frame ++ [0]) rotateMessage = 0 then .rotated now
  else .wrote (line (frame ++ [0]))

/-- The effect of a frame that is not skipped is what serving the frame asks for. -/
theorem effect_served {frame : List Byte} (kept : frame.length ≠ maxBufferSize) (now : Int) :
    served frame = some (effectOf frame now).line := by
  rw [served, if_neg kept, effectOf]
  split <;> rfl

/-- A frame that the loop has in hand is handled in one step, and the loop goes back to its
test. -/
theorem frame_handled {sink : Sink} (state : State) {frame : List Byte}
    (holding : state.thread = .inside (.loop sink.handle (.handle () frame))) (now : Int) :
    step sink state now = some
      { state with
        thread := .inside (.loop sink.handle (.test ()))
        directory := (effectOf frame now).apply sink state.directory
        effects := state.effects ++ [effectOf frame now] } := by
  simp only [step, holding, luaOutputThread, luaOutputLoop, stageLoop]
  by_cases rotates : strcasecmp (frame ++ [0]) rotateMessage = 0
  · simp only [if_pos rotates, callStage, State.perform, State.performStage, Option.map_some,
      effectOf, Effect.apply, Outcome.call, Activity.after]
  · simp only [if_neg rotates, callStage, State.perform, State.performStage, Option.map_some,
      effectOf, write_line_effect, Outcome.call, Activity.after]
    rfl

/-- A step of the thread whose next frame is not empty. -/
theorem thread_serves {sink : Sink} {before : Directory} {state after : State}
    {handled held : List (List Byte)} (serves : Serves sink before state handled held)
    (nonempty : ∀ frame ∈ state.queue, frame ≠ []) {now : Int}
    (moved : step sink state now = some after) :
    ∃ handledAfter heldAfter, Serves sink before after handledAfter heldAfter := by
  have bounded := serves.bounded
  obtain ⟨requests, stands, effects, unopened, directory⟩ := serves
  obtain ⟨running, thread, queue, files, opens, done, asked⟩ := state
  dsimp only at requests stands effects unopened directory nonempty bounded
  cases stands with
  | start =>
    cases moved
    refine ⟨handled, [], requests, ?_, effects, unopened, directory⟩
    cases running with
    | true => exact .opening true
    | false => exact .ended 0 (Nat.zero_le _)
  | opening =>
    obtain rfl := unopened rfl
    simp only [step, luaOutputThread, State.perform, file_open_sink] at moved
    cases moved
    refine ⟨handled, [], requests, .test running, effects, fun _ => rfl, ?_⟩
    obtain rfl : files = before := directory
    rfl
  | test =>
    cases moved
    refine ⟨handled, [], requests, ?_, effects, unopened, directory⟩
    cases running with
    | true => exact .recv true
    | false => exact .closing
  | recv =>
    cases queue with
    | nil => cases moved
    | cons frame rest =>
      rw [frame_received ⟨running, _, _, files, 1, done, asked⟩
        (bounded frame List.mem_cons_self) (nonempty frame List.mem_cons_self) rfl rfl now] at moved
      cases moved
      by_cases full : frame.length = maxBufferSize
      · refine ⟨handled ++ [frame], [], ?_, ?_, ?_, unopened, directory⟩
        · simp [requests]
        · rw [if_pos full]
          exact .test running
        · rw [List.filterMap_append, effects]
          simp [served_skipped full]
      · refine ⟨handled, [frame], ?_, ?_, effects, unopened, directory⟩
        · simp [requests]
        · rw [if_neg full]
          exact .handle running frame full
  | handle _ message kept =>
    rw [frame_handled ⟨running, _, queue, files, 1, done, asked⟩ rfl now] at moved
    cases moved
    refine ⟨handled ++ [message], [], ?_, .test running, ?_,
      fun closed => absurd closed Nat.one_ne_zero, ?_⟩
    · simp [requests]
    · rw [List.map_append, List.filterMap_append, effects]
      simp [effect_served kept now]
    · rw [List.foldl_append, ← directory]
      rfl
  | closing =>
    cases moved
    exact ⟨handled, [], requests, .last, effects, unopened, directory⟩
  | last =>
    cases moved
    exact ⟨handled, [], requests, .ended 1 (Nat.le_refl _), effects, unopened, directory⟩
  | ended => cases moved

/-- A request that is put joins the end of the queue and changes nothing of what was served. -/
theorem Serves.put {sink : Sink} {before : Directory} {state : State}
    {handled held : List (List Byte)} (serves : Serves sink before state handled held)
    (request : Request) : Serves sink before (state.put request) handled held := by
  constructor
  · simp only [State.put, List.map_append, serves.requests, List.append_assoc, List.map_cons,
      List.map_nil]
  · exact serves.stands
  · exact serves.effects
  · exact serves.unopened
  · exact serves.directory

/-- The end of the engine leaves the thread where it is. -/
theorem Serves.stop {sink : Sink} {before : Directory} {state : State}
    {handled held : List (List Byte)} (serves : Serves sink before state handled held) :
    Serves sink before { state with running := false } handled held := by
  constructor
  · exact serves.requests
  · have stands := serves.stands
    dsimp only
    generalize state.running = running at stands
    generalize state.thread = thread at stands ⊢
    generalize state.opens = opens at stands ⊢
    cases stands with
    | start => exact .start false
    | opening => exact .opening false
    | test => exact .test false
    | recv => exact .recv false
    | handle _ message kept => exact .handle false message kept
    | closing => exact .closing
    | last => exact .last
    | ended _ once => exact .ended _ once
  · exact serves.effects
  · exact serves.unopened
  · exact serves.directory

/-- How many steps the thread of a running engine takes before it waits for a message. -/
def delay : Activity ThreadPoint Unit → Nat
  | .inside .test => 4
  | .inside .opening => 3
  | .inside (.loop _ (.handle _ _)) => 3
  | .inside (.loop _ (.test _)) => 2
  | _ => 1

/-- A bound on the steps of the thread, when nothing else happens, before it waits at an empty
queue: a frame that waits costs no more than three. -/
def State.rank (state : State) : Nat := 4 * state.queue.length + delay state.thread

/-- An operation of the thread leaves the requests that were made alone. -/
theorem perform_requests {Point Result : Type} {state after : State} {sink : Sink} {now : Int}
    {operation : Operation Point Result} {outcome : Outcome Point Result}
    (performed : state.perform sink now operation = some (after, outcome)) :
    after.requests = state.requests := by
  cases operation with
  | loadRunning resume =>
    cases performed
    rfl
  | ioOpen resume =>
    simp only [State.perform] at performed
    split at performed <;> cases performed <;> rfl
  | stage handle operation =>
    cases operation with
    | loadRunning resume =>
      cases performed
      rfl
    | recv len resume =>
      simp only [State.perform, State.performStage] at performed
      split at performed
      · cases performed
      · split at performed
        · cases performed
          rfl
        · cases performed
    | callLoop argument resume => exact argument.elim
    | ioWrite buffer resume =>
      cases performed
      rfl
    | ioRotate resume =>
      cases performed
      rfl
  | ioClose handle resume =>
    cases performed
    rfl

/-- A step of the thread leaves the requests that were made alone; only calls from outside add
some. -/
theorem step_requests {sink : Sink} {state after : State} {now : Int}
    (moved : step sink state now = some after) : after.requests = state.requests := by
  unfold step at moved
  split at moved
  · obtain ⟨⟨performed, outcome⟩, done, moved⟩ := Option.map_eq_some_iff.mp moved
    cases moved
    have kept := perform_requests done
    exact kept
  · cases moved

section Runs

variable {Value : Type} {lua : Lua Value} {configuration : Configuration} {queue : Queue}
  {sink : Sink} {before : Directory}

/-- What a step other than one of the thread does. -/
theorem next_cases {state after : State} {label : Label Value}
    (moved : (system lua configuration queue sink before).next state label = some after) :
    after = state ∨ (∃ request, after = state.put request) ∨
      after = { state with running := false } ∨ ∃ now, step sink state now = some after := by
  cases label with
  | outputEvent arguments =>
    simp only [system] at moved
    split at moved
    · cases moved
      exact .inr (.inl ⟨_, rfl⟩)
    · cases moved
      exact .inl rfl
  | signalLogRotate =>
    cases moved
    exact .inr (.inl ⟨_, rfl⟩)
  | step now => exact .inr (.inr (.inr ⟨now, moved⟩))
  | stop =>
    cases moved
    exact .inr (.inr (.inl rfl))

/-- While no request has an empty frame, the requests are served in order. -/
theorem serves_run {guard : State → Label Value → Prop} {state : State}
    (reached : (system lua configuration queue sink before).Reaches guard state)
    (nonempty : ∀ request ∈ state.requests, request.frame ≠ []) :
    ∃ handled held, Serves sink before state handled held := by
  revert nonempty
  apply reached.invariant fun state => (∀ request ∈ state.requests, request.frame ≠ []) →
    ∃ handled held, Serves sink before state handled held
  · rintro state rfl _
    exact ⟨[], [], rfl, .start true, rfl, fun _ => rfl, rfl⟩
  · intro state label after held _ moved nonempty
    rcases next_cases moved with rfl | ⟨request, rfl⟩ | rfl | ⟨now, stepped⟩
    · exact held nonempty
    · obtain ⟨handled, hand, serves⟩ := held fun old listed =>
        nonempty old (List.mem_append_left _ listed)
      exact ⟨handled, hand, serves.put request⟩
    · obtain ⟨handled, hand, serves⟩ := held nonempty
      exact ⟨handled, hand, serves.stop⟩
    · have earlier := step_requests stepped ▸ nonempty
      obtain ⟨handled, hand, serves⟩ := held earlier
      apply thread_serves serves _ stepped
      intro frame queued
      obtain ⟨request, asked, rfl⟩ := serves.waiting queued
      exact earlier request asked

/-- The thread of a running engine takes a step that leaves less to do, unless it waits for a
message and there is none. -/
theorem Serves.advances {state : State} {handled held : List (List Byte)}
    (serves : Serves sink before state handled held) (running : state.running = true)
    (nonempty : ∀ frame ∈ state.queue, frame ≠ []) (now : Int) :
    (∃ after, step sink state now = some after ∧ after.running = true ∧
      after.rank < state.rank) ∨ (held = [] ∧ state.queue = []) := by
  have bounded := serves.bounded
  obtain ⟨_, stands, _, _, _⟩ := serves
  obtain ⟨runs, thread, frames, files, opens, done, asked⟩ := state
  dsimp only at stands nonempty bounded running
  subst running
  cases stands with
  | start => exact .inl ⟨_, rfl, rfl, Nat.add_lt_add_left (by decide : 3 < 4) _⟩
  | opening =>
    left
    simp only [step, luaOutputThread, State.perform, file_open_sink]
    exact ⟨_, rfl, rfl, Nat.add_lt_add_left (by decide : 2 < 3) _⟩
  | test => exact .inl ⟨_, rfl, rfl, Nat.add_lt_add_left (by decide : 1 < 2) _⟩
  | recv =>
    cases frames with
    | nil => exact .inr ⟨rfl, rfl⟩
    | cons frame rest =>
      refine .inl ⟨_, frame_received _ (bounded frame List.mem_cons_self)
        (nonempty frame List.mem_cons_self) rfl rfl now, rfl, ?_⟩
      by_cases full : frame.length = maxBufferSize
      · simp only [State.rank, if_pos full, delay, List.length_cons]
        omega
      · simp only [State.rank, if_neg full, delay, List.length_cons]
        omega
  | handle _ message =>
    exact .inl ⟨_, frame_handled _ rfl now, rfl, Nat.add_lt_add_left (by decide : 2 < 3) _⟩

end Runs

/-! ## Fidelity -/

/-- A message with a length the buffer has room for, without zero bytes and different
from the rotate message even when letter case is ignored. -/
def Plain (message : List Byte) : Prop :=
  0 < message.length ∧ message.length < maxBufferSize ∧ 0 ∉ message ∧
    strcasecmp message rotateMessage ≠ 0

instance (message : List Byte) : Decidable (Plain message) :=
  inferInstanceAs (Decidable (_ ∧ _))

/-- All messages that calls of `output_event` deliver to this queue have a property. -/
def Messages {Value : Type} (lua : Lua Value) (configuration : Configuration) (queue : Queue)
    (holds : List Byte → Prop) (_ : State) : Label Value → Prop
  | .outputEvent arguments =>
      ∀ message, delivered lua configuration queue arguments = some message → holds message
  | _ => True

/-- What a request is to do: a message is written with a newline behind it, and a
rotate request rotates the file. -/
def Request.line : Request → Option (List Byte)
  | .data message => some (message ++ [newline])
  | .rotate => none

/-- The message of a request has a property, if the request has one. -/
def Request.Holds (holds : List Byte → Prop) : Request → Prop
  | .data message => holds message
  | .rotate => True

section Runs

variable {Value : Type} {lua : Lua Value} {configuration : Configuration} {queue : Queue}
  {sink : Sink} {before : Directory}

/-- The requests of a run have the property of its messages. -/
theorem requests_hold {holds : List Byte → Prop} {state : State}
    (reached : (system lua configuration queue sink before).Reaches
      (Messages lua configuration queue holds) state) :
    ∀ request ∈ state.requests, request.Holds holds := by
  apply reached.invariant fun state => ∀ request ∈ state.requests, request.Holds holds
  · rintro state rfl request listed
    cases listed
  · intro state label after held admitted moved
    cases label with
    | outputEvent arguments =>
      simp only [system] at moved
      split at moved
      · rename_i message put
        cases moved
        intro request listed
        rcases List.mem_append.mp listed with old | new
        · exact held request old
        · obtain rfl := List.mem_singleton.mp new
          exact admitted message put
      · cases moved
        exact held
    | signalLogRotate =>
      cases moved
      intro request listed
      rcases List.mem_append.mp listed with old | new
      · exact held request old
      · obtain rfl := List.mem_singleton.mp new
        trivial
    | step now =>
      rw [step_requests moved]
      exact held
    | stop =>
      cases moved
      exact held

/-- A plain request is served as it is to be. -/
theorem served_plain {request : Request} (plain : request.Holds Plain) :
    request.frame ≠ [] ∧ served request.frame = some request.line := by
  cases request with
  | data message =>
    obtain ⟨positive, short, string, other⟩ := plain
    have frame : (Request.data message).frame = message :=
      List.take_of_length_le (Nat.le_of_lt short)
    have terminated : cString (message ++ [0]) = message := cString_terminated message [] string
    have different : strcasecmp (message ++ [0]) rotateMessage ≠ 0 := by
      rwa [strcasecmp, terminated, ← cString_whole message string]
    rw [frame]
    constructor
    · exact List.ne_nil_of_length_pos positive
    · rw [served_line (Nat.ne_of_lt short) different, line, terminated]
      rfl
  | rotate => exact ⟨by decide, by decide⟩

/-- The steps of the thread alone, each at the time the clock shows then. -/
def ownSteps (times : Nat → Int) (index : Nat) : Label Value := .step (times index)

/-- Each of these requests was handled: a message is a line of its own, and only a request to
rotate rotates the file. -/
def AllHandled (requests : List Request) (state : State) : Prop :=
  state.requests = requests ∧ state.effects.map Effect.line = requests.map Request.line

/-- The file was opened at most once; the requests are handled in order, each message
is a line of its own and only requests rotate; and what was done is what the files show.
While the engine runs the thread is not blocked before everything is handled, and left to
its own steps, at whatever times, it comes to have handled everything. -/
structure Faithful (runs : System State (Label Value)) (sink : Sink) (before : Directory)
    (state : State) : Prop where
  once : state.opens ≤ 1
  ordered : ∃ handled held waiting, state.requests = handled ++ held ++ waiting ∧
    held.length ≤ 1 ∧ state.queue = waiting.map Request.frame ∧
      state.effects.map Effect.line = handled.map Request.line
  files : state.directory = state.effects.foldl (Effect.apply sink)
    (if state.opens = 0 then before else fopen before sink.handle.path sink.mode)
  complete : state.running = true → ∀ now, (∃ after, step sink state now = some after) ∨
    state.effects.map Effect.line = state.requests.map Request.line
  completes : state.running = true → ∀ times,
    runs.Comes (fun _ _ => True) (AllHandled state.requests) (ownSteps times) state

/-- How often the file was opened, and how many messages the thread holds. -/
theorem Stands.bounds {running : Bool} {thread : Activity ThreadPoint Unit} {opens : Nat}
    {held : List (List Byte)} (stands : Stands sink running thread opens held) :
    opens ≤ 1 ∧ held.length ≤ 1 := by
  cases stands with
  | ended _ once => exact ⟨once, Nat.zero_le _⟩
  | _ => exact ⟨by decide, by simp⟩

/-- The requests of a run with plain messages are those whose frames were handled, one that the
thread may hold, and those whose frames wait, and what was done is what the first of them ask. -/
theorem Serves.ordered {state : State} {handled held : List (List Byte)}
    (serves : Serves sink before state handled held)
    (plain : ∀ request ∈ state.requests, request.Holds Plain) :
    ∃ first hand waiting, state.requests = first ++ hand ++ waiting ∧
      hand.map Request.frame = held ∧ waiting.map Request.frame = state.queue ∧
        state.effects.map Effect.line = first.map Request.line := by
  have split := serves.requests
  rw [List.map_eq_append_iff] at split
  obtain ⟨front, waiting, whole, frames, queued⟩ := split
  obtain ⟨first, hand, rfl, handledFrames, heldFrames⟩ := List.map_eq_append_iff.mp frames
  refine ⟨first, hand, waiting, whole, heldFrames, queued, ?_⟩
  have same : (fun request => served (Request.frame request)) = served ∘ Request.frame := rfl
  rw [serves.effects, ← handledFrames, List.filterMap_map, ← List.filterMap_eq_map]
  apply List.filterMap_congr
  intro request listed
  have asked : request ∈ state.requests := by
    rw [whole]
    exact List.mem_append_left _ (List.mem_append_left _ listed)
  exact (served_plain (plain request asked)).2

/-- A thread that holds nothing and for which nothing waits has handled all requests. -/
theorem Serves.complete {state : State} {handled : List (List Byte)}
    (serves : Serves sink before state handled [])
    (plain : ∀ request ∈ state.requests, request.Holds Plain) (empty : state.queue = []) :
    state.effects.map Effect.line = state.requests.map Request.line := by
  obtain ⟨first, hand, waiting, whole, heldFrames, queued, lines⟩ := serves.ordered plain
  have noHand : hand = [] := List.map_eq_nil_iff.mp heldFrames
  have noWaiting : waiting = [] := List.map_eq_nil_iff.mp (queued.trans empty)
  rw [lines, whole, noHand, noWaiting, List.append_nil, List.append_nil]

/-- The frames of plain requests that wait are not empty. -/
theorem Serves.nonempty {state : State} {handled held : List (List Byte)}
    (serves : Serves sink before state handled held)
    (plain : ∀ request ∈ state.requests, request.Holds Plain) :
    ∀ frame ∈ state.queue, frame ≠ [] := by
  intro frame listed
  obtain ⟨request, asked, rfl⟩ := serves.waiting listed
  exact (served_plain (plain request asked)).1

/-- A thread that serves plain requests and is left to its own steps comes to have handled all of
them. Each step lowers the rank, and a thread without one has nothing left to do. -/
theorem Serves.completes {state : State} (guard : State → Label Value → Prop)
    (served : ∃ handled held, Serves sink before state handled held)
    (plain : ∀ request ∈ state.requests, request.Holds Plain) (running : state.running = true)
    (times : Nat → Int) :
    (system lua configuration queue sink before).Comes guard (AllHandled state.requests)
      (ownSteps times) state := by
  refine System.Comes.lowered
    (fun now => (∃ handled held, Serves sink before now handled held) ∧ now.running = true ∧
      now.requests = state.requests)
    State.rank ?_ ⟨served, running, rfl⟩
  rintro index now ⟨⟨handled, held, serves⟩, running, same⟩ unfinished -
  have plainNow : ∀ request ∈ now.requests, request.Holds Plain := by
    rw [same]
    exact plain
  have nonempty := serves.nonempty plainNow
  rcases serves.advances running nonempty (times index) with
    ⟨after, moved, runs, lower⟩ | ⟨rfl, empty⟩
  · have later := thread_serves serves nonempty moved
    have asked := (step_requests moved).trans same
    exact ⟨after, moved, ⟨later, runs, asked⟩, lower⟩
  · have handledAll := serves.complete plainNow empty
    rw [same] at handledAll
    exact absurd ⟨same, handledAll⟩ unfinished

/-- The thread is faithful to plain messages and to rotate requests in any order. -/
theorem output_faithful {state : State}
    (reached : (system lua configuration queue sink before).Reaches
      (Messages lua configuration queue Plain) state) :
    Faithful (system lua configuration queue sink before) sink before state := by
  have plain := requests_hold reached
  obtain ⟨handled, held, serves⟩ := serves_run reached fun request listed =>
    (served_plain (plain request listed)).1
  obtain ⟨first, hand, waiting, whole, heldFrames, queued, lines⟩ := serves.ordered plain
  have bounds := serves.stands.bounds
  constructor
  · exact bounds.1
  · refine ⟨first, hand, waiting, whole, ?_, queued.symm, lines⟩
    have length := congrArg List.length heldFrames
    rw [List.length_map] at length
    exact length ▸ bounds.2
  · exact serves.directory
  · intro running now
    rcases serves.advances running (serves.nonempty plain) now with
      ⟨after, moved, -⟩ | ⟨rfl, empty⟩
    · exact .inl ⟨after, moved⟩
    · exact .inr (serves.complete plain empty)
  · exact fun running times =>
      Serves.completes (fun _ _ => True) ⟨handled, held, serves⟩ plain running times

end Runs

/-! ## Runs that handle a front of the queue -/

section Runs

variable {Value : Type} {lua : Lua Value} {configuration : Configuration} {queue : Queue}
  {sink : Sink} {before : Directory} {holds : List Byte → Prop}

/-- The thread is at the head of its loop while the engine runs, with these requests,
this queue, and these lines and rotations done to the files it found. -/
structure Head (sink : Sink) (before : Directory) (requests : List Request)
    (waiting : List (List Byte)) (done : List (Option (List Byte))) (state : State) : Prop where
  running : state.running = true
  thread : state.thread = .inside (.loop sink.handle (.test ()))
  requests : state.requests = requests
  queue : state.queue = waiting
  opens : state.opens = 1
  effects : state.effects.map Effect.line = done
  directory : state.directory =
    state.effects.foldl (Effect.apply sink) (fopen before sink.handle.path sink.mode)

/-- The thread handles the next frame of its queue and then stands in front of the frames behind
it. -/
theorem Head.served {requests : List Request} {frame : List Byte} {waiting : List (List Byte)}
    {done : List (Option (List Byte))} {state : State}
    (head : Head sink before requests (frame :: waiting) done state)
    (bounded : frame.length ≤ maxBufferSize) (nonempty : frame ≠ [])
    (reached : (system lua configuration queue sink before).Reaches
      (Messages lua configuration queue holds) state) :
    ∃ after, (system lua configuration queue sink before).Reaches
        (Messages lua configuration queue holds) after ∧
      Head sink before requests waiting (done ++ (OutputThread.served frame).toList) after := by
  obtain ⟨runs, standing, asked, queued, opened, effects, directory⟩ := head
  obtain ⟨running, thread, frames, files, opens, lines, all⟩ := state
  dsimp only at runs standing asked queued opened effects directory
  subst runs standing asked queued opened effects
  have waits := reached.extend (.step 0) trivial
    (rfl : step sink ⟨true, .inside (.loop sink.handle (.test ())), frame :: waiting, files, 1,
      lines, all⟩ 0 = some _)
  have taken := waits.extend (.step 0) trivial (frame_received
    ⟨true, .inside (.loop sink.handle (.recv ())), frame :: waiting, files, 1, lines, all⟩ bounded
    nonempty rfl rfl 0)
  by_cases full : frame.length = maxBufferSize
  · refine ⟨_, taken, rfl, by rw [if_pos full], rfl, rfl, rfl, ?_, directory⟩
    rw [served_skipped full]
    exact (List.append_nil _).symm
  · rw [if_neg full] at taken
    have handled := taken.extend (.step 0) trivial (frame_handled
      ⟨true, .inside (.loop sink.handle (.handle () frame)), waiting, files, 1, lines, all⟩ rfl 0)
    refine ⟨_, handled, rfl, rfl, rfl, rfl, rfl, ?_, ?_⟩
    · rw [List.map_append, effect_served full 0]
      rfl
    · rw [List.foldl_append, ← directory]
      rfl

/-- All frames of a front of the queue are handled. -/
theorem Head.front {requests : List Request} (front : List (List Byte))
    {waiting : List (List Byte)} {state : State}
    (head : Head sink before requests (front ++ waiting) [] state)
    (bounded : ∀ frame ∈ front, frame.length ≤ maxBufferSize)
    (nonempty : ∀ frame ∈ front, frame ≠ [])
    (reached : (system lua configuration queue sink before).Reaches
      (Messages lua configuration queue holds) state) :
    ∃ after, (system lua configuration queue sink before).Reaches
        (Messages lua configuration queue holds) after ∧
      Head sink before requests waiting (front.filterMap OutputThread.served) after := by
  induction front using List.reverseRecOn generalizing waiting with
  | nil => exact ⟨state, reached, head⟩
  | append_singleton front frame inductionHypothesis =>
    rw [List.append_assoc] at head
    obtain ⟨middle, between, standing⟩ := inductionHypothesis head
      (fun other listed => bounded other (List.mem_append_left _ listed))
      (fun other listed => nonempty other (List.mem_append_left _ listed))
    have last : frame ∈ front ++ [frame] := List.mem_append_right _ List.mem_cons_self
    obtain ⟨after, later, served⟩ := standing.served (bounded frame last) (nonempty frame last)
      between
    refine ⟨after, later, ?_⟩
    rw [List.filterMap_append]
    cases answer : OutputThread.served frame <;> simpa [answer] using served

/-- Any calls can be made before the thread takes its first step: what they deliver then waits
in the queue. -/
theorem calls_queued (sink : Sink) (before : Directory) (calls : List (List Value))
    (admitted : ∀ message ∈ calls.filterMap (delivered lua configuration queue), holds message) :
    (system lua configuration queue sink before).Reaches
      (Messages lua configuration queue holds)
      { initial before with
        queue := (calls.filterMap (delivered lua configuration queue)).map fun message =>
          (Request.data message).frame
        requests := (calls.filterMap (delivered lua configuration queue)).map .data } := by
  induction calls using List.reverseRecOn with
  | nil => exact .initial rfl
  | append_singleton calls arguments inductionHypothesis =>
    rw [List.filterMap_append] at admitted ⊢
    have reached := inductionHypothesis fun message listed =>
      admitted message (List.mem_append_left _ listed)
    cases put : delivered lua configuration queue arguments with
    | none =>
      simpa only [List.filterMap_cons, put, List.filterMap_nil, List.append_nil] using reached
    | some message =>
      refine reached.extend (.outputEvent arguments) ?_ ?_
      · intro other same
        apply admitted
        apply List.mem_append_right
        simp [same]
      · simp [system, State.put, put]

/-- The messages of these calls wait for the thread at the head of its loop. -/
theorem calls_wait (sink : Sink) (before : Directory) (calls : List (List Value))
    (admitted : ∀ message ∈ calls.filterMap (delivered lua configuration queue), holds message) :
    ∃ state, (system lua configuration queue sink before).Reaches
        (Messages lua configuration queue holds) state ∧
      Head sink before ((calls.filterMap (delivered lua configuration queue)).map .data)
        ((calls.filterMap (delivered lua configuration queue)).map fun message =>
          (Request.data message).frame) [] state := by
  have reached := calls_queued sink before calls admitted
  have opening := reached.extend (.step 0) trivial rfl
  have opened := opening.extend (.step 0) trivial (by
    simp only [system, step, luaOutputThread, State.perform, file_open_sink]
    rfl)
  exact ⟨_, opened, rfl, rfl, rfl, rfl, rfl, rfl, rfl⟩

end Runs

/-- One user output, with tag `"a"`, behind the two internal ones. -/
def exampleConfiguration : Configuration :=
  ⟨[], [{ logOutput with queue := some (.output 0) },
    { statsOutput with queue := some (.output 1) },
    ⟨some (bytesOf "a"), some (bytesOf "file:///e.log"), some (.output 2)⟩, .unset]⟩

/-- The sink of the example, with the file `/e.log`. -/
def exampleSink : Sink := ⟨[], bytesOf "/e.log", utc, by decide⟩

/-- A message for the output is handled from the start. -/
theorem one_message_handled (bytes : { bytes : List Byte // bytes.length < 32 })
    (nonempty : bytes.val ≠ []) {holds : List Byte → Prop} (admitted : holds bytes.val) :
    ∃ state, (system Scalars.scalars exampleConfiguration (.output 2) exampleSink
        fun _ => none).Reaches (Messages Scalars.scalars exampleConfiguration (.output 2) holds)
          state ∧
      Head exampleSink (fun _ => none) [.data bytes.val] []
        (OutputThread.served bytes.val).toList state := by
  have put : [[Scalars.letterA, .string bytes]].filterMap
      (delivered Scalars.scalars exampleConfiguration (.output 2)) = [bytes.val] := rfl
  have short : bytes.val.length ≤ maxBufferSize := Nat.le_trans (Nat.le_of_lt bytes.2) (by decide)
  have frame : (Request.data bytes.val).frame = bytes.val := List.take_of_length_le short
  have all : ∀ message ∈ [[Scalars.letterA, .string bytes]].filterMap
      (delivered Scalars.scalars exampleConfiguration (.output 2)), holds message := by
    rw [put]
    simpa using admitted
  obtain ⟨state, reached, head⟩ := calls_wait exampleSink (fun _ => none)
    [[Scalars.letterA, .string bytes]] all
  rw [put] at head
  simp only [List.map_cons, List.map_nil, frame] at head
  exact head.served short nonempty reached

/-- The law at work for the message `"x"`: its line is written, and the thread is faithful to
the request. -/
theorem output_faithful_x :
    ∃ state, state.effects.map Effect.line = [some [120, newline]] ∧
      Faithful (system Scalars.scalars exampleConfiguration (.output 2) exampleSink fun _ => none)
        exampleSink (fun _ => none) state := by
  obtain ⟨state, reached, head⟩ := one_message_handled ⟨[120], by decide⟩ (by decide)
    (by decide : Plain [120])
  exact ⟨state, head.effects, output_faithful reached⟩

/-- A message with a zero byte inside is cut there, and `"+ROTATE+"` rotates the file
and is not written. -/
theorem messages_not_faithful :
    ¬ ∃ message ∈ [[97, 0, 98], bytesOf "+ROTATE+"],
      ∀ state : State, (system Scalars.scalars exampleConfiguration (.output 2) exampleSink
          fun _ => none).Reaches (Messages Scalars.scalars exampleConfiguration (.output 2)
            fun sent => 0 < sent.length ∧ sent.length < maxBufferSize) state →
        state.running = true → state.queue = [] →
        state.thread = .inside (.loop exampleSink.handle (.test ())) →
        state.requests = [.data message] →
        state.effects.map Effect.line = state.requests.map Request.line := by
  have examples : ∀ message ∈ [[97, 0, 98], bytesOf "+ROTATE+"], message.length < 32 ∧
      message ≠ [] ∧ (0 < message.length ∧ message.length < maxBufferSize) ∧
      (OutputThread.served message).toList ≠ [Request.line (.data message)] := by decide
  rintro ⟨message, listed, claimed⟩
  obtain ⟨short, nonempty, sized, different⟩ := examples message listed
  obtain ⟨state, reached, head⟩ : ∃ state, (system Scalars.scalars exampleConfiguration (.output 2)
      exampleSink fun _ => none).Reaches (Messages Scalars.scalars exampleConfiguration (.output 2)
        fun sent => 0 < sent.length ∧ sent.length < maxBufferSize) state ∧
      Head exampleSink (fun _ => none) [.data message] []
        (OutputThread.served message).toList state :=
    one_message_handled ⟨message, short⟩ nonempty sized
  have lines := claimed state reached head.running head.queue head.thread head.requests
  rw [head.effects, head.requests] at lines
  exact different lines

end Dragonfly.OutputThread
