import Dragonfly.ConfigurationSize
import Dragonfly.Timers

/-!
# Scans that end at an empty place

The lists of the configuration, the timers and the threads are arrays of fixed size.
`timer_event`, `lua_timer_thread`, `analyze_event`, `output_event` and
`signal_log_rotate` scan them for a missing tag; `destroy_message_queues` and
`launch_analyzer_process` for a missing queue; both and `shutdown_threads` for a thread
that is zero. A scan is inside its array if some place ends it.

The engine goes from the start of `startup_threads` to the end of `shutdown_threads`;
the analyzer process begins as a copy of it. Each round of a loop is a step once a
second thread or process is there. What the scripts, the timers and the signals change
is not what a scan looks for.
-/

namespace Dragonfly.Scans

open Config Timers

/-- What `initialize_configuration` leaves in the lists: those that are searched for tags, and
that of the inputs. -/
structure Lists where
  configuration : Configuration
  inputs : List InputConfig

/-- The part of `initialize_configuration` that loads all lists, in its order, and ends the
process where one of them cannot be loaded. -/
def initializeLists (isRegular : List Byte → Bool) (analyzerDir filterDir : List Byte)
    (inputs analyzers outputs responders : Option (List Entry)) : Except LoadError Lists := do
  let configuration ← initializeConfiguration isRegular analyzerDir analyzers outputs
  let (numInputs, inputList) ← loadInputsConfig isRegular filterDir inputs
    (List.replicate maxInputStreams .unset) maxInputStreams
  if numInputs = 0 then throw (.noEntries "load_input_config failed")
  let _ ← loadResponderConfig responders (List.replicate maxResponderCommands .unset)
    maxResponderCommands
  return ⟨configuration, inputList⟩

/-- The arrays of a process. A thread that is zero was not created. -/
structure Memory where
  inputs : List InputConfig
  configuration : Configuration
  timers : List MleTimer
  ioThreads : List Nat
  analyzerThreads : List Nat

/-- The three lists whose entries have queues, which the loops at shutdown go through. -/
inductive Table where
  | inputs
  | analyzers
  | outputs

/-- The number of places of a list, as its array is declared. -/
def Table.size : Table → Nat
  | .inputs => maxInputStreams
  | .analyzers => maxAnalyzerStreams
  | .outputs => maxOutputStreams

/-- The queue at a place of a list, if the place is one of the list; the queue itself may be
`NULL`. -/
def Memory.queueAt (memory : Memory) (index : Nat) : Table → Option (Option Queue)
  | .inputs => (memory.inputs[index]?).map InputConfig.queue
  | .analyzers => (memory.configuration.analyzers[index]?).map AnalyzerConfig.queue
  | .outputs => (memory.configuration.outputs[index]?).map OutputConfig.queue

/-- Change the entry at a place of a list by the function for entries of this list. -/
def Memory.modify (memory : Memory) (index : Nat) (input : InputConfig → InputConfig)
    (analyzer : AnalyzerConfig → AnalyzerConfig) (output : OutputConfig → OutputConfig) :
    Table → Memory
  | .inputs => { memory with inputs := memory.inputs.modify index input }
  | .analyzers => { memory with configuration := { memory.configuration with
      analyzers := memory.configuration.analyzers.modify index analyzer } }
  | .outputs => { memory with configuration := { memory.configuration with
      outputs := memory.configuration.outputs.modify index output } }

/-- Set the queue at a place of a list to `NULL`, as destroying it does. -/
def Memory.clearQueue (memory : Memory) (index : Nat) (table : Table) : Memory :=
  memory.modify index (fun input => { input with queue := none })
    (fun analyzer => { analyzer with queue := none })
    (fun output => { output with queue := none }) table

/-- The body of the loops of `unload_inputs_config`, `unload_analyzers_config` and
`unload_outputs_config`. -/
def Memory.unload (memory : Memory) (index : Nat) (table : Table) : Memory :=
  memory.modify index
    (fun input => if input.tag.isSome then
      { input with tag := none, uri := none, script := none } else input)
    (fun analyzer => if analyzer.tag.isSome then
      { analyzer with tag := none, script := none } else analyzer)
    (fun output => if output.tag.isSome then
      { output with tag := none, uri := none } else output) table

/-- The function `create_message_queues` on the arrays: inputs, analyzers and outputs get their
queues. -/
def Memory.createQueues (memory : Memory) : Memory :=
  { memory with
    inputs := createInputQueues memory.inputs
    configuration := createMessageQueues memory.configuration }

/-- The `memset` calls of `destroy_configuration`, which make all entries of the lists and all
threads of the engine zero. -/
def Memory.clear (memory : Memory) : Memory :=
  { memory with
    inputs := List.replicate maxInputStreams .unset
    configuration := ⟨List.replicate maxAnalyzerStreams .unset,
      List.replicate maxOutputStreams .unset⟩
    ioThreads := List.replicate (maxInputStreams * 2 + maxOutputStreams) 0 }

/-- Where the main thread of the engine is, from `startup_threads` to the end of
`shutdown_threads`, with the index of its loop and the next place for a thread. -/
inductive EnginePoint where
  | createQueues
  | timers
  | fork
  | inputThreads (index n : Nat)
  | flywheelThreads (index n : Nat)
  | outputThreads (index n : Nat)
  | running
  | joining (n : Nat)
  | cancel (table : Table) (index : Nat)
  | destroy (table : Table) (index : Nat)
  | unload (table : Table) (index : Nat)
  | clear
  | ended

/-- Where the main thread of the analyzer process is in `launch_analyzer_process`. -/
inductive AnalyzerPoint where
  | analyzerThreads (index n : Nat)
  | timerThread (n : Nat)
  | descriptions (index : Nat)
  | running
  | joining (n : Nat)
  | cancel (index : Nat)
  | destroy (index : Nat)
  | exited

/-- The arrays of each process, which the analyzer process has copied, and where the main
threads stand. -/
structure State where
  engine : Memory
  point : EnginePoint
  analyzer : Option (Memory × AnalyzerPoint)

/-- A call of `pthread_create` stores the thread at the next place; one past the array is
undefined. -/
def createThread (threads : List Nat) (n thread : Nat) : Option (List Nat) :=
  if thread ≠ 0 ∧ n < threads.length then some (threads.set n thread) else none

/-- A round of a loop that creates a thread for each queue of a list. -/
def stepThreads (memory : Memory) (threads : List Nat) (table : Table) (index n thread : Nat) :
    Option (List Nat × Nat) :=
  match memory.queueAt index table with
  | none => none
  | some none => some (threads, n)
  | some (some _) => (createThread threads n thread).map fun created => (created, n + 1)

/-- Where the loops over the lists go on in `destroy_message_queues`. -/
def Table.nextCancel : Table → EnginePoint
  | .inputs => .cancel .analyzers 0
  | .analyzers => .cancel .outputs 0
  | .outputs => .destroy .inputs 0

/-- Where the loops that destroy the queues go on behind a list: with the next list, or with
unloading. -/
def Table.nextDestroy : Table → EnginePoint
  | .inputs => .destroy .analyzers 0
  | .analyzers => .destroy .outputs 0
  | .outputs => .unload .inputs 0

/-- Where the loops of `destroy_configuration` that unload the lists go on behind a list. -/
def Table.nextUnload : Table → EnginePoint
  | .inputs => .unload .outputs 0
  | .outputs => .unload .analyzers 0
  | .analyzers => .clear

/-- Move the main thread of the engine to another point, with all arrays as they are. -/
def State.goto (state : State) (point : EnginePoint) : State := { state with point := point }

/-- Change the arrays of the engine, with its main thread where it is. -/
def State.withEngine (state : State) (engine : Memory) : State := { state with engine := engine }

/-- A step of the main thread of the engine. A loop that leaves its array is undefined. -/
def stepEngine (state : State) (thread : Nat) : Option State :=
  match state.point with
  | .createQueues => some ((state.withEngine state.engine.createQueues).goto .timers)
  | .timers =>
      some ((state.withEngine { state.engine with
        timers := startupTimers state.engine.configuration }).goto .fork)
  | .fork => some { state with
      point := .inputThreads 0 0
      analyzer := some (state.engine, .analyzerThreads 0 0) }
  | .inputThreads index n =>
      if index < maxInputStreams then
        (stepThreads state.engine state.engine.ioThreads .inputs index n thread).map
          fun (threads, next) =>
            (state.withEngine { state.engine with ioThreads := threads }).goto
              (.inputThreads (index + 1) next)
      else some (state.goto (.flywheelThreads 0 n))
  | .flywheelThreads index n =>
      if index < maxInputStreams then
        (stepThreads state.engine state.engine.ioThreads .inputs index n thread).map
          fun (threads, next) =>
            (state.withEngine { state.engine with ioThreads := threads }).goto
              (.flywheelThreads (index + 1) next)
      else some (state.goto (.outputThreads 0 n))
  | .outputThreads index n =>
      if index < maxOutputStreams then
        (stepThreads state.engine state.engine.ioThreads .outputs index n thread).map
          fun (threads, next) =>
            (state.withEngine { state.engine with ioThreads := threads }).goto
              (.outputThreads (index + 1) next)
      else some (state.goto .running)
  | .running => some (state.goto (.joining 0))
  | .joining n =>
      match state.engine.ioThreads[n]? with
      | none => none
      | some 0 => some (state.goto (.cancel .inputs 0))
      | some _ => some (state.goto (.joining (n + 1)))
  | .cancel table index =>
      match state.engine.queueAt index table with
      | none => none
      | some none => some (state.goto table.nextCancel)
      | some (some _) => some (state.goto (.cancel table (index + 1)))
  | .destroy table index =>
      match state.engine.queueAt index table with
      | none => none
      | some none => some (state.goto table.nextDestroy)
      | some (some _) =>
          some ((state.withEngine (state.engine.clearQueue index table)).goto
            (.destroy table (index + 1)))
  | .unload table index =>
      if index < table.size then
        some ((state.withEngine (state.engine.unload index table)).goto
          (.unload table (index + 1)))
      else some (state.goto table.nextUnload)
  | .clear => some ((state.withEngine state.engine.clear).goto .ended)
  | .ended => none

/-- A step of the main thread of the analyzer process. -/
def stepAnalyzer (memory : Memory) (point : AnalyzerPoint) (thread : Nat) :
    Option (Memory × AnalyzerPoint) :=
  match point with
  | .analyzerThreads index n =>
      if index < maxAnalyzerStreams then
        (stepThreads memory memory.analyzerThreads .analyzers index n thread).map
          fun (threads, next) =>
            ({ memory with analyzerThreads := threads }, .analyzerThreads (index + 1) next)
      else some (memory, .timerThread n)
  | .timerThread n =>
      (createThread memory.analyzerThreads n thread).map fun threads =>
        ({ memory with analyzerThreads := threads }, .descriptions 0)
  | .descriptions index =>
      match memory.queueAt index .analyzers with
      | none => none
      | some none => some (memory, .running)
      | some (some _) => some (memory, .descriptions (index + 1))
  | .running => some (memory, .joining 0)
  | .joining n =>
      match memory.analyzerThreads[n]? with
      | none => none
      | some 0 => some (memory, .cancel 0)
      | some _ => some (memory, .joining (n + 1))
  | .cancel index =>
      match memory.queueAt index .analyzers with
      | none => none
      | some none => some (memory, .destroy 0)
      | some (some _) => some (memory, .cancel (index + 1))
  | .destroy index =>
      match memory.queueAt index .analyzers with
      | none => none
      | some none => some (memory, .exited)
      | some (some _) => some (memory.clearQueue index .analyzers, .destroy (index + 1))
  | .exited => none

/-- A step of one of the main threads, with the thread it creates. -/
inductive Label where
  | engine (thread : Nat)
  | analyzer (thread : Nat)

/-- The arrays as they are when `startup_threads` begins: loaded lists, empty timers and no
threads. -/
def Lists.memory (lists : Lists) : Memory where
  inputs := lists.inputs
  configuration := lists.configuration
  timers := List.replicate maxAnalyzerStreams .unset
  ioThreads := List.replicate (maxInputStreams * 2 + maxOutputStreams) 0
  analyzerThreads := List.replicate (maxAnalyzerStreams + 1) 0

/-- The runs of the two processes, from the start of the threads to the end of the shutdown. -/
def system (lists : Lists) : System State Label where
  start state := state = ⟨lists.memory, .createQueues, none⟩
  next
    | state, .engine thread => stepEngine state thread
    | state, .analyzer thread =>
        (state.analyzer.bind fun (memory, point) => stepAnalyzer memory point thread).map
          fun after => { state with analyzer := some after }

/-! ## The scans -/

/-- Where a scan from a place stops, if it stops inside the array. -/
def scan {Cell : Type} (stops : Cell → Bool) (start : Nat) (cells : List Cell) : Option Nat :=
  ((cells.drop start).findIdx? stops).map fun steps => start + steps

/-- The tag of an entry is the name when the case of letters is ignored, which stops a search
for it. -/
def named (name : List Byte) (tag : Option (List Byte)) : Bool :=
  tag.any fun tag => strcasecmp name tag = 0

/-- Every scan of the arrays of a process stops inside its array: those of the calls of
a script with any name, of a sweep, of the signal handler, and of the loops over queues
and threads. -/
structure ScansInside (memory : Memory) : Prop where
  timerEvent : ∀ name, (scan (fun (place : MleTimer × AnalyzerConfig) =>
    place.1.tag.isNone || named name place.2.tag) 0
      (memory.timers.zip memory.configuration.analyzers)).isSome
  luaTimerThread : (scan (fun timer : MleTimer => timer.tag.isNone) 0 memory.timers).isSome
  analyzeEvent : ∀ name, (scan (fun analyzer : AnalyzerConfig =>
    analyzer.tag.isNone || named name analyzer.tag) 0 memory.configuration.analyzers).isSome
  outputEvent : ∀ name, (scan (fun output : OutputConfig =>
    output.tag.isNone || named name output.tag) 2 memory.configuration.outputs).isSome
  signalLogRotate : (scan (fun output : OutputConfig => output.tag.isNone) 0
    memory.configuration.outputs).isSome
  inputQueues : (scan (fun input : InputConfig => input.queue.isNone) 0 memory.inputs).isSome
  analyzerQueues : (scan (fun analyzer : AnalyzerConfig => analyzer.queue.isNone) 0
    memory.configuration.analyzers).isSome
  outputQueues : (scan (fun output : OutputConfig => output.queue.isNone) 0
    memory.configuration.outputs).isSome
  ioThreads : (scan (fun thread : Nat => thread = 0) 0 memory.ioThreads).isSome
  analyzerThreads : (scan (fun thread : Nat => thread = 0) 0 memory.analyzerThreads).isSome

/-- The loop the engine is in looks at a place inside its array. -/
def EnginePoint.Inside (memory : Memory) : EnginePoint → Prop
  | .joining n => n < memory.ioThreads.length
  | .cancel table index | .destroy table index => (memory.queueAt index table).isSome
  | _ => True

/-- Where the loops of the analyzer process stand, the places they look at are places of their
arrays. -/
def AnalyzerPoint.Inside (memory : Memory) : AnalyzerPoint → Prop
  | .joining n => n < memory.analyzerThreads.length
  | .descriptions index | .cancel index | .destroy index =>
      (memory.queueAt index .analyzers).isSome
  | _ => True

/-- In a state all scans are inside: those that begin and those that are under way. -/
structure Inside (state : State) : Prop where
  engine : ScansInside state.engine
  engineLoop : state.point.Inside state.engine
  analyzer : ∀ memory point, state.analyzer = some (memory, point) →
    ScansInside memory ∧ point.Inside memory

/-- A scan stops inside the array if a place behind its start ends it. -/
theorem scan_stops {Cell : Type} {stops : Cell → Bool} {start index : Nat} {cells : List Cell}
    {cell : Cell} (behind : start ≤ index) (stored : cells[index]? = some cell)
    (ends : stops cell) : (scan stops start cells).isSome := by
  rw [scan, Option.isSome_map, List.findIdx?_isSome, List.any_eq_true]
  refine ⟨cell, ?_, ends⟩
  apply List.mem_of_getElem? (i := index - start)
  rw [List.getElem?_drop, Nat.add_sub_cancel' behind, stored]

/-- A scan that no place of the array ends leaves the array behind its last place. -/
theorem scan_leaves {Cell : Type} {stops : Cell → Bool} {cells : List Cell}
    (goes : ∀ cell ∈ cells, stops cell = false) : ¬ (scan stops 0 cells).isSome := by
  rw [scan, Option.isSome_map, List.findIdx?_isSome, List.any_eq_true]
  rintro ⟨cell, listed, ends⟩
  rw [goes cell (List.mem_of_mem_drop listed)] at ends
  cases ends

/-! ## Arrays with a free place -/

/-- The last place of each list is empty, and so is the last timer. -/
structure Vacant (memory : Memory) : Prop where
  inputs : memory.inputs[maxInputStreams - 1]? = some .unset
  analyzers : memory.configuration.analyzers[maxAnalyzerStreams - 1]? = some .unset
  outputs : memory.configuration.outputs[maxOutputStreams - 1]? = some .unset
  timers : memory.timers[maxAnalyzerStreams - 1]? = some .unset

/-- No thread was created at a place or behind it. -/
def Free (threads : List Nat) (n : Nat) : Prop :=
  ∀ position, n ≤ position → position < threads.length → threads[position]? = some 0

/-- The threads of the engine when all inputs and outputs but one are configured. -/
def engineThreads : Nat := 2 * (maxInputStreams - 1) + (maxOutputStreams - 1)

/-- Where the arrays have their empty places, every scan of them stops inside, at the latest at
the empty place. -/
theorem Vacant.inside {memory : Memory} (vacant : Vacant memory) {created started : Nat}
    (io : memory.ioThreads.length = maxInputStreams * 2 + maxOutputStreams)
    (ioFree : Free memory.ioThreads created) (fewer : created ≤ engineThreads)
    (analyzers : memory.analyzerThreads.length = maxAnalyzerStreams + 1)
    (analyzersFree : Free memory.analyzerThreads started) (less : started ≤ maxAnalyzerStreams) :
    ScansInside memory := by
  have place : (memory.timers.zip memory.configuration.analyzers)[maxAnalyzerStreams - 1]? =
      some (.unset, .unset) := by
    rw [List.getElem?_zip_eq_some]
    exact ⟨vacant.timers, vacant.analyzers⟩
  have few : engineThreads < memory.ioThreads.length := by
    rw [io]
    decide
  have last : maxAnalyzerStreams < memory.analyzerThreads.length := by
    rw [analyzers]
    decide
  constructor
  · intro name
    exact scan_stops (Nat.zero_le _) place rfl
  · exact scan_stops (Nat.zero_le _) vacant.timers rfl
  · intro name
    exact scan_stops (Nat.zero_le _) vacant.analyzers rfl
  · intro name
    exact scan_stops (by decide) vacant.outputs rfl
  · exact scan_stops (Nat.zero_le _) vacant.outputs rfl
  · exact scan_stops (Nat.zero_le _) vacant.inputs rfl
  · exact scan_stops (Nat.zero_le _) vacant.analyzers rfl
  · exact scan_stops (Nat.zero_le _) vacant.outputs rfl
  · exact scan_stops (Nat.zero_le _) (ioFree engineThreads fewer few) rfl
  · exact scan_stops (Nat.zero_le _) (analyzersFree maxAnalyzerStreams less last) rfl

/-- The last place of each list has no queue, because none was ever loaded there. -/
theorem Vacant.queue {memory : Memory} (vacant : Vacant memory) (table : Table) :
    memory.queueAt (table.size - 1) table = some none := by
  cases table with
  | inputs => simp [Memory.queueAt, Table.size, vacant.inputs, InputConfig.unset]
  | analyzers => simp [Memory.queueAt, Table.size, vacant.analyzers, AnalyzerConfig.unset]
  | outputs => simp [Memory.queueAt, Table.size, vacant.outputs, OutputConfig.unset]

/-- Every place of a list up to its last one is inside, so a loop that stops there at the latest
looks at nothing else. -/
theorem Vacant.queue_inside {memory : Memory} (vacant : Vacant memory) (table : Table)
    {index : Nat} (bounded : index ≤ table.size - 1) :
    (memory.queueAt index table).isSome := by
  have within {Cell : Type} {cells : List Cell} {unset : Cell} {place : Nat}
      (stored : cells[place]? = some unset) (before : index ≤ place) : (cells[index]?).isSome := by
    have last := (List.getElem?_eq_some_iff.mp stored).1
    rw [List.getElem?_eq_getElem (Nat.lt_of_le_of_lt before last)]
    rfl
  cases table with
  | inputs => exact Option.isSome_map.trans (within vacant.inputs bounded)
  | analyzers => exact Option.isSome_map.trans (within vacant.analyzers bounded)
  | outputs => exact Option.isSome_map.trans (within vacant.outputs bounded)

/-- A place with a queue is not the last one. -/
theorem Vacant.queue_before {memory : Memory} (vacant : Vacant memory) {table : Table}
    {index : Nat} {queue : Queue} (stored : memory.queueAt index table = some (some queue))
    (bounded : index ≤ table.size - 1) : index + 1 ≤ table.size - 1 := by
  apply Nat.lt_of_le_of_ne bounded
  rintro rfl
  rw [vacant.queue] at stored
  cases stored

/-- A change that leaves empty places empty keeps the free places. -/
theorem Vacant.modify {memory : Memory} (vacant : Vacant memory) (index : Nat)
    {input : InputConfig → InputConfig} {analyzer : AnalyzerConfig → AnalyzerConfig}
    {output : OutputConfig → OutputConfig} (inputUnset : input .unset = .unset)
    (analyzerUnset : analyzer .unset = .unset) (outputUnset : output .unset = .unset)
    (table : Table) : Vacant (memory.modify index input analyzer output table) := by
  have kept {Cell : Type} {cells : List Cell} {unset : Cell} {change : Cell → Cell} {place : Nat}
      (stored : cells[place]? = some unset) (same : change unset = unset) :
      (cells.modify index change)[place]? = some unset := by
    rw [List.getElem?_modify, stored]
    by_cases here : index = place <;> simp [here, same]
  cases table with
  | inputs => exact { vacant with inputs := kept vacant.inputs inputUnset }
  | analyzers => exact { vacant with analyzers := kept vacant.analyzers analyzerUnset }
  | outputs => exact { vacant with outputs := kept vacant.outputs outputUnset }

/-- Creating the queues fills no place that was free, so the free places are free behind it. -/
theorem Vacant.createQueues {memory : Memory} (vacant : Vacant memory) :
    Vacant memory.createQueues := by
  constructor
  · simp [Memory.createQueues, createInputQueues, vacant.inputs, InputConfig.unset]
  · simp [Memory.createQueues, createMessageQueues, vacant.analyzers, AnalyzerConfig.unset]
  · simp [Memory.createQueues, createMessageQueues, vacant.outputs, OutputConfig.unset]
  · exact vacant.timers

/-- Filling the timers leaves the last one of them empty, because there is no analyzer for it. -/
theorem Vacant.startup {memory : Memory} (vacant : Vacant memory) :
    Vacant { memory with timers := startupTimers memory.configuration } := by
  refine { vacant with timers := ?_ }
  simp only [maxAnalyzerStreams] at *
  have stored := vacant.analyzers
  simp only [maxAnalyzerStreams, Nat.reduceSub] at stored
  simp [startupTimers, stored, AnalyzerConfig.unset, maxAnalyzerStreams]

/-! ## Creating threads -/

/-- Creating a thread at the next place leaves the places behind it free. -/
theorem create_thread_free {threads created : List Nat} {n thread : Nat}
    (free : Free threads n) (made : createThread threads n thread = some created) :
    created.length = threads.length ∧ Free created (n + 1) := by
  unfold createThread at made
  split at made
  · cases made
    refine ⟨List.length_set, ?_⟩
    intro position behind inside
    rw [List.length_set] at inside
    rw [List.getElem?_set_ne (by omega)]
    exact free position (by omega) inside
  · cases made

/-- A round of a creating loop creates a thread if the place has a queue. -/
theorem step_threads_free {memory : Memory} {threads created : List Nat} {table : Table}
    {index n next thread : Nat} (vacant : Vacant memory) (bounded : index < table.size)
    (free : Free threads n)
    (made : stepThreads memory threads table index n thread = some (created, next)) :
    created.length = threads.length ∧ Free created next ∧
      (next = n ∨ (next = n + 1 ∧ index + 1 ≤ table.size - 1)) := by
  unfold stepThreads at made
  split at made
  · cases made
  · cases made
    exact ⟨rfl, free, .inl rfl⟩
  · rename_i queue stored
    obtain ⟨after, creating, made⟩ := Option.map_eq_some_iff.mp made
    cases made
    obtain ⟨length, behind⟩ := create_thread_free free creating
    exact ⟨length, behind, .inr ⟨rfl, vacant.queue_before stored (by omega)⟩⟩

/-- Where fewer threads were created there are more free places, so what is free behind more
threads is free behind fewer. -/
theorem Free.more {threads : List Nat} {n more : Nat} (free : Free threads n) (least : n ≤ more) :
    Free threads more :=
  fun position behind inside => free position (Nat.le_trans least behind) inside

/-- A joined thread is in front of the free places. -/
theorem Free.before {threads : List Nat} {n limit thread : Nat} (free : Free threads limit)
    (few : limit < threads.length) (bounded : n ≤ limit) (stored : threads[n]? = some thread)
    (created : thread ≠ 0) : n + 1 ≤ limit := by
  apply Nat.lt_of_le_of_ne bounded
  rintro rfl
  rw [free n (Nat.le_refl _) few] at stored
  cases stored
  contradiction

/-- How many threads the engine has created at the most when it stands at this point. -/
def EnginePoint.used : EnginePoint → Nat
  | .createQueues | .timers | .fork => 0
  | .inputThreads _ n | .flywheelThreads _ n | .outputThreads _ n => n
  | _ => engineThreads

/-- How far the loops of the engine are, measured by the threads they can have created. -/
def EnginePoint.Bounded : EnginePoint → Prop
  | .inputThreads index n => n ≤ index ∧ n ≤ maxInputStreams - 1
  | .flywheelThreads index n =>
      n ≤ (maxInputStreams - 1) + index ∧ n ≤ 2 * (maxInputStreams - 1)
  | .outputThreads index n => n ≤ 2 * (maxInputStreams - 1) + index ∧ n ≤ engineThreads
  | .joining n => n ≤ engineThreads
  | .cancel table index | .destroy table index => index ≤ table.size - 1
  | _ => True

/-- The arrays of the engine have their free places, as many as the point of its main thread
leaves. -/
structure EngineReady (memory : Memory) (point : EnginePoint) : Prop where
  vacant : Vacant memory
  io : memory.ioThreads.length = maxInputStreams * 2 + maxOutputStreams
  ioFree : Free memory.ioThreads point.used
  analyzers : memory.analyzerThreads.length = maxAnalyzerStreams + 1
  analyzersFree : Free memory.analyzerThreads 0
  bounded : point.Bounded

/-- How many threads the analyzer process has created at the most when it stands at this point. -/
def AnalyzerPoint.used : AnalyzerPoint → Nat
  | .analyzerThreads _ n | .timerThread n => n
  | _ => maxAnalyzerStreams

/-- How far the loops of the analyzer process are, measured by the threads they can have
created. -/
def AnalyzerPoint.Bounded : AnalyzerPoint → Prop
  | .analyzerThreads index n => n ≤ index ∧ n ≤ maxAnalyzerStreams - 1
  | .timerThread n => n ≤ maxAnalyzerStreams - 1
  | .joining n => n ≤ maxAnalyzerStreams
  | .descriptions index | .cancel index | .destroy index => index ≤ maxAnalyzerStreams - 1
  | _ => True

/-- The arrays of the analyzer process with their free places. -/
structure AnalyzerReady (memory : Memory) (point : AnalyzerPoint) : Prop where
  vacant : Vacant memory
  io : memory.ioThreads.length = maxInputStreams * 2 + maxOutputStreams
  ioFree : Free memory.ioThreads 0
  analyzers : memory.analyzerThreads.length = maxAnalyzerStreams + 1
  analyzersFree : Free memory.analyzerThreads point.used
  bounded : point.Bounded

/-- Both processes have their free places: the engine, and the analyzer process once it is
there. -/
structure Ready (state : State) : Prop where
  engine : EngineReady state.engine state.point
  analyzer : ∀ memory point, state.analyzer = some (memory, point) → AnalyzerReady memory point

/-- The engine never has more threads than there are places in front of the last one. -/
theorem EngineReady.fewer {memory : Memory} {point : EnginePoint}
    (ready : EngineReady memory point) : point.used ≤ engineThreads := by
  have bounded := ready.bounded
  cases point <;> simp only [EnginePoint.used, EnginePoint.Bounded, engineThreads,
    maxInputStreams, maxOutputStreams] at * <;> omega

/-- Where both processes have their free places, all scans of their arrays stop inside. -/
theorem Ready.inside {state : State} (ready : Ready state) : Inside state := by
  have engine := ready.engine
  constructor
  · exact engine.vacant.inside engine.io engine.ioFree engine.fewer engine.analyzers
      engine.analyzersFree (Nat.zero_le _)
  · have bounded := engine.bounded
    cases here : state.point <;> rw [here] at bounded <;>
      simp only [EnginePoint.Bounded, EnginePoint.Inside] at bounded ⊢
    · rw [engine.io]
      exact Nat.lt_of_le_of_lt bounded (by decide)
    · exact engine.vacant.queue_inside _ bounded
    · exact engine.vacant.queue_inside _ bounded
  · intro memory point stored
    have analyzer := ready.analyzer memory point stored
    have bounded := analyzer.bounded
    have less : point.used ≤ maxAnalyzerStreams := by
      cases point <;> simp only [AnalyzerPoint.used, AnalyzerPoint.Bounded,
        maxAnalyzerStreams] at * <;> omega
    refine ⟨analyzer.vacant.inside analyzer.io analyzer.ioFree (Nat.zero_le _) analyzer.analyzers
      analyzer.analyzersFree less, ?_⟩
    cases point with
    | joining n =>
      rw [AnalyzerPoint.Inside, analyzer.analyzers]
      exact Nat.lt_succ_of_le bounded
    | descriptions index => exact analyzer.vacant.queue_inside .analyzers bounded
    | cancel index => exact analyzer.vacant.queue_inside .analyzers bounded
    | destroy index => exact analyzer.vacant.queue_inside .analyzers bounded
    | _ => trivial

/-! ## One step -/

/-- A step of the engine that does not touch the threads. -/
theorem EngineReady.move {memory after : Memory} {point next : EnginePoint}
    (ready : EngineReady memory point) (vacant : Vacant after)
    (io : after.ioThreads = memory.ioThreads)
    (analyzers : after.analyzerThreads = memory.analyzerThreads) (used : point.used ≤ next.used)
    (bounded : next.Bounded) : EngineReady after next := by
  constructor
  · exact vacant
  · rw [io]
    exact ready.io
  · rw [io]
    exact ready.ioFree.more used
  · rw [analyzers]
    exact ready.analyzers
  · rw [analyzers]
    exact ready.analyzersFree
  · exact bounded

/-- A round of a loop of the engine that creates threads leaves the free places that its next
point needs. -/
theorem EngineReady.create {memory : Memory} {point next : EnginePoint} {threads : List Nat}
    (ready : EngineReady memory point) (length : threads.length = memory.ioThreads.length)
    (free : Free threads next.used) (bounded : next.Bounded) :
    EngineReady { memory with ioThreads := threads } next := by
  obtain ⟨vacant, io, _, analyzers, analyzersFree, _⟩ := ready
  exact ⟨⟨vacant.inputs, vacant.analyzers, vacant.outputs, vacant.timers⟩, length.trans io, free,
    analyzers, analyzersFree, bounded⟩

/-- A round of a creating loop keeps the engine ready if the bounds of the next round
follow from those of this one. -/
theorem EngineReady.round {state after : State} {point : EnginePoint}
    (ready : EngineReady state.engine point) {table : Table} {index thread : Nat}
    (inside : index < table.size) {onward : Nat → EnginePoint}
    (used : ∀ next, (onward next).used = next)
    (bounded : ∀ next, next = point.used ∨ (next = point.used + 1 ∧ index + 1 ≤ table.size - 1) →
      (onward next).Bounded)
    (moved : (stepThreads state.engine state.engine.ioThreads table index point.used thread).map
      (fun (threads, next) =>
        (state.withEngine { state.engine with ioThreads := threads }).goto (onward next)) =
          some after) : EngineReady after.engine after.point := by
  obtain ⟨⟨threads, next⟩, made, moved⟩ := Option.map_eq_some_iff.mp moved
  cases moved
  obtain ⟨length, free, created⟩ := step_threads_free ready.vacant inside ready.ioFree made
  refine ready.create length ?_ (bounded next created)
  exact (used next).symm ▸ free

/-- Arrays that were emptied have free places, since all places are free then. -/
theorem EngineReady.clear {memory : Memory} {point : EnginePoint}
    (ready : EngineReady memory point) : EngineReady memory.clear .ended := by
  constructor
  · exact ⟨rfl, rfl, rfl, ready.vacant.timers⟩
  · exact List.length_replicate
  · intro position _ inside
    rw [Memory.clear, List.length_replicate] at inside
    rw [Memory.clear, List.getElem?_replicate, if_pos inside]
  · exact ready.analyzers
  · exact ready.analyzersFree
  · trivial

/-- The loop behind the last round of a loop at shutdown begins at the front of a list. -/
theorem table_after (table : Table) :
    (table.nextCancel.used = engineThreads ∧ table.nextCancel.Bounded) ∧
      (table.nextDestroy.used = engineThreads ∧ table.nextDestroy.Bounded) ∧
      (table.nextUnload.used = engineThreads ∧ table.nextUnload.Bounded) := by
  cases table with
  | inputs => exact ⟨⟨rfl, Nat.zero_le _⟩, ⟨rfl, Nat.zero_le _⟩, ⟨rfl, trivial⟩⟩
  | analyzers => exact ⟨⟨rfl, Nat.zero_le _⟩, ⟨rfl, Nat.zero_le _⟩, ⟨rfl, trivial⟩⟩
  | outputs => exact ⟨⟨rfl, Nat.zero_le _⟩, ⟨rfl, trivial⟩, ⟨rfl, trivial⟩⟩

/-- From one loop at shutdown to the next the free places stay the same. -/
theorem EngineReady.later {memory : Memory} {point next : EnginePoint}
    (ready : EngineReady memory point) (used : point.used = engineThreads)
    (after : next.used = engineThreads ∧ next.Bounded) : EngineReady memory next :=
  ready.move ready.vacant rfl rfl (Nat.le_of_eq (used.trans after.1.symm)) after.2

/-- A round of a loop at shutdown that changes an entry of a list. -/
theorem EngineReady.modify {memory : Memory} {point next : EnginePoint}
    (ready : EngineReady memory point) (index : Nat) {input : InputConfig → InputConfig}
    {analyzer : AnalyzerConfig → AnalyzerConfig} {output : OutputConfig → OutputConfig}
    (inputUnset : input .unset = .unset) (analyzerUnset : analyzer .unset = .unset)
    (outputUnset : output .unset = .unset) (table : Table) (used : point.used ≤ next.used)
    (bounded : next.Bounded) :
    EngineReady (memory.modify index input analyzer output table) next := by
  have vacant := ready.vacant.modify index inputUnset analyzerUnset outputUnset table
  cases table with
  | inputs => exact ready.move vacant rfl rfl used bounded
  | analyzers => exact ready.move vacant rfl rfl used bounded
  | outputs => exact ready.move vacant rfl rfl used bounded

/-- One step of the engine leaves it the free places that its next point needs. -/
theorem engine_step {state after : State} (ready : Ready state) {thread : Nat}
    (moved : stepEngine state thread = some after) : EngineReady after.engine after.point := by
  have engine := ready.engine
  have bounded := engine.bounded
  unfold stepEngine at moved
  split at moved <;> rename_i here <;> rw [here] at engine bounded
  · cases moved
    exact engine.move engine.vacant.createQueues rfl rfl (Nat.le_refl _) trivial
  · cases moved
    exact engine.move engine.vacant.startup rfl rfl (Nat.le_refl _) trivial
  · cases moved
    exact engine.move engine.vacant rfl rfl (Nat.le_refl _) ⟨Nat.le_refl _, Nat.zero_le _⟩
  · split at moved
    · rename_i index n inside
      refine engine.round inside (fun _ => rfl) ?_ moved
      intro next created
      simp only [EnginePoint.Bounded, EnginePoint.used, Table.size, maxInputStreams] at *
      omega
    · rename_i index n outside
      cases moved
      refine engine.move engine.vacant rfl rfl (Nat.le_refl _) ?_
      simp only [State.goto, EnginePoint.Bounded, maxInputStreams] at *
      omega
  · split at moved
    · rename_i index n inside
      refine engine.round inside (fun _ => rfl) ?_ moved
      intro next created
      simp only [EnginePoint.Bounded, EnginePoint.used, Table.size, maxInputStreams] at *
      omega
    · rename_i index n outside
      cases moved
      refine engine.move engine.vacant rfl rfl (Nat.le_refl _) ?_
      simp only [State.goto, EnginePoint.Bounded, engineThreads, maxInputStreams] at *
      omega
  · split at moved
    · rename_i index n inside
      refine engine.round inside (fun _ => rfl) ?_ moved
      intro next created
      simp only [EnginePoint.Bounded, EnginePoint.used, engineThreads, Table.size,
        maxInputStreams, maxOutputStreams] at *
      omega
    · cases moved
      exact engine.move engine.vacant rfl rfl bounded.2 trivial
  · cases moved
    exact engine.move engine.vacant rfl rfl (Nat.le_refl _) (Nat.zero_le _)
  · rename_i n
    split at moved
    · cases moved
    · cases moved
      exact engine.move engine.vacant rfl rfl (Nat.le_refl _) (Nat.zero_le _)
    · rename_i thread other stored
      cases moved
      have few : engineThreads < state.engine.ioThreads.length := by
        rw [engine.io]
        decide
      exact engine.move engine.vacant rfl rfl (Nat.le_refl _)
        (engine.ioFree.before few bounded stored other)
  · rename_i table index
    split at moved
    · cases moved
    · cases moved
      exact engine.later rfl (table_after table).1
    · rename_i queue stored
      cases moved
      exact engine.move engine.vacant rfl rfl (Nat.le_refl _)
        (engine.vacant.queue_before stored bounded)
  · rename_i table index
    split at moved
    · cases moved
    · cases moved
      exact engine.later rfl (table_after table).2.1
    · rename_i queue stored
      cases moved
      exact engine.modify index rfl rfl rfl table (Nat.le_refl _)
        (engine.vacant.queue_before stored bounded)
  · rename_i table index
    split at moved
    · cases moved
      exact engine.modify index rfl rfl rfl table (Nat.le_refl _) trivial
    · cases moved
      exact engine.later rfl (table_after table).2.2
  · cases moved
    exact engine.clear
  · cases moved

/-- A round of a creating loop leaves the analyzer process alone. -/
theorem round_analyzer {state after : State} {made : Option (List Nat × Nat)}
    {onward : Nat → EnginePoint}
    (moved : made.map (fun (threads, next) =>
      (state.withEngine { state.engine with ioThreads := threads }).goto (onward next)) =
        some after) : after.analyzer = state.analyzer := by
  obtain ⟨_, _, moved⟩ := Option.map_eq_some_iff.mp moved
  cases moved
  rfl

/-- A step of the engine begins the analyzer process as a copy, or leaves it alone. -/
theorem engine_step_analyzer {state after : State} {thread : Nat}
    (moved : stepEngine state thread = some after) :
    after.analyzer = state.analyzer ∨
      (state.point = .fork ∧ after.analyzer = some (state.engine, .analyzerThreads 0 0)) := by
  unfold stepEngine at moved
  split at moved <;> rename_i here
  · cases moved
    exact .inl rfl
  · cases moved
    exact .inl rfl
  · cases moved
    exact .inr ⟨here, rfl⟩
  · split at moved
    · exact .inl (round_analyzer moved)
    · cases moved
      exact .inl rfl
  · split at moved
    · exact .inl (round_analyzer moved)
    · cases moved
      exact .inl rfl
  · split at moved
    · exact .inl (round_analyzer moved)
    · cases moved
      exact .inl rfl
  · cases moved
    exact .inl rfl
  · split at moved <;> cases moved <;> exact .inl rfl
  · split at moved <;> cases moved <;> exact .inl rfl
  · split at moved <;> cases moved <;> exact .inl rfl
  · split at moved <;> cases moved <;> exact .inl rfl
  · cases moved
    exact .inl rfl
  · cases moved

/-- A step of the analyzer process that does not touch the threads. -/
theorem AnalyzerReady.move {memory after : Memory} {point next : AnalyzerPoint}
    (ready : AnalyzerReady memory point) (vacant : Vacant after)
    (io : after.ioThreads = memory.ioThreads)
    (analyzers : after.analyzerThreads = memory.analyzerThreads) (used : point.used ≤ next.used)
    (bounded : next.Bounded) : AnalyzerReady after next := by
  constructor
  · exact vacant
  · rw [io]
    exact ready.io
  · rw [io]
    exact ready.ioFree
  · rw [analyzers]
    exact ready.analyzers
  · rw [analyzers]
    exact ready.analyzersFree.more used
  · exact bounded

/-- A thread that the analyzer process creates takes one free place and leaves the others. -/
theorem AnalyzerReady.create {memory : Memory} {point next : AnalyzerPoint} {threads : List Nat}
    (ready : AnalyzerReady memory point)
    (length : threads.length = memory.analyzerThreads.length) (free : Free threads next.used)
    (bounded : next.Bounded) : AnalyzerReady { memory with analyzerThreads := threads } next := by
  obtain ⟨vacant, io, ioFree, analyzers, _, _⟩ := ready
  exact ⟨⟨vacant.inputs, vacant.analyzers, vacant.outputs, vacant.timers⟩, io, ioFree,
    length.trans analyzers, free, bounded⟩

/-- One step of the analyzer process leaves it the free places that its next point needs. -/
theorem analyzer_step {memory after : Memory} {point next : AnalyzerPoint}
    (ready : AnalyzerReady memory point) {thread : Nat}
    (moved : stepAnalyzer memory point thread = some (after, next)) : AnalyzerReady after next := by
  have bounded := ready.bounded
  unfold stepAnalyzer at moved
  split at moved
  · rename_i index n
    split at moved
    · rename_i inside
      obtain ⟨⟨threads, later⟩, made, moved⟩ := Option.map_eq_some_iff.mp moved
      cases moved
      obtain ⟨length, free, created⟩ :=
        step_threads_free ready.vacant inside ready.analyzersFree made
      refine ready.create length free ?_
      simp only [AnalyzerPoint.Bounded, AnalyzerPoint.used, Table.size, maxAnalyzerStreams] at *
      omega
    · cases moved
      exact ready.move ready.vacant rfl rfl (Nat.le_refl _) bounded.2
  · rename_i n
    obtain ⟨threads, made, moved⟩ := Option.map_eq_some_iff.mp moved
    cases moved
    obtain ⟨length, free⟩ := create_thread_free ready.analyzersFree made
    have fewer : n + 1 ≤ maxAnalyzerStreams :=
      Nat.succ_le_of_lt (Nat.lt_of_le_of_lt bounded (by decide))
    exact ready.create length (free.more fewer) (Nat.zero_le _)
  · rename_i index
    split at moved
    · cases moved
    · cases moved
      exact ready.move ready.vacant rfl rfl (Nat.le_refl _) trivial
    · rename_i queue stored
      cases moved
      exact ready.move ready.vacant rfl rfl (Nat.le_refl _)
        (ready.vacant.queue_before stored bounded)
  · cases moved
    exact ready.move ready.vacant rfl rfl (Nat.le_refl _) (Nat.zero_le _)
  · rename_i n
    split at moved
    · cases moved
    · cases moved
      exact ready.move ready.vacant rfl rfl (Nat.le_refl _) (Nat.zero_le _)
    · rename_i thread other stored
      cases moved
      have last : maxAnalyzerStreams < memory.analyzerThreads.length := by
        rw [ready.analyzers]
        decide
      exact ready.move ready.vacant rfl rfl (Nat.le_refl _)
        (ready.analyzersFree.before last bounded stored other)
  · rename_i index
    split at moved
    · cases moved
    · cases moved
      exact ready.move ready.vacant rfl rfl (Nat.le_refl _) (Nat.zero_le _)
    · rename_i queue stored
      cases moved
      exact ready.move ready.vacant rfl rfl (Nat.le_refl _)
        (ready.vacant.queue_before stored bounded)
  · rename_i index
    split at moved
    · cases moved
    · cases moved
      exact ready.move ready.vacant rfl rfl (Nat.le_refl _) trivial
    · rename_i queue stored
      cases moved
      exact ready.move (ready.vacant.modify index rfl rfl rfl .analyzers) rfl rfl (Nat.le_refl _)
        (ready.vacant.queue_before stored bounded)
  · cases moved

/-- One step of either process leaves both of them their free places. -/
theorem ready_step {lists : Lists} {state after : State} (ready : Ready state) {label : Label}
    (moved : (system lists).next state label = some after) : Ready after := by
  cases label with
  | engine thread =>
    refine ⟨engine_step ready moved, ?_⟩
    intro memory point stored
    rcases engine_step_analyzer moved with same | ⟨here, copied⟩
    · rw [same] at stored
      exact ready.analyzer memory point stored
    · rw [copied] at stored
      cases stored
      have engine := ready.engine
      rw [here] at engine
      exact ⟨engine.vacant, engine.io, engine.ioFree, engine.analyzers, engine.analyzersFree,
        Nat.le_refl _, Nat.zero_le _⟩
  | analyzer thread =>
    obtain ⟨⟨memory, point⟩, stepped, moved⟩ := Option.map_eq_some_iff.mp moved
    cases moved
    obtain ⟨⟨before, place⟩, stored, stepped⟩ := Option.bind_eq_some_iff.mp stepped
    refine ⟨ready.engine, ?_⟩
    rintro _ _ ⟨⟩
    exact analyzer_step (ready.analyzer before place stored) stepped

/-! ## Which configurations are safe -/

section Configurations

variable {isRegular : List Byte → Bool} {analyzerDir filterDir : List Byte}
  {inputs analyzers outputs responders : Option (List Entry)} {lists : Lists}

/-- If the start-up returns, all of its loaders have returned, and the lists are what they have
left. -/
theorem lists_loaded
    (initialized : initializeLists isRegular analyzerDir filterDir inputs analyzers outputs
      responders = .ok lists) :
    (∃ count, loadAnalyzersConfig isRegular analyzerDir analyzers
        (List.replicate maxAnalyzerStreams .unset) maxAnalyzerStreams =
          .ok (count, lists.configuration.analyzers)) ∧
      (∃ count, loadOutputsConfig outputs (List.replicate maxOutputStreams .unset)
        maxOutputStreams = .ok (count, lists.configuration.outputs) ∧ count ≠ 0) ∧
      ∃ count, loadInputsConfig isRegular filterDir inputs
        (List.replicate maxInputStreams .unset) maxInputStreams = .ok (count, lists.inputs) := by
  obtain ⟨configuration, configured, initialized⟩ := bind_returns initialized
  obtain ⟨⟨numInputs, inputList⟩, loadedInputs, initialized⟩ := bind_returns initialized
  simp only at initialized
  split at initialized
  · cases initialized
  · obtain ⟨loadedResponders, _, initialized⟩ := bind_returns initialized
    cases initialized
    obtain ⟨⟨numAnalyzers, analyzerList⟩, loadedAnalyzers, configured⟩ := bind_returns configured
    simp only at configured
    split at configured
    · cases configured
    · obtain ⟨⟨numOutputs, outputList⟩, loadedOutputs, configured⟩ := bind_returns configured
      simp only at configured
      split at configured
      · cases configured
      · rename_i someOutput
        cases configured
        exact ⟨⟨numAnalyzers, loadedAnalyzers⟩, ⟨numOutputs, loadedOutputs, someOutput⟩,
          numInputs, loadedInputs⟩

/-- The last place of the list of analyzers is never loaded, so it stays as `memset` left it. -/
theorem analyzers_vacant {count : Nat} {list : List AnalyzerConfig}
    (loaded : loadAnalyzersConfig isRegular analyzerDir analyzers
      (List.replicate maxAnalyzerStreams .unset) maxAnalyzerStreams = .ok (count, list)) :
    list[maxAnalyzerStreams - 1]? = some .unset := by
  cases analyzers with
  | none =>
    cases loaded
    rfl
  | some entries =>
    obtain ⟨_, counted, elsewhere, _⟩ := load_entries_places loaded
    rw [elsewhere (maxAnalyzerStreams - 1) (.inr (by omega))]
    rfl

/-- With fewer inputs and outputs than there are places the last places are empty. -/
theorem lists_ready
    (initialized : initializeLists isRegular analyzerDir filterDir inputs analyzers outputs
      responders = .ok lists)
    (fewInputs : (inputs.getD []).length < maxInputStreams)
    (fewOutputs : (outputs.getD []).length < maxOutputStreams - 2) :
    Ready ⟨lists.memory, .createQueues, none⟩ := by
  obtain ⟨⟨_, loadedAnalyzers⟩, ⟨_, loadedOutputs, _⟩, _, loadedInputs⟩ := lists_loaded initialized
  obtain ⟨inputsCounted, _, inputsVacant, _⟩ := load_inputs_front loadedInputs
  obtain ⟨outputsCounted, _, _, outputsVacant, _⟩ := load_outputs_front loadedOutputs
  have zeros (size : Nat) : Free (List.replicate size 0) 0 := by
    intro position _ inside
    rw [List.length_replicate] at inside
    rw [List.getElem?_replicate, if_pos inside]
  refine ⟨⟨⟨?_, analyzers_vacant loadedAnalyzers, ?_, rfl⟩, List.length_replicate, zeros _,
    List.length_replicate, zeros _, trivial⟩, fun _ _ stored => nomatch stored⟩
  · apply inputsVacant
    · omega
    · decide
  · apply outputsVacant
    · rw [outputsCounted]
      simp only [maxOutputStreams] at *
      split <;> omega
    · decide

/-- With all inputs configured no place of their list is without a queue once the queues
are created. -/
theorem full_inputs_left {count : Nat} {list : List InputConfig}
    (loaded : loadInputsConfig isRegular filterDir inputs (List.replicate maxInputStreams .unset)
      maxInputStreams = .ok (count, list))
    (full : maxInputStreams ≤ (inputs.getD []).length) :
    ¬ (scan (fun input : InputConfig => input.queue.isNone) 0 (createInputQueues list)).isSome := by
  obtain ⟨counted, length, _, front⟩ := load_inputs_front loaded
  apply scan_leaves
  intro input listed
  obtain ⟨position, inside, here⟩ := List.getElem_of_mem listed
  have before : position < list.length := by simpa [createInputQueues] using inside
  obtain ⟨stored, listedBefore, _, uri, _⟩ := front position (by omega)
  have queued : (createInputQueues list)[position]? = some input := by
    rw [List.getElem?_eq_getElem inside, here]
  simp only [createInputQueues, List.getElem?_mapIdx, listedBefore, Option.map_some, if_pos uri]
    at queued
  cases queued
  rfl

/-- With all outputs configured no place of their list is without a tag. -/
theorem full_outputs_left {count : Nat} {list : List OutputConfig}
    (loaded : loadOutputsConfig outputs (List.replicate maxOutputStreams .unset)
      maxOutputStreams = .ok (count, list)) (someOutput : count ≠ 0)
    (full : maxOutputStreams - 2 ≤ (outputs.getD []).length) :
    ¬ (scan (fun output : OutputConfig => output.tag.isNone) 0 list).isSome := by
  obtain ⟨counted, _, length, _, front⟩ := load_outputs_front loaded
  apply scan_leaves
  intro output listed
  obtain ⟨position, inside, here⟩ := List.getElem_of_mem listed
  have all : position < count := by
    rw [counted] at someOutput ⊢
    simp only [maxOutputStreams] at *
    split at someOutput
    · rename_i some
      rw [if_pos some]
      omega
    · exact absurd rfl someOutput
  obtain ⟨stored, listedBefore, tag, _⟩ := front position all
  have same : stored = output := by
    rw [List.getElem?_eq_getElem inside, here] at listedBefore
    exact (Option.some.inj listedBefore).symm
  rw [← same, Option.isNone_eq_false_iff, Option.isSome_iff_ne_none]
  exact tag

/-- From the start of `startup_threads` to the end of `shutdown_threads` all scans stay
inside their arrays exactly if fewer than eight inputs and fewer than four outputs are
configured, with any number of analyzers. -/
theorem scans_inside_iff
    (initialized : initializeLists isRegular analyzerDir filterDir inputs analyzers outputs
      responders = .ok lists) :
    (∀ state, (system lists).Reachable state → Inside state) ↔
      (inputs.getD []).length < maxInputStreams ∧
        (outputs.getD []).length < maxOutputStreams - 2 := by
  constructor
  · intro inside
    obtain ⟨_, ⟨numOutputs, loadedOutputs, someOutput⟩, numInputs, loadedInputs⟩ :=
      lists_loaded initialized
    have begins : (system lists).Reachable ⟨lists.memory, .createQueues, none⟩ := .initial rfl
    constructor
    · by_contra full
      have created : (system lists).Reachable ⟨lists.memory.createQueues, .timers, none⟩ :=
        begins.extend (.engine 0) trivial rfl
      exact full_inputs_left loadedInputs (Nat.le_of_not_lt full)
        (inside _ created).engine.inputQueues
    · by_contra full
      exact full_outputs_left loadedOutputs someOutput (Nat.le_of_not_lt full)
        (inside _ begins).engine.signalLogRotate
  · rintro ⟨fewInputs, fewOutputs⟩ state reached
    apply Ready.inside
    apply reached.invariant Ready
    · rintro state rfl
      exact lists_ready initialized fewInputs fewOutputs
    · intro before label after ready _ moved
      exact ready_step ready moved

end Configurations

/-- An entry for an input with this tag, which is the name of the file it follows as well. -/
def inputEntry (tag : String) : Entry :=
  entryOf [("tag", tag), ("uri", "tail:///" ++ tag), ("script", "script.lua"),
    ("default_analyzer", "")]

/-- The law at work for an input, an analyzer and an output: all scans of all their states stop
inside. -/
theorem scans_inside_one : ∃ lists,
    initializeLists (fun _ => true) (bytesOf "/analyzer") (bytesOf "/filter")
        (some [inputEntry "i"]) (some [analyzerEntry "a"]) (some [outputEntry "o"]) none =
      .ok lists ∧
    ((∀ state, (system lists).Reachable state → Inside state) ↔
      [inputEntry "i"].length < maxInputStreams ∧
        [outputEntry "o"].length < maxOutputStreams - 2) := by
  obtain ⟨lists, initialized⟩ : ∃ lists, initializeLists (fun _ => true) (bytesOf "/analyzer")
      (bytesOf "/filter") (some [inputEntry "i"]) (some [analyzerEntry "a"])
      (some [outputEntry "o"]) none = .ok lists := ⟨_, rfl⟩
  exact ⟨lists, initialized, scans_inside_iff initialized⟩

/-- Four outputs fill the list: the signal handler scans past it. -/
theorem four_outputs_scanned_past :
    ¬ ∀ inputs analyzers outputs lists, inputs.length ≤ 8 → analyzers.length ≤ 15 →
      outputs.length ≤ 4 →
      initializeLists (fun _ => true) (bytesOf "/analyzer") (bytesOf "/filter") (some inputs)
        (some analyzers) (some outputs) none = .ok lists →
      ∀ state, (system lists).Reachable state → Inside state := by
  intro claimed
  obtain ⟨lists, initialized⟩ : ∃ lists, initializeLists (fun _ => true) (bytesOf "/analyzer")
      (bytesOf "/filter") (some [inputEntry "i"]) (some [analyzerEntry "a"])
      (some (List.replicate 4 (outputEntry "o"))) none = .ok lists := ⟨_, rfl⟩
  obtain ⟨_, ⟨_, loaded, someOutput⟩, _⟩ := lists_loaded initialized
  have inside := claimed _ _ _ lists (by decide) (by decide) (by decide) initialized
    ⟨lists.memory, .createQueues, none⟩ (.initial rfl)
  exact full_outputs_left loaded someOutput (by decide) inside.engine.signalLogRotate

end Dragonfly.Scans
