import Dragonfly.Config

/-!
# How many entries the lists of the configuration hold

`load_inputs_config` and `load_responder_config` put the entry at index `i` of their
table into the place `i` of the list, `load_analyzers_config` ends one place earlier,
and `load_outputs_config` puts it two places further, behind the internal outputs. All
bound the index of the table by the length of the list.

`startup_threads` starts a thread for each place with a queue and waits at a barrier
made for the number that was returned. A write past a list is undefined.
-/

namespace Dragonfly.Config

/-- The constant `MAX_INPUT_STREAMS`: the length of `g_input_list`. -/
def maxInputStreams : Nat := 8

/-- The constant `MAX_RESPONDER_COMMANDS`: the length of `g_responder_list`. -/
def maxResponderCommands : Nat := 2

/-- The structure `INPUT_CONFIG` without its open handle, with its strings and its queue. -/
structure InputConfig where
  tag : Option (List Byte)
  uri : Option (List Byte)
  script : Option (List Byte)
  defaultAnalyzer : Option (List Byte)
  queue : Option Queue
deriving DecidableEq

/-- The structure `RESPONDER_CONFIG`: the tag of a responder and the parameter it is set up
with. -/
structure ResponderConfig where
  tag : Option (List Byte)
  param : Option (List Byte)
deriving DecidableEq

/-- An entry of `g_input_list` after `memset`: all its pointers are null. -/
def InputConfig.unset : InputConfig := ⟨none, none, none, none, none⟩

/-- An entry of `g_responder_list` before anything is loaded: both its pointers are null. -/
def ResponderConfig.unset : ResponderConfig := ⟨none, none⟩

/-- The body of the loop of `load_inputs_config`: it checks the strings of the entry and copies
them, and the script must be a regular file. -/
def loadInput (isRegular : List Byte → Bool) (directory : List Byte) (entry : Entry)
    (input : InputConfig) : Except LoadError InputConfig :=
  match entry with
  | .other => .error .wrongType
  | .table field => do
      let tag ← requiredString "load_inputs_config" field "tag"
      let uri ← requiredString "load_inputs_config" field "uri"
      let script ← requiredString "load_inputs_config" field "script"
      let path := scriptPath directory script
      if isRegular path then
        let defaultAnalyzer ← requiredString "load_inputs_config" field "default_analyzer"
        return { input with
          tag := some tag
          uri := some (uri.take pathMax)
          script := some path
          defaultAnalyzer := some (defaultAnalyzer.take pathMax) }
      else
        throw (.missingScript "load_inputs_config" path)

/-- The body of the loop of `load_responder_config`: it checks the two strings and keeps the
first `PATH_MAX` bytes of the parameter. -/
def loadResponder (entry : Entry) (responder : ResponderConfig) :
    Except LoadError ResponderConfig :=
  match entry with
  | .other => .error .wrongType
  | .table field => do
      let tag ← checkedString field "tag"
      let param ← checkedString field "param"
      return { responder with tag := some tag, param := some (param.take pathMax) }

/-- The function `load_inputs_config`: the entry at each index of the table is stored at the
same index of the list. -/
def loadInputsConfig (isRegular : List Byte → Bool) (directory : List Byte)
    (inputs : Option (List Entry)) (list : List InputConfig) (max : Nat) :
    Except LoadError (Nat × List InputConfig) :=
  match inputs with
  | none => .ok (0, list)
  | some entries => loadEntries (loadInput isRegular directory) max 0 0 entries list

/-- The function `load_responder_config`: the entry at each index of the table is stored at the
same index of the list. -/
def loadResponderConfig (responders : Option (List Entry)) (list : List ResponderConfig)
    (max : Nat) : Except LoadError (Nat × List ResponderConfig) :=
  match responders with
  | none => .ok (0, list)
  | some entries => loadEntries loadResponder max 0 0 entries list

/-- The part of `create_message_queues` for the inputs: each of them with a URI gets the queue
named after its place. -/
def createInputQueues (inputs : List InputConfig) : List InputConfig :=
  inputs.mapIdx fun index input =>
    if input.uri ≠ none then { input with queue := some (.input index) } else input

/-- The part of `create_message_queues` for the outputs, as it is for a list of any length. -/
def createOutputQueues (outputs : List OutputConfig) : List OutputConfig :=
  (createMessageQueues ⟨[], outputs⟩).outputs

/-- The flywheel threads of `startup_threads`: one for each input with a queue. -/
def flywheelThreads (inputs : List InputConfig) : Nat :=
  inputs.countP fun input => input.queue.isSome

/-- The output threads of `startup_threads`: one for each output with a queue. -/
def outputThreads (outputs : List OutputConfig) : Nat :=
  outputs.countP fun output => output.queue.isSome

/-- `pthread_barrier_wait` returns when as many threads wait as the barrier is made for. -/
def BarrierReleased (parties waiting : Nat) : Prop := waiting = parties

/-- No loader writes past its list, and the barriers, made for the returned number and
the main thread, are released by the threads that were started and the main thread. -/
structure SizeSafe (isRegular : List Byte → Bool) (filterDir analyzerDir : List Byte)
    (inputs analyzers outputs responders : Option (List Entry)) : Prop where
  inputsInside : loadInputsConfig isRegular filterDir inputs
    (List.replicate maxInputStreams .unset) maxInputStreams ≠ .error .overrun
  analyzersInside : loadAnalyzersConfig isRegular analyzerDir analyzers
    (List.replicate maxAnalyzerStreams .unset) maxAnalyzerStreams ≠ .error .overrun
  outputsInside : loadOutputsConfig outputs (List.replicate maxOutputStreams .unset)
    maxOutputStreams ≠ .error .overrun
  respondersInside : loadResponderConfig responders (List.replicate maxResponderCommands .unset)
    maxResponderCommands ≠ .error .overrun
  flywheels : ∀ count list, loadInputsConfig isRegular filterDir inputs
      (List.replicate maxInputStreams .unset) maxInputStreams = .ok (count, list) →
    flywheelThreads (createInputQueues list) = count ∧
      BarrierReleased (count + 1) (flywheelThreads (createInputQueues list) + 1)
  writers : ∀ count list, loadOutputsConfig outputs
      (List.replicate maxOutputStreams .unset) maxOutputStreams = .ok (count, list) →
    outputThreads (createOutputQueues list) = count ∧
      BarrierReleased (count + 1) (outputThreads (createOutputQueues list) + 1)

/-! ## The loop of the loaders -/

section Loaders

variable {Config : Type} {load : Entry → Config → Except LoadError Config}

/-- Entries that fit into the list are not written past it. -/
theorem load_entries_inside (noOverrun : ∀ entry old, load entry old ≠ .error .overrun)
    {max index place : Nat} {entries : List Entry} {list : List Config}
    (room : place + min entries.length (max - index) ≤ list.length) :
    loadEntries load max index place entries list ≠ .error .overrun := by
  induction entries generalizing index place list with
  | nil => simp [loadEntries]
  | cons entry rest inductionHypothesis =>
    rw [loadEntries]
    simp only [List.length_cons] at room
    by_cases inside : index < max
    · rw [if_pos inside]
      have within : place < list.length := by omega
      rw [List.getElem?_eq_getElem within]
      cases made : load entry list[place] with
      | error cause =>
        intro overrun
        apply noOverrun entry list[place]
        rw [made]
        simpa [made, bind, Except.bind] using overrun
      | ok loaded =>
        have later : place + 1 + min rest.length (max - (index + 1)) ≤
            (list.set place loaded).length := by
          rw [List.length_set]
          omega
        have remaining := inductionHypothesis later
        simp only [made, bind, Except.bind]
        split
        · rename_i cause failed
          intro overrun
          cases overrun
          exact remaining failed
        · simp [pure, Except.pure]
    · rw [if_neg inside]
      simp

/-- Entries that load and do not fit are written past the list. -/
theorem load_entries_overrun {entries : List Entry}
    (loads : ∀ entry ∈ entries, ∀ old, ∃ config, load entry old = .ok config)
    {max index place : Nat} {list : List Config} (inside : place ≤ list.length)
    (beyond : list.length < place + min entries.length (max - index)) :
    loadEntries load max index place entries list = .error .overrun := by
  induction entries generalizing index place list with
  | nil =>
    simp only [List.length_nil] at beyond
    omega
  | cons entry rest inductionHypothesis =>
    simp only [List.length_cons] at beyond
    have more : index < max := by omega
    rw [loadEntries, if_pos more]
    rcases Nat.eq_or_lt_of_le inside with full | within
    · rw [List.getElem?_eq_none (Nat.le_of_eq full.symm)]
    · rw [List.getElem?_eq_getElem within]
      obtain ⟨loaded, made⟩ := loads entry List.mem_cons_self list[place]
      have remaining : loadEntries load max (index + 1) (place + 1) rest (list.set place loaded) =
          .error .overrun := by
        apply inductionHypothesis (fun later listed => loads later (List.mem_cons_of_mem _ listed))
        · rw [List.length_set]
          omega
        · rw [List.length_set]
          omega
      simp only [made, bind, Except.bind, remaining]

end Loaders

/-- A computation that does not overrun, followed by ones that do not. -/
theorem bind_no_overrun {First Second : Type} {first : Except LoadError First}
    {second : First → Except LoadError Second} (begins : first ≠ .error .overrun)
    (continues : ∀ middle, second middle ≠ .error .overrun) :
    first >>= second ≠ .error .overrun := by
  cases first with
  | error cause =>
    intro overrun
    cases overrun
    exact begins rfl
  | ok middle => exact continues middle

/-- Checking a field writes to no list, so it cannot fail by a write past the end of one. -/
theorem checked_string_no_overrun (field : String → Field) (key : String) :
    checkedString field key ≠ .error .overrun := by
  unfold checkedString
  split <;> simp

/-- Requiring a field writes to no list either, whatever the entry has under the key. -/
theorem required_string_no_overrun (function : String) (field : String → Field) (key : String) :
    requiredString function field key ≠ .error .overrun := by
  unfold requiredString
  split
  · simp
  · exact checked_string_no_overrun field key

/-- The body of the loop for the inputs writes to its place only. -/
theorem load_input_no_overrun (isRegular : List Byte → Bool) (directory : List Byte)
    (entry : Entry) (old : InputConfig) :
    loadInput isRegular directory entry old ≠ .error .overrun := by
  cases entry with
  | other => simp [loadInput]
  | table field =>
    apply bind_no_overrun (required_string_no_overrun _ field "tag")
    intro tag
    apply bind_no_overrun (required_string_no_overrun _ field "uri")
    intro uri
    apply bind_no_overrun (required_string_no_overrun _ field "script")
    intro script
    dsimp only
    split
    · exact bind_no_overrun (required_string_no_overrun _ field "default_analyzer")
        fun defaultAnalyzer => by simp [pure, Except.pure]
    · simp [throw, throwThe, MonadExceptOf.throw]

/-- The body of the loop for the analyzers writes to the entry it was given and never past the
list. -/
theorem load_analyzer_no_overrun (isRegular : List Byte → Bool) (directory : List Byte)
    (entry : Entry) (old : AnalyzerConfig) :
    loadAnalyzer isRegular directory entry old ≠ .error .overrun := by
  cases entry with
  | other => simp [loadAnalyzer]
  | table field =>
    apply bind_no_overrun (required_string_no_overrun _ field "tag")
    intro tag
    apply bind_no_overrun (required_string_no_overrun _ field "script")
    intro script
    dsimp only
    split
    · refine bind_no_overrun (required_string_no_overrun _ field "default_analyzer")
        fun defaultAnalyzer => ?_
      exact bind_no_overrun (required_string_no_overrun _ field "default_output")
        fun defaultOutput => by simp [pure, Except.pure]
    · simp [throw, throwThe, MonadExceptOf.throw]

/-- The body of the loop for the outputs writes to the entry it was given and never past the
list. -/
theorem load_output_no_overrun (entry : Entry) (old : OutputConfig) :
    loadOutput entry old ≠ .error .overrun := by
  cases entry with
  | other => simp [loadOutput]
  | table field =>
    apply bind_no_overrun (checked_string_no_overrun field "tag")
    intro tag
    exact bind_no_overrun (checked_string_no_overrun field "uri")
      fun uri => by simp [pure, Except.pure]

/-- The body of the loop for the responders writes to the entry it was given and never past the
list. -/
theorem load_responder_no_overrun (entry : Entry) (old : ResponderConfig) :
    loadResponder entry old ≠ .error .overrun := by
  cases entry with
  | other => simp [loadResponder]
  | table field =>
    apply bind_no_overrun (checked_string_no_overrun field "tag")
    intro tag
    exact bind_no_overrun (checked_string_no_overrun field "param")
      fun param => by simp [pure, Except.pure]

/-! ## The threads -/

/-- The number of entries that have a property is the length of the front of the list, if they
are exactly those at the front. -/
theorem count_front {Item : Type} {holds : Item → Bool} {list : List Item} {count : Nat}
    (bounded : count ≤ list.length)
    (front : ∀ position item, position < count → list[position]? = some item → holds item)
    (back : ∀ position item, count ≤ position → list[position]? = some item → ¬ holds item) :
    list.countP holds = count := by
  have split := List.take_append_drop count list
  have inFront : (list.take count).countP holds = (list.take count).length := by
    rw [List.countP_eq_length]
    intro item listed
    obtain ⟨position, inside, here⟩ := List.getElem_of_mem listed
    rw [List.length_take] at inside
    apply front position item (by omega)
    rw [← here, List.getElem_take, List.getElem?_eq_getElem]
  have behind : (list.drop count).countP holds = 0 := by
    rw [List.countP_eq_zero]
    intro item listed
    obtain ⟨position, inside, here⟩ := List.getElem_of_mem listed
    rw [List.length_drop] at inside
    apply back (count + position) item (by omega)
    rw [← here, List.getElem_drop, List.getElem?_eq_getElem]
  calc list.countP holds = (list.take count ++ list.drop count).countP holds := by rw [split]
    _ = (list.take count).length := by rw [List.countP_append, inFront, behind, Nat.add_zero]
    _ = count := by rw [List.length_take]; omega

/-- A loaded input has a source and no queue yet. -/
theorem load_input_fields {isRegular : List Byte → Bool} {directory : List Byte} {entry : Entry}
    {old input : InputConfig} (loaded : loadInput isRegular directory entry old = .ok input) :
    input.tag ≠ none ∧ input.uri ≠ none ∧ input.queue = old.queue := by
  cases entry with
  | other => cases loaded
  | table field =>
    obtain ⟨tag, _, loaded⟩ := bind_returns loaded
    obtain ⟨uri, _, loaded⟩ := bind_returns loaded
    obtain ⟨script, _, loaded⟩ := bind_returns loaded
    simp only at loaded
    split at loaded
    · obtain ⟨defaultAnalyzer, _, loaded⟩ := bind_returns loaded
      cases loaded
      exact ⟨Option.some_ne_none _, Option.some_ne_none _, rfl⟩
    · cases loaded

/-- The inputs stand at the front of their list: as many as were counted have a tag and a URI,
and all others are as `memset` left them. -/
theorem load_inputs_front {isRegular : List Byte → Bool} {directory : List Byte}
    {inputs : Option (List Entry)} {list : List InputConfig} {count : Nat}
    (loaded : loadInputsConfig isRegular directory inputs (List.replicate maxInputStreams .unset)
      maxInputStreams = .ok (count, list)) :
    count = min (inputs.getD []).length maxInputStreams ∧ list.length = maxInputStreams ∧
      (∀ position, count ≤ position → position < maxInputStreams →
        list[position]? = some .unset) ∧
      ∀ position, position < count → ∃ input, list[position]? = some input ∧
        input.tag ≠ none ∧ input.uri ≠ none ∧ input.queue = none := by
  cases inputs with
  | none =>
    cases loaded
    refine ⟨by simp, List.length_replicate, ?_, ?_⟩
    · intro position _ inside
      simp [inside]
    · intro position inside
      cases inside
  | some entries =>
    obtain ⟨length, counted, elsewhere, here⟩ := load_entries_places loaded
    refine ⟨by simpa using counted, by simpa using length, ?_, ?_⟩
    · intro position outside inside
      rw [elsewhere position (.inr (by omega))]
      simp [inside]
    · intro position inside
      obtain ⟨entry, old, input, _, stored, made, written⟩ :=
        here position (Nat.zero_le _) (by omega)
      obtain ⟨tag, uri, queue⟩ := load_input_fields made
      have unset : old = .unset := List.eq_of_mem_replicate (List.mem_of_getElem? stored)
      exact ⟨input, written, tag, uri, by rw [queue, unset]; rfl⟩

/-- What the list of the outputs holds before the entries are loaded: the two internal
outputs in front. -/
theorem internal_outputs (position : Nat) :
    (((List.replicate maxOutputStreams OutputConfig.unset).set 0 logOutput).set 1
      statsOutput)[position]? =
        if position = 0 then some logOutput else if position = 1 then some statsOutput
        else if position < maxOutputStreams then some .unset else none := by
  rw [List.getElem?_set, List.getElem?_set]
  by_cases first : position = 0
  · subst first
    rfl
  · by_cases second : position = 1
    · subst second
      rfl
    · rw [if_neg (fun same => second same.symm), if_neg (fun same => first same.symm), if_neg first,
        if_neg second, List.getElem?_replicate]

/-- The outputs stand at the front of their list, the internal ones first. -/
theorem load_outputs_front {outputs : Option (List Entry)} {list : List OutputConfig}
    {count : Nat}
    (loaded : loadOutputsConfig outputs (List.replicate maxOutputStreams .unset)
      maxOutputStreams = .ok (count, list)) :
    count = (if outputs.isSome then 2 + (outputs.getD []).length else 0) ∧
      count ≤ maxOutputStreams ∧ list.length = maxOutputStreams ∧
      (∀ position, count ≤ position → position < maxOutputStreams →
        list[position]? = some .unset) ∧
      ∀ position, position < count → ∃ output, list[position]? = some output ∧
        output.tag ≠ none ∧ output.uri ≠ none ∧ output.queue = none := by
  cases outputs with
  | none =>
    cases loaded
    refine ⟨rfl, Nat.zero_le _, List.length_replicate, ?_, ?_⟩
    · intro position _ inside
      simp [inside]
    · intro position inside
      cases inside
  | some entries =>
    obtain ⟨⟨more, final⟩, remaining, loaded⟩ := bind_returns loaded
    cases loaded
    obtain ⟨length, counted, elsewhere, here⟩ := load_entries_places remaining
    have six : list.length = maxOutputStreams := by simpa using length
    have fits : more + 2 ≤ maxOutputStreams := by
      by_contra beyond
      obtain ⟨_, _, _, _, stored, _⟩ := here maxOutputStreams (by decide) (by omega)
      rw [internal_outputs] at stored
      cases stored
    have all : more = entries.length := by
      simp only [maxOutputStreams] at counted fits
      omega
    refine ⟨by simp [all, Nat.add_comm], fits, six, ?_, ?_⟩
    · intro position outside inside
      rw [elsewhere position (.inr (by omega)), internal_outputs, if_neg (by omega),
        if_neg (by omega), if_pos inside]
    · intro position inside
      by_cases internal : position < 2
      · rw [elsewhere position (.inl internal), internal_outputs]
        have cases : position = 0 ∨ position = 1 := by omega
        rcases cases with rfl | rfl
        · exact ⟨logOutput, rfl, Option.some_ne_none _, Option.some_ne_none _, rfl⟩
        · exact ⟨statsOutput, rfl, Option.some_ne_none _, Option.some_ne_none _, rfl⟩
      · obtain ⟨entry, old, output, _, stored, made, written⟩ :=
          here position (by omega) (by omega)
        obtain ⟨_, _, _, _, tagged, located, queue⟩ := load_output_exact made
        rw [internal_outputs, if_neg (by omega), if_neg (by omega), if_pos (by omega)] at stored
        cases stored
        exact ⟨output, written, by simp [tagged], by simp [located], queue⟩

/-- As many flywheel threads are started as inputs were counted, which is the number the barrier
is made for. -/
theorem flywheels_counted {isRegular : List Byte → Bool} {directory : List Byte}
    {inputs : Option (List Entry)} {list : List InputConfig} {count : Nat}
    (loaded : loadInputsConfig isRegular directory inputs (List.replicate maxInputStreams .unset)
      maxInputStreams = .ok (count, list)) : flywheelThreads (createInputQueues list) = count := by
  obtain ⟨counted, length, vacant, front⟩ := load_inputs_front loaded
  apply count_front
  · rw [createInputQueues, List.length_mapIdx]
    omega
  · intro position item inside stored
    obtain ⟨input, listed, _, uri, _⟩ := front position inside
    simp only [createInputQueues, List.getElem?_mapIdx, listed, Option.map_some, if_pos uri]
      at stored
    cases stored
    rfl
  · intro position item outside stored
    by_cases inside : position < maxInputStreams
    · simp only [createInputQueues, List.getElem?_mapIdx, vacant position outside inside,
        Option.map_some] at stored
      cases stored
      simp [InputConfig.unset]
    · rw [createInputQueues, List.getElem?_eq_none (by rw [List.length_mapIdx]; omega)] at stored
      cases stored

/-- Creating the queues gives every output with a sink one and keeps the places. -/
theorem create_output_queues_get (outputs : List OutputConfig) (position : Nat) :
    (createOutputQueues outputs)[position]? = (outputs[position]?).map fun output =>
      if output.uri ≠ none then { output with queue := some (.output position) } else output :=
  List.getElem?_mapIdx

/-- Creating the queues of the outputs changes their entries and keeps their number. -/
theorem create_output_queues_length (outputs : List OutputConfig) :
    (createOutputQueues outputs).length = outputs.length := List.length_mapIdx

/-- As many output threads are started as outputs were counted. -/
theorem output_threads_counted {outputs : Option (List Entry)} {list : List OutputConfig}
    {count : Nat}
    (loaded : loadOutputsConfig outputs (List.replicate maxOutputStreams .unset)
      maxOutputStreams = .ok (count, list)) : outputThreads (createOutputQueues list) = count := by
  obtain ⟨_, bounded, length, vacant, front⟩ := load_outputs_front loaded
  apply count_front
  · rw [create_output_queues_length]
    omega
  · intro position item inside stored
    obtain ⟨output, listed, _, uri, _⟩ := front position inside
    rw [create_output_queues_get, listed, Option.map_some, if_pos uri] at stored
    cases stored
    rfl
  · intro position item outside stored
    by_cases inside : position < maxOutputStreams
    · rw [create_output_queues_get, vacant position outside inside, Option.map_some] at stored
      cases stored
      simp [OutputConfig.unset]
    · rw [create_output_queues_get, List.getElem?_eq_none (by omega)] at stored
      cases stored

/-! ## Which sizes are safe -/

/-- An entry of an output whose tag and URI are strings, which is all the loader asks of it. -/
def WellTypedOutput (entry : Entry) : Prop :=
  ∃ field tag uri, entry = .table field ∧ field "tag" = .string tag ∧ field "uri" = .string uri

/-- An entry whose tag and URI are strings is loaded, whatever was in its place before. -/
theorem well_typed_loads {entry : Entry} (wellTyped : WellTypedOutput entry) (old : OutputConfig) :
    ∃ output, loadOutput entry old = .ok output := by
  obtain ⟨field, tag, uri, rfl, tagged, sourced⟩ := wellTyped
  exact ⟨_, by simp only [loadOutput, checkedString, tagged, sourced]; rfl⟩

/-- The outputs are written inside their list if there are at most four. -/
theorem outputs_inside_iff {entries : List Entry}
    (wellTyped : ∀ entry ∈ entries, WellTypedOutput entry) :
    loadOutputsConfig (some entries) (List.replicate maxOutputStreams .unset) maxOutputStreams ≠
      .error .overrun ↔ entries.length ≤ maxOutputStreams - 2 := by
  have length : (((List.replicate maxOutputStreams OutputConfig.unset).set 0 logOutput).set 1
      statsOutput).length = maxOutputStreams := by simp
  constructor
  · intro inside
    by_contra many
    apply inside
    have overrun : loadEntries loadOutput maxOutputStreams 0 2 entries
        (((List.replicate maxOutputStreams OutputConfig.unset).set 0 logOutput).set 1
          statsOutput) = .error .overrun := by
      apply load_entries_overrun fun entry listed => well_typed_loads (wellTyped entry listed)
      · rw [length]
        decide
      · rw [length]
        simp only [maxOutputStreams] at *
        omega
    simp only [loadOutputsConfig, overrun]
    rfl
  · intro few
    apply bind_no_overrun
    · apply load_entries_inside load_output_no_overrun
      rw [length]
      simp only [maxOutputStreams] at *
      omega
    · rintro ⟨count, list⟩
      simp [pure, Except.pure]

/-- The sizes are safe exactly for at most four entries in the table of the outputs, any
number of entries in the other tables. -/
theorem size_safe_iff (isRegular : List Byte → Bool) (filterDir analyzerDir : List Byte)
    (inputs analyzers responders : Option (List Entry)) {outputs : Option (List Entry)}
    (wellTyped : ∀ entry ∈ outputs.getD [], WellTypedOutput entry) :
    SizeSafe isRegular filterDir analyzerDir inputs analyzers outputs responders ↔
      (outputs.getD []).length ≤ maxOutputStreams - 2 := by
  constructor
  · intro safe
    cases outputs with
    | none => exact Nat.zero_le _
    | some entries => exact (outputs_inside_iff wellTyped).mp safe.outputsInside
  · intro few
    constructor
    · cases inputs with
      | none => simp [loadInputsConfig]
      | some entries =>
        apply load_entries_inside (load_input_no_overrun isRegular filterDir)
        rw [List.length_replicate]
        omega
    · cases analyzers with
      | none => simp [loadAnalyzersConfig]
      | some entries =>
        apply load_entries_inside (load_analyzer_no_overrun isRegular analyzerDir)
        rw [List.length_replicate]
        omega
    · cases outputs with
      | none => simp [loadOutputsConfig]
      | some entries => exact (outputs_inside_iff wellTyped).mpr few
    · cases responders with
      | none => simp [loadResponderConfig]
      | some entries =>
        apply load_entries_inside load_responder_no_overrun
        rw [List.length_replicate]
        omega
    · intro count list loaded
      rw [flywheels_counted loaded]
      exact ⟨rfl, rfl⟩
    · intro count list loaded
      rw [output_threads_counted loaded]
      exact ⟨rfl, rfl⟩

/-- The entry of an output that is made from its tag has the two strings. -/
theorem output_entry_well_typed (tag : String) : WellTypedOutput (outputEntry tag) :=
  ⟨_, _, _, rfl, rfl, rfl⟩

/-- Four outputs are safe with no other tables, and four is the number of places behind the
internal outputs. -/
theorem four_outputs_safe :
    SizeSafe (fun _ => true) [] [] none none
        (some [outputEntry "a", outputEntry "b", outputEntry "c", outputEntry "d"]) none ↔
      [outputEntry "a", outputEntry "b", outputEntry "c", outputEntry "d"].length ≤
        maxOutputStreams - 2 := by
  apply size_safe_iff
  intro entry listed
  simp only [Option.getD_some, List.mem_cons, List.not_mem_nil, or_false] at listed
  rcases listed with rfl | rfl | rfl | rfl <;> exact output_entry_well_typed _

/-- The fifth output is written past the list, so start-up is not safe for every table of
outputs. -/
theorem fifth_output_overruns :
    ¬ ∀ outputs : List Entry, (∀ entry ∈ outputs, WellTypedOutput entry) →
      SizeSafe (fun _ => true) [] [] none none (some outputs) none := by
  intro claimed
  have safe := claimed (List.replicate 5 (outputEntry "a")) fun entry listed =>
    List.eq_of_mem_replicate listed ▸ output_entry_well_typed "a"
  exact safe.outputsInside rfl

end Dragonfly.Config
