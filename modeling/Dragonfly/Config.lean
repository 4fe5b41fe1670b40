import Dragonfly.Libc

/-!
# The configuration and the queues

`config.c` reads the tables of the configuration script into fixed-size lists
of analyzers and outputs; `create_message_queues` gives each loaded entry a
queue. A table is what `lua_rawgeti` finds before the first missing entry. A
queue is identified by the name it is created under. A script that is not a
regular file, a missing field or a field of another type ends the process; a
write past a list is undefined.

The inputs, the responders, the Redis modules and the directories are left out,
as is a failing `malloc`.
-/

namespace Dragonfly.Config

/-- The constant `MAX_ANALYZER_STREAMS`: the length of `g_analyzer_list`. -/
def maxAnalyzerStreams : Nat := 16

/-- The constant `MAX_OUTPUT_STREAMS`: the length of `g_output_list`, the two internal outputs
included. -/
def maxOutputStreams : Nat := 6

/-- The constant `PATH_MAX`: the size of the buffers for paths, and the most bytes of a URI that
are kept. -/
def pathMax : Nat := 4096

/-- The bytes of a text of the source, all of whose characters are ASCII. -/
def bytesOf (text : String) : List Byte := text.toList.map fun letter => UInt8.ofNat letter.toNat

/-- The queues of `create_message_queues`, after `QUEUE_INPUT`, `QUEUE_ANALYZER` and
`QUEUE_OUTPUT` and the index of the entry. -/
inductive Queue where
  | input (index : Nat)
  | analyzer (index : Nat)
  | output (index : Nat)
deriving DecidableEq

/-- The structure `ANALYZER_CONFIG`, with its strings and its queue; a null pointer is no value. -/
structure AnalyzerConfig where
  tag : Option (List Byte)
  script : Option (List Byte)
  defaultAnalyzer : Option (List Byte)
  defaultOutput : Option (List Byte)
  queue : Option Queue
deriving DecidableEq

/-- The structure `OUTPUT_CONFIG` without its open handle and counters, which are the business
of the thread that opens the sink. -/
structure OutputConfig where
  tag : Option (List Byte)
  uri : Option (List Byte)
  queue : Option Queue
deriving DecidableEq

/-- An entry of `g_analyzer_list` after `memset`: all its pointers are null. -/
def AnalyzerConfig.unset : AnalyzerConfig := ⟨none, none, none, none, none⟩

/-- An entry of `g_output_list` after `memset`: all its pointers are null. -/
def OutputConfig.unset : OutputConfig := ⟨none, none, none⟩

/-- What `lua_getfield` finds under a key, as far as the loaders tell values apart: nothing, a
string, or a value of another type. -/
inductive Field where
  | nil
  | string (bytes : List Byte)
  | other

/-- An entry of a table of the configuration script: a table with its fields, or a value of
another type. -/
inductive Entry where
  | table (field : String → Field)
  | other

/-- The field of an entry as a C string, if it is a string. -/
def Entry.text : Entry → String → Option (List Byte)
  | .table field, key =>
      match field key with
      | .string bytes => some (cString bytes)
      | _ => none
  | .other, _ => none

/-- Why loading does not return. All but `overrun` end the process with a message. -/
inductive LoadError where
  | missingField (function key : String)
  | wrongType
  | missingScript (function : String) (path : List Byte)
  | noEntries (message : String)
  | overrun

/-- The field of an entry that must be a string. -/
def checkedString (field : String → Field) (key : String) : Except LoadError (List Byte) :=
  match field key with
  | .string bytes => .ok (cString bytes)
  | _ => .error .wrongType

/-- The field of an entry that must be there and be a string. -/
def requiredString (function : String) (field : String → Field) (key : String) :
    Except LoadError (List Byte) :=
  match field key with
  | .nil => .error (.missingField function key)
  | _ => checkedString field key

/-- The path of a script: an absolute one as it is, any other below the directory. -/
def scriptPath (directory path : List Byte) : List Byte :=
  if path.head? = some 47 then path.take pathMax
  else (directory ++ 47 :: path).take (pathMax - 1)

/-- The body of the loop of `load_analyzers_config`: it checks the strings of the entry and
copies them, and the script must be a regular file. -/
def loadAnalyzer (isRegular : List Byte → Bool) (directory : List Byte) (entry : Entry)
    (analyzer : AnalyzerConfig) : Except LoadError AnalyzerConfig :=
  match entry with
  | .other => .error .wrongType
  | .table field => do
      let tag ← requiredString "load_analyzers_config" field "tag"
      let script ← requiredString "load_analyzers_config" field "script"
      let path := scriptPath directory script
      if isRegular path then
        let defaultAnalyzer ← requiredString "load_analyzers_config" field "default_analyzer"
        let defaultOutput ← requiredString "load_analyzers_config" field "default_output"
        return { analyzer with
          tag := some tag
          script := some path
          defaultAnalyzer := some defaultAnalyzer
          defaultOutput := some defaultOutput }
      else
        throw (.missingScript "load_analyzers_config" path)

/-- The body of the loop of `load_outputs_config`: it checks the tag and the URI, of which it
keeps the first `PATH_MAX` bytes. -/
def loadOutput (entry : Entry) (output : OutputConfig) : Except LoadError OutputConfig :=
  match entry with
  | .other => .error .wrongType
  | .table field => do
      let tag ← checkedString field "tag"
      let uri ← checkedString field "uri"
      return { output with tag := some tag, uri := some (uri.take pathMax) }

/-- The loop of the loaders: the loop variable stays below `max`, the entries go to
consecutive places of the list, and each is counted. -/
def loadEntries {Config : Type} (load : Entry → Config → Except LoadError Config) (max : Nat) :
    Nat → Nat → List Entry → List Config → Except LoadError (Nat × List Config)
  | _, _, [], list => .ok (0, list)
  | index, place, entry :: rest, list =>
      if index < max then
        match list[place]? with
        | none => .error .overrun
        | some config => do
            let loaded ← load entry config
            let (count, list) ← loadEntries load max (index + 1) (place + 1) rest
              (list.set place loaded)
            return (count + 1, list)
      else .ok (0, list)

/-- `load_analyzers_config`: the loop variable starts at 1, the list at 0. -/
def loadAnalyzersConfig (isRegular : List Byte → Bool) (directory : List Byte)
    (analyzers : Option (List Entry)) (list : List AnalyzerConfig) (max : Nat) :
    Except LoadError (Nat × List AnalyzerConfig) :=
  match analyzers with
  | none => .ok (0, list)
  | some entries => loadEntries (loadAnalyzer isRegular directory) max 1 0 entries list

/-- The internal output with the tag `DRAGONFLY_LOG_TAG`, which writes to the log file of the
engine. -/
def logOutput : OutputConfig :=
  ⟨some (bytesOf "\x7blog\x7d"),
    some (bytesOf "file:///var/log/dragonfly-mle/dragonfly-mle.log"), none⟩

/-- The internal output with the tag `DRAGONFLY_STATS_TAG`, which writes to the file of the
statistics. -/
def statsOutput : OutputConfig :=
  ⟨some (bytesOf "\x7bstats\x7d"),
    some (bytesOf "file:///var/log/dragonfly-mle/dragonfly-mle-stats.log"), none⟩

/-- The function `load_outputs_config`: the two internal outputs come first, and the entries of
the script are stored behind them. -/
def loadOutputsConfig (outputs : Option (List Entry)) (list : List OutputConfig) (max : Nat) :
    Except LoadError (Nat × List OutputConfig) :=
  match outputs with
  | none => .ok (0, list)
  | some entries => do
      let (count, list) ← loadEntries loadOutput max 0 2 entries
        ((list.set 0 logOutput).set 1 statsOutput)
      return (count + 2, list)

/-- What start-up leaves in `g_analyzer_list` and `g_output_list`, the two lists the scripts'
calls search by tag. -/
structure Configuration where
  analyzers : List AnalyzerConfig
  outputs : List OutputConfig

/-- The part of `initialize_configuration` that loads the two lists. It ends the process where
no analyzer was loaded. -/
def initializeConfiguration (isRegular : List Byte → Bool) (directory : List Byte)
    (analyzers outputs : Option (List Entry)) : Except LoadError Configuration := do
  let (numAnalyzers, analyzerList) ← loadAnalyzersConfig isRegular directory analyzers
    (List.replicate maxAnalyzerStreams .unset) maxAnalyzerStreams
  if numAnalyzers = 0 then throw (.noEntries "load_analyzer_config failed")
  let (numOutputs, outputList) ← loadOutputsConfig outputs
    (List.replicate maxOutputStreams .unset) maxOutputStreams
  if numOutputs = 0 then throw (.noEntries "load_output_config failed")
  return ⟨analyzerList, outputList⟩

/-- The function `create_message_queues`: every analyzer with a script and every output with a
URI gets the queue named after its place. -/
def createMessageQueues (configuration : Configuration) : Configuration where
  analyzers := configuration.analyzers.mapIdx fun index analyzer =>
    if analyzer.script ≠ none then { analyzer with queue := some (.analyzer index) } else analyzer
  outputs := configuration.outputs.mapIdx fun index output =>
    if output.uri ≠ none then { output with queue := some (.output index) } else output

/-! ## What a loaded list holds -/

/-- Where two computations in sequence return a result, the first one returned, and the second
did so behind it. -/
theorem bind_returns {Cause First Second : Type} {first : Except Cause First}
    {second : First → Except Cause Second} {result : Second}
    (returned : first >>= second = .ok result) :
    ∃ middle, first = .ok middle ∧ second middle = .ok result := by
  cases first with
  | error cause => cases returned
  | ok middle => exact ⟨middle, rfl, returned⟩

/-- Loading writes each entry to its place and nothing elsewhere, and counts the
entries; the loop variable bounds how many there are. -/
theorem load_entries_places {Config : Type} {load : Entry → Config → Except LoadError Config}
    {max index place count : Nat} {entries : List Entry} {list after : List Config}
    (loaded : loadEntries load max index place entries list = .ok (count, after)) :
    after.length = list.length ∧ count = min entries.length (max - index) ∧
      (∀ position, position < place ∨ place + count ≤ position →
        after[position]? = list[position]?) ∧
      ∀ position, place ≤ position → position < place + count →
        ∃ entry old config, entries[position - place]? = some entry ∧
          list[position]? = some old ∧ load entry old = .ok config ∧
          after[position]? = some config := by
  induction entries generalizing index place count list with
  | nil =>
    obtain ⟨rfl, rfl⟩ : 0 = count ∧ list = after := by simpa [loadEntries] using loaded
    exact ⟨rfl, (Nat.zero_min _).symm, fun _ _ => rfl, fun _ low high => by omega⟩
  | cons entry rest inductionHypothesis =>
    rw [loadEntries] at loaded
    split at loaded
    · rename_i inside
      split at loaded
      · cases loaded
      · rename_i old found
        obtain ⟨config, made, loaded⟩ := bind_returns loaded
        obtain ⟨⟨more, final⟩, remaining, loaded⟩ := bind_returns loaded
        obtain ⟨rfl, rfl⟩ : more + 1 = count ∧ final = after := by
          simpa [pure, Except.pure] using loaded
        obtain ⟨length, counted, elsewhere, here⟩ := inductionHypothesis remaining
        have within : place < list.length := (List.getElem?_eq_some_iff.mp found).1
        refine ⟨by simpa using length, by simp only [List.length_cons]; omega, ?_, ?_⟩
        · intro position outside
          rw [elsewhere position (by omega), List.getElem?_set_ne (by omega)]
        · intro position low high
          rcases Nat.eq_or_lt_of_le low with same | above
          · subst same
            refine ⟨entry, old, config, by simp, found, made, ?_⟩
            rw [elsewhere place (by omega), List.getElem?_set_self within]
          · obtain ⟨later, before, stored, origin, read, kept, written⟩ :=
              here position above (by omega)
            rw [List.getElem?_set_ne (by omega)] at read
            have shifted : position - place = position - (place + 1) + 1 := by omega
            exact ⟨later, before, stored, by rw [shifted, List.getElem?_cons_succ, origin], read,
              kept, written⟩
    · rename_i outside
      obtain ⟨rfl, rfl⟩ : 0 = count ∧ list = after := by simpa using loaded
      exact ⟨rfl, by omega, fun _ _ => rfl, fun _ low high => by omega⟩

/-- A field that `lua_tostring` was checked to find is the text the entry has under this key. -/
theorem checked_string_text {field : String → Field} {key : String} {bytes : List Byte}
    (checked : checkedString field key = .ok bytes) :
    (Entry.table field).text key = some bytes := by
  rw [checkedString] at checked
  split at checked
  · rename_i stored found
    cases checked
    rw [Entry.text, found]
  · cases checked

/-- A field that must be there, and was found, is the text the entry has under this key. -/
theorem required_string_text {function key : String} {field : String → Field}
    {bytes : List Byte} (required : requiredString function field key = .ok bytes) :
    (Entry.table field).text key = some bytes := by
  rw [requiredString] at required
  split at required
  · cases required
  · exact checked_string_text required

/-- A loaded analyzer has the tag of its entry and the path of the script; its queue is
made later. -/
theorem load_analyzer_exact {isRegular : List Byte → Bool} {directory : List Byte}
    {entry : Entry} {old analyzer : AnalyzerConfig}
    (loaded : loadAnalyzer isRegular directory entry old = .ok analyzer) :
    ∃ tag script, entry.text "tag" = some tag ∧ entry.text "script" = some script ∧
      analyzer.tag = some tag ∧ analyzer.script = some (scriptPath directory script) ∧
      analyzer.queue = old.queue := by
  cases entry with
  | other => cases loaded
  | table field =>
    obtain ⟨tag, tagged, loaded⟩ := bind_returns loaded
    obtain ⟨script, scripted, loaded⟩ := bind_returns loaded
    simp only at loaded
    split at loaded
    · obtain ⟨defaultAnalyzer, _, loaded⟩ := bind_returns loaded
      obtain ⟨defaultOutput, _, loaded⟩ := bind_returns loaded
      cases loaded
      exact ⟨tag, script, required_string_text tagged, required_string_text scripted, rfl, rfl,
        rfl⟩
    · cases loaded

/-- A loaded output has the tag of its entry and the front of its URI. -/
theorem load_output_exact {entry : Entry} {old output : OutputConfig}
    (loaded : loadOutput entry old = .ok output) :
    ∃ tag uri, entry.text "tag" = some tag ∧ entry.text "uri" = some uri ∧
      output.tag = some tag ∧ output.uri = some (uri.take pathMax) ∧
      output.queue = old.queue := by
  cases entry with
  | other => cases loaded
  | table field =>
    obtain ⟨tag, tagged, loaded⟩ := bind_returns loaded
    obtain ⟨uri, located, loaded⟩ := bind_returns loaded
    cases loaded
    exact ⟨tag, uri, checked_string_text tagged, checked_string_text located, rfl, rfl, rfl⟩

/-- The lists after start-up: the analyzers stand at the front, each with a tag and
a queue of its own, the log is the first output, and every output with a tag has a
queue of its own. -/
structure Started (configuration : Configuration) (count : Nat) : Prop where
  positive : 0 < count
  bounded : count < maxAnalyzerStreams
  length : configuration.analyzers.length = maxAnalyzerStreams
  configured : ∀ position, position < count → ∃ analyzer tag,
    configuration.analyzers[position]? = some analyzer ∧ analyzer.tag = some tag ∧
      analyzer.queue = some (.analyzer position)
  vacant : ∀ position, count ≤ position → position < maxAnalyzerStreams →
    configuration.analyzers[position]? = some .unset
  logging : ∃ output tag, configuration.outputs[0]? = some output ∧ output.tag = some tag ∧
    output.queue = some (.output 0)
  sinks : ∀ (position : Nat) (output : OutputConfig),
    configuration.outputs[position]? = some output → output.tag ≠ none →
      output.queue = some (.output position)

/-- The log output stays at the front of the outputs. -/
theorem load_outputs_log {outputs : Option (List Entry)} {list : List OutputConfig} {count : Nat}
    (loaded : loadOutputsConfig outputs (List.replicate maxOutputStreams .unset)
      maxOutputStreams = .ok (count, list))
    (someOutput : count ≠ 0) : list[0]? = some logOutput := by
  cases outputs with
  | none =>
    cases loaded
    exact absurd rfl someOutput
  | some entries =>
    obtain ⟨⟨more, final⟩, remaining, loaded⟩ := bind_returns loaded
    cases loaded
    obtain ⟨_, _, elsewhere, _⟩ := load_entries_places remaining
    exact elsewhere 0 (.inl (by decide))

/-- Every output that was loaded with a tag has a URI as well, so it gets a queue. -/
theorem load_outputs_sinks {outputs : Option (List Entry)} {list : List OutputConfig}
    {count : Nat}
    (loaded : loadOutputsConfig outputs (List.replicate maxOutputStreams .unset)
      maxOutputStreams = .ok (count, list))
    (position : Nat) {output : OutputConfig} (stored : list[position]? = some output)
    (tagged : output.tag ≠ none) : output.uri ≠ none := by
  have vacant (place : Nat) (config : OutputConfig)
      (listed : (List.replicate maxOutputStreams OutputConfig.unset)[place]? = some config) :
      config.tag = none := by
    rw [List.eq_of_mem_replicate (List.mem_of_getElem? listed)]
    rfl
  cases outputs with
  | none =>
    cases loaded
    exact absurd (vacant position output stored) tagged
  | some entries =>
    obtain ⟨⟨more, final⟩, remaining, loaded⟩ := bind_returns loaded
    cases loaded
    obtain ⟨_, _, elsewhere, here⟩ := load_entries_places remaining
    by_cases inside : 2 ≤ position ∧ position < 2 + more
    · obtain ⟨entry, old, config, _, _, made, written⟩ := here position inside.1 inside.2
      obtain rfl : config = output := Option.some.inj (written.symm.trans stored)
      obtain ⟨_, uri, _, _, _, located, _⟩ := load_output_exact made
      rw [located]
      exact Option.some_ne_none _
    · rw [elsewhere position (by omega), List.getElem?_set, List.getElem?_set] at stored
      split at stored
      · split at stored
        · cases stored
          exact Option.some_ne_none _
        · cases stored
      · split at stored
        · split at stored
          · cases stored
            exact Option.some_ne_none _
          · cases stored
        · exact absurd (vacant position output stored) tagged

/-- The lists the two loaders fill are those of start-up. -/
theorem lists_started {isRegular : List Byte → Bool} {directory : List Byte}
    {entries : List Entry} {outputs : Option (List Entry)} {analyzerList : List AnalyzerConfig}
    {outputList : List OutputConfig} {numAnalyzers numOutputs : Nat}
    (loadedAnalyzers : loadAnalyzersConfig isRegular directory (some entries)
      (List.replicate maxAnalyzerStreams .unset) maxAnalyzerStreams =
        .ok (numAnalyzers, analyzerList))
    (someAnalyzer : numAnalyzers ≠ 0)
    (loadedOutputs : loadOutputsConfig outputs (List.replicate maxOutputStreams .unset)
      maxOutputStreams = .ok (numOutputs, outputList))
    (someOutput : numOutputs ≠ 0) :
    Started (createMessageQueues ⟨analyzerList, outputList⟩)
      (min entries.length (maxAnalyzerStreams - 1)) := by
  obtain ⟨length, counted, elsewhere, here⟩ := load_entries_places loadedAnalyzers
  rw [← counted]
  constructor
  · exact Nat.pos_of_ne_zero someAnalyzer
  · simp only [maxAnalyzerStreams] at counted ⊢
    omega
  · simp [createMessageQueues, length]
  · intro position inside
    obtain ⟨entry, old, analyzer, _, _, made, written⟩ := here position (Nat.zero_le _) (by omega)
    obtain ⟨tag, script, _, _, tagged, scripted, _⟩ := load_analyzer_exact made
    exact ⟨{ analyzer with queue := some (.analyzer position) }, tag,
      by simp [createMessageQueues, written, scripted], tagged, rfl⟩
  · intro position outside inside
    have kept := elsewhere position (.inr (by omega))
    simp [createMessageQueues, kept, inside, AnalyzerConfig.unset]
  · have kept := load_outputs_log loadedOutputs someOutput
    exact ⟨{ logOutput with queue := some (.output 0) }, bytesOf "\x7blog\x7d",
      by simp [createMessageQueues, kept, logOutput], rfl, rfl⟩
  · intro position output stored tagged
    simp only [createMessageQueues, List.getElem?_mapIdx, Option.map_eq_some_iff] at stored
    obtain ⟨old, listed, same⟩ := stored
    by_cases sink : old.uri = none
    · rw [if_neg (not_not_intro sink)] at same
      subst same
      exact absurd sink (load_outputs_sinks loadedOutputs position listed tagged)
    · rw [if_pos sink] at same
      subst same
      rfl

/-- Start-up that succeeds has counted the analyzers, fifteen at most, and left them at the
front of their list, each with its queue. -/
theorem configuration_started {isRegular : List Byte → Bool} {directory : List Byte}
    {analyzers outputs : Option (List Entry)} {configuration : Configuration}
    (initialized :
      initializeConfiguration isRegular directory analyzers outputs = .ok configuration) :
    ∃ entries, analyzers = some entries ∧
      Started (createMessageQueues configuration)
        (min entries.length (maxAnalyzerStreams - 1)) := by
  obtain ⟨⟨numAnalyzers, analyzerList⟩, loadedAnalyzers, initialized⟩ := bind_returns initialized
  simp only at initialized
  split at initialized
  · cases initialized
  · rename_i someAnalyzer
    obtain ⟨⟨numOutputs, outputList⟩, loadedOutputs, initialized⟩ := bind_returns initialized
    simp only at initialized
    split at initialized
    · cases initialized
    · rename_i someOutput
      cases initialized
      cases analyzers with
      | none =>
        cases loadedAnalyzers
        exact absurd rfl someAnalyzer
      | some entries =>
        exact ⟨entries, rfl, lists_started loadedAnalyzers someAnalyzer loadedOutputs someOutput⟩

/-! ## Small configurations -/

/-- An entry of the configuration script that has these fields, all of them strings. -/
def entryOf (fields : List (String × String)) : Entry :=
  .table fun key =>
    match fields.find? fun field => field.1 == key with
    | some field => .string (bytesOf field.2)
    | none => .nil

/-- An entry for an analyzer with this tag; its script and its defaults are the same for all
tags. -/
def analyzerEntry (tag : String) : Entry :=
  entryOf [("tag", tag), ("script", "script.lua"), ("default_analyzer", ""),
    ("default_output", "")]

/-- An entry for an output with this tag, which is the name of its file as well. -/
def outputEntry (tag : String) : Entry := entryOf [("tag", tag), ("uri", "file:///" ++ tag)]

/-- Start-up refuses an entry without a script and names the field that is missing. -/
example : (match initializeConfiguration (fun _ => true) [] (some [entryOf [("tag", "a")]])
    (some []) with
    | .error (.missingField _ key) => key
    | _ => "") = "script" := by decide

end Dragonfly.Config
