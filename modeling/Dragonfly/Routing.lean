import Dragonfly.ConfigurationSize
import Dragonfly.Flywheel
import Dragonfly.Scalars

/-!
# Where a tag leads

`create_message_queues` gives every loaded entry a queue, `launch_analyzer_process`
starts a thread for each analyzer with a queue, and `startup_threads` one for each
output with a queue. A thread gets its entry: an analyzer thread loads the script
and reads the queue of it, an output thread opens the URI and reads the queue of it.
A call of `analyze_event` or `output_event` puts its message into the queue of the
first entry with the tag.

Creating a thread succeeds. The strings of the configuration script are C strings.
-/

namespace Dragonfly.Routing

open Config Events Flywheel

/-- The constant `MAX_WORKER_THREADS`: how many threads are started for each entry of a list. -/
def maxWorkerThreads : Nat := 1

/-- What a thread uses of its entry: the script it loads or the URI it opens, and the
queue its loop reads. -/
inductive Thread where
  | analyzer (script : Option (List Byte)) (queue : Option Queue)
  | output (uri : Option (List Byte)) (queue : Option Queue)
deriving DecidableEq

/-- The queue that a thread reads, which is the one of its entry. -/
def Thread.queue : Thread → Option Queue
  | .analyzer _ queue => queue
  | .output _ queue => queue

/-- The thread `lua_analyzer_thread` on its entry, whose script it loads and whose queue it
reads. -/
def luaAnalyzerThread (analyzer : AnalyzerConfig) : Thread :=
  .analyzer analyzer.script analyzer.queue

/-- The thread `lua_output_thread` on its entry, whose sink it opens and whose queue it reads. -/
def luaOutputThread (output : OutputConfig) : Thread := .output output.uri output.queue

/-- The threads a loop over a list creates: `MAX_WORKER_THREADS` for each entry with a
queue. -/
def createThreads {Entry : Type} (start : Entry → Thread) (list : List Entry) : List Thread :=
  list.flatMap fun entry =>
    if (start entry).queue ≠ none then List.replicate maxWorkerThreads (start entry) else []

/-- The analyzer threads that `launch_analyzer_process` starts, one for each entry with a queue. -/
def launchAnalyzerProcess (analyzers : List AnalyzerConfig) : List Thread :=
  createThreads luaAnalyzerThread analyzers

/-- The output threads that `startup_threads` starts, one for each entry with a queue. -/
def createOutputThreads (outputs : List OutputConfig) : List Thread :=
  createThreads luaOutputThread outputs

/-- The engine behind its start-up: the lists with their queues, and the threads that were
started. -/
structure Engine where
  configuration : Configuration
  threads : List Thread

/-- The lists are loaded, the queues are made and the threads are started. -/
def startup (isRegular : List Byte → Bool) (directory : List Byte)
    (analyzers outputs : Option (List Entry)) : Except LoadError Engine := do
  let loaded ← initializeConfiguration isRegular directory analyzers outputs
  let configuration := createMessageQueues loaded
  return ⟨configuration, launchAnalyzerProcess configuration.analyzers ++
    createOutputThreads configuration.outputs⟩

/-- The threads of the engine that read a queue, among all that were started. -/
def Engine.readers (engine : Engine) (queue : Queue) : List Thread :=
  engine.threads.filter fun thread => decide (thread.queue = some queue)

/-- The messages in each of the queues, in the order in which they were put there. -/
abbrev Queues := Queue → List (List Byte)

/-- One more message in a queue; `msgqueue_send` cuts it to `MAX_MESSAGE_SIZE` bytes. -/
def Queues.put (queues : Queues) (queue : Queue) (message : List Byte) : Queues :=
  Function.update queues queue (queues queue ++ [message.take maxBufferSize])

/-- The queues after a call of a script. Sending without a queue fails and changes
nothing. -/
def queuesAfter (queues : Queues) : Call Sending → Option Queues
  | .returned (some (some queue, message)) => some (queues.put queue message)
  | .returned (some (none, _)) => some queues
  | .returned none => some queues
  | .raised _ => some queues
  | .undefined => none

/-- The tags of the entries are pairwise different, ignoring case. -/
def DistinctTags (entries : List Entry) : Prop :=
  entries.Pairwise fun first second =>
    ∀ left ∈ first.text "tag", ∀ right ∈ second.text "tag", strcasecmp left right ≠ 0

/-- The name is the tag of an entry, ignoring case. -/
def Tagged (name : List Byte) (entry : Entry) : Prop :=
  ∃ tag, entry.text "tag" = some tag ∧ strcasecmp name tag = 0

/-- A call for the tag of an entry puts one message into the one queue whose only reader
runs the script of the entry, or opened its URI, and this is no queue of an internal
output; a call for another tag changes nothing. Scripts and URIs are found under `path`
and `sink` of what is configured. -/
structure Routed {Value : Type} (lua : Lua Value) (engine : Engine)
    (analyzers outputs : List Entry) (path sink : List Byte → List Byte) : Prop where
  analyze : ∀ (queues : Queues) (name value : Value) (text : List Byte) (entry : Entry),
    lua.toString name = some text → entry ∈ analyzers → Tagged text entry →
      ∃ script queue, entry.text "script" = some script ∧
        engine.readers queue = [.analyzer (some (path script)) (some queue)] ∧
        queuesAfter queues (analyzeEvent lua engine.configuration [name, value]) =
          some (queues.put queue (lua.pack [name, value]))
  output : ∀ (queues : Queues) (name message : Value) (text : List Byte) (entry : Entry),
    lua.toString name = some text → entry ∈ outputs → Tagged text entry →
      ∃ uri queue, entry.text "uri" = some uri ∧
        engine.readers queue = [.output (some (sink uri)) (some queue)] ∧
        queue ≠ .output 0 ∧ queue ≠ .output 1 ∧
        queuesAfter queues (outputEvent lua engine.configuration [name, message]) =
          some (queues.put queue ((lua.toString message).getD []))
  analyzeUnknown : ∀ (queues : Queues) (name value : Value) (text : List Byte),
    lua.toString name = some text → (∀ entry ∈ analyzers, ¬ Tagged text entry) →
      queuesAfter queues (analyzeEvent lua engine.configuration [name, value]) = some queues
  outputUnknown : ∀ (queues : Queues) (name message : Value) (text : List Byte),
    lua.toString name = some text → (∀ entry ∈ outputs, ¬ Tagged text entry) →
      queuesAfter queues (outputEvent lua engine.configuration [name, message]) = some queues

/-- The path of a script as it would be if no buffer cut it: an absolute path as it is, any
other below the directory. -/
def fullPath (directory path : List Byte) : List Byte :=
  if path.head? = some 47 then path else directory ++ 47 :: path

/-! ## The scans -/

/-- A scan that meets no equal tag before the first missing one finds nothing. -/
theorem search_absent {name : List Byte}
    {rows : List (Option (List Byte) × Option (List Byte))} (start : Nat) {position : Nat}
    {second : Option (List Byte)}
    (earlier : ∀ before, before < position → ∃ listed other,
      rows[before]? = some (some listed, some other) ∧ strcasecmp name other ≠ 0)
    (last : rows[position]? = some (none, second)) : search name start rows = .absent := by
  induction position generalizing rows start with
  | zero =>
    cases rows with
    | nil => simp at last
    | cons row rest =>
      obtain rfl : row = (none, second) := by simpa using last
      rw [search]
  | succ position inductionHypothesis =>
    cases rows with
    | nil => simp at last
    | cons row rest =>
      obtain ⟨listed, other, first, different⟩ := earlier 0 (Nat.succ_pos _)
      obtain rfl : row = (some listed, some other) := by simpa using first
      rw [search, if_neg different]
      apply inductionHypothesis (start + 1)
      · intro before inside
        simpa using earlier (before + 1) (Nat.succ_lt_succ inside)
      · simpa using last

/-- The rows of a scan start with the tags of these entries. -/
def TagRows (entries : List Entry) (rows : List (Option (List Byte) × Option (List Byte))) :
    Prop :=
  ∀ (position : Nat) (entry : Entry), entries[position]? = some entry →
    ∃ tag, entry.text "tag" = some tag ∧ rows[position]? = some (some tag, some tag)

/-- A scan for a name finds the entry that has it as its tag, because no other entry has it. -/
theorem search_entry {entries : List Entry} {name : List Byte}
    {rows : List (Option (List Byte) × Option (List Byte))} (start : Nat)
    (distinct : DistinctTags entries)
    (listed : TagRows entries rows)
    {position : Nat} {entry : Entry} (here : entries[position]? = some entry)
    (tagged : Tagged name entry) : search name start rows = .found (start + position) := by
  obtain ⟨tag, own, named⟩ := tagged
  obtain ⟨_, same, row⟩ := listed position entry here
  obtain rfl := Option.some.inj (own.symm.trans same)
  refine search_found start ?_ row named
  intro before inside
  have within : position < entries.length := (List.getElem?_eq_some_iff.mp here).1
  have there := List.getElem?_eq_getElem (Nat.lt_trans inside within)
  obtain ⟨other, others, earlier⟩ := listed before _ there
  refine ⟨other, other, earlier, fun equal => ?_⟩
  have apart := List.pairwise_iff_getElem.mp distinct before position (by omega) within inside
  rw [(List.getElem?_eq_some_iff.mp here).2] at apart
  exact apart other others tag own (strcasecmp_joined equal named)

/-- A scan for a name that is no tag of theirs finds nothing. -/
theorem search_unknown {entries : List Entry} {name : List Byte}
    {rows : List (Option (List Byte) × Option (List Byte))} (start : Nat)
    (listed : TagRows entries rows)
    (last : rows[entries.length]? = some (none, none))
    (unknown : ∀ entry ∈ entries, ¬ Tagged name entry) :
    search name start rows = .absent := by
  refine search_absent start ?_ last
  intro before inside
  obtain ⟨tag, own, row⟩ := listed before _ (List.getElem?_eq_getElem inside)
  exact ⟨tag, tag, row, fun named => unknown _ (List.getElem_mem inside) ⟨tag, own, named⟩⟩

/-! ## The threads -/

/-- The threads of an entry that read a queue: its one thread, if the queue is its own. -/
theorem entry_threads {Entry : Type} (start : Entry → Thread) (first : Entry) (rest : List Entry)
    (queue : Queue) :
    (createThreads start (first :: rest)).filter
        (fun thread => decide (thread.queue = some queue)) =
      (if (start first).queue = some queue then [start first] else []) ++
        (createThreads start rest).filter (fun thread => decide (thread.queue = some queue)) := by
  rw [createThreads, List.flatMap_cons, List.filter_append]
  congr 1
  by_cases own : (start first).queue = some queue
  · simp [own, maxWorkerThreads]
  · rw [if_neg own, List.filter_eq_nil_iff]
    intro thread made
    split at made
    · obtain rfl := List.eq_of_mem_replicate made
      simpa using own
    · cases made

/-- A queue of no entry is read by no thread of the list. -/
theorem create_threads_other {Entry : Type} (start : Entry → Thread) (list : List Entry)
    {queue : Queue} (other : ∀ entry ∈ list, (start entry).queue ≠ some queue) :
    (createThreads start list).filter (fun thread => decide (thread.queue = some queue)) = [] := by
  induction list with
  | nil => rfl
  | cons first rest inductionHypothesis =>
    rw [entry_threads, if_neg (other first List.mem_cons_self), List.nil_append]
    exact inductionHypothesis fun entry listed => other entry (List.mem_cons_of_mem _ listed)

/-- Where each entry of a list has either no queue or the one of its place, none has the
queue of a place outside the list. -/
theorem placed_apart {Entry : Type} {start : Entry → Thread} {make : Nat → Queue}
    {list : List Entry} {queue : Queue} (offset : Nat)
    (own : ∀ (position : Nat) (entry : Entry), list[position]? = some entry →
      (start entry).queue = none ∨ (start entry).queue = some (make (offset + position)))
    (apart : ∀ position, make (offset + position) ≠ queue) :
    ∀ entry ∈ list, (start entry).queue ≠ some queue := by
  intro entry listed
  obtain ⟨position, inside, stored⟩ := List.getElem_of_mem listed
  rcases own position entry (List.getElem?_eq_some_iff.mpr ⟨inside, stored⟩) with absent | kept
  · simp [absent]
  · simpa [kept] using apart position

/-- The queue of a place is then read by the one thread of that place. -/
theorem create_threads_own {Entry : Type} (start : Entry → Thread) (make : Nat → Queue)
    (different : Function.Injective make) {list : List Entry} (offset : Nat)
    (own : ∀ (position : Nat) (entry : Entry), list[position]? = some entry →
      (start entry).queue = none ∨ (start entry).queue = some (make (offset + position)))
    {position : Nat} {entry : Entry} (here : list[position]? = some entry)
    (queued : (start entry).queue = some (make (offset + position))) :
    (createThreads start list).filter
      (fun thread => decide (thread.queue = some (make (offset + position)))) =
        [start entry] := by
  induction list generalizing offset position with
  | nil => simp at here
  | cons first rest inductionHypothesis =>
    have later (place : Nat) (other : Entry) (stored : rest[place]? = some other) :
        (start other).queue = none ∨ (start other).queue = some (make (offset + 1 + place)) := by
      have shifted := own (place + 1) other (by simpa using stored)
      rwa [Nat.add_comm place 1, ← Nat.add_assoc] at shifted
    cases position with
    | zero =>
      obtain rfl : first = entry := by simpa using here
      have others : ∀ other ∈ rest, (start other).queue ≠ some (make (offset + 0)) :=
        placed_apart (offset + 1) later fun place same => by
          have equal := different same
          omega
      rw [entry_threads, if_pos queued, create_threads_other start rest others]
      rfl
    | succ place =>
      have shifted : offset + (place + 1) = offset + 1 + place := by omega
      have elsewhere : (start first).queue ≠ some (make (offset + (place + 1))) := by
        rcases own 0 first rfl with absent | kept
        · simp [absent]
        · intro same
          have equal := different (Option.some.inj (kept.symm.trans same))
          omega
      rw [entry_threads, if_neg elsewhere, List.nil_append, shifted]
      exact inductionHypothesis (offset + 1) later (by simpa using here) (by rw [← shifted, queued])

/-! ## The lists -/

/-- The analyzers after start-up: each entry at its place with its queue, then none. -/
structure AnalyzersPlaced (directory : List Byte) (entries : List Entry)
    (list : List AnalyzerConfig) : Prop where
  placed : ∀ (position : Nat) (entry : Entry), entries[position]? = some entry →
    ∃ tag script analyzer, entry.text "tag" = some tag ∧ entry.text "script" = some script ∧
      list[position]? = some analyzer ∧ analyzer.tag = some tag ∧
      analyzer.script = some (scriptPath directory script) ∧
      analyzer.queue = some (.analyzer position)
  last : list[entries.length]? = some .unset
  own : ∀ (position : Nat) (analyzer : AnalyzerConfig), list[position]? = some analyzer →
    analyzer.queue = none ∨ analyzer.queue = some (.analyzer position)

/-- The outputs after start-up: each entry two places behind, then none. -/
structure OutputsPlaced (entries : List Entry) (list : List OutputConfig) : Prop where
  placed : ∀ (position : Nat) (entry : Entry), entries[position]? = some entry →
    ∃ tag uri output, entry.text "tag" = some tag ∧ entry.text "uri" = some uri ∧
      list[position + 2]? = some output ∧ output.tag = some tag ∧
      output.uri = some (uri.take pathMax) ∧ output.queue = some (.output (position + 2))
  last : list[entries.length + 2]? = some .unset
  own : ∀ (position : Nat) (output : OutputConfig), list[position]? = some output →
    output.queue = none ∨ output.queue = some (.output position)

/-- Up to fifteen analyzers are placed in their list, each one at its own position and with its
queue. -/
theorem analyzers_placed {isRegular : List Byte → Bool} {directory : List Byte}
    {entries : List Entry} {count : Nat} {list : List AnalyzerConfig}
    {outputs : List OutputConfig}
    (loaded : loadAnalyzersConfig isRegular directory (some entries)
      (List.replicate maxAnalyzerStreams .unset) maxAnalyzerStreams = .ok (count, list))
    (few : entries.length < maxAnalyzerStreams) :
    AnalyzersPlaced directory entries (createMessageQueues ⟨list, outputs⟩).analyzers := by
  obtain ⟨length, counted, elsewhere, here⟩ := load_entries_places loaded
  have all : count = entries.length := by
    simp only [maxAnalyzerStreams] at counted few
    omega
  constructor
  · intro position entry stored
    have inside : position < entries.length := (List.getElem?_eq_some_iff.mp stored).1
    obtain ⟨origin, old, analyzer, same, _, made, written⟩ :=
      here position (Nat.zero_le _) (by omega)
    obtain rfl : entry = origin := Option.some.inj (stored.symm.trans (by simpa using same))
    obtain ⟨tag, script, tagged, scripted, ownTag, ownScript, _⟩ := load_analyzer_exact made
    refine ⟨tag, script, { analyzer with queue := some (.analyzer position) }, tagged, scripted,
      ?_, ownTag, ownScript, rfl⟩
    simp [createMessageQueues, written, ownScript]
  · have kept := elsewhere entries.length (.inr (by omega))
    simp [createMessageQueues, kept, few, AnalyzerConfig.unset]
  · intro position analyzer stored
    simp only [createMessageQueues, List.getElem?_mapIdx, Option.map_eq_some_iff] at stored
    obtain ⟨old, listed, same⟩ := stored
    split at same
    · exact .inr (by rw [← same])
    · rename_i unscripted
      left
      by_cases inside : position < entries.length
      · obtain ⟨_, _, config, _, _, made, written⟩ := here position (Nat.zero_le _) (by omega)
        obtain rfl : config = old := Option.some.inj (written.symm.trans listed)
        obtain ⟨_, _, _, _, _, scripted, _⟩ := load_analyzer_exact made
        exact absurd (by rw [scripted]; exact Option.some_ne_none _) unscripted
      · rw [elsewhere position (.inr (by omega))] at listed
        rw [← same, List.eq_of_mem_replicate (List.mem_of_getElem? listed)]
        rfl

/-- Up to three outputs are placed behind the internal ones. -/
theorem outputs_placed {entries : List Entry} {count : Nat} {list : List OutputConfig}
    {analyzers : List AnalyzerConfig}
    (loaded : loadOutputsConfig (some entries) (List.replicate maxOutputStreams .unset)
      maxOutputStreams = .ok (count, list))
    (few : entries.length + 2 < maxOutputStreams) :
    OutputsPlaced entries (createMessageQueues ⟨analyzers, list⟩).outputs := by
  obtain ⟨_, _, _, unset, unqueued⟩ := load_outputs_front loaded
  obtain ⟨⟨more, final⟩, remaining, returned⟩ := bind_returns loaded
  obtain ⟨rfl, rfl⟩ : more + 2 = count ∧ final = list := by
    simpa [pure, Except.pure] using returned
  obtain ⟨_, counted, elsewhere, here⟩ := load_entries_places remaining
  have all : more = entries.length := by
    simp only [maxOutputStreams] at counted few
    omega
  have vacant (position : Nat) (outside : entries.length + 2 ≤ position)
      (inside : position < maxOutputStreams) : final[position]? = some .unset :=
    unset position (by omega) inside
  constructor
  · intro position entry stored
    have inside : position < entries.length := (List.getElem?_eq_some_iff.mp stored).1
    obtain ⟨origin, old, output, same, _, made, written⟩ :=
      here (position + 2) (by omega) (by omega)
    obtain rfl : entry = origin := Option.some.inj (stored.symm.trans (by simpa using same))
    obtain ⟨tag, uri, tagged, located, ownTag, ownUri, _⟩ := load_output_exact made
    refine ⟨tag, uri, { output with queue := some (.output (position + 2)) }, tagged, located,
      ?_, ownTag, ownUri, rfl⟩
    simp [createMessageQueues, written, ownUri]
  · simp [createMessageQueues, vacant entries.length.succ.succ (Nat.le_refl _) few,
      OutputConfig.unset]
  · intro position output stored
    simp only [createMessageQueues, List.getElem?_mapIdx, Option.map_eq_some_iff] at stored
    obtain ⟨old, listed, same⟩ := stored
    split at same
    · exact .inr (by rw [← same])
    · left
      rw [← same]
      by_cases inside : position < more + 2
      · obtain ⟨config, written, _, _, noQueue⟩ := unqueued position inside
        obtain rfl : config = old := Option.some.inj (written.symm.trans listed)
        exact noQueue
      · have bounded := (List.getElem?_eq_some_iff.mp listed).1
        rw [vacant position (by omega) (by omega)] at listed
        cases listed
        rfl

/-- What start-up leaves: the lists are placed, and the threads are those of the lists. -/
theorem startup_placed {isRegular : List Byte → Bool} {directory : List Byte}
    {analyzers outputs : List Entry} {engine : Engine}
    (started : startup isRegular directory (some analyzers) (some outputs) = .ok engine)
    (fewAnalyzers : analyzers.length < maxAnalyzerStreams)
    (fewOutputs : outputs.length + 2 < maxOutputStreams) :
    AnalyzersPlaced directory analyzers engine.configuration.analyzers ∧
      OutputsPlaced outputs engine.configuration.outputs ∧
      engine.threads = launchAnalyzerProcess engine.configuration.analyzers ++
        createOutputThreads engine.configuration.outputs := by
  obtain ⟨configuration, initialized, started⟩ := bind_returns started
  cases started
  obtain ⟨⟨numAnalyzers, analyzerList⟩, loadedAnalyzers, initialized⟩ := bind_returns initialized
  simp only at initialized
  split at initialized
  · cases initialized
  · obtain ⟨⟨numOutputs, outputList⟩, loadedOutputs, initialized⟩ := bind_returns initialized
    simp only at initialized
    split at initialized
    · cases initialized
    · cases initialized
      exact ⟨analyzers_placed loadedAnalyzers fewAnalyzers,
        outputs_placed loadedOutputs fewOutputs, rfl⟩

section Placed

variable {directory : List Byte} {analyzers outputs : List Entry} {engine : Engine}
  (analyzersAt : AnalyzersPlaced directory analyzers engine.configuration.analyzers)
  (outputsAt : OutputsPlaced outputs engine.configuration.outputs)
  (created : engine.threads = launchAnalyzerProcess engine.configuration.analyzers ++
    createOutputThreads engine.configuration.outputs)

include analyzersAt outputsAt created

/-- The only thread that reads the queue of an analyzer is the one of this analyzer. -/
theorem analyzer_readers {position : Nat} {analyzer : AnalyzerConfig}
    (here : engine.configuration.analyzers[position]? = some analyzer)
    (queued : analyzer.queue = some (.analyzer position)) :
    engine.readers (.analyzer position) = [luaAnalyzerThread analyzer] := by
  have own := create_threads_own luaAnalyzerThread .analyzer
    (fun _ _ same => Queue.analyzer.inj same) 0
    (fun place other stored => by
      simpa [luaAnalyzerThread, Thread.queue] using analyzersAt.own place other stored) here
    (by simpa [luaAnalyzerThread, Thread.queue] using queued)
  have others := create_threads_other luaOutputThread engine.configuration.outputs
    (@placed_apart _ luaOutputThread .output _ (.analyzer position) 0
      (fun place other stored => by
        simpa [luaOutputThread, Thread.queue] using outputsAt.own place other stored) (by simp))
  rw [Nat.zero_add] at own
  rw [Engine.readers, created, List.filter_append, launchAnalyzerProcess, createOutputThreads, own,
    others, List.append_nil]

/-- The only thread that reads the queue of an output is the one of this output. -/
theorem output_readers {position : Nat} {output : OutputConfig}
    (here : engine.configuration.outputs[position]? = some output)
    (queued : output.queue = some (.output position)) :
    engine.readers (.output position) = [luaOutputThread output] := by
  have own := create_threads_own luaOutputThread .output
    (fun _ _ same => Queue.output.inj same) 0
    (fun place other stored => by
      simpa [luaOutputThread, Thread.queue] using outputsAt.own place other stored) here
    (by simpa [luaOutputThread, Thread.queue] using queued)
  have others := create_threads_other luaAnalyzerThread engine.configuration.analyzers
    (@placed_apart _ luaAnalyzerThread .analyzer _ (.output position) 0
      (fun place other stored => by
        simpa [luaAnalyzerThread, Thread.queue] using analyzersAt.own place other stored)
      (by simp))
  rw [Nat.zero_add] at own
  rw [Engine.readers, created, List.filter_append, launchAnalyzerProcess, createOutputThreads, own,
    others, List.nil_append]

end Placed

/-! ## The calls -/

/-- Placed lists route by tag: a script is found under its path, which `PATH_MAX` bounds,
and of a URI the first `PATH_MAX` bytes are opened. -/
theorem placed_routed {Value : Type} (lua : Lua Value) {directory : List Byte}
    {analyzers outputs : List Entry} {engine : Engine}
    (analyzersAt : AnalyzersPlaced directory analyzers engine.configuration.analyzers)
    (outputsAt : OutputsPlaced outputs engine.configuration.outputs)
    (created : engine.threads = launchAnalyzerProcess engine.configuration.analyzers ++
      createOutputThreads engine.configuration.outputs)
    (analyzersDiffer : DistinctTags analyzers) (outputsDiffer : DistinctTags outputs) :
    Routed lua engine analyzers outputs (scriptPath directory) (List.take pathMax) := by
  have analyzerRows : TagRows analyzers (engine.configuration.analyzers.map fun analyzer =>
      (analyzer.tag, analyzer.tag)) := by
    intro position entry stored
    obtain ⟨tag, _, analyzer, tagged, _, placed, own, _⟩ :=
      analyzersAt.placed position entry stored
    exact ⟨tag, tagged, by simp [placed, own]⟩
  have outputRows : TagRows outputs ((engine.configuration.outputs.drop 2).map fun output =>
      (output.tag, output.tag)) := by
    intro position entry stored
    obtain ⟨tag, _, output, tagged, _, placed, own, _⟩ := outputsAt.placed position entry stored
    exact ⟨tag, tagged, by simp [Nat.add_comm 2, placed, own]⟩
  constructor
  · intro queues name value text entry named listed tagged
    obtain ⟨position, _, here⟩ := List.getElem_of_mem listed
    have stored : analyzers[position]? = some entry := by rw [← here, List.getElem?_eq_getElem]
    obtain ⟨_, script, analyzer, _, scripted, placed, _, path, queued⟩ :=
      analyzersAt.placed position entry stored
    have found := search_entry 0 analyzersDiffer analyzerRows stored tagged
    refine ⟨script, .analyzer position, scripted, ?_, ?_⟩
    · rw [analyzer_readers analyzersAt outputsAt created placed queued, luaAnalyzerThread, path,
        queued]
    · simp [analyzeEvent, named, found, placed, queued, queuesAfter]
  · intro queues name message text entry named listed tagged
    obtain ⟨position, _, here⟩ := List.getElem_of_mem listed
    have stored : outputs[position]? = some entry := by rw [← here, List.getElem?_eq_getElem]
    obtain ⟨_, uri, output, _, located, placed, _, opened, queued⟩ :=
      outputsAt.placed position entry stored
    have found := search_entry 2 outputsDiffer outputRows stored tagged
    refine ⟨uri, .output (position + 2), located, ?_, by simp, by simp, ?_⟩
    · rw [output_readers analyzersAt outputsAt created placed queued, luaOutputThread, opened,
        queued]
    · rw [Nat.add_comm] at found
      simp only [outputEvent, named, found, placed, Option.bind_some, queued, queuesAfter]
  · intro queues name value text named unknown
    have absent := search_unknown 0 analyzerRows
      (by simp [analyzersAt.last, AnalyzerConfig.unset]) unknown
    simp [analyzeEvent, named, absent, queuesAfter]
  · intro queues name message text named unknown
    have absent := search_unknown 2 outputRows
      (by simp [Nat.add_comm 2, outputsAt.last, OutputConfig.unset]) unknown
    simp only [outputEvent, named, absent, queuesAfter]

/-- Routing by tag: with up to fifteen analyzers and up to three outputs, whose tags
differ, every call goes where the configuration says. -/
theorem events_routed {Value : Type} (lua : Lua Value) (isRegular : List Byte → Bool)
    (directory : List Byte) (analyzers outputs : List Entry) (engine : Engine)
    (fewAnalyzers : analyzers.length ≤ 15) (fewOutputs : outputs.length ≤ 3)
    (analyzersDiffer : DistinctTags analyzers) (outputsDiffer : DistinctTags outputs)
    (started : startup isRegular directory (some analyzers) (some outputs) = .ok engine) :
    Routed lua engine analyzers outputs (scriptPath directory) (List.take pathMax) := by
  obtain ⟨analyzersAt, outputsAt, created⟩ := startup_placed started
    (by simp only [maxAnalyzerStreams]; omega) (by simp only [maxOutputStreams]; omega)
  exact placed_routed lua analyzersAt outputsAt created analyzersDiffer outputsDiffer

/-- The law at work for two analyzers and two outputs whose tags differ within their tables; one
tag is in both. -/
theorem events_routed_two : ∃ engine,
    startup (fun _ => true) [] (some [analyzerEntry "a", analyzerEntry "b"])
      (some [outputEntry "c", outputEntry "a"]) = .ok engine ∧
    Routed Scalars.scalars engine [analyzerEntry "a", analyzerEntry "b"]
      [outputEntry "c", outputEntry "a"] (scriptPath []) (List.take pathMax) :=
  ⟨_, rfl, events_routed Scalars.scalars (fun _ => true) [] _ _ _ (by decide) (by decide)
    (by simp only [DistinctTags]; decide) (by simp only [DistinctTags]; decide) rfl⟩

/-- An entry for an output with this URI, under the tag `"a"`. -/
def locatedOutput (uri : List Byte) : Entry :=
  .table fun key => if key = "tag" then .string (bytesOf "a") else .string uri

/-- The URI of a file whose path alone has more than `PATH_MAX` bytes. -/
def longUri : List Byte := bytesOf "file:///" ++ List.replicate (pathMax + 1) 102

/-- What is configured is not always what is opened: the end of a long URI is cut. -/
theorem long_uri_cut : ¬ ∀ (isRegular : List Byte → Bool) (directory : List Byte)
    (analyzers outputs : List Entry) (engine : Engine),
    1 ≤ analyzers.length → analyzers.length ≤ 15 → 1 ≤ outputs.length → outputs.length ≤ 3 →
    DistinctTags analyzers → DistinctTags outputs →
    startup isRegular directory (some analyzers) (some outputs) = .ok engine →
    Routed Scalars.scalars engine analyzers outputs (fullPath directory) id := by
  intro routed
  obtain ⟨engine, started⟩ : ∃ engine, startup (fun _ => true) [] (some [analyzerEntry "a"])
      (some [locatedOutput longUri]) = .ok engine := ⟨_, rfl⟩
  obtain ⟨analyzersAt, outputsAt, created⟩ := startup_placed started (by decide) (by decide)
  have tagged : Tagged (bytesOf "a") (locatedOutput longUri) := ⟨bytesOf "a", rfl, by decide⟩
  obtain ⟨uri, queue, located, reader, _, _, sent⟩ :=
    (routed _ _ _ _ engine (by decide) (by decide) (by simp) (by simp)
      (List.pairwise_singleton _ _) (List.pairwise_singleton _ _) started).output (fun _ => [])
      Scalars.letterA Scalars.letterA _ _ rfl List.mem_cons_self tagged
  obtain ⟨other, target, found, opener, _, _, put⟩ :=
    (placed_routed Scalars.scalars analyzersAt outputsAt created (List.pairwise_singleton _ _)
      (List.pairwise_singleton _ _)).output (fun _ => []) Scalars.letterA Scalars.letterA _ _ rfl
      List.mem_cons_self tagged
  obtain rfl : uri = other := Option.some.inj (located.symm.trans found)
  obtain rfl : queue = target := by
    by_contra apart
    have filled := congrFun (Option.some.inj (sent.symm.trans put)) queue
    simp [Queues.put, apart] at filled
  rw [reader] at opener
  have whole : uri = uri.take pathMax := by simpa using opener
  have long : uri = longUri := by
    rw [← Option.some.inj located]
    apply cString_whole longUri
    intro present
    rcases List.mem_append.mp present with scheme | path
    · exact absurd scheme (by decide)
    · exact absurd (List.eq_of_mem_replicate path) (by decide)
  have short : longUri.length ≤ pathMax := by
    rw [← long, whole]
    exact List.length_take_le _ _
  exact absurd short (by rw [longUri, List.length_append, List.length_replicate]; omega)

end Dragonfly.Routing
