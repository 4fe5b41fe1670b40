import Dragonfly.Scalars
import Dragonfly.Timers

/-!
# Where timers go and what they carry

The slot a call of `timer_event` arms is the one at the place of the analyzer it
names. Behind the first place its queue is that of the analyzer; the first slot
has the queue of the log, so that a timer for the first analyzer goes to the log.

The message of a slot is a copy made by `strndup`, sent at the length of the
packed arguments. It is the packed message unless that holds a zero byte before
its end; the send then reads past the copy.
-/

namespace Dragonfly.Timers

open Config Events Scalars

section Delivery

variable {Value : Type} {lua : Lua Value} {configuration : Configuration} {count : Nat}

/-- The slots of the analyzers at start-up: the first has the queue of the log. -/
theorem startup_slot (started : Started configuration count) {position : Nat}
    (inside : position < count) :
    ∃ timer tag, (startupTimers configuration)[position]? = some timer ∧ timer.tag = some tag ∧
      timer.queue = some (if position = 0 then .output 0 else .analyzer position) := by
  have bounded := started.bounded
  have listed : position < maxAnalyzerStreams := by omega
  by_cases first : position = 0
  · subst first
    obtain ⟨output, tag, stored, tagged, queue⟩ := started.logging
    refine ⟨{ MleTimer.unset with tag := output.tag, queue := output.queue }, tag, ?_, tagged,
      queue⟩
    simp [startupTimers, listed, stored]
  · obtain ⟨analyzer, tag, stored, tagged, queue⟩ := started.configured position inside
    refine ⟨{ MleTimer.unset with tag := analyzer.tag, queue := analyzer.queue }, tag, ?_, tagged,
      by simp [queue, first]⟩
    simp [startupTimers, listed, stored, first, queue]

/-- The slot behind those of the analyzers ends the list of timers, because it is as `memset`
has left it. -/
theorem startup_end (started : Started configuration count) :
    (startupTimers configuration)[count]? = some .unset := by
  have bounded := started.bounded
  have positive : count ≠ 0 := Nat.ne_of_gt started.positive
  have vacant := started.vacant count (Nat.le_refl _) bounded
  simp [startupTimers, bounded, positive, vacant, AnalyzerConfig.unset]

/-- Timers with the tags and queues of start-up have those of the analyzers in their slots. -/
theorem routed_slot (started : Started configuration count) {timers : List MleTimer}
    (routes : timers.map MleTimer.route = (startupTimers configuration).map MleTimer.route)
    {position : Nat} (inside : position < count) :
    ∃ timer tag, timers[position]? = some timer ∧ timer.tag = some tag ∧
      timer.queue = some (if position = 0 then .output 0 else .analyzer position) := by
  obtain ⟨timer, tag, stored, tagged, queue⟩ := startup_slot started inside
  have same := congrArg (fun routes => routes[position]?) routes
  simp only [List.getElem?_map, stored, Option.map_some, Option.map_eq_some_iff] at same
  obtain ⟨standing, listed, route⟩ := same
  obtain ⟨sameTag, sameQueue⟩ := Prod.mk.inj route
  exact ⟨standing, tag, listed, sameTag.trans tagged, sameQueue.trans queue⟩

/-- In every run the slots of the analyzers keep their tags and queues. -/
theorem standing_slot (started : Started configuration count) {state : TimerState}
    (reached : (system lua configuration).Reachable state) {position : Nat}
    (inside : position < count) :
    ∃ timer tag, state.timers[position]? = some timer ∧ timer.tag = some tag ∧
      timer.queue = some (if position = 0 then .output 0 else .analyzer position) :=
  routed_slot started (reachable_routes reached) inside

/-- In every run a slot without a tag ends the list, so a sweep takes place. -/
theorem standing_sweep (started : Started configuration count) {state : TimerState}
    (reached : (system lua configuration).Reachable state) (clock : Nat → Int)
    (beyond : Nat → Nat → Byte) : ∃ result, sweep clock beyond 0 state.timers = some result := by
  have routes := congrArg (fun routes => routes[count]?) (reachable_routes reached)
  simp only [List.getElem?_map, startup_end started, Option.map_some, Option.map_eq_some_iff]
    at routes
  obtain ⟨last, listed, route⟩ := routes
  exact sweep_ends clock beyond 0 (List.mem_of_getElem? listed) (Prod.mk.inj route).1

/-- A name of an analyzer leads to the slot at the analyzer's place. -/
theorem named_slot (started : Started configuration count)
    (different : DifferentTags configuration) {state : TimerState}
    (reached : (system lua configuration).Reachable state) {position : Nat} {name tag : List Byte}
    (inside : position < count) (tagged : analyzerTag configuration position = some tag)
    (named : strcasecmp name tag = 0) :
    timerSlot configuration.analyzers state.timers name = .found position := by
  -- the row the scan sees at a place: the tag of the slot and the tag of the analyzer
  have row (place : Nat) (before : place < count) : ∃ guard listed,
      (List.zipWith (fun timer analyzer => (timer.tag, analyzer.tag)) state.timers
        configuration.analyzers)[place]? = some (some guard, some listed) ∧
      analyzerTag configuration place = some listed := by
    obtain ⟨timer, guard, slot, guarded, _⟩ := standing_slot started reached before
    obtain ⟨analyzer, listed, stored, own, _⟩ := started.configured place before
    exact ⟨guard, listed, by simp [List.getElem?_zipWith, slot, stored, guarded, own],
      by simp [analyzerTag, stored, own]⟩
  obtain ⟨guard, listed, here, own⟩ := row position inside
  obtain rfl : tag = listed := Option.some.inj (tagged.symm.trans own)
  have found := search_found 0 (fun place before => by
    obtain ⟨guard, other, there, theirs⟩ := row place (by omega)
    exact ⟨guard, other, there, fun same => different place position other tag (by omega) theirs
      tagged (strcasecmp_joined same named)⟩) here named
  rwa [Nat.zero_add] at found

/-- The call finds a slot for its tag and arms it. -/
structure Arms (lua : Lua Value) (configuration : Configuration) (state : TimerState)
    (arguments : List Value) (now : Int) (slot : Nat) (after : TimerState) : Prop where
  found : ∃ tag seconds value name, arguments = [tag, seconds, value] ∧
    lua.toString tag = some name ∧
    timerSlot configuration.analyzers state.timers name = .found slot
  called : (system lua configuration).next state (.timerEvent arguments now) = some after

/-- A call that arms a slot is a step of the run, so the state behind it is reachable as well. -/
theorem Arms.reached {state after : TimerState} {arguments : List Value} {now : Int} {slot : Nat}
    (arms : Arms lua configuration state arguments now slot after)
    (before : (system lua configuration).Reachable state) :
    (system lua configuration).Reachable after :=
  before.extend (.timerEvent arguments now) trivial arms.called

/-- An armed slot stands in the list with the message, and every other slot is as it
was. -/
theorem Arms.stored {state after : TimerState} {arguments : List Value} {now : Int} {slot : Nat}
    (arms : Arms lua configuration state arguments now slot after) :
    after.sent = state.sent ∧ ∃ seconds,
      after.timers = state.timers.modify slot (armed lua arguments seconds now) := by
  obtain ⟨tag, seconds, value, name, rfl, text, found⟩ := arms.found
  have called := arms.called
  simp only [system, timerEvent, text, found] at called
  cases called
  exact ⟨rfl, toInt (lua.toInteger seconds), rfl⟩

/-- What the slot sends once it is due goes to the queue, and so does everything sent
from the slot in a run. -/
structure Delivers (lua : Lua Value) (configuration : Configuration) (state : TimerState)
    (slot : Nat) (queue : Option Queue) : Prop where
  routed : queueAt state.timers slot = queue
  fires : ∀ clock beyond timer, state.timers[slot]? = some timer → timer.Due (clock slot) →
    ∃ after message, (system lua configuration).next state (.sweep clock beyond) = some after ∧
      (after.sent.drop state.sent.length).filter (fun sent => decide (sent.slot = slot)) =
        [⟨slot, queue, message⟩]
  only : ∀ later, Relation.ReflTransGen ((system lua configuration).Step fun _ _ => True) state
    later → ∀ sent ∈ later.sent.drop state.sent.length, sent.slot = slot → sent.queue = queue

/-- A due slot sends its message, and nothing else goes out under its number. -/
theorem due_slot_fires (started : Started configuration count) {state : TimerState}
    (reached : (system lua configuration).Reachable state) {slot : Nat} (inside : slot < count)
    {timer : MleTimer} (stored : state.timers[slot]? = some timer) {clock : Nat → Int}
    (due : timer.Due (clock slot)) (beyond : Nat → Nat → Byte) :
    ∃ after, (system lua configuration).next state (.sweep clock beyond) = some after ∧
      (after.sent.drop state.sent.length).filter (fun sent => decide (sent.slot = slot)) =
        [⟨slot, timer.queue, timer.message (beyond slot)⟩] := by
  obtain ⟨⟨sent, swept⟩, made⟩ := standing_sweep started reached clock beyond
  have own := sweep_slot made (fun before upTo => by
    obtain ⟨listed, tag, there, tagged, _⟩ :=
      standing_slot started reached (Nat.lt_of_le_of_lt upTo inside)
    exact ⟨listed, tag, there, tagged⟩) stored
  rw [Nat.zero_add, fire, if_pos due] at own
  refine ⟨⟨swept, state.sent ++ sent⟩, by simp [system, made], ?_⟩
  rw [List.drop_left]
  exact own

/-- Every slot that is armed delivers its message to the queue it has, once its timer is due. -/
theorem slot_delivers (started : Started configuration count) {state : TimerState}
    (reached : (system lua configuration).Reachable state) {slot : Nat} (inside : slot < count) :
    Delivers lua configuration state slot (queueAt state.timers slot) := by
  constructor
  · rfl
  · intro clock beyond timer stored due
    obtain ⟨after, moved, sent⟩ := due_slot_fires started reached inside stored due beyond
    refine ⟨after, timer.message (beyond slot), moved, ?_⟩
    rw [sent, queueAt, stored]
    rfl
  · intro later run sent listed numbered
    obtain ⟨messages, extended, routed⟩ := (later_run run).sent
    rw [extended, List.drop_left] at listed
    rw [routed sent listed, numbered]

/-- A call that names a configured analyzer arms the slot at the analyzer's place. -/
theorem named_call_arms (started : Started configuration count)
    (different : DifferentTags configuration) {state : TimerState}
    (reached : (system lua configuration).Reachable state) {position : Nat} {tag : List Byte}
    (tagged : analyzerTag configuration position = some tag) {name seconds value : Value}
    {text : List Byte} (string : lua.toString name = some text)
    (named : strcasecmp text tag = 0) (now : Int) :
    ∃ after, Arms lua configuration state [name, seconds, value] now position after := by
  have found := named_slot started different reached (tagged_inside started tagged) tagged named
  refine ⟨⟨state.timers.modify position
      (armed lua [name, seconds, value] (toInt (lua.toInteger seconds)) now), state.sent⟩,
    ⟨name, seconds, value, text, rfl, string, found⟩, ?_⟩
  simp only [system, timerEvent, string, found]

/-- A call that names one analyzer arms the slot at its place and no other one. -/
theorem named_call_slot (started : Started configuration count)
    (different : DifferentTags configuration) {state after : TimerState}
    (reached : (system lua configuration).Reachable state) {position slot : Nat}
    {tag : List Byte} (tagged : analyzerTag configuration position = some tag)
    {name seconds value : Value} {text : List Byte} (string : lua.toString name = some text)
    (named : strcasecmp text tag = 0) {now : Int}
    (arms : Arms lua configuration state [name, seconds, value] now slot after) :
    slot = position := by
  have found := named_slot started different reached (tagged_inside started tagged) tagged named
  obtain ⟨_, _, _, other, same, otherString, reachedSlot⟩ := arms.found
  cases same
  obtain rfl : text = other := Option.some.inj (string.symm.trans otherString)
  exact Search.found.inj (reachedSlot.symm.trans found)

/-- The queue of the slot that a call arms is that of its analyzer, but for the first analyzer
it is that of the log. -/
theorem named_call_queue (started : Started configuration count)
    (different : DifferentTags configuration) {state after : TimerState}
    (reached : (system lua configuration).Reachable state) {position slot : Nat}
    {tag : List Byte} (tagged : analyzerTag configuration position = some tag)
    {name seconds value : Value} {text : List Byte} (string : lua.toString name = some text)
    (named : strcasecmp text tag = 0) {now : Int}
    (arms : Arms lua configuration state [name, seconds, value] now slot after) :
    queueAt after.timers slot = some (if position = 0 then .output 0 else .analyzer position) := by
  obtain rfl := named_call_slot started different reached tagged string named arms
  obtain ⟨timer, _, stored, _, queue⟩ :=
    standing_slot started (arms.reached reached) (tagged_inside started tagged)
  rw [queueAt, stored]
  exact queue

/-- A timer that names a configured analyzer reaches this analyzer, and no other
queue, exactly when the analyzer is not the first of the configuration. -/
theorem timer_reaches_analyzer_iff {isRegular : List Byte → Bool} {directory : List Byte}
    {analyzers outputs : Option (List Entry)} {loaded : Configuration}
    (initialized : initializeConfiguration isRegular directory analyzers outputs = .ok loaded)
    (different : DifferentTags (createMessageQueues loaded)) {state : TimerState}
    (reached : (system lua (createMessageQueues loaded)).Reachable state) {position : Nat}
    {tag : List Byte} (tagged : analyzerTag (createMessageQueues loaded) position = some tag)
    {name seconds value : Value} {text : List Byte} (string : lua.toString name = some text)
    (named : strcasecmp text tag = 0) (now : Int) :
    (∃ slot after,
      Arms lua (createMessageQueues loaded) state [name, seconds, value] now slot after ∧
      Delivers lua (createMessageQueues loaded) after slot
        (analyzerQueue (createMessageQueues loaded) position)) ↔ position ≠ 0 := by
  obtain ⟨entries, _, started⟩ := configuration_started initialized
  have inside := tagged_inside started tagged
  rw [analyzer_queue_own started inside]
  constructor
  · rintro ⟨slot, after, arms, delivers⟩ first
    have queue := named_call_queue started different reached tagged string named arms
    rw [delivers.routed, if_pos first] at queue
    cases queue
  · intro later
    obtain ⟨after, arms⟩ := named_call_arms started different reached tagged string named now
    have queue := named_call_queue started different reached tagged string named arms
    rw [if_neg later] at queue
    have delivers := slot_delivers started (arms.reached reached) inside
    exact ⟨position, after, arms, queue ▸ delivers⟩

end Delivery

/-- The second of two analyzers is reached from the start. -/
theorem timer_reaches_second_analyzer :
    ∃ loaded, initializeConfiguration (fun _ => true) (bytesOf "/analyzer")
        (some [analyzerEntry "a", analyzerEntry "b"]) (some []) = .ok loaded ∧
      ((∃ slot after,
        Arms scalars (createMessageQueues loaded) ⟨startupTimers (createMessageQueues loaded), []⟩
          [text "B" (by decide), .integer 5, .boolean true] 100 slot after ∧
        Delivers scalars (createMessageQueues loaded) after slot
          (analyzerQueue (createMessageQueues loaded) 1)) ↔ 1 ≠ 0) := by
  obtain ⟨loaded, initialized⟩ : ∃ loaded, initializeConfiguration (fun _ => true)
      (bytesOf "/analyzer") (some [analyzerEntry "a", analyzerEntry "b"]) (some []) = .ok loaded :=
    ⟨_, rfl⟩
  refine ⟨loaded, initialized, ?_⟩
  have different : DifferentTags (createMessageQueues loaded) := by
    cases initialized
    decide
  have tagged : analyzerTag (createMessageQueues loaded) 1 = some [98] := by
    cases initialized
    decide
  have string : scalars.toString (text "B" (by decide)) = some [66] := by decide
  exact timer_reaches_analyzer_iff initialized different (.initial rfl) tagged string (by decide)
    100

/-- The only analyzer is the first one: its timer goes to the log. -/
theorem first_timer_goes_to_log :
    ¬ ∀ loaded state position tag name seconds value string now,
      (∃ isRegular directory analyzers outputs,
        initializeConfiguration isRegular directory analyzers outputs = .ok loaded) →
      DifferentTags (createMessageQueues loaded) →
      (system scalars (createMessageQueues loaded)).Reachable state →
      analyzerTag (createMessageQueues loaded) position = some tag →
      scalars.toString name = some string → strcasecmp string tag = 0 →
      ∃ slot after,
        Arms scalars (createMessageQueues loaded) state [name, seconds, value] now slot after ∧
        Delivers scalars (createMessageQueues loaded) after slot
          (analyzerQueue (createMessageQueues loaded) position) := by
  intro claimed
  obtain ⟨loaded, initialized⟩ : ∃ loaded, initializeConfiguration (fun _ => true)
      (bytesOf "/analyzer") (some [analyzerEntry "a"]) (some []) = .ok loaded := ⟨_, rfl⟩
  have different : DifferentTags (createMessageQueues loaded) := by
    cases initialized
    decide
  have tagged : analyzerTag (createMessageQueues loaded) 0 = some [97] := by
    cases initialized
    decide
  have string : scalars.toString (text "a" (by decide)) = some [97] := by decide
  obtain ⟨slot, after, arms, delivers⟩ := claimed loaded _ 0 [97] (text "a" (by decide))
    (.integer 5) (.boolean true) [97] 100 ⟨_, _, _, _, initialized⟩ different (.initial rfl) tagged
    string (by decide)
  obtain ⟨entries, _, started⟩ := configuration_started initialized
  have queue := named_call_queue started different (.initial rfl) tagged string (by decide) arms
  rw [delivers.routed, analyzer_queue_own started (tagged_inside started tagged)] at queue
  cases queue

/-! ## What a timer carries -/

section Payload

variable {Value : Type} {lua : Lua Value} {configuration : Configuration} {count : Nat}

/-- The slot a call arms is one of an analyzer. -/
theorem Arms.inside {state after : TimerState} {arguments : List Value} {now : Int} {slot : Nat}
    (arms : Arms lua configuration state arguments now slot after)
    (started : Started configuration count) : slot < count := by
  obtain ⟨_, _, _, _, _, _, found⟩ := arms.found
  obtain ⟨position, guard, tag, numbered, row, _⟩ := search_sound found
  obtain rfl : slot = position := by omega
  obtain ⟨timer, analyzer, _, stored, same⟩ := List.getElem?_zipWith_eq_some.mp row
  apply tagged_inside started
  rw [analyzerTag, stored]
  exact (Prod.mk.inj same).2

/-- The bytes the timer thread sends for a slot that was armed. -/
theorem Arms.message {state after : TimerState} {arguments : List Value} {now : Int} {slot : Nat}
    (arms : Arms lua configuration state arguments now slot after) {timer : MleTimer}
    (stored : after.timers[slot]? = some timer) (beyond : Nat → Byte) :
    timer.message beyond =
      readMemory (strndup (lua.pack arguments) (lua.pack arguments).length) beyond
        (lua.pack arguments).length := by
  obtain ⟨_, seconds, modified⟩ := arms.stored
  rw [modified, List.getElem?_modify] at stored
  obtain ⟨old, _, same⟩ := Option.map_eq_some_iff.mp stored
  subst same
  simp [MleTimer.message, armed]

/-- What a due slot sends is the message the call packed, whatever lies beyond its
copy, exactly when the packed message has no zero byte before its last one. -/
theorem timer_payload_intact_iff {isRegular : List Byte → Bool} {directory : List Byte}
    {analyzers outputs : Option (List Entry)} {loaded : Configuration}
    (initialized : initializeConfiguration isRegular directory analyzers outputs = .ok loaded)
    {state after waiting : TimerState}
    (reached : (system lua (createMessageQueues loaded)).Reachable state)
    {arguments : List Value} {now : Int} {slot : Nat}
    (arms : Arms lua (createMessageQueues loaded) state arguments now slot after)
    (run : Relation.ReflTransGen
      ((system lua (createMessageQueues loaded)).Step fun _ _ => True) after waiting)
    {timer : MleTimer} (stored : after.timers[slot]? = some timer)
    (kept : waiting.timers[slot]? = some timer) {clock : Nat → Int}
    (due : timer.Due (clock slot)) :
    (∀ beyond, ∃ later,
      (system lua (createMessageQueues loaded)).next waiting (.sweep clock beyond) = some later ∧
      ((later.sent.drop waiting.sent.length).filter fun sent => decide (sent.slot = slot)).map
        Sent.message = [lua.pack arguments]) ↔
      0 ∉ (lua.pack arguments).dropLast := by
  obtain ⟨entries, _, started⟩ := configuration_started initialized
  have reachedAfter := arms.reached reached
  have reachedWaiting :
      (system lua (createMessageQueues loaded)).Reachable waiting := by
    obtain ⟨initial, begun, before⟩ := reachedAfter
    exact ⟨initial, begun, before.trans run⟩
  rw [← strndup_intact_iff]
  have fired (beyond : Nat → Nat → Byte) := due_slot_fires started reachedWaiting
    (arms.inside started) kept due beyond
  constructor
  · intro intact beyond
    obtain ⟨later, moved, sent⟩ := fired fun _ => beyond
    obtain ⟨same, movedSame, message⟩ := intact fun _ => beyond
    obtain rfl : later = same := Option.some.inj (moved.symm.trans movedSame)
    rw [sent] at message
    rw [← arms.message stored beyond]
    simpa using message
  · intro intact beyond
    obtain ⟨later, moved, sent⟩ := fired beyond
    refine ⟨later, moved, ?_⟩
    rw [sent, List.map_singleton, arms.message stored (beyond slot), intact (beyond slot)]

end Payload

/-- The list after the only analyzer, with tag `"a"`, armed a timer from the start. -/
def armedList (loaded : Configuration) (seconds : Fin 128) : TimerState :=
  ⟨(startupTimers (createMessageQueues loaded)).modify 0
    (armed scalars [letterA, .integer seconds, .boolean true] seconds.val 100), []⟩

/-- The only analyzer arms the first slot, which is due after the delay. -/
theorem armed_list_arms {loaded : Configuration}
    (initialized : initializeConfiguration (fun _ => true) (bytesOf "/analyzer")
      (some [analyzerEntry "a"]) (some []) = .ok loaded) (seconds : Fin 128) :
    Arms scalars (createMessageQueues loaded) ⟨startupTimers (createMessageQueues loaded), []⟩
      [text "a" (by decide), .integer seconds, .boolean true] 100 0 (armedList loaded seconds) ∧
    ∃ timer, (armedList loaded seconds).timers[0]? = some timer ∧
      timer.Due (100 + seconds.val) := by
  have stored : toInt (scalars.toInteger (.integer seconds)) = seconds.val :=
    to_int_small (by simp only [scalars, scalarInteger]; omega)
      (by simp only [scalars, scalarInteger]; omega)
  have found : timerSlot (createMessageQueues loaded).analyzers
      (startupTimers (createMessageQueues loaded)) [97] = .found 0 := by
    cases initialized
    decide
  have slot : ∃ timer, (startupTimers (createMessageQueues loaded))[0]? = some timer := by
    cases initialized
    exact ⟨_, rfl⟩
  constructor
  · constructor
    · exact ⟨_, _, _, [97], rfl, by decide, found⟩
    · have string : scalars.toString (text "a" (by decide)) = some [97] := by decide
      simp only [system, timerEvent, string, found, stored]
      rfl
  · obtain ⟨timer, first⟩ := slot
    refine ⟨armed scalars [letterA, .integer seconds, .boolean true] seconds.val 100 timer,
      by simp [armedList, first], ?_, ?_⟩
    · simp only [armed]
      omega
    · exact Int.le_refl _

/-- With a delay of five seconds the message is `a1 61 05 c3` and arrives intact. -/
theorem timer_payload_intact_five :
    ∃ loaded, initializeConfiguration (fun _ => true) (bytesOf "/analyzer")
        (some [analyzerEntry "a"]) (some []) = .ok loaded ∧
      ((∀ beyond, ∃ later, (system scalars (createMessageQueues loaded)).next
          (armedList loaded 5) (.sweep (fun _ => 105) beyond) = some later ∧
        ((later.sent.drop (armedList loaded 5).sent.length).filter fun sent =>
          decide (sent.slot = 0)).map Sent.message = [[0xa1, 97, 5, 0xc3]]) ↔
        0 ∉ ([0xa1, 97, 5, 0xc3] : List Byte).dropLast) := by
  obtain ⟨loaded, initialized⟩ : ∃ loaded, initializeConfiguration (fun _ => true)
      (bytesOf "/analyzer") (some [analyzerEntry "a"]) (some []) = .ok loaded := ⟨_, rfl⟩
  obtain ⟨arms, timer, stored, due⟩ := armed_list_arms initialized 5
  exact ⟨loaded, initialized, timer_payload_intact_iff initialized (.initial rfl) arms .refl stored
    stored due⟩

/-- With no delay the message is `a1 61 00 c3`; what follows its first three bytes is
not sent. -/
theorem timer_payload_cut :
    ¬ ∀ loaded state after waiting arguments now slot timer clock,
      (∃ isRegular directory analyzers outputs,
        initializeConfiguration isRegular directory analyzers outputs = .ok loaded) →
      (system scalars (createMessageQueues loaded)).Reachable state →
      Arms scalars (createMessageQueues loaded) state arguments now slot after →
      (scalars.pack arguments).length < 32768 →
      Relation.ReflTransGen
        ((system scalars (createMessageQueues loaded)).Step fun _ _ => True) after waiting →
      after.timers[slot]? = some timer → waiting.timers[slot]? = some timer →
      timer.Due (clock slot) →
      ∀ beyond, ∃ later, (system scalars (createMessageQueues loaded)).next waiting
          (.sweep clock beyond) = some later ∧
        ((later.sent.drop waiting.sent.length).filter fun sent => decide (sent.slot = slot)).map
          Sent.message = [scalars.pack arguments] := by
  intro claimed
  obtain ⟨loaded, initialized⟩ : ∃ loaded, initializeConfiguration (fun _ => true)
      (bytesOf "/analyzer") (some [analyzerEntry "a"]) (some []) = .ok loaded := ⟨_, rfl⟩
  obtain ⟨arms, timer, stored, due⟩ := armed_list_arms initialized 0
  obtain ⟨later, moved, message⟩ := claimed loaded _ _ _ _ 100 0 timer (fun _ => 100)
    ⟨_, _, _, _, initialized⟩ (.initial rfl) arms (by decide) .refl stored stored due
    (fun _ _ => 1)
  obtain ⟨entries, _, started⟩ := configuration_started initialized
  let clock : Nat → Int := fun _ => 100
  have dueThen : timer.Due (clock 0) := due
  obtain ⟨same, movedSame, sent⟩ := due_slot_fires started (arms.reached (.initial rfl))
    (arms.inside started) stored dueThen fun _ _ => 1
  obtain rfl : later = same := Option.some.inj (moved.symm.trans movedSame)
  simp only [sent, List.map_singleton, arms.message stored] at message
  exact absurd message (by decide)

end Dragonfly.Timers
