import Dragonfly.Events
import Dragonfly.Transitions

/-!
# Timers: `timer_event` and `lua_timer_thread`

The timer list has a slot for each place of the analyzer list. `startup_threads`
fills the first slot with the tag and the queue of the log and every other slot
with those of its analyzer. `timer_event` arms a slot with the packed arguments
of the call, which it copies with `strndup`; a sweep of `lua_timer_thread` sends
the message of every armed slot that is due and disarms it.

Both hold the timer lock, so a call and a sweep are one step each. What a read
finds beyond an allocation and what the clock shows at each slot are choices of
the run. Overwriting an armed slot, a failing allocation and the statistics that
the thread also sends are left to other places.
-/

namespace Dragonfly.Timers

open Config Events

/-- The structure `MLE_TIMER`: when the timer is due, its packed message with the length that
was recorded for it, and the tag and queue of its slot. -/
structure MleTimer where
  epoch : Int
  length : Nat
  tag : Option (List Byte)
  msgpack : Option (List Byte)
  queue : Option Queue
deriving DecidableEq

/-- A slot of the timer list behind `memset`: it is not armed, and has neither a tag nor a
queue. -/
def MleTimer.unset : MleTimer := ⟨0, 0, none, none, none⟩

/-- The part of `startup_threads` that fills the timer list: the first slot is that of the log,
and every other one that of its analyzer. -/
def startupTimers (configuration : Configuration) : List MleTimer :=
  (List.range maxAnalyzerStreams).map fun index =>
    if index = 0 then
      match configuration.outputs[0]? with
      | some output => { MleTimer.unset with tag := output.tag, queue := output.queue }
      | none => .unset
    else
      match configuration.analyzers[index]? with
      | some analyzer =>
          if analyzer.queue ≠ none then
            { MleTimer.unset with tag := analyzer.tag, queue := analyzer.queue }
          else .unset
      | none => .unset

/-- The value of a Lua integer stored in an `int`. -/
def toInt (value : Int) : Int := Int.bmod value 4294967296

/-- An integer in the range of an `int` is stored in an `int` unchanged. -/
theorem to_int_small {value : Int} (lower : -2147483648 ≤ value) (upper : value < 2147483648) :
    toInt value = value := by
  rw [toInt, Int.bmod_def]
  split <;> omega

section Calls

variable {Value : Type} (lua : Lua Value)

/-- What `timer_event` stores in the slot it arms: the packed arguments as `strndup` copies
them, their length, and when the timer is due. -/
def armed (arguments : List Value) (futureSeconds now : Int) (timer : MleTimer) : MleTimer :=
  { timer with
    length := (lua.pack arguments).length
    msgpack := some (strndup (lua.pack arguments) (lua.pack arguments).length)
    epoch := now + futureSeconds }

/-- The slot a name leads to: the scan ends at the first slot without a tag and
compares the tags of the analyzers. -/
def timerSlot (analyzers : List AnalyzerConfig) (timers : List MleTimer) (name : List Byte) :
    Search :=
  search name 0 (List.zipWith (fun timer analyzer => (timer.tag, analyzer.tag)) timers analyzers)

/-- The function `timer_event`: it checks its three arguments, looks for the slot with the tag
and arms it. -/
def timerEvent (analyzers : List AnalyzerConfig) (arguments : List Value) (now : Int)
    (timers : List MleTimer) : Call (List MleTimer) :=
  match arguments with
  | [tag, seconds, _] =>
      match lua.toString tag with
      | none => .raised (.badArgument 1)
      | some name =>
          match timerSlot analyzers timers name with
          | .found slot =>
              .returned (timers.modify slot
                (armed lua arguments (toInt (lua.toInteger seconds)) now))
          | .absent => .returned timers
          | .undefined => .undefined
  | _ => .raised (.message "expecting exactly 3 arguments")

end Calls

/-- A message the timer thread put into a queue, with the slot it came from. -/
structure Sent where
  slot : Nat
  queue : Option Queue
  message : List Byte
deriving DecidableEq

/-- The slot is armed, and the time for which it was armed has come. -/
def MleTimer.Due (timer : MleTimer) (now : Int) : Prop := 0 < timer.epoch ∧ timer.epoch ≤ now

instance (timer : MleTimer) (now : Int) : Decidable (timer.Due now) :=
  inferInstanceAs (Decidable (_ ∧ _))

/-- The bytes that a send of the message of a slot reads: as many as were recorded, also where
the copy is shorter. -/
def MleTimer.message (timer : MleTimer) (beyond : Nat → Byte) : List Byte :=
  readMemory (timer.msgpack.getD []) beyond timer.length

/-- What the sweep sends from one slot: its message if the timer is due, and nothing otherwise. -/
def fire (slot : Nat) (now : Int) (beyond : Nat → Byte) (timer : MleTimer) : List Sent :=
  if timer.Due now then [⟨slot, timer.queue, timer.message beyond⟩] else []

/-- What the sweep leaves in one slot: a timer that was due is disarmed, and any other stays as
it is. -/
def disarm (now : Int) (timer : MleTimer) : MleTimer :=
  if timer.Due now then { timer with epoch := 0, length := 0, msgpack := none } else timer

/-- The sweep of `lua_timer_thread` from a slot on. A list without an end is undefined. -/
def sweep (clock : Nat → Int) (beyond : Nat → Nat → Byte) :
    Nat → List MleTimer → Option (List Sent × List MleTimer)
  | _, [] => none
  | slot, timer :: rest =>
      match timer.tag with
      | none => some ([], timer :: rest)
      | some _ =>
          (sweep clock beyond (slot + 1) rest).map fun (sent, swept) =>
            (fire slot (clock slot) (beyond slot) timer ++ sent,
              disarm (clock slot) timer :: swept)

/-- The timer list, and everything the timer thread has sent so far. -/
structure TimerState where
  timers : List MleTimer
  sent : List Sent
deriving DecidableEq

/-- A call of `timer_event` from an analyzer script at some time, or a sweep of the timer
thread. -/
inductive TimerLabel (Value : Type) where
  | timerEvent (arguments : List Value) (now : Int)
  | sweep (clock : Nat → Int) (beyond : Nat → Nat → Byte)

/-- The timer list under calls and sweeps. A call that raises an error leaves it as
it is. -/
def system {Value : Type} (lua : Lua Value) (configuration : Configuration) :
    System TimerState (TimerLabel Value) where
  start state := state = ⟨startupTimers configuration, []⟩
  next
    | state, .timerEvent arguments now =>
        match timerEvent lua configuration.analyzers arguments now state.timers with
        | .returned timers => some { state with timers := timers }
        | .raised _ => some state
        | .undefined => none
    | state, .sweep clock beyond =>
        (sweep clock beyond 0 state.timers).map fun (sent, timers) =>
          ⟨timers, state.sent ++ sent⟩

/-! ## A sweep, slot by slot -/

/-- Whatever a sweep sends comes from a slot as it stood when the sweep came to it. -/
theorem sweep_sent {clock : Nat → Int} {beyond : Nat → Nat → Byte} {start : Nat}
    {timers swept : List MleTimer} {sent : List Sent}
    (made : sweep clock beyond start timers = some (sent, swept)) {message : Sent}
    (listed : message ∈ sent) :
    ∃ position timer, timers[position]? = some timer ∧ message.slot = start + position ∧
      message.queue = timer.queue := by
  induction timers generalizing start sent swept with
  | nil => cases made
  | cons timer rest inductionHypothesis =>
    rw [sweep] at made
    split at made
    · cases made
      cases listed
    · obtain ⟨⟨later, after⟩, remaining, made⟩ := Option.map_eq_some_iff.mp made
      cases made
      rcases List.mem_append.mp listed with own | other
      · rw [fire] at own
        split at own
        · obtain rfl := List.mem_singleton.mp own
          exact ⟨0, timer, rfl, rfl, rfl⟩
        · cases own
      · obtain ⟨position, found, stored, numbered, queue⟩ := inductionHypothesis remaining other
        exact ⟨position + 1, found, stored, by omega, queue⟩

/-- What one slot sends is sent under the number of this slot and no other. -/
theorem fire_numbered (slot other : Nat) (now : Int) (beyond : Nat → Byte) (timer : MleTimer) :
    (fire slot now beyond timer).filter (fun message => decide (message.slot = other)) =
      if slot = other then fire slot now beyond timer else [] := by
  rw [fire]
  by_cases due : timer.Due now <;> by_cases same : slot = other <;> simp [due, same]

/-- A slot behind slots with tags is swept: it sends its own message and nothing
else sends under its number. -/
theorem sweep_slot {clock : Nat → Int} {beyond : Nat → Nat → Byte} {start : Nat}
    {timers swept : List MleTimer} {sent : List Sent}
    (made : sweep clock beyond start timers = some (sent, swept)) {position : Nat}
    {timer : MleTimer}
    (tagged : ∀ before, before ≤ position → ∃ listed tag,
      timers[before]? = some listed ∧ listed.tag = some tag)
    (here : timers[position]? = some timer) :
    sent.filter (fun message => decide (message.slot = start + position)) =
      fire (start + position) (clock (start + position)) (beyond (start + position)) timer := by
  induction timers generalizing start sent swept position with
  | nil => cases made
  | cons first rest inductionHypothesis =>
    obtain ⟨listed, tag, stored, named⟩ := tagged 0 (Nat.zero_le _)
    obtain rfl : first = listed := by simpa using stored
    simp only [sweep, named, Option.map_eq_some_iff] at made
    obtain ⟨⟨later, after⟩, remaining, made⟩ := made
    cases made
    rw [List.filter_append, fire_numbered]
    cases position with
    | zero =>
      obtain rfl : first = timer := by simpa using here
      have behind : later.filter (fun message => decide (message.slot = start + 0)) = [] := by
        rw [List.filter_eq_nil_iff]
        intro message sends
        obtain ⟨position, _, _, numbered, _⟩ := sweep_sent remaining sends
        simp only [numbered, decide_eq_true_eq]
        omega
      rw [behind, Nat.add_zero, if_pos rfl, List.append_nil]
    | succ position =>
      have step : start + (position + 1) = start + 1 + position := by omega
      rw [if_neg (by omega), List.nil_append, step]
      apply inductionHypothesis remaining
      · intro before inside
        simpa using tagged (before + 1) (Nat.succ_le_succ inside)
      · simpa using here

/-- The tag and the queue of a slot, which neither arming nor disarming changes. -/
def MleTimer.route (timer : MleTimer) : Option (List Byte) × Option Queue :=
  (timer.tag, timer.queue)

/-- Arming a slot leaves its tag and its queue alone. -/
@[simp] theorem armed_route {Value : Type} (lua : Lua Value) (arguments : List Value)
    (futureSeconds now : Int) (timer : MleTimer) :
    (armed lua arguments futureSeconds now timer).route = timer.route := rfl

/-- A call either leaves the list alone or arms one slot. -/
theorem timer_event_arms {Value : Type} {lua : Lua Value} {analyzers : List AnalyzerConfig}
    {arguments : List Value} {now : Int} {timers after : List MleTimer}
    (returned : timerEvent lua analyzers arguments now timers = .returned after) :
    after = timers ∨ ∃ slot seconds, after = timers.modify slot (armed lua arguments seconds now) := by
  unfold timerEvent at returned
  split at returned
  · split at returned
    · cases returned
    · split at returned
      · cases returned
        exact .inr ⟨_, _, rfl⟩
      · cases returned
        exact .inl rfl
      · cases returned
  · cases returned

/-- A call leaves the tags and the queues of all slots alone. -/
theorem timer_event_routes {Value : Type} {lua : Lua Value} {analyzers : List AnalyzerConfig}
    {arguments : List Value} {now : Int} {timers after : List MleTimer}
    (returned : timerEvent lua analyzers arguments now timers = .returned after) :
    after.map MleTimer.route = timers.map MleTimer.route := by
  rcases timer_event_arms returned with rfl | ⟨slot, seconds, rfl⟩
  · rfl
  · apply List.ext_getElem?
    intro position
    rw [List.getElem?_map, List.getElem?_map, List.getElem?_modify]
    cases timers[position]? with
    | none => rfl
    | some timer => by_cases here : slot = position <;> simp [here]

/-- Disarming a slot keeps its tag and its queue. -/
@[simp] theorem disarm_route (now : Int) (timer : MleTimer) :
    (disarm now timer).route = timer.route := by
  unfold disarm
  split <;> rfl

/-- A sweep leaves the tags and the queues of all slots alone. -/
theorem sweep_routes {clock : Nat → Int} {beyond : Nat → Nat → Byte} {start : Nat}
    {timers swept : List MleTimer} {sent : List Sent}
    (made : sweep clock beyond start timers = some (sent, swept)) :
    swept.map MleTimer.route = timers.map MleTimer.route := by
  induction timers generalizing start sent swept with
  | nil => cases made
  | cons timer rest inductionHypothesis =>
    rw [sweep] at made
    split at made
    · cases made
      rfl
    · obtain ⟨⟨later, after⟩, remaining, made⟩ := Option.map_eq_some_iff.mp made
      cases made
      simp only [List.map_cons, disarm_route, inductionHypothesis remaining]

/-- A sweep of a list with an end takes place. -/
theorem sweep_ends (clock : Nat → Int) (beyond : Nat → Nat → Byte) (start : Nat)
    {timers : List MleTimer} {timer : MleTimer} (listed : timer ∈ timers)
    (last : timer.tag = none) : ∃ result, sweep clock beyond start timers = some result := by
  induction timers generalizing start with
  | nil => cases listed
  | cons first rest inductionHypothesis =>
    cases tag : first.tag with
    | none => exact ⟨([], first :: rest), by simp [sweep, tag]⟩
    | some name =>
      have further : timer ∈ rest := by
        rcases List.mem_cons.mp listed with same | further
        · rw [← same, last] at tag
          cases tag
        · exact further
      obtain ⟨⟨sent, swept⟩, made⟩ := inductionHypothesis (start + 1) further
      exact ⟨(fire start (clock start) (beyond start) first ++ sent,
        disarm (clock start) first :: swept), by simp only [sweep, tag, made, Option.map_some]⟩

/-! ## Runs -/

/-- The queue of the slot at a place of the timer list, if there is one. -/
def queueAt (timers : List MleTimer) (slot : Nat) : Option Queue :=
  (timers[slot]?).bind MleTimer.queue

/-- Two timer lists with the same tags and queues have the same queue at each place. -/
theorem queue_at_routes {timers others : List MleTimer}
    (routes : others.map MleTimer.route = timers.map MleTimer.route) (slot : Nat) :
    queueAt others slot = queueAt timers slot := by
  have same := congrArg (fun routes => (routes[slot]?).bind Prod.snd) routes
  simpa [queueAt, Option.bind_map, Function.comp_def, MleTimer.route] using same

/-- What a run leads to: every slot keeps its route, and what was sent on the way
went to the queues of the slots. -/
structure Later (before after : TimerState) : Prop where
  routes : after.timers.map MleTimer.route = before.timers.map MleTimer.route
  sent : ∃ messages, after.sent = before.sent ++ messages ∧
    ∀ message ∈ messages, message.queue = queueAt before.timers message.slot

/-- On the empty run nothing happens, so each state comes later than itself. -/
theorem Later.refl (state : TimerState) : Later state state :=
  ⟨rfl, [], (List.append_nil _).symm, fun _ listed => nomatch listed⟩

/-- Two runs, one behind the other, are joined to one, so coming later is transitive. -/
theorem Later.trans {first second third : TimerState} (earlier : Later first second)
    (later : Later second third) : Later first third := by
  obtain ⟨messages, extended, routed⟩ := earlier.sent
  obtain ⟨more, extendedMore, routedMore⟩ := later.sent
  constructor
  · exact later.routes.trans earlier.routes
  · refine ⟨messages ++ more, by rw [extendedMore, extended, List.append_assoc], ?_⟩
    intro message listed
    rcases List.mem_append.mp listed with old | new
    · exact routed message old
    · rw [routedMore message new, queue_at_routes earlier.routes]

section Runs

variable {Value : Type} {lua : Lua Value} {configuration : Configuration}

/-- The state behind one call or one sweep comes later than the state before it. -/
theorem later_step {state after : TimerState} {label : TimerLabel Value}
    (moved : (system lua configuration).next state label = some after) : Later state after := by
  cases label with
  | timerEvent arguments now =>
    simp only [system] at moved
    split at moved
    · rename_i timers returned
      cases moved
      constructor
      · exact timer_event_routes returned
      · exact (Later.refl state).sent
    · cases moved
      exact Later.refl _
    · cases moved
  | sweep clock beyond =>
    simp only [system, Option.map_eq_some_iff] at moved
    obtain ⟨⟨sent, timers⟩, made, moved⟩ := moved
    cases moved
    constructor
    · exact sweep_routes made
    · refine ⟨sent, rfl, ?_⟩
      intro message listed
      obtain ⟨position, timer, stored, numbered, queue⟩ := sweep_sent made listed
      rw [queue, numbered, Nat.zero_add, queueAt, stored]
      rfl

/-- The state behind any number of calls and sweeps comes later than the state before them. -/
theorem later_run {before after : TimerState}
    (run : Relation.ReflTransGen ((system lua configuration).Step fun _ _ => True) before after) :
    Later before after := by
  induction run with
  | refl => exact Later.refl before
  | tail _ last inductionHypothesis =>
    obtain ⟨label, _, moved⟩ := last
    exact inductionHypothesis.trans (later_step moved)

/-- The routes of the slots are those of start-up in every run. -/
theorem reachable_routes {state : TimerState}
    (reached : (system lua configuration).Reachable state) :
    state.timers.map MleTimer.route = (startupTimers configuration).map MleTimer.route := by
  obtain ⟨initial, started, run⟩ := reached
  subst started
  exact (later_run run).routes

end Runs

end Dragonfly.Timers
