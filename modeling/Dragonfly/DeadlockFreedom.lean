import Dragonfly.BlockingThreads
import Dragonfly.Waiting

/-!
# When the threads cannot get stuck

A reader waits for the reader of a full queue it sends to, or for the holder of the
timer lock; the timer thread waits for the reader of a full queue while it holds the
lock. Analyzers send forwards only, so the waiting has no cycle unless it leads through
the timer thread: a full queue of an analyzer that a due timer is sent to makes the
holder of the lock wait for an analyzer, and analyzers wait for the lock.

In a run in which every sweep finds room in the queue of the analyzer it sends to, some
thread moves whenever there is something to do.
-/

namespace Dragonfly.Blocking

open Config Events Timers

section Progress

variable {Value : Type} (setup : Setup Value)

/-- The thread that takes a step: the reader of a queue or the timer thread. Arrivals and the
passing of time belong to none. -/
def Label.thread : Label Value → Option Thread
  | .reader queue _ => some (.reader queue)
  | .timer _ _ => some .timer
  | _ => none

/-- A thread is not blocked if one of its steps is possible in the state. -/
def CanStep (state : State Value) (thread : Thread) : Prop :=
  ∃ label after, label.thread = some thread ∧ step setup state label = some after

/-- The thread has something to do: its queue holds a message, it handles one, or the
timer thread is awake. -/
def Busy (state : State Value) : Thread → Prop
  | .reader queue => ¬ (state.readers queue = .recv ∧ state.queues queue = [])
  | .timer => state.timer ≠ .sleep

/-- The timer thread holds the lock and waits for room in a queue whose reader waits for
the lock. -/
structure LockCycle (state : State Value) (queue : Queue) : Prop where
  holds : state.locks .analyzers = some .timer
  waits : ∃ slot timer, state.timer = .sending slot ∧ state.timers[slot]? = some timer ∧
    timer.queue = some queue ∧ ¬ HasRoom setup state queue
  reader : ∃ slot arguments futureSeconds rest,
    state.readers queue = .run (.timerEvent slot arguments futureSeconds :: rest) ∧
      processOf queue = .analyzers

/-- If a queue holds a message then a thread with something to do moves, if a timer is
due then a thread moves, and no cycle leads through the lock. -/
structure Progress (state : State Value) : Prop where
  queues : (∃ queue, state.queues queue ≠ []) → ∃ thread, Busy state thread ∧
    CanStep setup state thread
  timers : (∃ timer ∈ state.timers, timer.Due state.clock) → ∃ thread, CanStep setup state thread
  apart : ∀ queue, ¬ LockCycle setup state queue

/-- The queue of the due timer a sweep comes to. -/
def dueQueue (state : State Value) : Option Queue :=
  match state.timer with
  | .sweep slot =>
      (state.timers[slot]?).bind fun timer =>
        if timer.Due state.clock then timer.queue else none
  | _ => none

/-- A sweep that comes to a due timer of an analyzer finds room in its queue. -/
def TimersFit (state : State Value) : Label Value → Prop
  | .timer _ _ =>
      ∀ queue ∈ dueQueue state, processOf queue = .analyzers → HasRoom setup state queue
  | _ => True

instance (state : State Value) : (label : Label Value) → Decidable (TimersFit setup state label)
  | .timer _ _ => inferInstanceAs (Decidable
      (∀ queue ∈ dueQueue state, processOf queue = .analyzers → HasRoom setup state queue))
  | .reader _ _ | .arrive _ _ | .tick _ => .isTrue trivial

end Progress

section Invariant

variable {Value : Type} (setup : Setup Value)

/-- The actions in front of a reader, from the one it performs. -/
def ReaderPoint.actions : ReaderPoint Value → List (Action Value)
  | .recv => []
  | .run actions => actions
  | .locked slot arguments futureSeconds rest => .timerEvent slot arguments futureSeconds :: rest

/-- The holder of a lock is where the lock is held. -/
def Holds (state : State Value) (process : Process) : Thread → Prop
  | .reader queue => processOf queue = process ∧ ∃ slot arguments futureSeconds rest,
      state.readers queue = .locked slot arguments futureSeconds rest
  | .timer => process = .analyzers ∧ ∃ slot, state.timer = .sweep slot ∨ state.timer = .sending slot

/-- What every state has: allowed actions, holders that hold, a sweep inside the list,
and the tags and queues of start-up. -/
structure Sound (state : State Value) : Prop where
  allowed : ∀ queue, ∀ action ∈ (state.readers queue).actions, Allowed setup queue action
  held : ∀ process holder, state.locks process = some holder → Holds state process holder
  sweeping : ∀ slot, state.timer = .sweep slot → slot ≤ setup.count
  sending : ∀ slot, state.timer = .sending slot → slot < setup.count
  routes : state.timers.map MleTimer.route = (startupTimers setup.configuration).map MleTimer.route

variable {setup}

/-- A slot of an analyzer has a tag and the queue of start-up. -/
theorem Sound.slot {state : State Value} (sound : Sound setup state) {slot : Nat}
    (inside : slot < setup.count) :
    ∃ timer tag, state.timers[slot]? = some timer ∧ timer.tag = some tag ∧
      timer.queue = some (if slot = 0 then .output 0 else .analyzer slot) :=
  routed_slot setup.started sound.routes inside

/-- The queue of a slot of an analyzer is the one of start-up. -/
theorem Sound.own_queue {state : State Value} (sound : Sound setup state) {slot : Nat}
    (inside : slot < setup.count) {timer : MleTimer} (stored : state.timers[slot]? = some timer)
    {queue : Queue} (routed : timer.queue = some queue) :
    queue = if slot = 0 then .output 0 else .analyzer slot := by
  obtain ⟨standing, _, listed, _, own⟩ := sound.slot inside
  obtain rfl : timer = standing := Option.some.inj (stored.symm.trans listed)
  exact Option.some.inj (routed.symm.trans own)

/-- The slot behind those of the analyzers has no tag, which is where a sweep of the timers
ends. -/
theorem Sound.end {state : State Value} (sound : Sound setup state) :
    ∃ timer, state.timers[setup.count]? = some timer ∧ timer.tag = none := by
  have routes := congrArg (fun routes => routes[setup.count]?) sound.routes
  simp only [List.getElem?_map, startup_end setup.started, Option.map_some,
    Option.map_eq_some_iff] at routes
  obtain ⟨last, listed, route⟩ := routes
  exact ⟨last, listed, (Prod.mk.inj route).1⟩

/-- A holder whose own point stays where it is still holds. -/
theorem Holds.keep {state after : State Value} {process : Process} {holder : Thread}
    (holds : Holds state process holder) (timer : holder = .timer → after.timer = state.timer)
    (readers : ∀ queue, holder = .reader queue → after.readers queue = state.readers queue) :
    Holds after process holder := by
  cases holder with
  | timer =>
    obtain ⟨process, slot, swept⟩ := holds
    exact ⟨process, slot, by rwa [timer rfl]⟩
  | reader queue =>
    obtain ⟨process, slot, arguments, futureSeconds, rest, locked⟩ := holds
    exact ⟨process, slot, arguments, futureSeconds, rest, (readers queue rfl).trans locked⟩

/-- A reader that is not between lock and unlock holds no lock. -/
theorem Sound.not_holder {state : State Value} (sound : Sound setup state) {queue : Queue}
    (outside : ∀ slot arguments futureSeconds rest,
      state.readers queue ≠ .locked slot arguments futureSeconds rest)
    {process : Process} {holder : Thread} (held : state.locks process = some holder) :
    holder ≠ .reader queue := by
  rintro rfl
  obtain ⟨_, slot, arguments, futureSeconds, rest, locked⟩ := sound.held process _ held
  exact outside slot arguments futureSeconds rest locked

/-- Outside the sweep the timer thread holds no lock, since it takes its lock in front of the
first slot and gives it back behind the last one. -/
theorem Sound.not_timer {state : State Value} (sound : Sound setup state)
    (outside : ∀ slot, state.timer ≠ .sweep slot ∧ state.timer ≠ .sending slot)
    {process : Process} {holder : Thread} (held : state.locks process = some holder) :
    holder ≠ .timer := by
  rintro rfl
  obtain ⟨_, slot, swept | sent⟩ := sound.held process _ held
  · exact (outside slot).1 swept
  · exact (outside slot).2 sent

/-- A lock that is held was given just now, or is another one. -/
theorem set_lock_held {state : State Value} {process other : Process} {given : Option Thread}
    {holder : Thread} (held : (state.setLock process given).locks other = some holder) :
    (other = process ∧ given = some holder) ∨
      (other ≠ process ∧ state.locks other = some holder) := by
  by_cases same : other = process
  · subst same
    exact .inl ⟨rfl, by simpa [State.setLock] using held⟩
  · exact .inr ⟨same, by simpa [State.setLock, same] using held⟩

/-- The actions in front of the readers stay allowed if those of the one that moves do. -/
theorem Sound.allowed_moved {state : State Value} (sound : Sound setup state) {queue : Queue}
    (point : ReaderPoint Value) (allowed : ∀ action ∈ point.actions, Allowed setup queue action)
    (other : Queue) :
    ∀ action ∈ (Function.update state.readers queue point other).actions,
      Allowed setup other action := by
  by_cases same : other = queue
  · subst same
    rw [Function.update_self]
    exact allowed
  · rw [Function.update_of_ne same]
    exact sound.allowed other

/-- A step of a reader outside the lock keeps the locks with their holders. -/
theorem Sound.move {state after : State Value} (sound : Sound setup state) {queue : Queue}
    (point : ReaderPoint Value)
    (outside : ∀ slot arguments futureSeconds rest,
      state.readers queue ≠ .locked slot arguments futureSeconds rest)
    (allowed : ∀ action ∈ point.actions, Allowed setup queue action)
    (readers : after.readers = Function.update state.readers queue point)
    (timer : after.timer = state.timer) (locks : after.locks = state.locks)
    (timers : after.timers = state.timers) : Sound setup after := by
  constructor
  · rw [readers]
    exact sound.allowed_moved point allowed
  · intro process holder held
    rw [locks] at held
    apply (sound.held process holder held).keep (fun _ => timer)
    rintro other rfl
    have different : other ≠ queue := by
      rintro rfl
      exact sound.not_holder outside held rfl
    rw [readers, Function.update_of_ne different]
  · rw [timer]
    exact sound.sweeping
  · rw [timer]
    exact sound.sending
  · rw [timers]
    exact sound.routes

/-- A change that keeps the tag and the queue of a timer, as arming and disarming do, keeps the
tags and queues of the whole list. -/
theorem routes_modified {timers : List MleTimer} {slot : Nat} {change : MleTimer → MleTimer}
    (keeps : ∀ timer, (change timer).route = timer.route) :
    (timers.modify slot change).map MleTimer.route = timers.map MleTimer.route := by
  apply List.ext_getElem?
  intro position
  rw [List.getElem?_map, List.getElem?_map, List.getElem?_modify]
  cases timers[position]? with
  | none => rfl
  | some timer => by_cases here : slot = position <;> simp [here, keeps]

/-- A reader that takes its lock holds it, and all others hold theirs. -/
theorem Sound.reader_locks {state : State Value} (sound : Sound setup state) {queue : Queue}
    (outside : ∀ slot arguments futureSeconds rest,
      state.readers queue ≠ .locked slot arguments futureSeconds rest)
    (slot : Nat) (arguments : List Value) (futureSeconds : Int) (rest : List (Action Value))
    (allowed : ∀ action ∈ .timerEvent slot arguments futureSeconds :: rest,
      Allowed setup queue action) :
    Sound setup ((state.setLock (processOf queue) (some (.reader queue))).moveReader queue
      (.locked slot arguments futureSeconds rest)) := by
  constructor
  · exact sound.allowed_moved (.locked slot arguments futureSeconds rest) allowed
  · intro process holder held
    rcases set_lock_held held with ⟨rfl, own⟩ | ⟨_, before⟩
    · cases own
      exact ⟨rfl, slot, arguments, futureSeconds, rest, by simp [State.moveReader]⟩
    · refine (sound.held process holder before).keep (fun _ => rfl) ?_
      rintro other rfl
      have different : other ≠ queue := by
        rintro rfl
        exact sound.not_holder outside before rfl
      simp [State.moveReader, State.setLock, different]
  · exact sound.sweeping
  · exact sound.sending
  · exact sound.routes

/-- A reader that gives its lock back leaves the others with theirs, and the slots with
their tags and queues. -/
theorem Sound.reader_unlocks {state : State Value} (sound : Sound setup state) {queue : Queue}
    {rest : List (Action Value)} (allowed : ∀ action ∈ rest, Allowed setup queue action)
    {timers : List MleTimer}
    (routes : timers.map MleTimer.route = state.timers.map MleTimer.route) :
    Sound setup ({ state.setLock (processOf queue) none with timers := timers }.moveReader queue
      (.run rest)) := by
  constructor
  · exact sound.allowed_moved (.run rest) allowed
  · intro process holder held
    obtain ⟨_, freed⟩ | ⟨apart, before⟩ := set_lock_held held
    · cases freed
    have holds := sound.held process holder before
    refine holds.keep (fun _ => rfl) ?_
    rintro other rfl
    have different : other ≠ queue := by
      rintro rfl
      exact apart holds.1.symm
    simp [State.moveReader, State.setLock, different]
  · exact sound.sweeping
  · exact sound.sending
  · exact routes.trans sound.routes

/-- One step of a reader keeps the state sound: the actions in front of it are allowed, and it
holds the lock only where it says so. -/
theorem sound_reader {state after : State Value} (sound : Sound setup state) {queue : Queue}
    {script : List (Action Value)} (moved : stepReader setup state queue script = some after) :
    Sound setup after := by
  have allowed := sound.allowed queue
  unfold stepReader at moved
  split at moved
  · rename_i here
    split at moved
    · cases moved
    · split at moved
      · rename_i scripted
        cases moved
        exact sound.move (.run script) (fun _ _ _ _ => by simp [here]) scripted rfl rfl rfl rfl
      · cases moved
  · rename_i here
    cases moved
    exact sound.move .recv (fun _ _ _ _ => by simp [here])
      (fun _ listed => nomatch listed) rfl rfl rfl rfl
  · rename_i destination message rest here
    rw [here] at allowed
    split at moved
    · cases moved
      exact sound.move (.run rest) (fun _ _ _ _ => by simp [here])
        (fun action listed => allowed action (List.mem_cons_of_mem _ listed)) rfl rfl rfl rfl
    · cases moved
  · rename_i slot arguments futureSeconds rest here
    rw [here] at allowed
    split at moved
    · cases moved
      exact sound.reader_locks (fun _ _ _ _ => by simp [here]) slot arguments futureSeconds rest
        allowed
    · cases moved
  · rename_i rest here
    rw [here] at allowed
    cases moved
    exact sound.move (.run rest) (fun _ _ _ _ => by simp [here])
      (fun action listed => allowed action (List.mem_cons_of_mem _ listed)) rfl rfl rfl rfl
  · rename_i slot arguments futureSeconds rest here
    rw [here] at allowed
    cases moved
    refine sound.reader_unlocks
      (fun action listed => allowed action (List.mem_cons_of_mem _ listed)) ?_
    split
    · exact routes_modified fun timer => armed_route _ _ _ _ timer
    · rfl

/-- A step of the timer thread outside the sweep leaves no lock with it. -/
theorem Sound.timer_outside {state after : State Value} (sound : Sound setup state)
    (readers : after.readers = state.readers) (timers : after.timers = state.timers)
    (locks : ∀ process holder, after.locks process = some holder →
      holder ≠ .timer ∧ state.locks process = some holder)
    (outside : ∀ slot, after.timer ≠ .sweep slot ∧ after.timer ≠ .sending slot) :
    Sound setup after := by
  constructor
  · rw [readers]
    exact sound.allowed
  · intro process holder held
    obtain ⟨reader, before⟩ := locks process holder held
    exact (sound.held process holder before).keep (fun timer => absurd timer reader)
      (fun queue _ => congrFun readers queue)
  · intro slot swept
    exact absurd swept (outside slot).1
  · intro slot swept
    exact absurd swept (outside slot).2
  · rw [timers]
    exact sound.routes

/-- A step of the timer thread outside the sweep keeps the locks with their holders. -/
theorem Sound.timer_apart {state after : State Value} (sound : Sound setup state)
    (outside : ∀ slot, state.timer ≠ .sweep slot ∧ state.timer ≠ .sending slot)
    (readers : after.readers = state.readers) (timers : after.timers = state.timers)
    (locks : after.locks = state.locks)
    (apart : ∀ slot, after.timer ≠ .sweep slot ∧ after.timer ≠ .sending slot) :
    Sound setup after := by
  apply sound.timer_outside readers timers
  · intro process holder held
    rw [locks] at held
    exact ⟨sound.not_timer outside held, held⟩
  · exact apart

/-- A step inside the sweep keeps the locks with their holders. -/
theorem Sound.timer_inside {state after : State Value} (sound : Sound setup state)
    (readers : after.readers = state.readers) (locks : after.locks = state.locks)
    (routes : after.timers.map MleTimer.route = state.timers.map MleTimer.route) (slot : Nat)
    (inside : (after.timer = .sweep slot ∧ slot ≤ setup.count) ∨
      (after.timer = .sending slot ∧ slot < setup.count)) : Sound setup after := by
  constructor
  · rw [readers]
    exact sound.allowed
  · intro process holder held
    rw [locks] at held
    have holds := sound.held process holder held
    cases holder with
    | timer => exact ⟨holds.1, slot, inside.imp And.left And.left⟩
    | reader queue =>
      exact holds.keep (fun timer => nomatch timer) (fun other _ => congrFun readers other)
  · intro other swept
    rcases inside with ⟨here, bounded⟩ | ⟨here, _⟩
    · rw [here] at swept
      cases swept
      exact bounded
    · rw [here] at swept
      cases swept
  · intro other swept
    rcases inside with ⟨here, _⟩ | ⟨here, bounded⟩
    · rw [here] at swept
      cases swept
    · rw [here] at swept
      cases swept
      exact bounded
  · exact routes.trans sound.routes

/-- After the message of a slot was sent the sweep goes on. -/
theorem Sound.sent {state before : State Value} (sound : Sound setup state) {slot : Nat}
    (inside : slot < setup.count) (readers : before.readers = state.readers)
    (locks : before.locks = state.locks) (timers : before.timers = state.timers) :
    Sound setup (before.sent slot) := by
  refine sound.timer_inside readers locks ?_ (slot + 1) (.inl ⟨rfl, inside⟩)
  rw [← timers]
  exact routes_modified fun timer => disarm_route before.clock timer

/-- A slot with a tag is in front of the end. -/
theorem Sound.tagged_inside {state : State Value} (sound : Sound setup state) {slot : Nat}
    (bounded : slot ≤ setup.count) {timer : MleTimer} (stored : state.timers[slot]? = some timer)
    {tag : List Byte} (tagged : timer.tag = some tag) : slot < setup.count := by
  apply Nat.lt_of_le_of_ne bounded
  rintro rfl
  obtain ⟨last, listed, untagged⟩ := sound.end
  obtain rfl : timer = last := Option.some.inj (stored.symm.trans listed)
  rw [untagged] at tagged
  cases tagged

/-- The timer thread takes the lock in front of the sweep. -/
theorem Sound.timer_locks {state : State Value} (sound : Sound setup state)
    (outside : ∀ slot, state.timer ≠ .sweep slot ∧ state.timer ≠ .sending slot) :
    Sound setup { state.setLock .analyzers (some .timer) with timer := .sweep 0 } := by
  constructor
  · exact sound.allowed
  · intro process holder held
    rcases set_lock_held held with ⟨rfl, own⟩ | ⟨_, before⟩
    · cases own
      exact ⟨rfl, 0, .inl rfl⟩
    · have reader : holder ≠ .timer := sound.not_timer outside before
      exact (sound.held process holder before).keep (fun timer => absurd timer reader)
        (fun _ _ => rfl)
  · rintro slot ⟨⟩
    exact Nat.zero_le _
  · rintro slot ⟨⟩
  · exact sound.routes

/-- The timer thread gives its lock back behind the last slot; no other lock changes, and the
state stays sound. -/
theorem Sound.timer_unlocks {state : State Value} (sound : Sound setup state) :
    Sound setup { state.setLock .analyzers none with timer := .stats } := by
  refine sound.timer_outside rfl rfl (fun process holder held => ?_) (by simp)
  rcases set_lock_held held with ⟨_, freed⟩ | ⟨same, before⟩
  · cases freed
  · refine ⟨?_, before⟩
    rintro rfl
    exact same (sound.held process _ before).1

/-- A round of the sweep keeps the state sound, whether it goes on to the next slot, sends the
message of a due timer, or ends behind the last slot. -/
theorem sound_sweep {state after : State Value} (sound : Sound setup state) {slot : Nat}
    (here : state.timer = .sweep slot) {beyond : Nat → Byte}
    (moved : stepSweep setup state slot beyond = some after) : Sound setup after := by
  have bounded := sound.sweeping slot here
  unfold stepSweep at moved
  split at moved
  · cases moved
  · rename_i timer stored
    split at moved
    · cases moved
      exact sound.timer_unlocks
    · rename_i tag tagged
      have inside := sound.tagged_inside bounded stored tagged
      split at moved
      · split at moved
        · cases moved
          exact sound.sent inside rfl rfl rfl
        · split at moved
          · cases moved
            exact sound.sent inside rfl rfl rfl
          · cases moved
            exact sound.timer_inside rfl rfl rfl slot (.inr ⟨rfl, inside⟩)
      · cases moved
        exact sound.timer_inside rfl rfl rfl (slot + 1) (.inl ⟨rfl, inside⟩)

/-- A `msgqueue_send` of the sweep that waited for room puts the message of a timer. -/
theorem sending_parts {state after : State Value} {slot : Nat} {beyond : Nat → Byte}
    (moved : stepSending setup state slot beyond = some after) : ∃ queue timer,
      (state.put queue (MleTimer.message timer beyond)).sent slot = after := by
  unfold stepSending at moved
  obtain ⟨timer, stored, moved⟩ := Option.bind_eq_some_iff.mp moved
  obtain ⟨queue, routed, moved⟩ := Option.bind_eq_some_iff.mp moved
  split at moved
  · exact ⟨queue, timer, Option.some.inj moved⟩
  · cases moved

/-- Behind the send of a due timer the state is sound: its slot is disarmed, and the locks are
held as before. -/
theorem sound_sending {state after : State Value} (sound : Sound setup state) {slot : Nat}
    (here : state.timer = .sending slot) {beyond : Nat → Byte}
    (moved : stepSending setup state slot beyond = some after) : Sound setup after := by
  have inside := sound.sending slot here
  obtain ⟨queue, timer, rfl⟩ := sending_parts moved
  exact sound.sent inside rfl rfl rfl

/-- One step of the timer thread keeps the state sound, from its sleep to the sending of the
statistics. -/
theorem sound_timer {state after : State Value} (sound : Sound setup state) {beyond : Nat → Byte}
    {statistics : List Byte} (moved : stepTimer setup state beyond statistics = some after) :
    Sound setup after := by
  unfold stepTimer at moved
  split at moved
  · rename_i here
    cases moved
    exact sound.timer_apart (by simp [here]) rfl rfl rfl (by simp)
  · rename_i here
    split at moved
    · cases moved
      exact sound.timer_locks (by simp [here])
    · cases moved
  · rename_i slot here
    exact sound_sweep sound here moved
  · rename_i slot here
    exact sound_sending sound here moved
  · rename_i here
    split at moved
    · cases moved
      exact sound.timer_apart (by simp [here]) rfl rfl rfl (by simp)
    · cases moved
      exact sound.timer_apart (by simp [here]) rfl rfl rfl (by simp)
  · rename_i here
    split at moved
    · cases moved
      exact sound.timer_apart (by simp [here]) rfl rfl rfl (by simp)
    · cases moved

/-- Every step keeps the state sound: those of the readers and of the timer thread, an arrival,
and the passing of time. -/
theorem sound_step {state after : State Value} (sound : Sound setup state) {label : Label Value}
    (moved : step setup state label = some after) : Sound setup after := by
  cases label with
  | reader queue script => exact sound_reader sound moved
  | timer beyond statistics => exact sound_timer sound moved
  | arrive index message =>
    simp only [step] at moved
    split at moved
    · cases moved
      exact ⟨sound.allowed, sound.held, sound.sweeping, sound.sending, sound.routes⟩
    · cases moved
  | tick seconds =>
    cases moved
    exact ⟨sound.allowed, sound.held, sound.sweeping, sound.sending, sound.routes⟩

end Invariant

section Waits

variable {Value : Type} {setup : Setup Value}

/-- What a blocked thread waits for: the reader of a full queue, or the holder of the
timer lock. -/
inductive WaitsFor (setup : Setup Value) (state : State Value) : Thread → Thread → Prop where
  | room (queue destination : Queue) (message : List Byte) (rest : List (Action Value))
      (here : state.readers queue = .run (.send destination message :: rest))
      (full : ¬ HasRoom setup state destination) :
      WaitsFor setup state (.reader queue) (.reader destination)
  | lock (queue : Queue) (slot : Nat) (arguments : List Value) (futureSeconds : Int)
      (rest : List (Action Value)) (holder : Thread)
      (here : state.readers queue = .run (.timerEvent slot arguments futureSeconds :: rest))
      (held : state.locks (processOf queue) = some holder) :
      WaitsFor setup state (.reader queue) holder
  | timerLock (holder : Thread) (here : state.timer = .lock)
      (held : state.locks .analyzers = some holder) : WaitsFor setup state .timer holder
  | sending (slot : Nat) (timer : MleTimer) (queue : Queue) (here : state.timer = .sending slot)
      (stored : state.timers[slot]? = some timer) (routed : timer.queue = some queue)
      (full : ¬ HasRoom setup state queue) : WaitsFor setup state .timer (.reader queue)
  | sendStats (here : state.timer = .sendStats) (full : ¬ HasRoom setup state (.output 1)) :
      WaitsFor setup state .timer (.reader (.output 1))

/-- The threads of a state as a waiting relation: which are busy, which can move, and which
thread a blocked one waits for. -/
def waiting (setup : Setup Value) (state : State Value) : Waiting Thread where
  busy := Busy state
  moves := CanStep setup state
  waitsFor := WaitsFor setup state

/-- The reader of a full queue has something to do. -/
theorem full_busy {state : State Value} {queue : Queue} (full : ¬ HasRoom setup state queue) :
    Busy state (.reader queue) := by
  rintro ⟨_, empty⟩
  apply full
  rw [HasRoom, empty]
  exact setup.positive queue

/-- The holder of a lock has something to do: it is inside the sweep, or behind the update of a
timer. -/
theorem Sound.holder_busy {state : State Value} (sound : Sound setup state) {process : Process}
    {holder : Thread} (held : state.locks process = some holder) : Busy state holder := by
  have holds := sound.held process holder held
  cases holder with
  | timer =>
    obtain ⟨_, slot, here | here⟩ := holds <;> simp [Busy, here]
  | reader queue =>
    obtain ⟨_, slot, arguments, futureSeconds, rest, locked⟩ := holds
    simp [Busy, locked]

/-- A reader with something to do moves or waits for a thread that has something to do. -/
theorem reader_explained {state : State Value} (sound : Sound setup state) {queue : Queue}
    (busy : Busy state (.reader queue)) :
    CanStep setup state (.reader queue) ∨
      ∃ other, WaitsFor setup state (.reader queue) other ∧ Busy state other := by
  have moves (some : (stepReader setup state queue []).isSome) :
      CanStep setup state (.reader queue) := by
    obtain ⟨after, moved⟩ := Option.isSome_iff_exists.mp some
    exact ⟨.reader queue [], after, rfl, moved⟩
  cases here : state.readers queue with
  | recv =>
    cases queued : state.queues queue with
    | nil => exact absurd ⟨here, queued⟩ busy
    | cons message rest => exact .inl (moves (by simp [stepReader, here, queued]))
  | run actions =>
    cases actions with
    | nil => exact .inl (moves (by simp [stepReader, here]))
    | cons action rest =>
      cases action with
      | send destination message =>
        by_cases room : HasRoom setup state destination
        · exact .inl (moves (by simp [stepReader, here, room]))
        · exact .inr ⟨_, .room queue destination message rest here room, full_busy room⟩
      | timerEvent slot arguments futureSeconds =>
        cases lock : state.locks (processOf queue) with
        | none => exact .inl (moves (by simp [stepReader, here, lock]))
        | some holder =>
          exact .inr ⟨holder, .lock queue slot arguments futureSeconds rest holder here lock,
            sound.holder_busy lock⟩
      | write => exact .inl (moves (by simp [stepReader, here]))
  | locked slot arguments futureSeconds rest =>
    exact .inl (moves (by simp [stepReader, here]))

/-- A round of the sweep is never blocked: the slot it comes to is in the list, and it needs no
room to find a timer that is due. -/
theorem sweep_moves {state : State Value} (sound : Sound setup state) {slot : Nat}
    (here : state.timer = .sweep slot) (beyond : Nat → Byte) :
    ∃ after, stepSweep setup state slot beyond = some after := by
  obtain ⟨timer, stored⟩ : ∃ timer, state.timers[slot]? = some timer := by
    rcases Nat.eq_or_lt_of_le (sound.sweeping slot here) with rfl | inside
    · obtain ⟨last, stored, _⟩ := sound.end
      exact ⟨last, stored⟩
    · obtain ⟨timer, _, stored, _⟩ := sound.slot inside
      exact ⟨timer, stored⟩
  simp only [stepSweep, stored]
  split
  · exact ⟨_, rfl⟩
  · split
    · split
      · exact ⟨_, rfl⟩
      · split
        · exact ⟨_, rfl⟩
        · exact ⟨_, rfl⟩
    · exact ⟨_, rfl⟩

/-- The timer thread, when it is awake, moves or waits for a thread that has something to
do. -/
theorem timer_explained {state : State Value} (sound : Sound setup state)
    (busy : Busy state .timer) :
    CanStep setup state .timer ∨
      ∃ other, WaitsFor setup state .timer other ∧ Busy state other := by
  have moves (some : (stepTimer setup state (fun _ => 0) []).isSome) :
      CanStep setup state .timer := by
    obtain ⟨after, moved⟩ := Option.isSome_iff_exists.mp some
    exact ⟨.timer (fun _ => 0) [], after, rfl, moved⟩
  cases here : state.timer with
  | sleep => exact absurd here busy
  | lock =>
    cases lock : state.locks .analyzers with
    | none => exact .inl (moves (by simp [stepTimer, here, lock]))
    | some holder => exact .inr ⟨holder, .timerLock holder here lock, sound.holder_busy lock⟩
  | sweep slot =>
    obtain ⟨after, moved⟩ := sweep_moves sound here fun _ => 0
    exact .inl (moves (by simp [stepTimer, here, moved]))
  | sending slot =>
    obtain ⟨timer, _, stored, _, routed⟩ := sound.slot (sound.sending slot here)
    by_cases room : HasRoom setup state (if slot = 0 then .output 0 else .analyzer slot)
    · exact .inl (moves (by simp [stepTimer, here, stepSending, stored, routed, room]))
    · exact .inr ⟨_, .sending slot timer _ here stored routed room, full_busy room⟩
  | stats =>
    refine .inl (moves ?_)
    simp only [stepTimer, here]
    split <;> rfl
  | sendStats =>
    by_cases room : HasRoom setup state (.output 1)
    · exact .inl (moves (by simp [stepTimer, here, room]))
    · exact .inr ⟨_, .sendStats here room, full_busy room⟩

/-- Every thread with something to do is explained: it moves, or it waits for another one that
has something to do. -/
theorem explained {state : State Value} (sound : Sound setup state) :
    (waiting setup state).Explained := by
  intro thread busy
  cases thread with
  | reader queue => exact reader_explained sound busy
  | timer => exact timer_explained sound busy

/-! ## No cycle -/

/-- The last of the places that the first analyzers have in the order of forwarding. -/
def lastOf (order : Nat → Nat) : Nat → Nat
  | 0 => 0
  | count + 1 => max (order count) (lastOf order count)

/-- None of the first analyzers comes behind the last of their places. -/
theorem le_lastOf (order : Nat → Nat) {index count : Nat} (inside : index < count) :
    order index ≤ lastOf order count := by
  induction count with
  | zero => exact absurd inside (Nat.not_lt_zero index)
  | succ count inductionHypothesis =>
    simp only [lastOf]
    obtain before | rfl := Nat.lt_succ_iff_lt_or_eq.mp inside
    · exact Nat.le_trans (inductionHypothesis before) (Nat.le_max_right _ _)
    · exact Nat.le_max_left _ _

/-- The last place in the order of forwarding that any analyzer of the setup has. -/
def lastPlace (setup : Setup Value) : Nat := lastOf setup.order setup.count

/-- The rank of a reader: outputs last, then analyzers backwards, then inputs. -/
def queueRank (setup : Setup Value) : Queue → Nat
  | .output _ => 0
  | .analyzer index => 2 + (lastPlace setup - setup.order index)
  | .input _ => 3 + lastPlace setup

/-- The rank of a thread: a reader that holds a lock is last. -/
def rank (setup : Setup Value) (state : State Value) : Thread → Nat
  | .timer => 1
  | .reader queue =>
      match state.readers queue with
      | .locked _ _ _ _ => 0
      | _ => queueRank setup queue

/-- Holding a lock only lowers the rank of a reader, since one that holds a lock has the rank
zero. -/
theorem rank_reader_le (state : State Value) (queue : Queue) :
    rank setup state (.reader queue) ≤ queueRank setup queue := by
  cases here : state.readers queue <;> simp [rank, here]

/-- The rank of a reader that performs the actions of a script is the one of its queue, as it
does not hold the lock. -/
theorem rank_reader_run {state : State Value} {queue : Queue} {actions : List (Action Value)}
    (here : state.readers queue = .run actions) :
    rank setup state (.reader queue) = queueRank setup queue := by
  simp only [rank, here]

/-- A queue that may be sent to has a smaller rank. -/
theorem allowed_send_rank {queue destination : Queue} {message : List Byte}
    (allowed : Allowed setup queue (.send destination message)) :
    queueRank setup destination < queueRank setup queue := by
  cases queue with
  | input =>
    cases destination with
    | input => cases allowed
    | analyzer index => simp only [queueRank]; omega
    | output => simp only [queueRank]; omega
  | analyzer before =>
    cases destination with
    | input => cases allowed
    | output => simp only [queueRank]; omega
    | analyzer index =>
      obtain ⟨inside, later⟩ := allowed
      have bounded : setup.order index ≤ lastPlace setup := le_lastOf setup.order inside
      simp only [queueRank]
      omega
  | output => cases destination <;> cases allowed

/-- What is armed by a reader is armed by no output. -/
theorem allowed_timer_rank {queue : Queue} {slot : Nat} {arguments : List Value}
    {futureSeconds : Int}
    (allowed : Allowed setup queue (.timerEvent slot arguments futureSeconds)) :
    1 < queueRank setup queue := by
  cases queue with
  | input => simp only [queueRank]; omega
  | analyzer => simp only [queueRank]; omega
  | output => cases allowed

/-- The timer thread waits for room in the queue of the log only. -/
def Calm (state : State Value) : Prop := ∀ slot, state.timer = .sending slot → slot = 0

/-- Where the timer thread is calm and waits for room, it waits in front of the queue of the
log. -/
theorem Calm.queue {state : State Value} (calm : Calm state) (sound : Sound setup state)
    {slot : Nat} (here : state.timer = .sending slot) {timer : MleTimer}
    (stored : state.timers[slot]? = some timer) {queue : Queue}
    (routed : timer.queue = some queue) : queue = .output 0 := by
  obtain rfl := calm slot here
  exact sound.own_queue (sound.sending 0 here) stored routed

/-- The holder of a lock that a reader waits for has a smaller rank. -/
theorem holder_rank {state : State Value} (sound : Sound setup state) {process : Process}
    {holder : Thread} (held : state.locks process = some holder) :
    rank setup state holder ≤ 1 := by
  have holds := sound.held process holder held
  cases holder with
  | timer => exact Nat.le_refl _
  | reader queue =>
    obtain ⟨_, slot, arguments, futureSeconds, rest, locked⟩ := holds
    simp [rank, locked]

/-- The rank falls along waiting where the timer thread is calm. -/
theorem rank_falls {state : State Value} (sound : Sound setup state) (calm : Calm state)
    {thread other : Thread} (waits : WaitsFor setup state thread other) :
    rank setup state other < rank setup state thread := by
  cases waits with
  | room queue destination message rest here full =>
    have allowed := sound.allowed queue
    rw [here] at allowed
    rw [rank_reader_run here]
    exact Nat.lt_of_le_of_lt (rank_reader_le state destination)
      (allowed_send_rank (allowed _ List.mem_cons_self))
  | lock queue slot arguments futureSeconds rest holder here held =>
    have allowed := sound.allowed queue
    rw [here] at allowed
    rw [rank_reader_run here]
    exact Nat.lt_of_le_of_lt (holder_rank sound held)
      (allowed_timer_rank (allowed _ List.mem_cons_self))
  | timerLock holder here held =>
    have holds := sound.held .analyzers other held
    cases other with
    | timer =>
      obtain ⟨_, slot, swept | sent⟩ := holds
      · rw [here] at swept
        cases swept
      · rw [here] at sent
        cases sent
    | reader queue =>
      obtain ⟨_, slot, arguments, futureSeconds, rest, locked⟩ := holds
      simp [rank, locked]
  | sending slot timer queue here stored routed full =>
    obtain rfl := calm.queue sound here stored routed
    exact Nat.lt_of_le_of_lt (rank_reader_le state (.output 0)) Nat.zero_lt_one
  | sendStats here full =>
    exact Nat.lt_of_le_of_lt (rank_reader_le state (.output 1)) Nat.zero_lt_one

/-- Where the timer thread is calm there is no cycle. -/
theorem acyclic {state : State Value} (sound : Sound setup state) (calm : Calm state) :
    (waiting setup state).Acyclic :=
  Waiting.acyclic_of_rank (rank setup state) fun _ _ waits => rank_falls sound calm waits

/-- Where the timer thread is calm there is progress: the waiting has no cycle, so some thread
that has something to do can move. -/
theorem calm_progress {state : State Value} (sound : Sound setup state) (calm : Calm state) :
    Progress setup state := by
  constructor
  · rintro ⟨queue, filled⟩
    have busy : (waiting setup state).busy (.reader queue) := fun ⟨_, empty⟩ => filled empty
    exact Waiting.busy_moves (acyclic sound calm) (explained sound) busy
  · intro _
    by_cases asleep : state.timer = .sleep
    · exact ⟨.timer, .timer (fun _ => 0) [], { state with timer := .lock }, rfl,
        by simp only [step, stepTimer, asleep]⟩
    · have busy : (waiting setup state).busy .timer := asleep
      obtain ⟨thread, _, moves⟩ := Waiting.busy_moves (acyclic sound calm) (explained sound) busy
      exact ⟨thread, moves⟩
  · intro queue cycle
    obtain ⟨slot, timer, here, stored, routed, _⟩ := cycle.waits
    obtain rfl := calm.queue sound here stored routed
    obtain ⟨_, _, _, _, _, analyzers⟩ := cycle.reader
    cases analyzers

/-! ## Runs -/

/-- The threads begin in a sound state: no reader has an action in front of it, no lock is held,
and the timers are those of start-up. -/
theorem sound_initial (setup : Setup Value) (clock : Int) : Sound setup (initial setup clock) := by
  constructor
  · intro queue action listed
    cases listed
  · intro process holder held
    cases held
  · rintro slot ⟨⟩
  · rintro slot ⟨⟩
  · rfl

/-- A step of a reader leaves the timer thread where it is. -/
theorem reader_step_timer {state after : State Value} {queue : Queue}
    {script : List (Action Value)} (moved : stepReader setup state queue script = some after) :
    after.timer = state.timer := by
  unfold stepReader at moved
  split at moved
  · split at moved
    · cases moved
    · split at moved
      · cases moved
        rfl
      · cases moved
  · cases moved
    rfl
  · split at moved
    · cases moved
      rfl
    · cases moved
  · split at moved
    · cases moved
      rfl
    · cases moved
  · cases moved
    rfl
  · cases moved
    rfl

/-- A round of the sweep that finds room leaves the timer thread calm. -/
theorem calm_sweep {state after : State Value} (sound : Sound setup state) {slot : Nat}
    (here : state.timer = .sweep slot) {beyond : Nat → Byte} {statistics : List Byte}
    (fits : TimersFit setup state (.timer beyond statistics))
    (moved : stepSweep setup state slot beyond = some after) : Calm after := by
  unfold stepSweep at moved
  split at moved
  · cases moved
  · rename_i timer stored
    split at moved
    · cases moved
      rintro other ⟨⟩
    · rename_i tag tagged
      split at moved
      · rename_i due
        split at moved
        · cases moved
          rintro other ⟨⟩
        · rename_i queue routed
          split at moved
          · cases moved
            rintro other ⟨⟩
          · rename_i full
            cases moved
            rintro other ⟨⟩
            by_contra behind
            have inside := sound.tagged_inside (sound.sweeping slot here) stored tagged
            have own := sound.own_queue inside stored routed
            rw [if_neg behind] at own
            subst own
            have comes : dueQueue state = some (.analyzer slot) := by
              simp [dueQueue, here, stored, due, routed]
            exact full (fits _ comes rfl)
      · cases moved
        rintro other ⟨⟩

/-- One step in which a sweep finds room leaves the timer thread calm. -/
theorem calm_step {state after : State Value} (sound : Sound setup state) (calm : Calm state)
    {label : Label Value} (fits : TimersFit setup state label)
    (moved : step setup state label = some after) : Calm after := by
  cases label with
  | reader queue script =>
    intro slot sending
    rw [reader_step_timer moved] at sending
    exact calm slot sending
  | arrive index message =>
    simp only [step] at moved
    split at moved
    · cases moved
      exact calm
    · cases moved
  | tick seconds =>
    cases moved
    exact calm
  | timer beyond statistics =>
    simp only [step, stepTimer] at moved
    split at moved
    · cases moved
      rintro slot ⟨⟩
    · split at moved
      · cases moved
        rintro slot ⟨⟩
      · cases moved
    · rename_i slot here
      exact calm_sweep sound here fits moved
    · rename_i slot here
      obtain ⟨queue, timer, rfl⟩ := sending_parts moved
      rintro other ⟨⟩
    · split at moved
      · cases moved
        rintro slot ⟨⟩
      · cases moved
        rintro slot ⟨⟩
    · split at moved
      · cases moved
        rintro slot ⟨⟩
      · cases moved

/-- In every run in which a sweep that comes to a due timer of an analyzer finds room in
its queue, every state has progress. -/
theorem no_deadlock {state : State Value}
    (reached : (system setup).Reaches (TimersFit setup) state) : Progress setup state := by
  have standing : Sound setup state ∧ Calm state := by
    apply reached.invariant (fun state => Sound setup state ∧ Calm state)
    · rintro _ ⟨clock, rfl⟩
      refine ⟨sound_initial setup clock, ?_⟩
      rintro slot ⟨⟩
    · rintro before label after ⟨sound, calm⟩ fits moved
      exact ⟨sound_step sound moved, calm_step sound calm fits moved⟩
  exact calm_progress standing.1 standing.2

end Waits

/-! ## Two analyzers -/

/-- The configuration that start-up leaves for two analyzers with the tags `"a"` and `"b"` and
no outputs of the user. -/
def twoAnalyzers : Configuration :=
  match initializeConfiguration (fun _ => true) (bytesOf "/analyzer")
      (some [analyzerEntry "a", analyzerEntry "b"]) (some []) with
  | .ok loaded => createMessageQueues loaded
  | .error _ => ⟨[], []⟩

/-- The configuration with two analyzers is one that start-up leaves, and the count of its
analyzers is two. -/
theorem two_started : Started twoAnalyzers 2 := by
  obtain ⟨loaded, initialized⟩ : ∃ loaded, initializeConfiguration (fun _ => true)
      (bytesOf "/analyzer") (some [analyzerEntry "a", analyzerEntry "b"]) (some []) = .ok loaded :=
    ⟨_, rfl⟩
  obtain ⟨entries, same, started⟩ := configuration_started initialized
  obtain rfl := Option.some.inj same
  rw [twoAnalyzers, initialized]
  exact started

/-- A setup with these two analyzers whose queues have room for a single message each. -/
def narrow : Setup Scalars.Scalar where
  lua := Scalars.scalars
  configuration := twoAnalyzers
  count := 2
  started := two_started
  capacity _ := 1
  positive _ := Nat.one_pos
  order := id

/-- What the analyzer `"b"` does to arm a timer for itself that is due at once. -/
def armOwn : Action Scalars.Scalar :=
  .timerEvent 1 [Scalars.text "b" (by decide), .integer ⟨0, by decide⟩, .boolean true] 0

/-- A line arrives and is forwarded to the analyzer `"b"`. -/
def forwarded : List (Label Scalars.Scalar) :=
  [.arrive 0 [1], .reader (.input 0) [.send (.analyzer 1) [1]], .reader (.input 0) [],
    .reader (.input 0) []]

/-- The timer thread wakes up, takes its lock and sweeps the slots of both analyzers. -/
def swept : List (Label Scalars.Scalar) := List.replicate 4 (.timer (fun _ => 0) [])

/-- The runs of the two analyzers begin at the time 100, under any guard. -/
theorem narrow_begins (guard : State Scalars.Scalar → Label Scalars.Scalar → Prop) :
    (system narrow).Reaches guard (initial narrow 100) := .initial ⟨100, rfl⟩

/-- The analyzer arms a timer and waits for its next message; the timer finds room. -/
theorem no_deadlock_narrow : ∃ state, state.queues (.analyzer 1) ≠ [] ∧ Progress narrow state := by
  obtain ⟨state, completed, filled⟩ : ∃ state,
      (system narrow).follow (forwarded ++ [.reader (.analyzer 1) [armOwn]] ++
        List.replicate 3 (.reader (.analyzer 1) []) ++ swept) (initial narrow 100) = some state ∧
      state.queues (.analyzer 1) ≠ [] := ⟨_, rfl, by decide⟩
  refine ⟨state, filled, no_deadlock ((narrow_begins _).followed _ state ?_ completed)⟩
  decide

/-- The analyzer is about to arm a second timer when its queue is full and its first
timer is due. -/
theorem lock_cycle_reached :
    ¬ ∀ state, (system narrow).Reachable state → Progress narrow state := by
  intro claimed
  obtain ⟨state, completed, cycle⟩ : ∃ state,
      (system narrow).follow (forwarded ++ [.reader (.analyzer 1) [armOwn, armOwn]] ++
        List.replicate 2 (.reader (.analyzer 1) []) ++ forwarded ++ swept) (initial narrow 100) =
          some state ∧ LockCycle narrow state (.analyzer 1) := by
    refine ⟨_, rfl, rfl, ⟨1, _, rfl, rfl, rfl, by decide⟩, ⟨1, _, 0, [], rfl, rfl⟩⟩
  exact (claimed state (System.Reachable.followed (narrow_begins _) _ state completed)).apart _
    cycle

end Dragonfly.Blocking
