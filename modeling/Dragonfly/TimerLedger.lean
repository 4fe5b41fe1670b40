import Dragonfly.Ledger
import Dragonfly.TimerDelivery

/-!
# Every accepted timer call is accounted for once

A call of `timer_event` is accepted when it has three arguments, the first is a
string and names an analyzer. It makes a posting in a ledger: the slot it arms, the
instant the timer falls due, and the arguments. A sweep settles the ledger with the
readings of its clock. The ledger is a history of the run; it does not see the
slots.

The timer list follows the ledger. What the thread sends is, in order, what the
ledger settles: the copy of what the call packed. A call for a slot that is still
armed replaces its timer, since there is one slot for each analyzer.
-/

namespace Dragonfly.Timers

open Config Events Scalars

section Ledgers

variable {Value : Type} (lua : Lua Value)

/-- The posting of a call of `timer_event`, when it is accepted. -/
def posting (analyzers : List AnalyzerConfig) (arguments : List Value) (now : Int)
    (timers : List MleTimer) : Option (Posting (List Value)) :=
  match arguments with
  | [tag, seconds, _] =>
      (lua.toString tag).bind fun name =>
        match timerSlot analyzers timers name with
        | .found slot => some ⟨slot, now + toInt (lua.toInteger seconds), arguments⟩
        | _ => none
  | _ => none

/-- The ledger behind a step: an accepted call makes a posting, and a sweep settles what is due
by its clock. -/
def record (configuration : Configuration) (timers : List MleTimer)
    (ledger : Ledger (List Value)) : TimerLabel Value → Ledger (List Value)
  | .timerEvent arguments now =>
      match posting lua configuration.analyzers arguments now timers with
      | some made => ledger.post made
      | none => ledger
  | .sweep clock _ => ledger.settle maxAnalyzerStreams clock

/-- The timer list together with the ledger of the run. -/
def recorded (configuration : Configuration) :
    System (TimerState × Ledger (List Value)) (TimerLabel Value) where
  start run := (system lua configuration).start run.1 ∧ run.2 = .empty
  next run label := ((system lua configuration).next run.1 label).map fun after =>
    (after, record lua configuration run.1.timers run.2 label)

/-- Calls have a positive delay, at an instant the clock can show. -/
def PositiveDelay {State : Type} (_ : State) : TimerLabel Value → Prop
  | .timerEvent [_, seconds, _] now => 0 ≤ now ∧ 0 < toInt (lua.toInteger seconds)
  | _ => True

/-- Every run of the timers has its ledger, which is kept beside it and does not restrict it. -/
theorem run_recorded {configuration : Configuration} {state : TimerState}
    (reached : (system lua configuration).Reaches (PositiveDelay lua) state) :
    ∃ ledger, (recorded lua configuration).Reaches (PositiveDelay lua) (state, ledger) := by
  apply reached.invariant fun state =>
    ∃ ledger, (recorded lua configuration).Reaches (PositiveDelay lua) (state, ledger)
  · intro state started
    exact ⟨.empty, .initial ⟨started, rfl⟩⟩
  · rintro state label after ⟨ledger, before⟩ admitted moved
    refine ⟨record lua configuration state.timers ledger label, before.extend label ?_ ?_⟩
    · cases label <;> exact admitted
    · simp only [recorded, moved, Option.map_some]

/-- The posting that a slot of the ledger holds, if it holds one. -/
def posted (ledger : Ledger (List Value)) (slot : Nat) : Option (Posting (List Value)) :=
  (ledger.held slot).bind fun number => ledger.postings[number]?

/-- The slot of the timer list stands as the posting it holds says: armed for the instant of the
posting, with its packed arguments; or idle where it holds none. -/
def Stands (timer : MleTimer) : Option (Posting (List Value)) → Prop
  | none => timer.epoch = 0
  | some held => 0 < held.due ∧ timer.epoch = held.due ∧
      timer.length = (lua.pack held.content).length ∧
      timer.msgpack = some (strndup (lua.pack held.content) (lua.pack held.content).length)

/-- The message went out from the slot of a posting and is read from the copy of what
the call packed. -/
def Carries (postings : List (Posting (List Value))) (sent : Sent) (entry : Nat × Int) : Prop :=
  ∃ posting beyond, postings[entry.1]? = some posting ∧ sent.slot = posting.slot ∧
    sent.message = readMemory (strndup (lua.pack posting.content)
      (lua.pack posting.content).length) beyond (lua.pack posting.content).length

/-- The timer list and what was sent agree with the ledger. -/
structure Records (count : Nat) (run : TimerState × Ledger (List Value)) : Prop where
  sound : run.2.Sound maxAnalyzerStreams
  length : run.1.timers.length = maxAnalyzerStreams
  stands : ∀ slot timer, run.1.timers[slot]? = some timer → Stands lua timer (posted run.2 slot)
  within : ∀ slot, count ≤ slot → run.2.held slot = none
  sent : List.Forall₂ (Carries lua run.2.postings) run.1.sent run.2.settled

end Ledgers

section Sweeps

variable {Value : Type} {lua : Lua Value} {ledger : Ledger (List Value)}

/-- A slot of the ledger that holds nothing has nothing due, at any time. -/
theorem due_vacant {clock : Nat → Int} {slot : Nat} (vacant : ledger.held slot = none) :
    ledger.due clock slot = none := by
  rw [Ledger.due, vacant]
  rfl

/-- What one slot sends and how the sweep leaves it is what the ledger says. -/
theorem fire_settles (sound : ledger.Sound maxAnalyzerStreams) {slot : Nat} {timer : MleTimer}
    (stands : Stands lua timer (posted ledger slot)) (clock : Nat → Int) (beyond : Nat → Byte) :
    List.Forall₂ (Carries lua ledger.postings) (fire slot (clock slot) beyond timer)
        (ledger.due clock slot).toList ∧
      Stands lua (disarm (clock slot) timer)
        (if (ledger.due clock slot).isSome then none else posted ledger slot) := by
  cases held : ledger.held slot with
  | none =>
    have nothing : posted ledger slot = none := by rw [posted, held]; rfl
    rw [nothing] at stands
    have idle : ¬ timer.Due (clock slot) := by
      intro due
      have positive := due.1
      have stopped : timer.epoch = 0 := stands
      omega
    rw [due_vacant held, fire, disarm, if_neg idle, if_neg idle, nothing]
    exact ⟨.nil, stands⟩
  | some number =>
    obtain ⟨_, posting, stored, own⟩ := sound.own slot number held
    have holds : posted ledger slot = some posting := by rw [posted, held, Option.bind_some, stored]
    rw [holds] at stands
    obtain ⟨positive, epoch, length, copy⟩ := stands
    have due : ledger.due clock slot =
        if posting.due ≤ clock slot then some (number, clock slot) else none := by
      rw [Ledger.due, held, Option.bind_some, stored, Option.bind_some]
    rw [due, fire, disarm]
    by_cases early : posting.due ≤ clock slot
    · have fires : timer.Due (clock slot) := ⟨epoch ▸ positive, epoch ▸ early⟩
      rw [if_pos early, if_pos fires, if_pos fires]
      constructor
      · apply List.Forall₂.cons _ .nil
        refine ⟨posting, beyond, stored, own.symm, ?_⟩
        rw [MleTimer.message, length, copy, Option.getD_some]
      · exact rfl
    · have idle : ¬ timer.Due (clock slot) := by
        intro fires
        exact early (epoch ▸ fires.2)
      rw [if_neg early, if_neg idle, if_neg idle, holds]
      exact ⟨.nil, positive, epoch, length, copy⟩

/-- A sweep sends what the ledger settles and leaves the slots as it says. -/
theorem sweep_settles (sound : ledger.Sound maxAnalyzerStreams) {clock : Nat → Int}
    {beyond : Nat → Nat → Byte} {start : Nat} {timers swept : List MleTimer} {sent : List Sent}
    (made : sweep clock beyond start timers = some (sent, swept))
    (stands : ∀ position timer, timers[position]? = some timer →
      Stands lua timer (posted ledger (start + position)))
    (ends : ∀ position timer, timers[position]? = some timer → timer.tag = none →
      ∀ later, position ≤ later → ledger.held (start + later) = none) :
    List.Forall₂ (Carries lua ledger.postings) sent
        ((List.range' start timers.length).filterMap (ledger.due clock)) ∧
      ∀ position timer, swept[position]? = some timer → Stands lua timer
        (if (ledger.due clock (start + position)).isSome then none
          else posted ledger (start + position)) := by
  induction timers generalizing start sent swept with
  | nil => cases made
  | cons first rest inductionHypothesis =>
    cases tag : first.tag with
    | none =>
      have vacant (later : Nat) : ledger.due clock (start + later) = none :=
        due_vacant (ends 0 first rfl tag later (Nat.zero_le _))
      simp only [sweep, tag] at made
      cases made
      constructor
      · have none :
            (List.range' start (first :: rest).length).filterMap (ledger.due clock) = [] := by
          rw [List.filterMap_eq_nil_iff]
          intro slot listed
          obtain ⟨position, _, rfl⟩ := List.mem_range'.mp listed
          rw [Nat.one_mul]
          exact vacant position
        rw [none]
        exact .nil
      · intro position timer stored
        rw [vacant position]
        exact stands position timer stored
    | some name =>
      simp only [sweep, tag, Option.map_eq_some_iff] at made
      obtain ⟨⟨later, after⟩, remaining, made⟩ := made
      cases made
      have own := fire_settles sound (stands 0 first rfl) clock (beyond start)
      obtain ⟨others, left⟩ := inductionHypothesis remaining
        (fun position timer stored => by
          have there := stands (position + 1) timer stored
          rwa [Nat.add_comm position, ← Nat.add_assoc] at there)
        (fun position timer stored untagged later behind => by
          have there := ends (position + 1) timer stored untagged (later + 1) (by omega)
          rwa [Nat.add_comm later, ← Nat.add_assoc] at there)
      constructor
      · have cons : (List.range' start (first :: rest).length).filterMap (ledger.due clock) =
            (ledger.due clock start).toList ++
              (List.range' (start + 1) rest.length).filterMap (ledger.due clock) := by
          rw [List.length_cons, List.range'_succ, List.filterMap_cons]
          cases ledger.due clock start <;> rfl
        rw [cons]
        exact List.rel_append own.1 others
      · intro position timer stored
        cases position with
        | zero =>
          obtain rfl : disarm (clock start) first = timer := Option.some.inj stored
          exact own.2
        | succ position =>
          have there := left position timer stored
          rwa [Nat.add_assoc, Nat.add_comm 1] at there

end Sweeps

section Runs

variable {Value : Type} {lua : Lua Value} {configuration : Configuration} {count : Nat}

/-- A call that is accepted arms the slot of its posting, for the instant at which the posting
falls due. -/
theorem posting_arms {state : TimerState} {arguments : List Value} {now : Int}
    {made : Posting (List Value)}
    (accepted : posting lua configuration.analyzers arguments now state.timers = some made) :
    ∃ seconds, made.content = arguments ∧ made.due = now + seconds ∧
      (∀ tag delay value, arguments = [tag, delay, value] →
        seconds = toInt (lua.toInteger delay)) ∧
      Arms lua configuration state arguments now made.slot
        ⟨state.timers.modify made.slot (armed lua arguments seconds now), state.sent⟩ := by
  unfold posting at accepted
  split at accepted
  · rename_i tag seconds value
    obtain ⟨name, string, accepted⟩ := Option.bind_eq_some_iff.mp accepted
    split at accepted
    · rename_i slot found
      cases accepted
      refine ⟨toInt (lua.toInteger seconds), rfl, rfl, ?_, ?_, ?_⟩
      · intro _ delay _ same
        cases same
        rfl
      · exact ⟨tag, seconds, value, name, rfl, string, found⟩
      · simp only [system, timerEvent, string, found]
    · cases accepted
  · cases accepted

/-- A call that is not accepted changes neither the timers nor what was sent. -/
theorem refused_call {state after : TimerState} {arguments : List Value} {now : Int}
    (refused : posting lua configuration.analyzers arguments now state.timers = none)
    (moved : (system lua configuration).next state (.timerEvent arguments now) = some after) :
    after = state := by
  simp only [system, timerEvent] at moved
  unfold posting at refused
  split at refused
  · rename_i tag seconds value
    cases string : lua.toString tag with
    | none =>
      simp only [string] at moved
      exact (Option.some.inj moved).symm
    | some name =>
      simp only [string, Option.bind_some] at refused moved
      split at refused
      · cases refused
      · cases found : timerSlot configuration.analyzers state.timers name with
        | found slot => simp_all
        | absent =>
          simp only [found] at moved
          exact (Option.some.inj moved).symm
        | undefined =>
          simp only [found] at moved
          cases moved
  · rename_i shape
    split at moved
    · rename_i returned
      split at returned
      · exact absurd rfl (shape _ _ _)
      · cases returned
    · exact (Option.some.inj moved).symm
    · cases moved

/-- What a slot holds behind a posting: the new one if it is the slot of the posting, and
otherwise what it held. -/
theorem posted_post {ledger : Ledger (List Value)} (sound : ledger.Sound maxAnalyzerStreams)
    (made : Posting (List Value)) (slot : Nat) :
    posted (ledger.post made) slot =
      if slot = made.slot then some made else posted ledger slot := by
  by_cases same : slot = made.slot
  · subst same
    rw [posted, Ledger.post_held_self, if_pos rfl, Option.bind_some, Ledger.post]
    exact List.getElem?_concat_length
  · rw [posted, Ledger.post_held_other ledger same, if_neg same, posted]
    cases held : ledger.held slot with
    | none => rfl
    | some number =>
      rw [Option.bind_some, Option.bind_some, Ledger.post,
        List.getElem?_append_left (sound.held_lt held)]

/-- What was carried stays carried when a posting is made. -/
theorem Carries.later {postings : List (Posting (List Value))} {sent : Sent} {entry : Nat × Int}
    (carries : Carries lua postings sent entry) (more : List (Posting (List Value))) :
    Carries lua (postings ++ more) sent entry := by
  obtain ⟨posting, beyond, stored, rest⟩ := carries
  refine ⟨posting, beyond, ?_, rest⟩
  rw [List.getElem?_append_left (List.getElem?_eq_some_iff.mp stored).1, stored]

/-- No slot of the timers is armed at start-up, since `startup_threads` fills in the tag and the
queue only. -/
theorem startup_idle {timer : MleTimer} (listed : timer ∈ startupTimers configuration) :
    timer.epoch = 0 := by
  obtain ⟨index, _, rfl⟩ := List.mem_map.mp listed
  dsimp only
  split
  · split <;> rfl
  · split
    · split <;> rfl
    · rfl

/-- At the start the timers agree with the empty ledger: no slot is armed, and nothing was sent. -/
theorem start_records (count : Nat) :
    Records lua count (⟨startupTimers configuration, []⟩, .empty) := by
  constructor
  · exact Ledger.empty_sound _
  · simp [startupTimers]
  · intro slot timer stored
    exact startup_idle (List.mem_of_getElem? stored)
  · intro slot _
    rfl
  · exact .nil

/-- An accepted call keeps the agreement of the timers and the ledger, because it arms the slot
of its posting. -/
theorem Records.called (started : Started configuration count)
    {run : TimerState × Ledger (List Value)} (records : Records lua count run)
    {arguments : List Value} {now : Int} {made : Posting (List Value)} {seconds : Int}
    (content : made.content = arguments) (due : made.due = now + seconds)
    (positive : 0 < made.due) (inside : made.slot < count) :
    Records lua count
      (⟨run.1.timers.modify made.slot (armed lua arguments seconds now), run.1.sent⟩,
        run.2.post made) := by
  constructor
  · exact records.sound.post (Nat.lt_trans inside started.bounded)
  · rw [List.length_modify, records.length]
  · intro slot timer stored
    rw [posted_post records.sound]
    rw [List.getElem?_modify] at stored
    obtain ⟨old, there, changed⟩ := Option.map_eq_some_iff.mp stored
    by_cases same : slot = made.slot
    · rw [if_pos same.symm] at changed
      subst changed content
      rw [if_pos same]
      exact ⟨positive, due.symm, rfl, rfl⟩
    · rw [if_neg (Ne.symm same)] at changed
      obtain rfl : old = timer := changed
      rw [if_neg same]
      exact records.stands slot old there
  · intro slot beyond
    rw [Ledger.post_held_other _ (by omega)]
    exact records.within slot beyond
  · exact records.sent.imp fun _ _ carries => carries.later [made]

/-- A sweep of the standing list keeps the agreement and sends what the ledger
settles. -/
theorem Records.swept (started : Started configuration count)
    {run : TimerState × Ledger (List Value)} (records : Records lua count run)
    (reached : (system lua configuration).Reachable run.1) {clock : Nat → Int}
    {beyond : Nat → Nat → Byte} {sent : List Sent} {timers : List MleTimer}
    (made : sweep clock beyond 0 run.1.timers = some (sent, timers)) :
    List.Forall₂ (Carries lua run.2.postings) sent
        ((List.range maxAnalyzerStreams).filterMap (run.2.due clock)) ∧
      Records lua count (⟨timers, run.1.sent ++ sent⟩, run.2.settle maxAnalyzerStreams clock) := by
  have settles := sweep_settles records.sound made
    (fun position timer stored => by
      rw [Nat.zero_add]
      exact records.stands position timer stored)
    (fun position timer stored untagged later behind => by
      rw [Nat.zero_add]
      apply records.within
      by_contra inside
      obtain ⟨listed, tag, there, tagged, _⟩ :=
        standing_slot started reached (Nat.lt_of_le_of_lt behind (Nat.lt_of_not_le inside))
      obtain rfl : timer = listed := Option.some.inj (stored.symm.trans there)
      rw [untagged] at tagged
      cases tagged)
  rw [records.length, ← List.range_eq_range'] at settles
  refine ⟨settles.1, ?_⟩
  constructor
  · exact records.sound.settle clock
  · have routes := congrArg List.length (sweep_routes made)
    simpa only [List.length_map, records.length] using routes
  · intro slot timer stored
    have stands := settles.2 slot timer stored
    rw [Nat.zero_add] at stands
    simp only [posted, Ledger.settle]
    split at stands
    · rename_i early
      rw [if_pos early]
      exact stands
    · rename_i early
      rw [if_neg early]
      exact stands
  · intro slot beyondCount
    simp only [Ledger.settle, records.within slot beyondCount, ite_self]
  · exact List.rel_append records.sent settles.1

/-- One step of a recorded run keeps the agreement of the timers and the ledger, be it a call or
a sweep. -/
theorem records_step (started : Started configuration count)
    {run after : TimerState × Ledger (List Value)} {label : TimerLabel Value}
    (records : Records lua count run) (reached : (system lua configuration).Reachable run.1)
    (admitted : PositiveDelay lua run label)
    (moved : (recorded lua configuration).next run label = some after) :
    Records lua count after := by
  obtain ⟨state, concrete, moved⟩ := Option.map_eq_some_iff.mp moved
  subst moved
  cases label with
  | timerEvent arguments now =>
    cases accepted : posting lua configuration.analyzers arguments now run.1.timers with
    | none =>
      obtain rfl := refused_call accepted concrete
      simp only [record, accepted]
      exact records
    | some made =>
      obtain ⟨seconds, content, due, delay, arms⟩ := posting_arms accepted
      obtain rfl := Option.some.inj (concrete.symm.trans arms.called)
      obtain ⟨tag, wait, value, _, same, _⟩ := arms.found
      have positive : 0 < made.due := by
        subst same
        have bounds : 0 ≤ now ∧ 0 < toInt (lua.toInteger wait) := admitted
        rw [due, delay tag wait value rfl]
        omega
      simp only [record, accepted]
      exact records.called started content due positive (arms.inside started)
  | sweep clock beyond =>
    obtain ⟨⟨sent, timers⟩, made, concrete⟩ := Option.map_eq_some_iff.mp concrete
    subst concrete
    exact (records.swept started reached made).2

/-- The timer list agrees with the ledger in every recorded run. -/
theorem records_run (started : Started configuration count)
    {run : TimerState × Ledger (List Value)}
    (reached : (recorded lua configuration).Reaches (PositiveDelay lua) run) :
    (system lua configuration).Reachable run.1 ∧ Records lua count run := by
  apply reached.invariant fun run =>
    (system lua configuration).Reachable run.1 ∧ Records lua count run
  · rintro ⟨state, ledger⟩ ⟨begun, rfl⟩
    obtain rfl : state = ⟨startupTimers configuration, []⟩ := begun
    exact ⟨.initial rfl, start_records count⟩
  · rintro run label after ⟨before, records⟩ admitted moved
    obtain ⟨state, concrete, same⟩ := Option.map_eq_some_iff.mp moved
    refine ⟨?_, records_step started records before admitted moved⟩
    rw [← same]
    exact before.extend label trivial concrete

/-- Each posting was settled once, was replaced once, or is held by its slot; what
was sent is what was settled, none of it early; what was replaced was replaced by a
later posting for the slot; and a sweep takes place and sends exactly what the slots
hold and is due. -/
structure Accounted (lua : Lua Value) (configuration : Configuration)
    (run : TimerState × Ledger (List Value)) : Prop where
  once : ∀ number posting, run.2.postings[number]? = some posting →
    (run.2.settled.map Prod.fst).count number + run.2.replaced.count number +
      (if run.2.held posting.slot = some number then 1 else 0) = 1
  sent : List.Forall₂ (Carries lua run.2.postings) run.1.sent run.2.settled
  punctual : ∀ number instant, (number, instant) ∈ run.2.settled →
    ∃ posting, run.2.postings[number]? = some posting ∧ posting.due ≤ instant
  succeeded : ∀ number ∈ run.2.replaced, ∃ posting later next,
    run.2.postings[number]? = some posting ∧ number < later ∧
      run.2.postings[later]? = some next ∧ next.slot = posting.slot
  sweeps : ∀ clock beyond, ∃ after sends,
    (recorded lua configuration).next run (.sweep clock beyond) = some after ∧
      after.1.sent = run.1.sent ++ sends ∧
      List.Forall₂ (Carries lua run.2.postings) sends
        ((List.range maxAnalyzerStreams).filterMap (run.2.due clock))

/-- Every accepted call is accounted for in every run of calls with positive delays
and sweeps. -/
theorem timer_calls_accounted {isRegular : List Byte → Bool} {directory : List Byte}
    {analyzers outputs : Option (List Entry)} {loaded : Configuration}
    (initialized : initializeConfiguration isRegular directory analyzers outputs = .ok loaded)
    {run : TimerState × Ledger (List Value)}
    (reached : (recorded lua (createMessageQueues loaded)).Reaches (PositiveDelay lua) run) :
    Accounted lua (createMessageQueues loaded) run := by
  obtain ⟨count, _, started⟩ := configuration_started initialized
  obtain ⟨standing, records⟩ := records_run started reached
  constructor
  · exact records.sound.once
  · exact records.sent
  · exact records.sound.punctual
  · exact records.sound.succeeded
  · intro clock beyond
    obtain ⟨⟨sent, timers⟩, made⟩ := standing_sweep started standing clock beyond
    have settles := (records.swept started standing made).1
    refine ⟨(⟨timers, run.1.sent ++ sent⟩, run.2.settle maxAnalyzerStreams clock), sent, ?_, rfl,
      settles⟩
    simp only [recorded, system, made, Option.map_some, record]

end Runs

/-- The only analyzer arms a timer after five seconds, arms another one a second
later, and the sweep comes when both would be due. -/
def rearming : List (TimerLabel Scalar) :=
  [.timerEvent [letterA, .integer 5, .boolean true] 100,
    .timerEvent [letterA, .integer 5, .boolean true] 101, .sweep (fun _ => 200) (fun _ _ => 0)]

/-- The run takes place. Its first posting is neither settled nor held. -/
theorem rearming_run {loaded : Configuration}
    (initialized : initializeConfiguration (fun _ => true) (bytesOf "/analyzer")
      (some [analyzerEntry "a"]) (some []) = .ok loaded) :
    ∃ run, (recorded scalars (createMessageQueues loaded)).Reaches (PositiveDelay scalars) run ∧
      run.1.sent.length = 1 ∧ run.2.settled = [(1, 200)] ∧ run.2.replaced = [0] ∧
      run.2.held 0 = none ∧
      run.2.postings[0]? = some ⟨0, 105, [letterA, .integer 5, .boolean true]⟩ := by
  obtain ⟨run, completed, facts⟩ : ∃ run,
      (recorded scalars (createMessageQueues loaded)).follow rearming
        (⟨startupTimers (createMessageQueues loaded), []⟩, .empty) = some run ∧
      run.1.sent.length = 1 ∧ run.2.settled = [(1, 200)] ∧ run.2.replaced = [0] ∧
      run.2.held 0 = none ∧
      run.2.postings[0]? = some ⟨0, 105, [letterA, .integer 5, .boolean true]⟩ := by
    cases initialized
    exact ⟨_, rfl, rfl, rfl, rfl, rfl, rfl⟩
  have begun : (recorded scalars (createMessageQueues loaded)).Reaches (PositiveDelay scalars)
      (⟨startupTimers (createMessageQueues loaded), []⟩, .empty) := .initial ⟨rfl, rfl⟩
  have delayed {State : Type} (state : State) (now : Int) (shown : 0 ≤ now) :
      PositiveDelay scalars state
        (.timerEvent [letterA, .integer 5, .boolean true] now) := ⟨shown, by decide⟩
  refine ⟨run, begun.followed rearming run ?_ completed, facts⟩
  refine ⟨delayed _ 100 (by decide), fun _ _ => ⟨delayed _ 101 (by decide), fun _ _ => ?_⟩⟩
  exact ⟨trivial, fun _ _ => trivial⟩

/-- The law at work for a timer that is armed again before it is due: the first call was
replaced, and the second was settled. -/
theorem timer_calls_accounted_rearming :
    ∃ loaded run, initializeConfiguration (fun _ => true) (bytesOf "/analyzer")
        (some [analyzerEntry "a"]) (some []) = .ok loaded ∧
      run.2.settled = [(1, 200)] ∧ run.2.replaced = [0] ∧
      Accounted scalars (createMessageQueues loaded) run := by
  obtain ⟨loaded, initialized⟩ : ∃ loaded, initializeConfiguration (fun _ => true)
      (bytesOf "/analyzer") (some [analyzerEntry "a"]) (some []) = .ok loaded := ⟨_, rfl⟩
  obtain ⟨run, reached, _, settled, replaced, _, _⟩ := rearming_run initialized
  exact ⟨loaded, run, initialized, settled, replaced, timer_calls_accounted initialized reached⟩

/-- A call may be lost: its slot is armed again before it is due. -/
theorem rearmed_timer_is_lost :
    ¬ ∀ loaded run,
      (∃ isRegular directory analyzers outputs,
        initializeConfiguration isRegular directory analyzers outputs = .ok loaded) →
      (recorded scalars (createMessageQueues loaded)).Reaches (PositiveDelay scalars) run →
      ∀ number posting, run.2.postings[number]? = some posting →
        run.2.held posting.slot = some number ∨
          (run.2.settled.map Prod.fst).count number = 1 := by
  intro claimed
  obtain ⟨loaded, initialized⟩ : ∃ loaded, initializeConfiguration (fun _ => true)
      (bytesOf "/analyzer") (some [analyzerEntry "a"]) (some []) = .ok loaded := ⟨_, rfl⟩
  obtain ⟨run, reached, _, settled, _, vacant, stored⟩ := rearming_run initialized
  rcases claimed loaded run ⟨_, _, _, _, initialized⟩ reached 0 _ stored with held | sent
  · rw [vacant] at held
    cases held
  · rw [settled] at sent
    exact absurd sent (by decide)

end Dragonfly.Timers
