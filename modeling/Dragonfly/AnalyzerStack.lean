import Dragonfly.Msgqueue
import Dragonfly.Scalars
import Dragonfly.Stages

/-!
# The Lua stack of an analyzer over its messages

A message of an analyzer queue was packed by a call of `analyze_event` from two
arguments or by a call of `timer_event` from three. `lua_analyzer_loop` pushes all
of them, passes the last to the script and pops one: the seconds of a timer are
popped and its tag stays on the stack.

The engine runs, every call of the script returns and unpacking yields what was
packed; the messages are in the queue when the loop starts. A message of the size
of the buffer is skipped, an empty one ends the loop.
-/

namespace Dragonfly.Stages

open Events Flywheel Scalars

/-- A list on which a property fails has a first member on which it fails. -/
theorem first_exception {Item : Type} {holds : Item → Prop} {items : List Item}
    (fails : ∃ item ∈ items, ¬ holds item) :
    ∃ front item rest, items = front ++ item :: rest ∧ (∀ before ∈ front, holds before) ∧
      ¬ holds item := by
  classical
  obtain ⟨item, listed, failing⟩ := fails
  obtain ⟨first, front, rest, before, here, whole, _⟩ :=
    List.exists_of_eraseP (p := fun item => decide (¬ holds item)) listed (decide_eq_true failing)
  refine ⟨front, first, rest, whole, ?_, of_decide_eq_true here⟩
  intro other inFront
  simpa using before other inFront

section Origins

variable {Value : Type}

/-- The call that packed a message of an analyzer queue: a script's `analyze_event`, or a
`timer_event` whose timer came due. -/
inductive Origin (Value : Type) where
  | analyzeEvent (tag value : Value)
  | timerEvent (tag seconds value : Value)
deriving DecidableEq

/-- The arguments of the call, in the order in which they are packed and in which `mp_unpack`
pushes them again. -/
def Origin.arguments : Origin Value → List Value
  | .analyzeEvent tag value => [tag, value]
  | .timerEvent tag seconds value => [tag, seconds, value]

/-- The value the call was made for, which was packed last and is therefore the one passed to
the script. -/
def Origin.argument : Origin Value → Value
  | .analyzeEvent _ value => value
  | .timerEvent _ _ value => value

/-- What a message leaves on the Lua stack: two values are popped and used up, while of the
three of a timer the tag stays. -/
def Origin.left : Origin Value → Stack Value
  | .analyzeEvent _ _ => []
  | .timerEvent tag _ _ => [.value tag]

/-- The bytes `mp_pack` makes of the arguments, before a queue has cut them. -/
def Origin.message (lua : Lua Value) (origin : Origin Value) : List Byte :=
  lua.pack origin.arguments

/-- What `msgqueue_send` puts into the queue of these bytes: no more than the size of the buffer
of the reader. -/
def Origin.frame (lua : Lua Value) (origin : Origin Value) : List Byte :=
  (origin.message lua).take Msgqueue.maxMessageSize.toNat

/-- The message is neither empty nor as large as the buffer. -/
def Origin.Fits (lua : Lua Value) (origin : Origin Value) : Prop :=
  0 < (origin.message lua).length ∧ (origin.message lua).length < maxBufferSize

instance (lua : Lua Value) (origin : Origin Value) : Decidable (origin.Fits lua) :=
  inferInstanceAs (Decidable (_ ∧ _))

/-- What messages leave on the stack, the last one on top. -/
def leaks (handled : List (Origin Value)) : Stack Value := (handled.flatMap Origin.left).reverse

/-- Handling one more message puts what this one leaves on top of what the messages before it
have left. -/
theorem leaks_concat (handled : List (Origin Value)) (origin : Origin Value) :
    leaks (handled ++ [origin]) = origin.left ++ leaks handled := by
  rw [leaks, List.flatMap_append, List.reverse_append]
  cases origin <;> rfl

/-- A message is one of a timer if `timer_event` packed it; these are the messages with three
values. -/
def Origin.isTimer : Origin Value → Bool
  | .analyzeEvent _ _ => false
  | .timerEvent _ _ _ => true

/-- Every message of a timer leaves one item on the stack, and no other message leaves any. -/
theorem leaks_length (handled : List (Origin Value)) :
    (leaks handled).length = handled.countP Origin.isTimer := by
  rw [leaks, List.length_reverse, List.length_flatMap]
  induction handled with
  | nil => rfl
  | cons origin rest inductionHypothesis =>
    rw [List.map_cons, List.sum_cons, List.countP_cons, inductionHypothesis]
    cases origin <;> simp [Origin.left, Origin.isTimer, Nat.add_comm]

end Origins

section Loop

variable {Value : Type}

/-- The thread of the loop, its queue and the values the script was called with. -/
structure Service (Value : Type) where
  thread : Activity (StagePoint (Stack Value) Value) (Stack Value)
  queue : List (List Byte)
  calls : List Value

/-- Perform an operation of the loop while the engine runs. An empty queue blocks. -/
def Service.perform {Point Result : Type} (service : Service Value) :
    StageOperation Value Point Result → Option (Service Value × Outcome Point Result)
  | .loadRunning resume => some (service, resume true)
  | .recv len resume =>
      match service.queue with
      | [] => none
      | message :: rest =>
          if message.length ≤ len then
            some ({ service with queue := rest }, resume message.length message)
          else none
  | .callLoop argument resume =>
      some ({ service with calls := service.calls ++ [argument] }, resume false)
  | _ => none

/-- One step of `lua_analyzer_loop` among its messages. There is none when the loop has been
left. -/
def serve (lua : Lua Value) (service : Service Value) : Option (Service Value) :=
  match service.thread with
  | .inside point =>
      (service.perform (luaAnalyzerLoop lua point)).map fun (after, outcome) =>
        { after with thread := .after outcome }
  | _ => none

/-- The loop over the messages of these calls, begun with this stack. -/
def service (lua : Lua Value) (stack : Stack Value) (sequence : List (Origin Value)) :
    System (Service Value) Unit where
  start state := state = ⟨.inside (.test stack), sequence.map (Origin.frame lua), []⟩
  next state _ := serve lua state

/-- The loop begins in front of its test, with the stack it was given, all messages in the
queue, and no call of the script made. -/
theorem service_begins (lua : Lua Value) (stack : Stack Value) (sequence : List (Origin Value)) :
    (service lua stack sequence).Reachable
      ⟨.inside (.test stack), sequence.map (Origin.frame lua), []⟩ := .initial rfl

/-- A frame of the queue is as long as its message, or as the buffer. -/
theorem frame_length (lua : Lua Value) (origin : Origin Value) :
    (origin.frame lua).length = min maxBufferSize (origin.message lua).length := by
  rw [Origin.frame, List.length_take]
  rfl

/-- A message that fits is put into the queue as it is: the frame and the packed bytes are the
same. -/
theorem Origin.Fits.frame {lua : Lua Value} {origin : Origin Value} (fits : origin.Fits lua) :
    origin.frame lua = origin.message lua := by
  apply List.take_of_length_le
  exact Nat.le_of_lt fits.2

/-- The call of `loop` is prepared with the value on top and what stays under it,
below one item that is popped. -/
theorem prepare_call_origin {lua : Lua Value} {origin : Origin Value}
    (unpacked : lua.unpack (origin.message lua) = some origin.arguments) (stack : Stack Value) :
    ∃ item, prepareCall lua stack (origin.message lua) =
      .goto (.handle (item :: (origin.left ++ stack)) origin.argument) := by
  cases origin with
  | analyzeEvent tag value =>
    exact ⟨.value tag, prepare_call_two unpacked⟩
  | timerEvent tag seconds value =>
    exact ⟨.value seconds, by simp [prepareCall, unpacked, Origin.arguments, Origin.left,
      Origin.argument, insertBelowTop]⟩

/-- A message is received from the head of the loop. -/
theorem message_received {lua : Lua Value} {origin : Origin Value} (fits : origin.Fits lua)
    (stack : Stack Value) (queue : List (List Byte)) (calls : List Value) :
    serve lua ⟨.inside (.recv stack), origin.frame lua :: queue, calls⟩ =
      some ⟨.after (prepareCall lua stack (origin.message lua)), queue, calls⟩ := by
  obtain ⟨positive, short⟩ := fits
  have bounded : ¬ ((origin.message lua).length : Int) ≤ 0 := by omega
  have partly : ¬ ((origin.message lua).length : Int) = (maxBufferSize : Nat) := by omega
  rw [Origin.Fits.frame ⟨positive, short⟩]
  simp only [serve, luaAnalyzerLoop, stageLoop, Service.perform, if_pos (Nat.le_of_lt short),
    Option.map_some, if_neg bounded, if_neg partly, Int.toNat_natCast, List.take_length]

/-- A message that fits takes the loop once around: the script is called with the
value of the message. -/
theorem message_served {lua : Lua Value} {begun : Stack Value} {sequence : List (Origin Value)}
    {origin : Origin Value} (fits : origin.Fits lua)
    (unpacked : lua.unpack (origin.message lua) = some origin.arguments) {stack : Stack Value}
    {queue : List (List Byte)} {calls : List Value}
    (reached : (service lua begun sequence).Reachable
      ⟨.inside (.test stack), origin.frame lua :: queue, calls⟩) :
    (service lua begun sequence).Reachable
      ⟨.inside (.test (origin.left ++ stack)), queue, calls ++ [origin.argument]⟩ := by
  obtain ⟨item, prepared⟩ := prepare_call_origin unpacked stack
  have waiting : (service lua begun sequence).Reachable
      ⟨.inside (.recv stack), origin.frame lua :: queue, calls⟩ := by
    apply reached.extend () trivial
    rfl
  have received : (service lua begun sequence).Reachable
      ⟨.inside (.handle (item :: (origin.left ++ stack)) origin.argument), queue, calls⟩ := by
    apply waiting.extend () trivial
    have moved := message_received fits stack queue calls
    rw [prepared] at moved
    exact moved
  apply received.extend () trivial
  rfl

/-- All messages of a front of the queue are served in order. -/
theorem front_served {lua : Lua Value} (begun : Stack Value) {sequence : List (Origin Value)}
    (handled rest : List (Origin Value)) (whole : sequence = handled ++ rest)
    (fits : ∀ origin ∈ handled, origin.Fits lua)
    (unpacks : ∀ origin ∈ handled, lua.unpack (origin.message lua) = some origin.arguments) :
    (service lua begun sequence).Reachable
      ⟨.inside (.test (leaks handled ++ begun)), rest.map (Origin.frame lua),
        handled.map Origin.argument⟩ := by
  induction handled using List.reverseRecOn generalizing rest with
  | nil =>
    obtain rfl : sequence = rest := whole
    exact service_begins lua begun sequence
  | append_singleton handled origin inductionHypothesis =>
    have last : origin ∈ handled ++ [origin] := List.mem_append_right _ List.mem_cons_self
    have before := inductionHypothesis (origin :: rest) (by simp [whole])
      (fun other listed => fits other (List.mem_append_left _ listed))
      (fun other listed => unpacks other (List.mem_append_left _ listed))
    have served := message_served (fits origin last) (unpacks origin last) before
    rw [leaks_concat, List.append_assoc, List.map_append]
    exact served

/-! ## Every state of the loop -/

/-- Where the loop stands among its messages: in front of its test, of the receive, or of one of
the actions on a message. The stack holds what the messages handled so far have left on top of
what was there at the beginning. -/
inductive Serving (lua : Lua Value) (begun : Stack Value) (sequence : List (Origin Value)) :
    Service Value → Prop where
  | test (handled rest : List (Origin Value)) (whole : sequence = handled ++ rest) :
      Serving lua begun sequence ⟨.inside (.test (leaks handled ++ begun)),
        rest.map (Origin.frame lua), handled.map Origin.argument⟩
  | recv (handled rest : List (Origin Value)) (whole : sequence = handled ++ rest) :
      Serving lua begun sequence ⟨.inside (.recv (leaks handled ++ begun)),
        rest.map (Origin.frame lua), handled.map Origin.argument⟩
  | handle (handled rest : List (Origin Value)) (origin : Origin Value) (item : StackItem Value)
      (whole : sequence = handled ++ origin :: rest) :
      Serving lua begun sequence
        ⟨.inside (.handle (item :: (origin.left ++ (leaks handled ++ begun))) origin.argument),
          rest.map (Origin.frame lua), handled.map Origin.argument⟩

/-- One step of the loop over messages that fit and unpack to what was packed keeps it at one of
these places. -/
theorem serving_step {lua : Lua Value} {begun : Stack Value} {sequence : List (Origin Value)}
    (fits : ∀ origin ∈ sequence, origin.Fits lua)
    (unpacks : ∀ origin ∈ sequence, lua.unpack (origin.message lua) = some origin.arguments)
    {state after : Service Value} (serving : Serving lua begun sequence state)
    (moved : serve lua state = some after) : Serving lua begun sequence after := by
  cases serving with
  | test handled rest whole =>
    cases moved
    exact .recv handled rest whole
  | recv handled rest whole =>
    cases rest with
    | nil => cases moved
    | cons origin rest =>
      have listed : origin ∈ sequence := by simp [whole]
      obtain ⟨item, prepared⟩ := prepare_call_origin (unpacks origin listed)
        (leaks handled ++ begun)
      rw [List.map_cons, message_received (fits origin listed), prepared] at moved
      cases moved
      exact .handle handled rest origin item whole
  | handle handled rest origin item whole =>
    cases moved
    have front : sequence = (handled ++ [origin]) ++ rest := by simp [whole]
    have standing : Serving lua begun sequence
        ⟨.inside (.test (leaks (handled ++ [origin]) ++ begun)), rest.map (Origin.frame lua),
          (handled ++ [origin]).map Origin.argument⟩ := .test (handled ++ [origin]) rest front
    rw [leaks_concat, List.append_assoc, List.map_append] at standing
    exact standing

/-- The loop stands among its messages in every reachable state. -/
theorem serving_run {lua : Lua Value} {begun : Stack Value} {sequence : List (Origin Value)}
    (fits : ∀ origin ∈ sequence, origin.Fits lua)
    (unpacks : ∀ origin ∈ sequence, lua.unpack (origin.message lua) = some origin.arguments)
    {state : Service Value} (reached : (service lua begun sequence).Reachable state) :
    Serving lua begun sequence state := by
  apply reached.invariant (Serving lua begun sequence)
  · rintro state rfl
    exact .test [] sequence rfl
  · intro state _ after serving _ moved
    exact serving_step fits unpacks serving moved

/-- At the head of the loop the script was called once with the value of each message
that was taken, in order, and each timer among them left one item on the stack. -/
theorem head_of_loop {lua : Lua Value} {begun : Stack Value} {sequence : List (Origin Value)}
    (fits : ∀ origin ∈ sequence, origin.Fits lua)
    (unpacks : ∀ origin ∈ sequence, lua.unpack (origin.message lua) = some origin.arguments)
    {state : Service Value} (reached : (service lua begun sequence).Reachable state)
    {stack : Stack Value} (head : state.thread = .inside (.test stack)) :
    ∃ handled rest, sequence = handled ++ rest ∧ state.queue.length = rest.length ∧
      state.calls = handled.map Origin.argument ∧
      stack.length = begun.length + handled.countP Origin.isTimer := by
  cases serving_run fits unpacks reached with
  | test handled rest whole =>
    cases head
    refine ⟨handled, rest, whole, List.length_map _, rfl, ?_⟩
    rw [List.length_append, leaks_length, Nat.add_comm]
  | recv handled rest whole => cases head
  | handle handled rest origin item whole => cases head

/-- The loop stays in its loop, gets through all its messages, and whenever it is at
its head it has called the script once with the value of each message it has taken,
in order, and has the stack depth it began with. -/
structure Balanced (lua : Lua Value) (begun : Stack Value) (sequence : List (Origin Value)) :
    Prop where
  stays : ∀ state, (service lua begun sequence).Reachable state →
    ∃ point, state.thread = .inside point
  heads : ∀ state stack, (service lua begun sequence).Reachable state →
    state.thread = .inside (.test stack) →
    state.calls =
        (sequence.take (sequence.length - state.queue.length)).map Origin.argument ∧
      stack.length = begun.length
  all : ∃ state stack, (service lua begun sequence).Reachable state ∧
    state.thread = .inside (.test stack) ∧ state.queue = []

/-- Over messages of `analyze_event` that fit the loop is balanced. -/
theorem analyze_events_balanced {lua : Lua Value} {sequence : List (Origin Value)}
    (unpacks : ∀ origin ∈ sequence, lua.unpack (origin.message lua) = some origin.arguments)
    (plain : ∀ origin ∈ sequence, origin.isTimer = false ∧ origin.Fits lua)
    (begun : Stack Value) : Balanced lua begun sequence := by
  have fits : ∀ origin ∈ sequence, origin.Fits lua := fun origin listed => (plain origin listed).2
  constructor
  · intro state reached
    cases serving_run fits unpacks reached <;> exact ⟨_, rfl⟩
  · intro state stack reached head
    obtain ⟨handled, rest, whole, length, calls, depth⟩ := head_of_loop fits unpacks reached head
    have taken : sequence.length - rest.length = handled.length := by
      rw [whole, List.length_append, Nat.add_sub_cancel]
    have timers : handled.countP Origin.isTimer = 0 := by
      rw [List.countP_eq_zero]
      intro origin listed
      have listedWhole : origin ∈ sequence := whole ▸ List.mem_append_left rest listed
      simp [(plain origin listedWhole).1]
    rw [length, taken, calls, depth, timers, Nat.add_zero]
    refine ⟨?_, rfl⟩
    rw [whole, List.take_left]
  · exact ⟨_, _, front_served begun sequence [] (List.append_nil _).symm fits unpacks, rfl, rfl⟩

/-- An empty message ends the loop, since `msgqueue_recv` returns no positive length for it; the
stack stays as it was. -/
theorem empty_ends {lua : Lua Value} {begun : Stack Value} {sequence : List (Origin Value)}
    {origin : Origin Value} (empty : (origin.message lua).length = 0) {stack : Stack Value}
    {queue : List (List Byte)} {calls : List Value}
    (waiting : (service lua begun sequence).Reachable
      ⟨.inside (.recv stack), origin.frame lua :: queue, calls⟩) :
    (service lua begun sequence).Reachable ⟨.outside stack, queue, calls⟩ := by
  have length := frame_length lua origin
  have within : (origin.frame lua).length ≤ maxBufferSize := by omega
  have none : ((origin.frame lua).length : Int) ≤ 0 := by omega
  apply waiting.extend () trivial
  simp only [service, serve, luaAnalyzerLoop, stageLoop, Service.perform, if_pos within,
    Option.map_some, if_pos none, Activity.after]

/-- A message of the size of the buffer is skipped. -/
theorem large_skipped {lua : Lua Value} {begun : Stack Value} {sequence : List (Origin Value)}
    {origin : Origin Value} (large : maxBufferSize ≤ (origin.message lua).length)
    {stack : Stack Value} {queue : List (List Byte)} {calls : List Value}
    (waiting : (service lua begun sequence).Reachable
      ⟨.inside (.recv stack), origin.frame lua :: queue, calls⟩) :
    (service lua begun sequence).Reachable ⟨.inside (.test stack), queue, calls⟩ := by
  have length := frame_length lua origin
  have within : (origin.frame lua).length ≤ maxBufferSize := by omega
  have full : ((origin.frame lua).length : Int) = (maxBufferSize : Nat) := by omega
  have positive : ¬ ((maxBufferSize : Nat) : Int) ≤ 0 := by decide
  apply waiting.extend () trivial
  simp only [service, serve, luaAnalyzerLoop, stageLoop, Service.perform, if_pos within,
    Option.map_some, full, if_neg positive, if_true, Activity.after]

/-- A message that is a timer or does not fit unbalances the loop: a timer leaves its
tag, an empty message ends the loop, and a message of the size of the buffer is
skipped. -/
theorem unbalanced {lua : Lua Value} {begun : Stack Value}
    {handled rest : List (Origin Value)} {origin : Origin Value}
    (unpacks : ∀ other ∈ handled ++ origin :: rest,
      lua.unpack (other.message lua) = some other.arguments)
    (plain : ∀ other ∈ handled, other.isTimer = false ∧ other.Fits lua)
    (bad : ¬ (origin.isTimer = false ∧ origin.Fits lua)) :
    ¬ Balanced lua begun (handled ++ origin :: rest) := by
  intro balanced
  have before := front_served begun handled (origin :: rest) rfl
    (fun other listed => (plain other listed).2)
    (fun other listed => unpacks other (List.mem_append_left _ listed))
  by_cases fits : origin.Fits lua
  · have timer : origin.isTimer = true := by
      by_contra other
      exact bad ⟨Bool.not_eq_true _ ▸ other, fits⟩
    have served := message_served fits
      (unpacks origin (List.mem_append_right _ List.mem_cons_self)) before
    have depth := (balanced.heads _ _ served rfl).2
    have one : origin.left.length = 1 := by
      cases origin with
      | analyzeEvent tag value => cases timer
      | timerEvent tag seconds value => rfl
    simp only [List.length_append, one] at depth
    omega
  · have waiting : (service lua begun (handled ++ origin :: rest)).Reachable
        ⟨.inside (.recv (leaks handled ++ begun)),
          origin.frame lua :: rest.map (Origin.frame lua), handled.map Origin.argument⟩ := by
      apply before.extend () trivial
      rfl
    by_cases empty : (origin.message lua).length = 0
    · obtain ⟨point, inside⟩ := balanced.stays _ (empty_ends empty waiting)
      cases inside
    · have large : maxBufferSize ≤ (origin.message lua).length := by
        by_contra short
        exact fits ⟨Nat.pos_of_ne_zero empty, Nat.lt_of_not_le short⟩
      have calls := congrArg List.length
        (balanced.heads _ _ (large_skipped large waiting) rfl).1
      simp only [List.length_map, List.length_take, List.length_append, List.length_cons] at calls
      omega

/-- The loop is balanced exactly over messages of `analyze_event` that are neither
empty nor as large as the buffer. -/
theorem analyzer_balanced_iff {lua : Lua Value} {sequence : List (Origin Value)}
    (unpacks : ∀ origin ∈ sequence, lua.unpack (origin.message lua) = some origin.arguments)
    (begun : Stack Value) :
    Balanced lua begun sequence ↔
      ∀ origin ∈ sequence, origin.isTimer = false ∧ origin.Fits lua := by
  constructor
  · intro balanced
    by_contra failing
    have some : ∃ origin ∈ sequence, ¬ (origin.isTimer = false ∧ origin.Fits lua) := by
      simpa using failing
    obtain ⟨handled, origin, rest, rfl, plain, bad⟩ := first_exception some
    exact unbalanced unpacks plain bad balanced
  · intro plain
    exact analyze_events_balanced unpacks plain begun

end Loop

/-- Over an event and an integer for the analyzer `"a"` the loop is balanced. -/
theorem analyzer_balanced_two_events :
    Balanced scalars []
        [.analyzeEvent letterA (.boolean true), .analyzeEvent letterA (.integer 7)] ↔
      ∀ origin ∈ [Origin.analyzeEvent letterA (.boolean true), .analyzeEvent letterA (.integer 7)],
        origin.isTimer = false ∧ origin.Fits scalars :=
  analyzer_balanced_iff (fun origin _ => unpack_pack origin.arguments) []

/-- The message of a timer leaves its tag on the stack. -/
theorem timer_leaves_tag :
    ¬ ∀ (begun : Stack Scalar) (sequence : List (Origin Scalar)),
      (∀ origin ∈ sequence, scalars.unpack (origin.message scalars) = some origin.arguments) →
      Balanced scalars begun sequence := by
  intro claimed
  have unpacks (origin : Origin Scalar) :
      scalars.unpack (origin.message scalars) = some origin.arguments := unpack_pack _
  have balanced := claimed [] [.timerEvent letterA (.integer 5) (.boolean true)]
    fun origin _ => unpacks origin
  have fits : (Origin.timerEvent letterA (.integer 5) (.boolean true)).Fits scalars := by decide
  have served := message_served fits (unpacks _) (service_begins scalars []
    [.timerEvent letterA (.integer 5) (.boolean true)])
  have depth := (balanced.heads _ _ served rfl).2
  exact absurd depth (by decide)

end Dragonfly.Stages
