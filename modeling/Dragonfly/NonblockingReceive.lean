import Dragonfly.Msgqueue
import Dragonfly.Stages

/-!
# `msgqueue_recv` on a pipe that does not block

A `read` of such a pipe is complete or fails, with `EAGAIN` or `ETIMEDOUT`. `msgqueue_recv`
has cases for both, but goes on wrongly: behind a failed read of the length it reads a payload
of no known length, and behind a failed read of the payload it tests its flag forever, because
the body of the loop only reads while no length is known. What saves it is a cancel between
the failed read and the next test of the flag.

Messages come into the pipe as whole frames, and fit the buffer of the caller.
-/

namespace Dragonfly.NonblockingReceive

open Msgqueue Stages

/-- How a `read` of the pipe fails: there was nothing to read, or it timed out. -/
inductive Failure where
  | eagain
  | etimedout
deriving DecidableEq

/-- The error number that a failed `read` leaves behind. -/
def Failure.errno : Failure → Errno
  | .eagain => .eagain
  | .etimedout => .etimedout

/-- The pipe, the flag, all messages that came into the pipe, and the call; the bytes it read
as the length, the count of a read of the payload that failed last, and whether the flag was
found clear since. -/
structure State where
  pipe : List Byte
  cancel : Bool
  puts : List (List Byte)
  call : Activity RecvPoint Received
  header : Option (List Byte)
  retry : Option Nat
  tested : Bool

/-- The call stands in front of the read of a payload, and not of a length. -/
def readsPayload : RecvPoint → Bool
  | .payload _ _ => true
  | _ => false

/-- A `read` that is complete. An empty pipe has nothing for it, unless it asks for nothing. -/
def State.complete (state : State) (point : RecvPoint) (count : Nat)
    (resume : Answer (List Byte) → Outcome RecvPoint Received) : Option State :=
  if state.pipe = [] ∧ count ≠ 0 then none
  else some { state with
    pipe := state.pipe.drop count
    call := .after (resume (.moved (state.pipe.take count)))
    header := if readsPayload point then state.header else some (state.pipe.take count)
    retry := none
    tested := false }

/-- One operation of the call: the flag is loaded, or a read is complete or fails in the way
that is given. -/
def State.perform (state : State) (point : RecvPoint) (failure : Option Failure) :
    Operation RecvPoint Received → Option State
  | .loadCancel resume => some { state with
      call := .after (resume state.cancel)
      tested := !state.cancel }
  | .read count resume =>
      match failure with
      | none => state.complete point count resume
      | some failure => some { state with
          call := .after (resume (.failed failure.errno))
          retry := if readsPayload point then some count else none
          tested := false }
  | .writev _ _ => none

/-- An operation of the call, whose `read` may fail, a message, or the cancel. -/
inductive Label where
  | step (failure : Option Failure)
  | put (message : List Byte)
  | cancel
deriving DecidableEq

/-- The largest length the call accepts: that of its buffer, but never more than
`MAX_MESSAGE_SIZE`. -/
def limit (maxSize : Nat) : Int :=
  if (maxSize : Int) > maxMessageSize then maxMessageSize else maxSize

/-- One step of the call, a message of acceptable length that is put into the pipe, or the
cancel. -/
def next (maxSize : Nat) (state : State) : Label → Option State
  | .step failure =>
      match state.call with
      | .inside point => state.perform point failure (msgqueueRecv point)
      | _ => none
  | .put message =>
      if (message.length : Int) ≤ limit maxSize then
        some { state with pipe := state.pipe ++ frame message, puts := state.puts ++ [message] }
      else none
  | .cancel => some { state with cancel := true }

/-- A call that was just made on an empty pipe, with nothing read and no read failed. -/
def initial (maxSize : Nat) : State where
  pipe := []
  cancel := false
  puts := []
  call := .inside (.enter maxSize)
  header := none
  retry := none
  tested := false

/-- The runs of a call with a buffer of this size. -/
def system (maxSize : Nat) : System State Label where
  start state := state = initial maxSize
  next := next maxSize

/-- Where a call gets by tests that find the flag clear, and by nothing else. -/
inductive Leads : RecvPoint → RecvPoint → Prop where
  | here (point : RecvPoint) : Leads point point
  | clear (point after last : RecvPoint) (resume : Bool → Outcome RecvPoint Received)
      (loads : msgqueueRecv point = .loadCancel resume) (goes : resume false = .goto after)
      (leads : Leads after last) : Leads point last

/-- The payload is read behind a complete length, with the length that was read; a failed read
of the payload is made again once the flag was found clear; and the call returns the first
message, or is cancelled. -/
structure Resumable (maxSize : Nat) (state : State) : Prop where
  payload : ∀ size l, state.call = .inside (.payload size l) →
    ∃ bytes, state.header = some bytes ∧ bytes.length = 4 ∧ l = intOfBytes bytes ∧
      0 ≤ l ∧ l ≤ maxSize
  again : ∀ count, state.retry = some count → state.tested = true →
    ∃ point size l, state.call = .inside point ∧ Leads point (.payload size l) ∧ sizeT l = count
  result : ∀ received, state.call = .outside received →
    (∃ message, state.puts.head? = some message ∧ received = ⟨message.length, message⟩) ∨
      (received.n ≤ 0 ∧ state.cancel = true)
  alive : state.call ≠ .ended

/-- The call stands behind a failed read, before it tests the flag. -/
def behindFailure : Activity RecvPoint Received → Bool
  | .inside (.between _ l) => l < 0
  | .inside (.test _ _ received) => received.n < 0
  | _ => false

/-- The flag is only tested behind a failed read when it is set. -/
def Guarded (state : State) : Label → Prop
  | .step _ => behindFailure state.call = true → state.cancel = true
  | _ => True

instance (state : State) : (label : Label) → Decidable (Guarded state label)
  | .step _ => inferInstanceAs (Decidable (_ → _))
  | .put _ => .isTrue trivial
  | .cancel => .isTrue trivial

/-! ## Guarded runs -/

/-- Where a guarded call stands, with the messages that came in, the bytes in the pipe and the
length it read. Behind a failed read of the payload the call is about to test its flag. -/
inductive Stands (maxSize : Nat) : Activity RecvPoint Received → List (List Byte) → List Byte →
    Option (List Byte) → Option Nat → Bool → Bool → Prop where
  | enter (puts : List (List Byte)) (tested cancel : Bool) :
      Stands maxSize (.inside (.enter maxSize)) puts (frames puts) none none tested cancel
  | header (puts : List (List Byte)) (tested cancel : Bool) :
      Stands maxSize (.inside (.header (limit maxSize) (-1))) puts (frames puts) none none tested
        cancel
  | unread (puts : List (List Byte)) (tested cancel : Bool) :
      Stands maxSize (.inside (.between (limit maxSize) (-1))) puts (frames puts) none none tested
        cancel
  | between (message : List Byte) (rest : List (List Byte)) (tested cancel : Bool)
      (fits : (message.length : Int) ≤ limit maxSize) :
      Stands maxSize (.inside (.between (limit maxSize) message.length)) (message :: rest)
        (message ++ frames rest) (some (intBytes message.length)) none tested cancel
  | payload (message : List Byte) (rest : List (List Byte)) (tested cancel : Bool)
      (fits : (message.length : Int) ≤ limit maxSize) :
      Stands maxSize (.inside (.payload (limit maxSize) message.length)) (message :: rest)
        (message ++ frames rest) (some (intBytes message.length)) none tested cancel
  | failed (message : List Byte) (rest : List (List Byte)) (cancel : Bool)
      (fits : (message.length : Int) ≤ limit maxSize) :
      Stands maxSize (.inside (.test (limit maxSize) message.length ⟨-1, []⟩)) (message :: rest)
        (message ++ frames rest) (some (intBytes message.length)) (some message.length) false cancel
  | received (message : List Byte) (rest : List (List Byte)) (l : Int) (pipe : List Byte)
      (header : Option (List Byte)) (tested cancel : Bool) :
      Stands maxSize (.inside (.test (limit maxSize) l ⟨message.length, message⟩))
        (message :: rest) pipe header none tested cancel
  | returned (message : List Byte) (rest : List (List Byte)) (pipe : List Byte)
      (header : Option (List Byte)) (tested cancel : Bool) :
      Stands maxSize (.outside ⟨message.length, message⟩) (message :: rest) pipe header none tested
        cancel
  | cancelled (n : Int) (nonpositive : n ≤ 0) (puts : List (List Byte)) (pipe : List Byte)
      (header : Option (List Byte)) (retry : Option Nat) :
      Stands maxSize (.outside ⟨n, []⟩) puts pipe header retry false true

/-- A state of a guarded call: all messages are short enough to be accepted, and the call stands
at one of its places. -/
structure Holds (maxSize : Nat) (state : State) : Prop where
  fits : ∀ message ∈ state.puts, (message.length : Int) ≤ limit maxSize
  stands : Stands maxSize state.call state.puts state.pipe state.header state.retry state.tested
    state.cancel

section Steps

variable {maxSize : Nat} {state after : State}

/-- The limit is a length that a message can have. -/
theorem limit_bounds (maxSize : Nat) :
    0 ≤ limit maxSize ∧ limit maxSize ≤ maxSize ∧ limit maxSize ≤ maxMessageSize := by
  rw [limit, maxMessageSize]
  split
  · omega
  · omega

/-- Behind a failed read of the length the call goes on without one. -/
theorem header_fails (maxSize : Nat) :
    headerDone (limit maxSize) (-1) = .goto (.between (limit maxSize) (-1)) := by
  have bounds := limit_bounds maxSize
  exact if_neg (by omega)

/-- The four bytes of the length of an acceptable message spell that length. -/
theorem length_spelled {message : List Byte} (fits : (message.length : Int) ≤ limit maxSize) :
    intOfBytes (intBytes message.length) = message.length := by
  have bounds := limit_bounds maxSize
  rw [maxMessageSize] at bounds
  exact int_round_trip message.length (by omega) (by omega)

/-- A message that comes in waits behind the others and leaves the call where it stands. -/
theorem Stands.put {call : Activity RecvPoint Received} {puts : List (List Byte)}
    {pipe : List Byte} {header : Option (List Byte)} {retry : Option Nat} {tested cancel : Bool}
    (stands : Stands maxSize call puts pipe header retry tested cancel) (last : List Byte) :
    Stands maxSize call (puts ++ [last]) (pipe ++ frame last) header retry tested cancel := by
  have more (earlier : List (List Byte)) :
      frames earlier ++ frame last = frames (earlier ++ [last]) := by
    simp
  cases stands with
  | enter =>
    rw [more]
    exact .enter _ tested cancel
  | header =>
    rw [more]
    exact .header _ tested cancel
  | unread =>
    rw [more]
    exact .unread _ tested cancel
  | between message rest tested cancel fits =>
    rw [List.append_assoc, more]
    exact .between message _ tested cancel fits
  | payload message rest tested cancel fits =>
    rw [List.append_assoc, more]
    exact .payload message _ tested cancel fits
  | failed message rest cancel fits =>
    rw [List.append_assoc, more]
    exact .failed message _ cancel fits
  | received message rest l => exact .received message _ l _ _ tested cancel
  | returned message rest => exact .returned message _ _ _ tested cancel
  | cancelled n nonpositive => exact .cancelled n nonpositive _ _ _ _

/-- The cancel sets the flag and leaves the call where it stands. -/
theorem Stands.cancel {call : Activity RecvPoint Received} {puts : List (List Byte)}
    {pipe : List Byte} {header : Option (List Byte)} {retry : Option Nat} {tested cancel : Bool}
    (stands : Stands maxSize call puts pipe header retry tested cancel) :
    Stands maxSize call puts pipe header retry tested true := by
  cases stands with
  | enter => exact .enter _ tested true
  | header => exact .header _ tested true
  | unread => exact .unread _ tested true
  | between message rest tested cancel fits => exact .between message rest tested true fits
  | payload message rest tested cancel fits => exact .payload message rest tested true fits
  | failed message rest cancel fits => exact .failed message rest true fits
  | received message rest l => exact .received message rest l _ _ tested true
  | returned message rest => exact .returned message rest _ _ tested true
  | cancelled n nonpositive => exact .cancelled n nonpositive _ _ _ _

/-- A complete read of the length of the first frame, behind which its payload and the other
frames are left. -/
theorem header_read (message : List Byte) (rest : List (List Byte)) :
    (frames (message :: rest)).take 4 = intBytes message.length ∧
      (frames (message :: rest)).drop 4 = message ++ frames rest := by
  have split : frames (message :: rest) = intBytes message.length ++ (message ++ frames rest) := by
    simp [frame]
  rw [split]
  exact ⟨List.take_left' rfl, List.drop_left' rfl⟩

/-- The length of a message that fits is read as a whole. -/
theorem header_complete {message : List Byte} {rest : List (List Byte)} (cancel : Bool)
    (retry : Option Nat) (tested : Bool) (small : (message.length : Int) ≤ limit maxSize) :
    next maxSize ⟨frames (message :: rest), cancel, message :: rest,
        .inside (.header (limit maxSize) (-1)), none, retry, tested⟩ (.step none) =
      some ⟨message ++ frames rest, cancel, message :: rest,
        .inside (.between (limit maxSize) message.length), some (intBytes message.length), none,
        false⟩ := by
  have decoded : overwriteInt (-1) (intBytes message.length) = message.length :=
    frame_header message (Int.le_trans small (limit_bounds maxSize).2.2) (-1)
  have done : headerDone (limit maxSize) message.length =
      .goto (.between (limit maxSize) message.length) := if_neg (Int.not_lt.mpr small)
  obtain ⟨bytes, behind⟩ := header_read message rest
  have filled : ¬ (frames (message :: rest) = [] ∧ 4 ≠ 0) := by simp [frame, intBytes]
  simp only [next, State.perform, msgqueueRecv, State.complete, bytes, behind, if_neg filled,
    int_bytes_length, decoded, done]
  rfl

/-- A payload is read whole by a read that does not fail, and an empty one is returned at once. -/
theorem payload_complete {message : List Byte} {rest : List (List Byte)} (cancel : Bool)
    (header : Option (List Byte)) (retry : Option Nat) (tested : Bool) :
    next maxSize ⟨message ++ frames rest, cancel, message :: rest,
        .inside (.payload (limit maxSize) message.length), header, retry, tested⟩ (.step none) =
      some ⟨frames rest, cancel, message :: rest,
        if message = [] then .outside ⟨message.length, message⟩
        else .inside (.test (limit maxSize) message.length ⟨message.length, message⟩),
        header, none, false⟩ := by
  have count : sizeT message.length = message.length := by simp [sizeT]
  have available : ¬ (message ++ frames rest = [] ∧ message.length ≠ 0) := by
    rintro ⟨empty, nonempty⟩
    exact nonempty (by rw [(List.append_eq_nil_iff.mp empty).1, List.length_nil])
  simp only [next, State.perform, msgqueueRecv, State.complete, count, if_neg available,
    List.take_left, List.drop_left]
  by_cases empty : message = []
  · subst empty
    rfl
  · have nonempty : ¬ message.length = 0 := fun zero => empty (List.eq_nil_of_length_eq_zero zero)
    simp only [if_neg nonempty, if_neg empty]
    rfl

/-- The read of a length fails, or is complete behind a message. -/
theorem header_stands {puts : List (List Byte)} {tested cancel : Bool} {failure : Option Failure}
    (fits : ∀ message ∈ puts, (message.length : Int) ≤ limit maxSize)
    (moved : next maxSize ⟨frames puts, cancel, puts, .inside (.header (limit maxSize) (-1)), none,
      none, tested⟩ (.step failure) = some after) :
    after.puts = puts ∧ Stands maxSize after.call after.puts after.pipe after.header after.retry
      after.tested after.cancel := by
  cases failure with
  | some failure =>
    obtain rfl := Option.some.inj moved
    refine ⟨rfl, ?_⟩
    cases failure
    all_goals
      simp only [Failure.errno, header_fails]
      exact .unread puts false cancel
  | none =>
    cases puts with
    | nil => cases moved
    | cons message rest =>
      have small := fits message List.mem_cons_self
      have read := @header_complete maxSize message rest cancel none tested small
      obtain rfl := Option.some.inj (read.symm.trans moved)
      exact ⟨rfl, .between message rest false cancel small⟩

/-- The read of a payload fails, or is complete; an empty message is returned. -/
theorem payload_stands {message : List Byte} {rest : List (List Byte)} {tested cancel : Bool}
    {failure : Option Failure} (small : (message.length : Int) ≤ limit maxSize)
    (moved : next maxSize ⟨message ++ frames rest, cancel, message :: rest,
      .inside (.payload (limit maxSize) message.length), some (intBytes message.length), none,
      tested⟩ (.step failure) = some after) :
    after.puts = message :: rest ∧ Stands maxSize after.call after.puts after.pipe after.header
      after.retry after.tested after.cancel := by
  have count : sizeT message.length = message.length := by simp [sizeT]
  cases failure with
  | some failure =>
    obtain rfl := Option.some.inj moved
    refine ⟨rfl, ?_⟩
    cases failure
    all_goals
      simp only [readsPayload, if_true, count]
      exact .failed message rest cancel small
  | none =>
    have read := @payload_complete maxSize message rest cancel (some (intBytes message.length))
      none tested
    obtain rfl := Option.some.inj (read.symm.trans moved)
    refine ⟨rfl, ?_⟩
    by_cases empty : message = []
    · simp only [if_pos empty]
      exact .returned message rest _ _ false cancel
    · simp only [if_neg empty]
      exact .received message rest _ _ _ false cancel

/-- A step of a guarded call leads from one of its places to another one. -/
theorem step_stands {failure : Option Failure} (guarded : Guarded state (.step failure))
    (fits : ∀ message ∈ state.puts, (message.length : Int) ≤ limit maxSize)
    (stands : Stands maxSize state.call state.puts state.pipe state.header state.retry state.tested
      state.cancel)
    (moved : next maxSize state (.step failure) = some after) :
    after.puts = state.puts ∧ Stands maxSize after.call after.puts after.pipe after.header
      after.retry after.tested after.cancel := by
  obtain ⟨pipe, cancel, puts, call, header, retry, tested⟩ := state
  simp only at fits stands
  cases stands with
  | enter puts tested cancel =>
    obtain rfl := Option.some.inj moved
    refine ⟨rfl, ?_⟩
    cases cancel with
    | true => exact .cancelled (-1) (by decide) _ _ _ _
    | false => exact .header _ _ _
  | header puts tested cancel => exact header_stands fits moved
  | unread puts tested cancel =>
    have set : cancel = true := guarded rfl
    subst set
    obtain rfl := Option.some.inj moved
    exact ⟨rfl, .cancelled 0 (Int.le_refl 0) _ _ _ _⟩
  | between message rest tested cancel small =>
    obtain rfl := Option.some.inj moved
    refine ⟨rfl, ?_⟩
    cases cancel with
    | true => exact .cancelled 0 (Int.le_refl 0) _ _ _ _
    | false => exact .payload message rest true false small
  | payload message rest tested cancel small => exact payload_stands small moved
  | failed message rest cancel small =>
    have set : cancel = true := guarded rfl
    subst set
    obtain rfl := Option.some.inj moved
    exact ⟨rfl, .cancelled (-1) (by decide) _ _ _ _⟩
  | received message rest l pipe header tested cancel =>
    have whole : ¬ (message.length : Int) < 0 := by omega
    obtain rfl := Option.some.inj moved
    refine ⟨rfl, ?_⟩
    simp only [decide_eq_false whole, Bool.and_false, Bool.false_eq_true, if_false]
    exact .returned message rest _ _ _ cancel
  | returned message rest pipe header tested cancel => cases moved
  | cancelled n nonpositive => cases moved

/-- A guarded call is resumable at each place where it may stand. -/
theorem Holds.resumable (holds : Holds maxSize state) : Resumable maxSize state := by
  obtain ⟨-, stands⟩ := holds
  obtain ⟨pipe, cancel, puts, call, header, retry, tested⟩ := state
  simp only at stands
  refine ⟨?_, ?_, ?_, ?_⟩
  · intro size l place
    subst place
    cases stands with
    | payload message rest tested cancel small =>
      exact ⟨_, rfl, rfl, (length_spelled small).symm, Int.natCast_nonneg _,
        Int.le_trans small (limit_bounds maxSize).2.1⟩
  · intro count failed clear
    subst failed clear
    cases stands
  · intro received place
    subst place
    cases stands with
    | returned message rest => exact .inl ⟨message, rfl, rfl⟩
    | cancelled n nonpositive => exact .inr ⟨nonpositive, rfl⟩
  · intro place
    subst place
    cases stands

/-- In every state of a guarded run the call stands at one of its places. -/
theorem holds_reached (reached : (system maxSize).Reaches Guarded state) : Holds maxSize state := by
  refine reached.invariant (Holds maxSize) ?_ ?_
  · rintro _ rfl
    exact ⟨by simp [initial], .enter [] false false⟩
  · rintro before label after ⟨fits, stands⟩ guarded moved
    cases label with
    | step failure =>
      obtain ⟨same, stands⟩ := step_stands guarded fits stands moved
      exact ⟨same ▸ fits, stands⟩
    | put message =>
      simp only [system, next] at moved
      split at moved
      · rename_i small
        obtain rfl := Option.some.inj moved
        refine ⟨fun other listed => ?_, stands.put message⟩
        rcases List.mem_append.mp listed with earlier | last
        · exact fits other earlier
        · rwa [List.mem_singleton.mp last]
      · cases moved
    | cancel =>
      obtain rfl := Option.some.inj moved
      exact ⟨fits, stands.cancel⟩

/-- The loop that tests its flag behind a failed read of the payload leads to no read. -/
theorem spinning_leads {size l : Int} (known : 0 ≤ l) {point : RecvPoint}
    (leads : Leads (.test size l ⟨-1, []⟩) point) : point = .test size l ⟨-1, []⟩ := by
  generalize start : RecvPoint.test size l ⟨-1, []⟩ = place at leads
  induction leads with
  | here point => rfl
  | clear point after last resume loads goes leads inductionHypothesis =>
    subst start
    have same : RecvPoint.test size l ⟨-1, []⟩ = after := by
      have loop : loopBody size l ⟨-1, []⟩ = .test size l ⟨-1, []⟩ := if_neg (Int.not_lt.mpr known)
      obtain rfl := Operation.loadCancel.inj loads
      simpa [loop] using goes
    exact (inductionHypothesis same).trans same.symm

/-- A test of the flag behind a failed read that finds it clear makes the call go astray: it
reads a payload of unknown length, or goes on testing. -/
theorem unguarded_not_resumable {label : Label} (holds : Holds maxSize state)
    (unguarded : ¬ Guarded state label) (moved : next maxSize state label = some after) :
    ¬ Resumable maxSize after := by
  cases label with
  | put message => exact absurd trivial unguarded
  | cancel => exact absurd trivial unguarded
  | step failure =>
    simp only [Guarded, Classical.not_imp, Bool.not_eq_true] at unguarded
    obtain ⟨behind, clear⟩ := unguarded
    obtain ⟨-, stands⟩ := holds
    obtain ⟨pipe, cancel, puts, call, header, retry, tested⟩ := state
    simp only at stands behind clear
    subst clear
    cases stands with
    | enter => cases behind
    | header => cases behind
    | unread puts tested =>
      obtain rfl := Option.some.inj moved
      intro resumable
      obtain ⟨bytes, complete, -⟩ := resumable.payload _ _ rfl
      cases complete
    | between message rest tested cancel small =>
      have known : ¬ (message.length : Int) < 0 := by omega
      simp [behindFailure, known] at behind
    | payload => cases behind
    | failed message rest cancel small =>
      have loop : loopBody (limit maxSize) message.length ⟨-1, []⟩ =
          .test (limit maxSize) message.length ⟨-1, []⟩ :=
        if_neg (Int.not_lt.mpr (Int.natCast_nonneg _))
      obtain rfl := Option.some.inj moved
      intro resumable
      obtain ⟨point, size, l, inside, leads, -⟩ := resumable.again _ rfl rfl
      have stays : point = .test (limit maxSize) message.length ⟨-1, []⟩ := by
        simpa [loop, Activity.after, eq_comm] using inside
      rw [stays] at leads
      cases spinning_leads (Int.natCast_nonneg _) leads
    | received message rest l pipe header tested cancel =>
      have whole : ¬ (message.length : Int) < 0 := by omega
      simp [behindFailure, whole] at behind
    | returned => cases behind

/-! ### What the call gets to -/

/-- How many steps the call is from its return, if all goes well. -/
def distance : Activity RecvPoint Received → Nat
  | .inside (.enter _) => 5
  | .inside (.header _ _) => 4
  | .inside (.between _ _) => 3
  | .inside (.payload _ _) => 2
  | .inside (.test _ _ _) => 1
  | _ => 0

/-- With a message in the pipe the call has returned it, or its next operation succeeds and
takes it nearer. -/
theorem step_nearer {message : List Byte} (holds : Holds maxSize state)
    (clear : state.cancel = false) (ahead : behindFailure state.call = false)
    (first : state.puts.head? = some message) :
    state.call = .outside ⟨message.length, message⟩ ∨
      ∃ after, next maxSize state (.step none) = some after ∧ after.cancel = false ∧
        behindFailure after.call = false ∧ distance after.call < distance state.call := by
  obtain ⟨fits, stands⟩ := holds
  obtain ⟨pipe, cancel, puts, call, header, retry, tested⟩ := state
  simp only at fits stands clear ahead first
  subst clear
  cases stands with
  | enter puts tested =>
    exact .inr ⟨_, rfl, rfl, rfl, Nat.lt_succ_self 4⟩
  | header puts tested =>
    cases puts with
    | nil => cases first
    | cons other rest =>
      have known : behindFailure (.inside (.between (limit maxSize) other.length)) = false := by
        simp [behindFailure]
      exact .inr ⟨_, header_complete false none tested (fits other List.mem_cons_self), rfl,
        known, Nat.lt_succ_self 3⟩
  | unread puts tested => cases ahead
  | between other rest tested cancel small =>
    exact .inr ⟨_, rfl, rfl, rfl, Nat.lt_succ_self 2⟩
  | payload other rest tested cancel small =>
    refine .inr ⟨_, payload_complete false _ none tested, rfl, ?_, ?_⟩
    · by_cases empty : other = []
      · rw [if_pos empty]
        exact rfl
      · rw [if_neg empty]
        exact (by simp [behindFailure])
    · by_cases empty : other = []
      · rw [if_pos empty]
        exact Nat.zero_lt_two
      · rw [if_neg empty]
        exact Nat.lt_succ_self 1
  | failed other rest cancel small => cases ahead
  | received other rest l pipe header tested cancel =>
    have whole : ¬ (other.length : Int) < 0 := by omega
    refine .inr ⟨⟨pipe, false, other :: rest, .outside ⟨other.length, other⟩, header, none, true⟩,
      ?_, rfl, rfl, Nat.zero_lt_one⟩
    simp [next, State.perform, msgqueueRecv, whole, Activity.after]
  | returned other rest pipe header tested cancel =>
    left
    rw [Option.some.inj first]

/-- A call that is left alone behind its failures returns the first message, once its reads are
complete. -/
theorem message_returned {message : List Byte} (measure : Nat) :
    ∀ {state : State}, (system maxSize).Reaches Guarded state → state.cancel = false →
      behindFailure state.call = false → state.puts.head? = some message →
      distance state.call ≤ measure →
      ∃ steps after,
        (system maxSize).follow (List.replicate steps (.step none)) state = some after ∧
          after.call = .outside ⟨message.length, message⟩ := by
  induction measure with
  | zero =>
    intro state reached clear ahead first bound
    rcases step_nearer (holds_reached reached) clear ahead first with
      returned | ⟨after, -, -, -, nearer⟩
    · exact ⟨0, state, rfl, returned⟩
    · omega
  | succ measure inductionHypothesis =>
    intro state reached clear ahead first bound
    have holds := holds_reached reached
    rcases step_nearer holds clear ahead first with
      returned | ⟨middle, stepped, still, further, nearer⟩
    · exact ⟨0, state, rfl, returned⟩
    · have guarded : Guarded state (.step none) := by
        intro behind
        rw [ahead] at behind
        cases behind
      have same := (step_stands guarded holds.fits holds.stands stepped).1
      obtain ⟨steps, after, completed, returned⟩ :=
        inductionHypothesis (reached.extend (.step none) guarded stepped) still further
          (same ▸ first) (by omega)
      refine ⟨steps + 1, after, ?_, returned⟩
      have moved : (system maxSize).next state (.step none) = some middle := stepped
      rw [List.replicate_succ, System.follow, moved, Option.bind_some, completed]

/-- A cancelled call returns after a few steps of its own, however its reads fail. -/
theorem cancelled_returned (holds : Holds maxSize state) (set : state.cancel = true)
    (failure : Failure) : ∃ steps after received,
      (system maxSize).follow (List.replicate steps (.step (some failure))) state = some after ∧
        after.call = .outside received := by
  obtain ⟨fits, stands⟩ := holds
  obtain ⟨pipe, cancel, puts, call, header, retry, tested⟩ := state
  simp only at stands set
  subst set
  cases stands with
  | enter => exact ⟨1, _, _, rfl, rfl⟩
  | header puts tested =>
    refine ⟨2, ⟨frames puts, true, puts, .outside ⟨0, []⟩, none, none, false⟩, ⟨0, []⟩, ?_, rfl⟩
    cases failure
    all_goals
      simp [List.replicate, System.follow, system, next, State.perform, msgqueueRecv,
        Failure.errno, header_fails, Activity.after, readsPayload]
  | unread => exact ⟨1, _, _, rfl, rfl⟩
  | between => exact ⟨1, _, _, rfl, rfl⟩
  | payload =>
    cases failure
    all_goals exact ⟨2, _, _, rfl, rfl⟩
  | failed => exact ⟨1, _, _, rfl, rfl⟩
  | received => exact ⟨1, _, _, rfl, rfl⟩
  | returned => exact ⟨0, _, _, rfl, rfl⟩
  | cancelled => exact ⟨0, _, _, rfl, rfl⟩

end Steps

/-- In every run that tests the flag behind a failed read only when it is set, the call is
resumable in every state, gets to its return with the first message unless it is cancelled, and
returns if it is. And in such a run a test that finds the flag clear behind a failed read leads
to a state where the call is not resumable. -/
theorem resumable_under_guard (maxSize : Nat) (state : State)
    (reached : (system maxSize).Reaches Guarded state) :
    (Resumable maxSize state ∧
      (∀ message, state.cancel = false → behindFailure state.call = false →
        state.puts.head? = some message →
        ∃ steps after,
          (system maxSize).follow (List.replicate steps (.step none)) state = some after ∧
            after.call = .outside ⟨message.length, message⟩) ∧
      (state.cancel = true → ∀ failure, ∃ steps after received,
        (system maxSize).follow (List.replicate steps (.step (some failure))) state = some after ∧
          after.call = .outside received)) ∧
      ∀ label after, ¬ Guarded state label → (system maxSize).next state label = some after →
        ¬ Resumable maxSize after := by
  have holds := holds_reached reached
  refine ⟨⟨holds.resumable, ?_, ?_⟩, ?_⟩
  · exact fun message clear ahead first =>
      message_returned _ reached clear ahead first (Nat.le_refl _)
  · exact fun set failure => cancelled_returned holds set failure
  · exact fun label after unguarded moved => unguarded_not_resumable holds unguarded moved

/-- The law where a cancel follows a failed read of the payload. -/
theorem resumable_under_guard_cancelled : ∃ state, state.call = .outside ⟨-1, []⟩ ∧
    Resumable 8 state := by
  have completed : (system 8).follow [.put [97], .step none, .step none, .step none,
      .step (some .eagain), .cancel, .step none] (initial 8) =
      some ⟨[97], true, [[97]], .outside ⟨-1, []⟩, some [1, 0, 0, 0], some 1, false⟩ := rfl
  have admitted : (system 8).Admits Guarded [.put [97], .step none, .step none, .step none,
      .step (some .eagain), .cancel, .step none] (initial 8) := by decide
  have started : (system 8).Reaches Guarded (initial 8) := System.Reaches.initial rfl
  exact ⟨_, rfl, (resumable_under_guard 8 _ (started.followed _ _ admitted completed)).1.1⟩

/-- A failed read of the length is followed by a read of a payload of no known length, and
behind a failed read of the payload the call tests its flag for good. -/
theorem receive_goes_astray :
    (∃ state, (system 8).follow [.step none, .step (some .eagain), .step none] (initial 8) =
        some state ∧ state.call = .inside (.payload 8 (-1)) ∧ ¬ Resumable 8 state) ∧
      ∃ state, (system 8).follow [.put [97], .step none, .step none, .step none,
          .step (some .eagain), .step none] (initial 8) = some state ∧
        (system 8).next state (.step none) = some state ∧ ¬ Resumable 8 state := by
  constructor
  · refine ⟨⟨[], false, [], .inside (.payload 8 (-1)), none, none, true⟩, rfl, rfl, ?_⟩
    intro resumable
    obtain ⟨bytes, complete, -⟩ := resumable.payload 8 (-1) rfl
    cases complete
  · refine ⟨⟨[97], false, [[97]], .inside (.test 8 1 ⟨-1, []⟩), some [1, 0, 0, 0], some 1, true⟩,
      rfl, rfl, ?_⟩
    intro resumable
    obtain ⟨point, size, l, inside, leads, -⟩ := resumable.again 1 rfl rfl
    obtain rfl := Activity.inside.inj inside
    cases spinning_leads (by decide) leads

end Dragonfly.NonblockingReceive
