import Dragonfly.QueueRuns

/-!
# A queue without torn frames and short reads is a channel

The representation reads off a queue state what the channel has accepted, what
waits in it and what it has delivered. A message is accepted when its sender's
first byte enters the pipe and delivered when its payload is read. The bytes in
the pipe, completed by the part of a frame its sender has yet to write, are the
frames of the waiting messages, except that a receiver between its two reads has
already consumed the length of the first one.

The cancel flag leaves the channel alone. It decides what the receiver reports:
each call that is inside `msgqueue_recv` when the flag is set ends with one
answer that its program point determines, and every later call is refused.
-/

namespace Dragonfly.QueueRuns

open Msgqueue

variable {Index : Type} [DecidableEq Index]

/-- The result of a call that delivers a message: its length and its bytes. -/
def reported (message : List Byte) : Received := ⟨message.length, message⟩

/-- How far a sender is through its sequence: `put` is the part the channel has
accepted. Only after a cancel may a message be passed over. -/
inductive SenderAt (cancel : Bool) (all put : List (List Byte)) : Sender → Prop
  | between (todo : List (List Byte))
      (exact : put ++ todo = all ∨ cancel = true ∧ put <+: all) :
      SenderAt cancel all put ⟨todo, none, 0⟩
  | entered (message : List Byte) (todo : List (List Byte))
      (exact : put ++ message :: todo = all ∨ cancel = true ∧ put <+: all) :
      SenderAt cancel all put ⟨todo, some (.enter message message.length), 0⟩
  | ready (message : List Byte) (todo : List (List Byte))
      (exact : put ++ message :: todo = all) :
      SenderAt cancel all put ⟨todo, some (.writev (frame message)), 0⟩
  | writing (message : List Byte) (todo : List (List Byte)) (written : Nat)
      (exact : put ++ todo = all) (started : 0 < written)
      (unfinished : written < (frame message).length) :
      SenderAt cancel all put ⟨todo, some (.writev (frame message)), written⟩
  | wrote (iov : List Byte) (todo : List (List Byte)) (n : Int)
      (exact : put ++ todo = all) (positive : 0 < n) :
      SenderAt cancel all put ⟨todo, some (.test iov n), 0⟩

/-- Setting the flag of the queue keeps what a sender has made of its messages. -/
theorem SenderAt.cancelled {cancel : Bool} {all put : List (List Byte)} {sender : Sender}
    (progress : SenderAt cancel all put sender) : SenderAt true all put sender := by
  cases progress with
  | between todo exact => exact .between todo (exact.imp id (fun skipped => ⟨rfl, skipped.2⟩))
  | entered message todo exact =>
    exact .entered message todo (exact.imp id (fun skipped => ⟨rfl, skipped.2⟩))
  | ready message todo exact => exact .ready message todo exact
  | writing message todo written exact started unfinished =>
    exact .writing message todo written exact started unfinished
  | wrote iov todo n exact positive => exact .wrote iov todo n exact positive

/-- Whatever a sender is doing, the channel accepted an initial part of its
sequence. -/
theorem SenderAt.put_initial {cancel : Bool} {all put : List (List Byte)} {sender : Sender}
    (progress : SenderAt cancel all put sender) : put <+: all := by
  cases progress with
  | between todo exact => exact exact.elim (fun whole => ⟨todo, whole⟩) (fun skipped => skipped.2)
  | entered message todo exact =>
    exact exact.elim (fun whole => ⟨message :: todo, whole⟩) (fun skipped => skipped.2)
  | ready message todo exact => exact ⟨message :: todo, exact⟩
  | writing message todo written exact started unfinished => exact ⟨todo, exact⟩
  | wrote iov todo n exact positive => exact ⟨todo, exact⟩

/-- The bytes of a frame its sender has yet to write; at most one frame is
partly written. -/
def Unwritten (senders : Index → Sender) (tail : List Byte) : Prop :=
  (tail = [] ∧ ∀ index, (senders index).written = 0) ∨
    ∃ index bytes, (senders index).point = some (.writev bytes) ∧ 0 < (senders index).written ∧
      tail = bytes.drop (senders index).written ∧
      ∀ other, other ≠ index → (senders other).written = 0

/-- Where the receiver stands in the stream of frames. Outside a call the stream
starts with a frame unless the flag is set. -/
def ReceiverAt (cancel : Bool) (waiting : List (List Byte)) (stream : List Byte) :
    Option RecvPoint → Prop
  | none => cancel = false → stream = frames waiting
  | some (.enter maxSize) => maxSize = maxBufferSize ∧ (cancel = false → stream = frames waiting)
  | some (.header maxSize l) => maxSize = maxBufferSize ∧ l = -1 ∧ stream = frames waiting
  | some (.between maxSize l) => maxSize = maxBufferSize ∧
      ∃ message rest, waiting = message :: rest ∧ l = message.length ∧
        stream = message ++ frames rest
  | some (.payload maxSize l) => maxSize = maxBufferSize ∧
      ∃ message rest, waiting = message :: rest ∧ l = message.length ∧
        stream = message ++ frames rest
  | some (.test _ _ received) => 0 < received.n ∧ stream = frames waiting
  | some (.headerFailed _ _) => False
  | some (.payloadFailed _ _) => False

/-- A frame entering the stream behind everything else is a message joining the
waiting ones. -/
theorem ReceiverAt.joined {cancel : Bool} {waiting : List (List Byte)} {stream : List Byte}
    {receiver : Option RecvPoint} (position : ReceiverAt cancel waiting stream receiver)
    (message : List Byte) :
    ReceiverAt cancel (waiting ++ [message]) (stream ++ frame message) receiver := by
  have extended (whole : stream = frames waiting) :
      stream ++ frame message = frames (waiting ++ [message]) := by
    simp [whole]
  have joinedRest {first : List Byte} {rest : List (List Byte)} {l : Int}
      (found : waiting = first :: rest ∧ l = first.length ∧ stream = first ++ frames rest) :
      ∃ other others, waiting ++ [message] = other :: others ∧ l = other.length ∧
        stream ++ frame message = other ++ frames others := by
    obtain ⟨rfl, rfl, rfl⟩ := found
    exact ⟨first, rest ++ [message], rfl, rfl, by simp⟩
  match receiver, position with
  | none, aligned => exact fun live => extended (aligned live)
  | some (.enter _), ⟨size, aligned⟩ => exact ⟨size, fun live => extended (aligned live)⟩
  | some (.header _ _), ⟨size, unknown, aligned⟩ => exact ⟨size, unknown, extended aligned⟩
  | some (.between _ _), ⟨size, _, _, found⟩ => exact ⟨size, joinedRest found⟩
  | some (.payload _ _), ⟨size, _, _, found⟩ => exact ⟨size, joinedRest found⟩
  | some (.test _ _ _), ⟨positive, aligned⟩ => exact ⟨positive, extended aligned⟩

/-- A result the receiver has in its locals and is about to return. -/
def held : Option RecvPoint → List Received
  | some (.test _ _ received) => [received]
  | _ => []

/-- The points a call can move to while its answer is still open. -/
inductive Onward : RecvPoint → RecvPoint → Prop
  | here (point : RecvPoint) : Onward point point
  | pastHeader (maxSize l maxSize' l' : Int) :
      Onward (.header maxSize l) (.between maxSize' l')
  | pastPayload (maxSize l maxSize' l' : Int) (received : Received) :
      Onward (.payload maxSize l) (.test maxSize' l' received)

/-- The answer of a call that the cancel found at the given point: refusal before
its first load of the flag, zero up to its second load, and afterwards the whole
message that was first in line. -/
def Answered (delivered returned : List Received) : RecvPoint → Received → Prop
  | .enter _, answer => answer = ⟨-1, []⟩ ∧ returned = delivered
  | .header _ _, answer => answer = ⟨0, []⟩ ∧ returned = delivered
  | .between _ _, answer => answer = ⟨0, []⟩ ∧ returned = delivered
  | .payload _ _, answer => returned ++ [answer] = delivered
  | .test _ _ _, answer => returned ++ [answer] = delivered
  | .headerFailed _ _, _ => False
  | .payloadFailed _ _, _ => False

/-- No call is past its first load of the flag. -/
inductive Idle : Option RecvPoint → Prop
  | outside : Idle none
  | entered (maxSize : Int) : Idle (some (.enter maxSize))

/-- What the receiver has returned before and after the cancel. -/
inductive Reports (delivered : List Received) :
    Option RecvPoint → Bool → List Received → List Received → Option RecvPoint → Prop
  | live {receiver : Option RecvPoint} {returned : List Received}
      (exact : returned ++ held receiver = delivered) :
      Reports delivered receiver false returned [] none
  | finishing {found now : RecvPoint} {returned : List Received} (onward : Onward found now)
      (exact : returned ++ held (some now) = delivered) :
      Reports delivered (some now) true returned [] (some found)
  | finished {receiver : Option RecvPoint} {found : RecvPoint} {returned rest : List Received}
      {answer : Received} (idle : Idle receiver) (answered : Answered delivered returned found answer)
      (refused : ∀ received ∈ rest, received = ⟨-1, []⟩) :
      Reports delivered receiver true returned (answer :: rest) (some found)
  | unoccupied {receiver : Option RecvPoint} {returned late : List Received} (idle : Idle receiver)
      (exact : returned = delivered) (refused : ∀ received ∈ late, received = ⟨-1, []⟩) :
      Reports delivered receiver true returned late none

/-- A queue state and the channel state it stands for. -/
structure Represents (sequences : Index → List (List Byte)) (state : State Index)
    (channel : Fifo (Index × List Byte)) : Prop where
  alive : state.exited = false
  progress : ∀ index, SenderAt state.cancel (sequences index)
    (itemsOf index channel.accepted) (state.senders index)
  bounded : ∀ item ∈ channel.waiting, (item.2.length : Int) ≤ maxMessageSize
  aligned : ∃ tail, Unwritten state.senders tail ∧
    ReceiverAt state.cancel (channel.waiting.map Prod.snd) (state.pipe ++ tail) state.receiver
  reports : Reports (channel.delivered.map (fun item => reported item.2)) state.receiver
    state.cancel state.returned state.late state.cancelledAt

/-- The transfers that keep frames whole: nobody writes into another sender's
frame, and a read is short only if a cancelled or empty pipe makes it so. -/
def FrameTransfers (state : State Index) : Label Index → Prop
  | .send index _ => state.writes index ≠ none →
      ∀ other, other ≠ index → (state.senders other).written = 0
  | .recv count => ∀ asked ∈ state.asked, count = asked ∨
      count = min asked state.pipe.length ∧ ∀ index, (state.senders index).written = 0
  | .cancel => True

/-! ## The senders' steps -/

@[simp] theorem set_sender_own (state : State Index) (index : Index) (sender : Sender) :
    (state.setSender index sender).senders index = sender := by
  simp [State.setSender]

theorem set_sender_other (state : State Index) (index other : Index) (sender : Sender)
    (different : other ≠ index) :
    (state.setSender index sender).senders other = state.senders other := by
  simp [State.setSender, different]

/-- The sender after `count` further bytes of its frame entered the pipe. -/
def advanced (message : List Byte) (todo : List (List Byte)) (written count : Nat) : Sender :=
  if written + count = (frame message).length then
    ⟨todo, some (.test (frame message) (frame message).length), 0⟩
  else ⟨todo, some (.writev (frame message)), written + count⟩

/-- A `writev` under way moves a piece of its frame. -/
theorem write_piece {state after : State Index} {index : Index} {count written : Nat}
    {message : List Byte} {todo : List (List Byte)}
    (shape : state.senders index = ⟨todo, some (.writev (frame message)), written⟩)
    (moved : sendNext state index count = some after) :
    0 < count ∧ written + count ≤ (frame message).length ∧
      after = State.setSender { state with
        pipe := state.pipe ++ ((frame message).drop written).take count } index
        (advanced message todo written count) := by
  simp only [sendNext, shape, msgqueueSend] at moved
  split at moved
  · rename_i possible
    refine ⟨possible.1, possible.2, ?_⟩
    split at moved
    · rename_i whole
      rw [advanced, if_pos whole]
      simpa [State.sendTo, shape] using (Option.some.inj moved).symm
    · rename_i unfinished
      rw [advanced, if_neg unfinished]
      exact (Option.some.inj moved).symm
  · cases moved

/-- One operation of a sender either changes nothing but the sender, which has no
bytes of a frame in the pipe before or after, or puts a piece of its frame into
the pipe. The channel accepts the frame's message with its first piece. -/
theorem send_cases {state after : State Index} {index : Index} {count : Nat}
    {all put : List (List Byte)}
    (progress : SenderAt state.cancel all put (state.senders index))
    (fits : ∀ message ∈ all, (message.length : Int) ≤ maxMessageSize)
    (moved : sendNext state index count = some after) :
    (∃ sender, after = state.setSender index sender ∧ sender.written = 0 ∧
        (state.senders index).written = 0 ∧ SenderAt state.cancel all put sender) ∨
      ∃ message todo written,
        state.senders index = ⟨todo, some (.writev (frame message)), written⟩ ∧
        (written = 0 ∧ put ++ message :: todo = all ∨ 0 < written ∧ put ++ todo = all) ∧
        0 < count ∧ written + count ≤ (frame message).length ∧
        after = State.setSender { state with
          pipe := state.pipe ++ ((frame message).drop written).take count } index
          (advanced message todo written count) := by
  generalize shape : state.senders index = sender at progress
  cases progress with
  | between todo exact =>
    left
    cases todo with
    | nil => simp [sendNext, shape] at moved
    | cons message rest =>
      have same : state.setSender index ⟨rest, some (.enter message message.length), 0⟩ = after := by
        simpa [sendNext, shape] using moved
      exact ⟨_, same.symm, rfl, rfl, .entered message rest exact⟩
  | entered message todo exact =>
    left
    cases flag : state.cancel with
    | true =>
      have same : state.setSender index ⟨todo, none, 0⟩ = after := by
        simpa [sendNext, shape, msgqueueSend, flag, State.sendTo] using moved
      have skipped : put <+: all :=
        exact.elim (fun whole => ⟨message :: todo, whole⟩) (fun passed => passed.2)
      exact ⟨_, same.symm, rfl, rfl, .between todo (.inr ⟨rfl, skipped⟩)⟩
    | false =>
      have whole : put ++ message :: todo = all :=
        exact.elim id (fun passed => absurd passed.1 (by simp [flag]))
      have member : message ∈ all := whole ▸ by simp
      have same : state.setSender index ⟨todo, some (.writev (frame message)), 0⟩ = after := by
        simpa [sendNext, shape, msgqueueSend, flag, State.sendTo,
          iov_is_frame message (fits message member)] using moved
      exact ⟨_, same.symm, rfl, rfl, .ready message todo whole⟩
  | ready message todo exact =>
    exact .inr ⟨message, todo, 0, rfl, .inl ⟨rfl, exact⟩, write_piece shape moved⟩
  | writing message todo written exact started unfinished =>
    exact .inr ⟨message, todo, written, rfl, .inr ⟨started, exact⟩, write_piece shape moved⟩
  | wrote iov todo n exact positive =>
    left
    have succeeded : ¬ n < 0 := by omega
    have same : state.setSender index ⟨todo, none, 0⟩ = after := by
      simpa [sendNext, shape, msgqueueSend, succeeded, State.sendTo] using moved
    exact ⟨_, same.symm, rfl, rfl, .between todo (.inl exact)⟩

/-- Replacing a sender outside its frame by another such sender leaves the
unwritten bytes as they are. -/
theorem Unwritten.quiet {state : State Index} {tail : List Byte} {index : Index} {sender : Sender}
    (unwritten : Unwritten state.senders tail) (before : (state.senders index).written = 0)
    (after : sender.written = 0) : Unwritten (state.setSender index sender).senders tail := by
  have zero (other : Index) (clear : (state.senders other).written = 0) :
      ((state.setSender index sender).senders other).written = 0 := by
    by_cases same : other = index
    · subst same
      simpa using after
    · simpa [set_sender_other state index other sender same] using clear
  rcases unwritten with ⟨vacant, clear⟩ | ⟨writer, bytes, inside, started, exact, clear⟩
  · exact .inl ⟨vacant, fun other => zero other (clear other)⟩
  · have different : writer ≠ index := by
      rintro rfl
      omega
    have kept := set_sender_other state index writer sender different
    refine .inr ⟨writer, bytes, kept ▸ inside, kept ▸ started, kept ▸ exact, ?_⟩
    exact fun other apart => zero other (clear other apart)

/-- When no other sender is inside its frame, the unwritten bytes are those of
this sender's frame, if it has begun to write it. -/
theorem Unwritten.own {senders : Index → Sender} {tail bytes : List Byte} {index : Index}
    {todo : List (List Byte)} {written : Nat} (unwritten : Unwritten senders tail)
    (shape : senders index = ⟨todo, some (.writev bytes), written⟩)
    (alone : ∀ other, other ≠ index → (senders other).written = 0) :
    tail = if written = 0 then [] else bytes.drop written := by
  rcases unwritten with ⟨vacant, clear⟩ | ⟨writer, others, inside, started, exact, clear⟩
  · have zero : written = 0 := by simpa [shape] using clear index
    simp [zero, vacant]
  · have same : writer = index := by
      by_contra different
      have zero := alone writer different
      omega
    subst same
    rw [shape] at inside started exact
    have sameBytes : bytes = others := by simpa using inside
    have positive : written ≠ 0 := Nat.pos_iff_ne_zero.mp started
    simpa [positive, sameBytes] using exact

/-- After a piece of a frame entered the pipe, the rest of that frame is unwritten. -/
theorem unwritten_advanced {state : State Index} {index : Index} (message : List Byte)
    (todo : List (List Byte)) (written : Nat) {count : Nat} (positive : 0 < count)
    (alone : ∀ other, other ≠ index → (state.senders other).written = 0) :
    Unwritten (state.setSender index (advanced message todo written count)).senders
      ((frame message).drop (written + count)) := by
  have clear (other : Index) (different : other ≠ index) :
      ((state.setSender index (advanced message todo written count)).senders other).written = 0 := by
    simpa [set_sender_other state index other _ different] using alone other different
  by_cases whole : written + count = (frame message).length
  · left
    refine ⟨by simp [whole], ?_⟩
    intro other
    by_cases same : other = index
    · subst same
      simp [advanced, whole]
    · exact clear other same
  · right
    refine ⟨index, frame message, ?_, ?_, ?_, clear⟩
    · simp only [set_sender_own, advanced, if_neg whole]
    · simp only [set_sender_own, advanced, if_neg whole]
      omega
    · simp only [set_sender_own, advanced, if_neg whole]

/-- A sender that put a further piece of its frame into the pipe has its message
accepted. -/
theorem sender_advanced {cancel : Bool} {all put : List (List Byte)} {message : List Byte}
    {todo : List (List Byte)} {written count : Nat} (positive : 0 < count)
    (inside : written + count ≤ (frame message).length) (exact : put ++ todo = all) :
    SenderAt cancel all put (advanced message todo written count) := by
  unfold advanced
  split
  · exact .wrote (frame message) todo (frame message).length exact (by simp; omega)
  · exact .writing message todo (written + count) exact (by omega) (by omega)

/-- The pieces of a frame, put together again, are the frame behind what was written of it. -/
theorem piece_append_rest (bytes : List Byte) (written count : Nat) :
    (bytes.drop written).take count ++ bytes.drop (written + count) = bytes.drop written := by
  rw [← List.drop_drop, List.take_append_drop]

/-- The channel accepts a message of a sender and puts it behind those that wait. -/
def accept (channel : Fifo (Index × List Byte)) (index : Index) (message : List Byte) :
    Fifo (Index × List Byte) :=
  { channel with
    accepted := channel.accepted ++ [(index, message)]
    waiting := channel.waiting ++ [(index, message)] }

variable {sequences : Index → List (List Byte)}

/-- A step that only replaces one sender keeps the progress of the others. -/
theorem progress_replaced {state : State Index} {index : Index} {sender : Sender}
    {accepted : List (Index × List Byte)}
    (own : SenderAt state.cancel (sequences index) (itemsOf index accepted) sender)
    (others : ∀ other, other ≠ index →
      SenderAt state.cancel (sequences other) (itemsOf other accepted) (state.senders other))
    (other : Index) : SenderAt state.cancel (sequences other) (itemsOf other accepted)
      ((state.setSender index sender).senders other) := by
  by_cases same : other = index
  · subst same
    simpa using own
  · rw [set_sender_other state index other sender same]
    exact others other same

/-- A sender's step is invisible to the channel or puts the message whose first
bytes enter the pipe. -/
theorem send_matched (fits : ∀ index, ∀ message ∈ sequences index,
      (message.length : Int) ≤ maxMessageSize)
    {state after : State Index} {index : Index} {count : Nat} {channel : Fifo (Index × List Byte)}
    (related : Represents sequences state channel)
    (admitted : FrameTransfers state (.send index count))
    (moved : sendNext state index count = some after) :
    Represents sequences after channel ∨
      ∃ message, Represents sequences after (accept channel index message) := by
  obtain ⟨tail, unwritten, position⟩ := related.aligned
  rcases send_cases (related.progress index) (fits index) moved with
    ⟨sender, rfl, cleared, clear, progress⟩ |
      ⟨message, todo, written, shape, exact, positive, inside, rfl⟩
  · left
    refine ⟨related.alive, ?_, related.bounded, ⟨tail, unwritten.quiet clear cleared, position⟩,
      related.reports⟩
    exact progress_replaced progress (fun other _ => related.progress other)
  · have writing : state.writes index ≠ none := by simp [State.writes, shape]
    have alone := admitted writing
    have tailExact := unwritten.own shape alone
    have rest := unwritten_advanced message todo written positive alone
    rcases exact with ⟨rfl, exact⟩ | ⟨started, exact⟩
    · right
      have unsplit : (state.pipe ++ (frame message).take count) ++ (frame message).drop (0 + count) =
          (state.pipe ++ tail) ++ frame message := by
        simp [tailExact]
      refine ⟨message, related.alive, ?_, ?_, ⟨_, rest, ?_⟩, related.reports⟩
      · have own : SenderAt state.cancel (sequences index)
            (itemsOf index (channel.accepted ++ [(index, message)]))
            (advanced message todo 0 count) :=
          sender_advanced positive inside (by simpa using exact)
        apply progress_replaced own
        intro other different
        rw [items_of_append, items_of_other message (Ne.symm different), List.append_nil]
        exact related.progress other
      · intro item member
        rcases List.mem_append.mp member with old | new
        · exact related.bounded item old
        · rw [List.mem_singleton.mp new]
          exact fits index message (exact ▸ by simp)
      · change ReceiverAt state.cancel ((channel.waiting ++ [(index, message)]).map Prod.snd)
          (state.pipe ++ (frame message).take count ++ _) state.receiver
        rw [unsplit, List.map_append]
        exact position.joined message
    · left
      have unsplit : (state.pipe ++ ((frame message).drop written).take count) ++
          (frame message).drop (written + count) = state.pipe ++ tail := by
        rw [tailExact, if_neg (by omega), List.append_assoc, piece_append_rest]
      refine ⟨related.alive, ?_, related.bounded, ⟨_, rest, ?_⟩, related.reports⟩
      · exact progress_replaced (sender_advanced positive inside exact)
          (fun other _ => related.progress other)
      · change ReceiverAt state.cancel (channel.waiting.map Prod.snd)
          (state.pipe ++ ((frame message).drop written).take count ++ _) state.receiver
        rw [unsplit]
        exact position

/-! ## The receiver's answers -/

section Answers

variable {delivered returned late : List Received} {found : Option RecvPoint}

/-- A call that is entered behind the cancel is refused, and nothing more is reported. -/
theorem Reports.refuse {maxSize : Int}
    (reports : Reports delivered (some (.enter maxSize)) true returned late found) :
    Reports delivered none true returned (late ++ [⟨-1, []⟩]) found := by
  cases reports with
  | finishing onward exact =>
    cases onward with
    | here =>
      refine .finished .outside ⟨rfl, ?_⟩ (by simp)
      simpa [held] using exact
  | finished idle answered refused =>
    refine .finished .outside answered ?_
    intro received member
    rcases List.mem_append.mp member with old | new
    · exact refused received old
    · exact List.mem_singleton.mp new
  | unoccupied idle exact refused =>
    refine .unoccupied .outside exact ?_
    intro received member
    rcases List.mem_append.mp member with old | new
    · exact refused received old
    · exact List.mem_singleton.mp new

/-- The cancel seen between the reads ends the call with zero. -/
theorem Reports.zero {maxSize l : Int}
    (reports : Reports delivered (some (.between maxSize l)) true returned late found) :
    Reports delivered none true returned (late ++ [⟨0, []⟩]) found := by
  cases reports with
  | finishing onward exact =>
    have unheld : returned = delivered := by simpa [held] using exact
    cases onward with
    | here => exact .finished .outside ⟨rfl, unheld⟩ (by simp)
    | pastHeader => exact .finished .outside ⟨rfl, unheld⟩ (by simp)
  | finished idle => cases idle
  | unoccupied idle => cases idle

/-- A delivered result is returned, before the cancel or after it. -/
theorem Reports.release {cancel : Bool} {maxSize l : Int} {received : Received}
    (reports : Reports delivered (some (.test maxSize l received)) cancel returned late found) :
    Reports delivered none cancel (if cancel then returned else returned ++ [received])
      (if cancel then late ++ [received] else late) found := by
  cases reports with
  | live exact => exact .live (by simpa [held] using exact)
  | finishing onward exact =>
    have last : returned ++ [received] = delivered := by simpa [held] using exact
    cases onward with
    | here => exact .finished .outside last (by simp)
    | pastPayload => exact .finished .outside last (by simp)
  | finished idle => cases idle
  | unoccupied idle => cases idle

/-- Reading the payload of an empty message delivers it and returns at once. -/
theorem Reports.release_empty {cancel : Bool} {maxSize l : Int}
    (reports : Reports delivered (some (.payload maxSize l)) cancel returned late found)
    (received : Received) :
    Reports (delivered ++ [received]) none cancel
      (if cancel then returned else returned ++ [received])
      (if cancel then late ++ [received] else late) found := by
  cases reports with
  | live exact => exact .live (by simpa [held] using exact)
  | finishing onward exact =>
    have last : returned ++ [received] = delivered ++ [received] := by simpa [held] using exact
    cases onward with
    | here => exact .finished .outside last (by simp)
  | finished idle => cases idle
  | unoccupied idle => cases idle

/-- Reading the payload of a message delivers it into the receiver's locals. -/
theorem Reports.deliver {cancel : Bool} {maxSize l : Int}
    (reports : Reports delivered (some (.payload maxSize l)) cancel returned late found)
    (maxSize' l' : Int) (received : Received) :
    Reports (delivered ++ [received]) (some (.test maxSize' l' received)) cancel returned late
      found := by
  cases reports with
  | live exact => exact .live (by simpa [held] using exact)
  | finishing onward exact =>
    have last : returned ++ [received] = delivered ++ [received] := by simpa [held] using exact
    cases onward with
    | here => exact .finishing (.pastPayload _ _ _ _ _) last
  | finished idle => cases idle
  | unoccupied idle => cases idle

/-- Reading a length leaves the call open: it has reported nothing yet. -/
theorem Reports.sized {cancel : Bool} {maxSize l : Int}
    (reports : Reports delivered (some (.header maxSize l)) cancel returned late found)
    (maxSize' l' : Int) :
    Reports delivered (some (.between maxSize' l')) cancel returned late found := by
  cases reports with
  | live exact => exact .live (by simpa [held] using exact)
  | finishing onward exact =>
    cases onward with
    | here => exact .finishing (.pastHeader _ _ _ _) (by simpa [held] using exact)
  | finished idle => cases idle
  | unoccupied idle => cases idle

/-- While the flag is clear, moving on without a result leaves the call open. -/
theorem Reports.proceed {receiver now : Option RecvPoint}
    (reports : Reports delivered receiver false returned late found)
    (before : held receiver = []) (after : held now = []) :
    Reports delivered now false returned late found := by
  cases reports with
  | live exact => exact .live (by simpa [before, after] using exact)

/-- A new call starts with nothing to report, behind those that have returned. -/
theorem Reports.begin {cancel : Bool} (reports : Reports delivered none cancel returned late found)
    (maxSize : Int) : Reports delivered (some (.enter maxSize)) cancel returned late found := by
  cases reports with
  | live exact => exact .live (by simpa [held] using exact)
  | finished idle answered refused => exact .finished (.entered maxSize) answered refused
  | unoccupied idle exact refused => exact .unoccupied (.entered maxSize) exact refused

end Answers

/-! ## The receiver's steps -/

/-- The channel delivers the first message that waits; the others still wait. -/
def deliver (channel : Fifo (Index × List Byte)) (item : Index × List Byte)
    (rest : List (Index × List Byte)) : Fifo (Index × List Byte) :=
  { channel with waiting := rest, delivered := channel.delivered ++ [item] }

/-- A receiver's step touches the pipe, its own point and its results. -/
theorem Represents.received {state : State Index} {channel : Fifo (Index × List Byte)}
    (related : Represents sequences state channel) {pipe tail : List Byte}
    {receiver : Option RecvPoint} {returned late : List Received}
    (unwritten : Unwritten state.senders tail)
    (position : ReceiverAt state.cancel (channel.waiting.map Prod.snd) (pipe ++ tail) receiver)
    (reports : Reports (channel.delivered.map (fun item => reported item.2)) receiver
      state.cancel returned late state.cancelledAt) :
    Represents sequences { state with
      pipe := pipe, receiver := receiver, returned := returned, late := late } channel :=
  ⟨related.alive, related.progress, related.bounded, ⟨tail, unwritten, position⟩, reports⟩

omit [DecidableEq Index] in
/-- An answer is recorded with those before the cancel or with those behind it. -/
theorem recv_to_answer (state : State Index) (received : Received) :
    state.recvTo (.ret received) = { state with
      receiver := none
      returned := if state.cancel then state.returned else state.returned ++ [received]
      late := if state.cancel then state.late ++ [received] else state.late } := by
  cases flag : state.cancel <;> simp [State.recvTo, flag]

omit [DecidableEq Index] in
/-- A read in step with the frames gets all it asked for. -/
theorem read_whole {state : State Index} {asked count : Nat} {tail stream : List Byte}
    (unwritten : Unwritten state.senders tail) (aligned : state.pipe ++ tail = stream)
    (enough : 0 < stream.length → asked ≤ stream.length)
    (transfer : count = asked ∨
      count = min asked state.pipe.length ∧ ∀ index, (state.senders index).written = 0)
    (possible : count ≤ asked ∧ count ≤ state.pipe.length ∧ (0 < count ∨ asked = 0)) :
    count = asked ∧ state.pipe.take count = stream.take asked ∧
      state.pipe.drop count ++ tail = stream.drop asked := by
  have whole : count = asked := by
    rcases transfer with whole | ⟨short, clear⟩
    · exact whole
    · have vacant : tail = [] := by
        rcases unwritten with ⟨vacant, _⟩ | ⟨index, _, _, started, _⟩
        · exact vacant
        · have zero := clear index
          omega
      have length : stream.length = state.pipe.length := by
        rw [← aligned, vacant, List.append_nil]
      omega
  have inside : asked ≤ state.pipe.length := whole ▸ possible.2.1
  subst aligned
  refine ⟨whole, ?_, ?_⟩
  · rw [whole, List.take_append_of_le_length inside]
  · rw [whole, List.drop_append_of_le_length inside]

/-- Reading the length of the first waiting frame leaves the receiver in front of
its payload. -/
theorem header_matched {state after : State Index} {count : Nat}
    {channel : Fifo (Index × List Byte)} (related : Represents sequences state channel)
    (admitted : FrameTransfers state (.recv count)) {maxSize l : Int}
    (point : state.receiver = some (.header maxSize l))
    (moved : recvNext state count = some after) : Represents sequences after channel := by
  obtain ⟨tail, unwritten, position⟩ := related.aligned
  have reports := related.reports
  rw [point] at position reports
  obtain ⟨size, unknown, aligned⟩ := position
  simp only [recvNext, point, msgqueueRecv] at moved
  split at moved
  · rename_i possible
    have transfer := admitted 4 (by simp [State.asked, point])
    cases front : channel.waiting with
    | nil =>
      have vacant : state.pipe = [] := by
        have empty : state.pipe ++ tail = [] := by simpa [front] using aligned
        exact (List.append_eq_nil_iff.mp empty).1
      simp only [vacant, List.length_nil] at possible
      omega
    | cons item rest =>
      have stream : state.pipe ++ tail =
          frame item.2 ++ frames (rest.map Prod.snd) := by simpa [front] using aligned
      obtain ⟨whole, taken, dropped⟩ := read_whole unwritten stream (by simp; omega) transfer possible
      have fits : (item.2.length : Int) ≤ maxMessageSize :=
        related.bounded item (by simp [front])
      have header : state.pipe.take count = intBytes item.2.length := by
        rw [taken, frame, List.append_assoc, List.take_left' (int_bytes_length _)]
      have remaining : state.pipe.drop count ++ tail = item.2 ++ frames (rest.map Prod.snd) := by
        rw [dropped, frame, List.append_assoc, List.drop_left' (int_bytes_length _)]
      have small : ¬ (item.2.length : Int) > maxSize := by
        rw [size]
        exact Int.not_lt.mpr fits
      have same : { state with
          pipe := state.pipe.drop count
          receiver := some (.between maxSize item.2.length) } = after := by
        simpa [header, headerDone, frame_header item.2 fits l, small, State.recvTo] using moved
      subst same
      refine related.received unwritten ?_ (reports.sized maxSize item.2.length)
      exact ⟨size, item.2, rest.map Prod.snd, by simp [front], rfl, remaining⟩
  · cases moved

/-- Reading a payload delivers the first message that waits in the channel, as a whole. -/
theorem payload_matched {state after : State Index} {count : Nat}
    {channel : Fifo (Index × List Byte)} (related : Represents sequences state channel)
    (admitted : FrameTransfers state (.recv count)) {maxSize l : Int}
    (point : state.receiver = some (.payload maxSize l))
    (moved : recvNext state count = some after) :
    ∃ item rest, channel.waiting = item :: rest ∧
      Represents sequences after (deliver channel item rest) := by
  obtain ⟨tail, unwritten, position⟩ := related.aligned
  have reports := related.reports
  rw [point] at position reports
  obtain ⟨size, message, others, front, length, stream⟩ := position
  obtain ⟨item, rest, split, rfl, rfl⟩ := List.map_eq_cons_iff.mp front
  subst length
  refine ⟨item, rest, split, ?_⟩
  have asked : sizeT item.2.length = item.2.length := by simp [sizeT]
  simp only [recvNext, point, msgqueueRecv, asked] at moved
  split at moved
  · rename_i possible
    have transfer := admitted item.2.length (by simp [State.asked, point, asked])
    obtain ⟨whole, taken, dropped⟩ := read_whole unwritten stream (by simp) transfer possible
    have data : state.pipe.take count = item.2 := by rw [taken, List.take_left]
    have remaining : state.pipe.drop count ++ tail = frames (rest.map Prod.snd) := by
      rw [dropped, List.drop_left]
    have bounded : ∀ other ∈ rest, (other.2.length : Int) ≤ maxMessageSize :=
      fun other member => related.bounded other (by simp [split, member])
    rw [data] at moved
    cases payload : item.2 with
    | nil =>
      have same : { state with pipe := state.pipe.drop count }.recvTo (.ret ⟨0, []⟩) = after := by
        simpa [payload, point] using moved
      rw [recv_to_answer] at same
      subst same
      refine ⟨related.alive, related.progress, bounded, ⟨tail, unwritten, fun _ => remaining⟩, ?_⟩
      simpa [deliver, payload, reported] using reports.release_empty (reported item.2)
    | cons first others =>
      have nonempty : item.2.length ≠ 0 := by simp [payload]
      have same : { state with
          pipe := state.pipe.drop count
          receiver := some (.test maxSize item.2.length (reported item.2)) } = after := by
        simpa [nonempty, State.recvTo, reported] using moved
      subst same
      refine ⟨related.alive, related.progress, bounded, ⟨tail, unwritten, ?_, remaining⟩, ?_⟩
      · simpa [reported] using Nat.pos_of_ne_zero nonempty
      · simpa [deliver] using reports.deliver maxSize item.2.length (reported item.2)
  · cases moved

/-- The first test of the flag refuses the call or goes on to the header. -/
theorem enter_matched {state after : State Index} {count : Nat}
    {channel : Fifo (Index × List Byte)} (related : Represents sequences state channel)
    {maxSize : Int} (point : state.receiver = some (.enter maxSize))
    (moved : recvNext state count = some after) : Represents sequences after channel := by
  obtain ⟨tail, unwritten, position⟩ := related.aligned
  have reports := related.reports
  rw [point] at position reports
  obtain ⟨rfl, aligned⟩ := position
  cases flag : state.cancel with
  | true =>
    rw [flag] at reports
    have same : { state with receiver := none, late := state.late ++ [⟨-1, []⟩] } = after := by
      simpa [recvNext, point, msgqueueRecv, State.recvTo, flag] using moved
    subst same
    refine related.received unwritten (fun live => ?_) (flag ▸ reports.refuse)
    simp [flag] at live
  | false =>
    rw [flag] at reports
    have same : { state with receiver := some (.header maxBufferSize (-1)) } = after := by
      simpa [recvNext, point, msgqueueRecv, State.recvTo, flag, loopBody, maxBufferSize,
        maxMessageSize] using moved
    subst same
    exact related.received unwritten ⟨rfl, rfl, aligned flag⟩ (flag ▸ reports.proceed rfl rfl)

/-- The test of the flag behind the header answers zero or goes on to the payload. -/
theorem between_matched {state after : State Index} {count : Nat}
    {channel : Fifo (Index × List Byte)} (related : Represents sequences state channel)
    {maxSize l : Int} (point : state.receiver = some (.between maxSize l))
    (moved : recvNext state count = some after) : Represents sequences after channel := by
  obtain ⟨tail, unwritten, position⟩ := related.aligned
  have reports := related.reports
  rw [point] at position reports
  cases flag : state.cancel with
  | true =>
    rw [flag] at reports
    have same : { state with receiver := none, late := state.late ++ [⟨0, []⟩] } = after := by
      simpa [recvNext, point, msgqueueRecv, State.recvTo, flag] using moved
    subst same
    refine related.received unwritten (fun live => ?_) (flag ▸ reports.zero)
    simp [flag] at live
  | false =>
    rw [flag] at reports
    have same : { state with receiver := some (.payload maxSize l) } = after := by
      simpa [recvNext, point, msgqueueRecv, State.recvTo, flag] using moved
    subst same
    exact related.received unwritten position (flag ▸ reports.proceed rfl rfl)

/-- The loop condition behind the payload returns what was read. -/
theorem test_matched {state after : State Index} {count : Nat}
    {channel : Fifo (Index × List Byte)} (related : Represents sequences state channel)
    {maxSize l : Int} {received : Received}
    (point : state.receiver = some (.test maxSize l received))
    (moved : recvNext state count = some after) : Represents sequences after channel := by
  obtain ⟨tail, unwritten, position⟩ := related.aligned
  have reports := related.reports
  rw [point] at position reports
  obtain ⟨positive, aligned⟩ := position
  have succeeded : ¬ received.n < 0 := by omega
  have same : state.recvTo (.ret received) = after := by
    simpa [recvNext, point, msgqueueRecv, succeeded] using moved
  rw [recv_to_answer] at same
  subst same
  exact related.received unwritten (fun _ => aligned) reports.release

/-- A receiver's step is invisible to the channel or delivers its first message. -/
theorem recv_matched {state after : State Index} {count : Nat}
    {channel : Fifo (Index × List Byte)} (related : Represents sequences state channel)
    (admitted : FrameTransfers state (.recv count)) (moved : recvNext state count = some after) :
    Represents sequences after channel ∨ ∃ item rest, channel.waiting = item :: rest ∧
      Represents sequences after (deliver channel item rest) := by
  obtain ⟨tail, unwritten, position⟩ := related.aligned
  cases point : state.receiver with
  | none =>
    left
    have reports := related.reports
    rw [point] at position reports
    have same : { state with receiver := some (.enter maxBufferSize) } = after := by
      simpa [recvNext, point] using moved
    subst same
    exact related.received unwritten ⟨rfl, position⟩ (reports.begin maxBufferSize)
  | some inside =>
    rw [point] at position
    cases inside with
    | enter maxSize => exact .inl (enter_matched related point moved)
    | header maxSize l => exact .inl (header_matched related admitted point moved)
    | headerFailed maxSize l => exact position.elim
    | between maxSize l => exact .inl (between_matched related point moved)
    | payload maxSize l => exact .inr (payload_matched related admitted point moved)
    | payloadFailed maxSize l => exact position.elim
    | test maxSize l received => exact .inl (test_matched related point moved)

/-- Setting the flag keeps the receiver's place in the stream. -/
theorem ReceiverAt.cancelled {waiting : List (List Byte)} {stream : List Byte}
    {receiver : Option RecvPoint} (position : ReceiverAt false waiting stream receiver) :
    ReceiverAt true waiting stream receiver := by
  match receiver, position with
  | none, aligned => exact fun _ => aligned rfl
  | some (.enter _), ⟨size, aligned⟩ => exact ⟨size, fun _ => aligned rfl⟩
  | some (.header _ _), aligned => exact aligned
  | some (.between _ _), aligned => exact aligned
  | some (.payload _ _), aligned => exact aligned
  | some (.test _ _ _), aligned => exact aligned

/-- Setting the flag is invisible to the channel and fixes the point at which the
receiver's call was found. -/
theorem cancel_matched {state : State Index} {channel : Fifo (Index × List Byte)}
    (related : Represents sequences state channel) :
    Represents sequences (cancelNext state) channel := by
  cases flag : state.cancel with
  | true => simpa [cancelNext, flag] using related
  | false =>
    obtain ⟨tail, unwritten, position⟩ := related.aligned
    have reports := related.reports
    rw [flag] at position reports
    simp only [cancelNext, flag, Bool.false_eq_true, if_false]
    refine ⟨related.alive, fun index => (related.progress index).cancelled, related.bounded,
      ⟨tail, unwritten, position.cancelled⟩, ?_⟩
    generalize state.receiver = receiver at reports ⊢
    generalize state.late = late at reports ⊢
    generalize state.cancelledAt = found at reports
    cases reports with
    | live exact =>
      cases receiver with
      | none => exact .unoccupied .outside (by simpa [held] using exact) (by simp)
      | some point => exact .finishing (.here point) exact

/-- The queue, scheduled so that frames stay whole, is a first-in first-out
channel of messages tagged by their sender. -/
theorem queue_simulates (fits : ∀ index, ∀ message ∈ sequences index,
      (message.length : Int) ≤ maxMessageSize) :
    Simulation (system sequences) FrameTransfers (Fifo.system (Index × List Byte))
      (Represents sequences) where
  initially := by
    rintro state rfl
    refine ⟨⟨[], [], []⟩, rfl, rfl, ?_, by simp, ⟨[], .inl ⟨rfl, fun _ => rfl⟩, fun _ => rfl⟩,
      .live rfl⟩
    intro index
    exact .between (sequences index) (.inl rfl)
  matched := by
    intro state label after channel related admitted moved
    have alive : state.exited = false := related.alive
    simp only [system, next, alive, Bool.false_eq_true, if_false] at moved
    cases label with
    | send index count =>
      rcases send_matched fits related admitted moved with unseen | ⟨message, accepted⟩
      · exact .inl unseen
      · exact .inr ⟨.put (index, message), _, rfl, accepted⟩
    | recv count =>
      rcases recv_matched related admitted moved with unseen | ⟨item, rest, front, delivered⟩
      · exact .inl unseen
      · refine .inr ⟨.take, deliver channel item rest, ?_, delivered⟩
        simp [Fifo.system, Fifo.act, front, deliver]
    | cancel =>
      left
      cases moved
      exact cancel_matched related

end Dragonfly.QueueRuns
