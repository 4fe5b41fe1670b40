import Dragonfly.QueueDelivery

/-!
# The queue through a cancel

Every frame fits into `PIPE_BUF`, so the operating system writes it at once, and
a read returns the smaller of what it asked for and what the pipe holds. Then no
frame is ever partly written, and the queue is a channel whatever the order of
sends, receives and the cancel.

The two loads of the flag in `msgqueue_recv` are steps of their own. A cancel
between the two reads finds the call in front of the second load or behind it,
and only in front of it does the call answer zero.
-/

namespace Dragonfly.QueueRuns

open Msgqueue

variable {Index : Type} [DecidableEq Index] {sequences : Index → List (List Byte)}

/-- No sender has part of a frame in the pipe. -/
def Unsplit (state : State Index) : Prop := ∀ index, (state.senders index).written = 0

/-- Replacing a sender by one without bytes in the pipe splits nothing. -/
theorem Unsplit.replaced {state : State Index} (unsplit : Unsplit state) (index : Index)
    {sender : Sender} (cleared : sender.written = 0) :
    Unsplit (state.setSender index sender) := by
  intro other
  by_cases same : other = index
  · subst same
    simpa using cleared
  · simpa [set_sender_other state index other sender same] using unsplit other

/-- Continuing a sender behind one of its operations leaves no frame partly written, if none
was. -/
theorem Unsplit.continued {state : State Index} (unsplit : Unsplit state) (index : Index)
    (outcome : Outcome SendPoint Int) : Unsplit (state.sendTo index outcome) := by
  cases outcome with
  | goto point => exact unsplit.replaced index rfl
  | ret result => exact unsplit.replaced index rfl
  | exit => exact unsplit

/-- A sender whose `writev` moves all its bytes at once splits nothing. -/
theorem Unsplit.sent {state after : State Index} {index : Index} {count : Nat}
    (unsplit : Unsplit state) (atomic : AtomicTransfers state (.send index count))
    (moved : sendNext state index count = some after) : Unsplit after := by
  unfold sendNext at moved
  split at moved
  · split at moved
    · cases moved
    · exact Option.some.inj moved ▸ unsplit.replaced index rfl
  · rename_i point inside
    split at moved
    · exact Option.some.inj moved ▸ unsplit.continued index _
    · rename_i bytes resume operation
      have writes : bytes ∈ state.writes index := by
        cases point with
        | writev iov =>
          have same : iov = bytes := by
            simp only [msgqueueSend, Operation.writev.injEq] at operation
            exact operation.1
          simp [State.writes, inside, same]
        | enter buffer length => simp [msgqueueSend] at operation
        | writevFailed iov => simp [msgqueueSend] at operation
        | test iov n => simp [msgqueueSend] at operation
      have whole : (state.senders index).written + count = bytes.length := by
        rw [unsplit index, atomic bytes writes, Nat.zero_add]
      simp only [whole, if_true] at moved
      split at moved
      · refine Option.some.inj moved ▸ Unsplit.continued ?_ index _
        exact unsplit
      · cases moved
    · cases moved

omit [DecidableEq Index] in
/-- A step of the receiver leaves all senders where they are. -/
theorem recv_senders {state after : State Index} {count : Nat}
    (moved : recvNext state count = some after) : after.senders = state.senders := by
  have kept (state : State Index) (outcome : Outcome RecvPoint Received) :
      (state.recvTo outcome).senders = state.senders := by
    cases outcome with
    | goto point => rfl
    | ret received =>
      simp only [State.recvTo]
      split <;> rfl
    | exit => rfl
  unfold recvNext at moved
  split at moved
  · exact Option.some.inj moved ▸ rfl
  · split at moved
    · exact Option.some.inj moved ▸ kept state _
    · split at moved
      · exact Option.some.inj moved ▸ kept _ _
      · cases moved
    · cases moved

/-- With atomic transfers no frame is ever partly written, whichever thread takes the step. -/
theorem unsplit_step {state after : State Index} {label : Label Index}
    (unsplit : Unsplit state) (atomic : AtomicTransfers state label)
    (moved : next state label = some after) : Unsplit after := by
  unfold next at moved
  split at moved
  · cases moved
  · cases label with
    | send index count => exact unsplit.sent atomic moved
    | recv count =>
      intro index
      rw [recv_senders moved]
      exact unsplit index
    | cancel =>
      have same : cancelNext state = after := Option.some.inj moved
      subst same
      unfold cancelNext
      split <;> exact unsplit

/-- In a run of atomic transfers no frame is partly written, and all frames are kept whole. -/
theorem atomic_frames {state : State Index}
    (reached : (system sequences).Reaches AtomicTransfers state) :
    Unsplit state ∧ (system sequences).Reaches FrameTransfers state := by
  have started : ∀ state, (system sequences).start state → Unsplit state := by
    rintro state rfl index
    rfl
  have preserved : ∀ state label after, Unsplit state → AtomicTransfers state label →
      (system sequences).next state label = some after → Unsplit after :=
    fun state label after unsplit atomic moved => unsplit_step unsplit atomic moved
  refine ⟨reached.invariant Unsplit started preserved,
    reached.replace Unsplit started preserved ?_⟩
  rintro state (⟨index, count⟩ | ⟨count⟩ | _) unsplit atomic
  · exact fun _ other _ => unsplit other
  · exact fun asked member => .inr ⟨atomic asked member, unsplit⟩
  · trivial

/-! ## What holds through a cancel -/

/-- The results of the calls made after the cancel: the first late result belongs
to the call the cancel found, if it found one. -/
def laterCalls (state : State Index) : List Received :=
  match state.cancelledAt with
  | none => state.late
  | some _ => state.late.tail

/-- The cancel found a call at the point, and the call has given the answer. -/
def InterruptedAnswer (state : State Index) (point : RecvPoint) (answer : Received) : Prop :=
  state.cancelledAt = some point ∧ state.late.head? = some answer

/-- The part that does not depend on where between its reads a call is found:
calls made before the cancel start at a frame, the results before it merge
initial parts of the sequences, later calls are refused, and the process lives. -/
structure CancelSafety (sequences : Index → List (List Byte)) (state : State Index) : Prop where
  boundary : state.cancel = false → Idle state.receiver →
    ∃ messages, state.pipe = frames messages
  merged : ∃ messages, state.returned = messages.map reported ∧
    MergesPrefixes sequences messages
  refused : ∀ received ∈ laterCalls state, received.n = -1
  alive : state.exited = false

/-- A call the cancel finds anywhere between its two reads answers zero. -/
def ZeroBetweenReads (state : State Index) : Prop :=
  ∀ maxSize l answer, InterruptedAnswer state (.between maxSize l) answer ∨
    InterruptedAnswer state (.payload maxSize l) answer → answer = ⟨0, []⟩

/-- A call the cancel finds between its reads answers zero if it has yet to test
the flag, and otherwise the next message, whole. -/
structure AnsweredBetweenReads (sequences : Index → List (List Byte)) (state : State Index) :
    Prop where
  beforeTest : ∀ maxSize l answer,
    InterruptedAnswer state (.between maxSize l) answer → answer = ⟨0, []⟩
  afterTest : ∀ maxSize l answer, InterruptedAnswer state (.payload maxSize l) answer →
    ∃ messages message, state.returned = messages.map reported ∧ answer = reported message ∧
      MergesPrefixes sequences (messages ++ [message])

omit [DecidableEq Index] in
/-- Calls of `msgqueue_recv` that are made behind the cancel report nothing but that they are
refused. -/
theorem later_refused {delivered : List Received} {state : State Index}
    (reports : Reports delivered state.receiver state.cancel state.returned state.late
      state.cancelledAt) : ∀ received ∈ laterCalls state, received = ⟨-1, []⟩ := by
  unfold laterCalls
  generalize state.receiver = receiver at reports
  generalize state.cancel = cancel at reports
  generalize state.returned = returned at reports
  generalize state.late = late at reports ⊢
  generalize state.cancelledAt = found at reports ⊢
  cases reports with
  | live exact => simp
  | finishing onward exact => simp
  | finished idle answered refused => exact refused
  | unoccupied idle exact refused => exact refused

omit [DecidableEq Index] in
/-- The call the cancel interrupts answers as the point determines at which it stood then. -/
theorem interrupted_answered {delivered : List Received} {state : State Index}
    (reports : Reports delivered state.receiver state.cancel state.returned state.late
      state.cancelledAt) {point : RecvPoint} {answer : Received}
    (interrupted : InterruptedAnswer state point answer) :
    Answered delivered state.returned point answer := by
  obtain ⟨found, first⟩ := interrupted
  rw [found] at reports
  generalize state.receiver = receiver at reports
  generalize state.cancel = cancel at reports
  generalize state.late = late at reports first
  cases reports with
  | finishing onward exact => simp at first
  | finished idle answered refused =>
    have same := Option.some.inj first
    exact same ▸ answered

/-- Every interleaving of sends, receives and a cancel is safe, and a call found
between its reads answers zero in front of its test of the flag and the whole
next message behind it. -/
theorem cancel_safe (fits : ∀ index, ∀ message ∈ sequences index,
      (frame message).length ≤ pipeBuf) {state : State Index}
    (reached : (system sequences).Reaches AtomicTransfers state) :
    CancelSafety sequences state ∧ AnsweredBetweenReads sequences state := by
  have small : ∀ index, ∀ message ∈ sequences index,
      (message.length : Int) ≤ maxMessageSize := by
    intro index message member
    have bound := fits index message member
    rw [frame_length, pipeBuf] at bound
    unfold maxMessageSize
    omega
  obtain ⟨unsplit, framed⟩ := atomic_frames reached
  obtain ⟨channel, visited, related⟩ := (queue_simulates small).reached framed
  have accepted (index : Index) := (related.progress index).put_initial
  refine ⟨⟨?_, ?_, ?_, related.alive⟩, ⟨?_, ?_⟩⟩
  · intro live idle
    obtain ⟨tail, unwritten, position⟩ := related.aligned
    have vacant : tail = [] := by
      rcases unwritten with ⟨vacant, _⟩ | ⟨index, _, _, started, _⟩
      · exact vacant
      · exact absurd (unsplit index) (Nat.pos_iff_ne_zero.mp started)
    rw [vacant, List.append_nil] at position
    generalize state.receiver = receiver at position idle
    cases idle with
    | outside => exact ⟨_, position live⟩
    | entered maxSize => exact ⟨_, position.2 live⟩
  · obtain ⟨first, initial, exact⟩ := reported_initial related.reports.returned_initial
    exact ⟨first.map Prod.snd, exact, Fifo.merges_prefixes visited accepted initial⟩
  · intro received member
    rw [later_refused related.reports received member]
  · intro maxSize l answer interrupted
    exact (interrupted_answered related.reports interrupted).1
  · intro maxSize l answer interrupted
    have whole :
        state.returned ++ [answer] <+: channel.delivered.map (fun item => reported item.2) :=
      (interrupted_answered related.reports interrupted) ▸ List.prefix_rfl
    obtain ⟨first, initial, exact⟩ := reported_initial whole
    have merged := Fifo.merges_prefixes visited accepted initial
    generalize first.map Prod.snd = messages at exact merged
    obtain ⟨before, last, rfl, before_eq, last_eq⟩ := List.append_eq_map_iff.mp exact
    obtain ⟨message, rfl, same⟩ := List.map_eq_singleton_iff.mp last_eq
    exact ⟨before, message, before_eq.symm, same.symm, merged⟩

/-- The cancel comes in front of the second load of the flag; two later calls
follow. -/
theorem cancel_safe_before_test : ∃ state,
    state.cancelledAt = some (.between 32768 2) ∧ state.late = [⟨0, []⟩, ⟨-1, []⟩] ∧
      CancelSafety oneMessage state ∧ AnsweredBetweenReads oneMessage state := by
  have run : ∃ state, (system oneMessage).follow
      (sendAndReadHeader ++ [.cancel, .recv 0, .recv 0, .recv 0]) (initial oneMessage) =
        some state ∧ state.cancelledAt = some (.between 32768 2) ∧
          state.late = [⟨0, []⟩, ⟨-1, []⟩] :=
    ⟨_, rfl, rfl, rfl⟩
  obtain ⟨state, completed, found, late⟩ := run
  refine ⟨state, found, late, cancel_safe (by simp [oneMessage, pipeBuf]) ?_⟩
  exact (System.Reaches.initial rfl).followed _ state (by decide) completed

/-- A cancel between the two reads does not always make the call answer zero: it
may come when the flag was already loaded, and the whole message is returned. -/
theorem cancel_between_reads_returns_message :
    ¬ ∀ state, (system oneMessage).Reaches AtomicTransfers state →
      CancelSafety oneMessage state ∧ ZeroBetweenReads state := by
  intro claimed
  have run : ∃ state, (system oneMessage).follow
      (sendAndReadHeader ++ [.recv 0, .cancel, .recv 2, .recv 0]) (initial oneMessage) =
        some state ∧ state.cancelledAt = some (.payload 32768 2) ∧
          state.late = [⟨2, [65, 66]⟩] :=
    ⟨_, rfl, rfl, rfl⟩
  obtain ⟨state, completed, found, late⟩ := run
  have answered := (claimed state
    ((System.Reaches.initial rfl).followed _ state (by decide) completed)).2
  have zero := answered 32768 2 ⟨2, [65, 66]⟩ (.inr ⟨found, by rw [late]; rfl⟩)
  exact absurd zero (by decide)

end Dragonfly.QueueRuns
