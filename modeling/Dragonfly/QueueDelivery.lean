import Dragonfly.QueueRefinement

/-!
# What the queue delivers, and what the cancel leaves of it

Exact delivery says that the positive results merge initial parts of the sent
sequences and, once everything is quiet, the whole sequences. POSIX schedules do
not guarantee it: nothing in `msgqueue_recv` notices a short read, and nothing
keeps a long frame together. It holds of every run that neither tears a frame
nor reads short.

With atomic transfers the same channel carries a queue through a cancel. A call
found in front of its second load of the flag answers zero; a call found behind
that load still returns the whole next message.
-/

namespace Dragonfly.QueueRuns

open Msgqueue

variable {Index : Type} [DecidableEq Index] {sequences : Index → List (List Byte)}

/-- The data of the results that are positive, in the order in which the calls returned them. -/
def positives (results : List Received) : List (List Byte) :=
  (results.filter (fun received => decide (0 < received.n))).map Received.data

/-- Every message was sent, the pipe is drained and no call is open. -/
def Quiescent (state : State Index) : Prop :=
  (∀ index, state.senders index = ⟨[], none, 0⟩) ∧ state.pipe = [] ∧ state.receiver = none ∧
    state.cancel = false

/-- Each positive result is the bytes and the length of one sent message, no
message is returned twice or skipped, and each sender's order is kept. -/
structure ExactDelivery (sequences : Index → List (List Byte)) (state : State Index) : Prop where
  whole : ∀ received ∈ state.returned, 0 < received.n →
    received.n = received.data.length
  merged : MergesPrefixes sequences (positives state.returned)
  complete : Quiescent state → Merges sequences (positives state.returned)

/-- Reporting messages that are not empty gives positive results, whose data are the messages. -/
theorem positives_reported (messages : List (List Byte))
    (nonempty : ∀ message ∈ messages, message ≠ []) :
    positives (messages.map reported) = messages := by
  have kept : (messages.map reported).filter (fun received => decide (0 < received.n)) =
      messages.map reported := by
    rw [List.filter_eq_self]
    intro received member
    obtain ⟨message, listed, rfl⟩ := List.mem_map.mp member
    have positive := List.length_pos_iff.mpr (nonempty message listed)
    simpa [reported] using positive
  rw [positives, kept, List.map_map]
  exact List.map_id messages

/-- The results returned before a cancel are an initial part of what the channel
delivered. -/
theorem Reports.returned_initial {delivered returned late : List Received} {cancel : Bool}
    {receiver found : Option RecvPoint}
    (reports : Reports delivered receiver cancel returned late found) :
    returned <+: delivered := by
  cases reports with
  | live exact => exact ⟨_, exact⟩
  | finishing onward exact => exact ⟨_, exact⟩
  | @finished _ point _ _ answer idle answered refused =>
    cases point with
    | enter maxSize => exact answered.2 ▸ List.prefix_rfl
    | header maxSize l => exact answered.2 ▸ List.prefix_rfl
    | headerFailed maxSize l => exact answered.elim
    | between maxSize l => exact answered.2 ▸ List.prefix_rfl
    | payload maxSize l => exact ⟨[answer], answered⟩
    | payloadFailed maxSize l => exact answered.elim
    | test maxSize l received => exact ⟨[answer], answered⟩
  | unoccupied idle exact refused => exact exact ▸ List.prefix_rfl

omit [DecidableEq Index] in
/-- An initial part of the reported deliveries reports an initial part of the
deliveries. -/
theorem reported_initial {delivered : List (Index × List Byte)} {returned : List Received}
    (initial : returned <+: delivered.map (fun item => reported item.2)) :
    ∃ first, first <+: delivered ∧ returned = (first.map Prod.snd).map reported := by
  obtain ⟨count, rfl⟩ : ∃ count, returned =
      (delivered.map (fun item => reported item.2)).take count :=
    ⟨returned.length, List.prefix_iff_eq_take.mp initial⟩
  exact ⟨delivered.take count, List.take_prefix count delivered,
    by simp [List.map_take, Function.comp_def]⟩

/-- In every run whose transfers keep frames whole, delivery is exact. -/
theorem exact_of_represents {state : State Index} {channel : Fifo (Index × List Byte)}
    (nonempty : ∀ index, ∀ message ∈ sequences index, message ≠ [])
    (reached : (Fifo.system (Index × List Byte)).Reachable channel)
    (related : Represents sequences state channel) : ExactDelivery sequences state := by
  have accepted (index : Index) := (related.progress index).put_initial
  have sentNonempty (item : Index × List Byte) (member : item ∈ channel.accepted) :
      item.2 ≠ [] :=
    nonempty item.1 item.2 ((accepted item.1).subset (mem_items_of member))
  obtain ⟨first, initial, exact⟩ := reported_initial related.reports.returned_initial
  have firstNonempty : ∀ message ∈ first.map Prod.snd, message ≠ [] := by
    intro message member
    obtain ⟨item, listed, rfl⟩ := List.mem_map.mp member
    exact sentNonempty item ((Fifo.delivered_initial reached).subset (initial.subset listed))
  have messages : positives state.returned = first.map Prod.snd := by
    rw [exact, positives_reported _ firstNonempty]
  refine ⟨?_, messages ▸ Fifo.merges_prefixes reached accepted initial, ?_⟩
  · intro received member _
    rw [exact] at member
    obtain ⟨message, _, rfl⟩ := List.mem_map.mp member
    rfl
  · rintro ⟨finished, drained, outside, live⟩
    obtain ⟨tail, unwritten, position⟩ := related.aligned
    have vacant : tail = [] := by
      rcases unwritten with ⟨vacant, _⟩ | ⟨index, bytes, inside, _⟩
      · exact vacant
      · simp [finished index] at inside
    have waitingNone : channel.waiting = [] := by
      rw [outside] at position
      have stream := position live
      cases waiting : channel.waiting with
      | nil => rfl
      | cons item rest =>
        have length := congrArg List.length stream
        simp [drained, vacant, waiting] at length
        omega
    have deliveredAll : channel.delivered = channel.accepted := by
      simpa [waitingNone] using Fifo.conserved reached
    have allReturned : first = channel.delivered := by
      have reports := related.reports
      rw [outside, live] at reports
      generalize state.late = late at reports
      generalize state.cancelledAt = found at reports
      cases reports with
      | live same =>
        have lengths := congrArg List.length (exact.symm.trans (by simpa [held] using same))
        simp only [List.length_map] at lengths
        exact initial.eq_of_length lengths
    refine ⟨first, messages.symm, fun index => ?_⟩
    have progress := related.progress index
    rw [finished index] at progress
    have all : itemsOf index channel.accepted = sequences index := by
      cases progress with
      | between todo whole =>
        rcases whole with whole | skipped
        · simpa using whole
        · simp [live] at skipped
    rw [allReturned, deliveredAll, all]

/-- Every run on a POSIX schedule that tears no frame and reads nothing short
delivers exactly. -/
theorem exact_delivery (lengths : ∀ index, ∀ message ∈ sequences index,
      1 ≤ message.length ∧ message.length ≤ 32768) {state : State Index}
    (reached : (system sequences).Reaches
      (fun state label => PosixSchedule state label ∧ WholeTransfers state label) state) :
    ExactDelivery sequences state := by
  have fits : ∀ index, ∀ message ∈ sequences index, (message.length : Int) ≤ maxMessageSize := by
    intro index message member
    have bound := (lengths index message member).2
    unfold maxMessageSize
    omega
  have nonempty : ∀ index, ∀ message ∈ sequences index, message ≠ [] :=
    fun index message member => List.ne_nil_of_length_pos (lengths index message member).1
  have framed : (system sequences).Reaches FrameTransfers state := by
    apply reached.weaken
    rintro before (⟨index, count⟩ | ⟨count⟩ | _) ⟨_, whole⟩
    · exact whole
    · exact fun asked member => .inl (whole asked member)
    · trivial
  obtain ⟨channel, visited, related⟩ := (queue_simulates fits).reached framed
  exact exact_of_represents nonempty visited related

/-- Two senders, with a message of two bytes and one of a single byte. -/
def twoSenders : Bool → List (List Byte)
  | false => [[65, 66]]
  | true => [[67]]

/-- Exact delivery of the messages of two senders. Both are inside `msgqueue_send` at the same
time, the second one writes its frame first, and no read is short. -/
theorem exact_delivery_two_senders : ∃ state,
    state.returned = [⟨1, [67]⟩, ⟨2, [65, 66]⟩] ∧ ExactDelivery twoSenders state := by
  have run : ∃ state, (system twoSenders).follow
      [.send false 0, .send true 0, .send true 0, .send false 0, .send true 5, .recv 0,
        .send false 6, .recv 0, .recv 4, .recv 0, .recv 1, .recv 0,
        .recv 0, .recv 0, .recv 4, .recv 0, .recv 2, .recv 0]
      (initial twoSenders) = some state ∧ state.returned = [⟨1, [67]⟩, ⟨2, [65, 66]⟩] :=
    ⟨_, rfl, rfl⟩
  obtain ⟨state, completed, returned⟩ := run
  refine ⟨state, returned, exact_delivery (by simp [twoSenders]) ?_⟩
  exact (System.Reaches.initial rfl).followed _ state (by decide) completed

/-- One sender with one message of two bytes, for the run in which exact delivery fails. -/
def oneMessage : Unit → List (List Byte) := fun _ => [[65, 66]]

/-- Send the message in one piece and read its length; the receiver then stands
in front of its second load of the flag. -/
def sendAndReadHeader : List (Label Unit) :=
  [.send () 0, .send () 0, .send () 6, .recv 0, .recv 0, .recv 4]

/-- A POSIX schedule may split the read of a payload: the receiver then returns
one byte of a message of two. -/
theorem exact_delivery_fails :
    ¬ ∀ state, (system oneMessage).Reaches PosixSchedule state →
      ExactDelivery oneMessage state := by
  intro claimed
  have run : ∃ state, (system oneMessage).follow (sendAndReadHeader ++ [.recv 0, .recv 1, .recv 0])
      (initial oneMessage) = some state ∧ state.returned = [⟨1, [65]⟩] :=
    ⟨_, rfl, rfl⟩
  obtain ⟨state, completed, returned⟩ := run
  have delivered := claimed state
    ((System.Reaches.initial rfl).followed _ state (by decide) completed)
  have present : [65] ∈ positives state.returned := by
    rw [returned]
    decide
  obtain ⟨_, member⟩ := delivered.merged.member present
  simp [oneMessage] at member

end Dragonfly.QueueRuns
