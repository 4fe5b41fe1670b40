import Dragonfly.IpcOutput

/-!
# One call of `ipc_write_message`

The call sends until a `send` succeeds. A successful `send` leaves `errno` alone, but the
branch behind it looks at `errno` all the same: where an earlier call left `EIO`, the first
success is taken for an error, and the message is sent again on a new socket.
-/

namespace Dragonfly.DatagramSending

open Msgqueue Stages IpcOutput

/-- What the kernel answers: the results of `send` in a call, one after the other, and the
error number each `ipc_reopen` leaves, if it fails. -/
structure Kernel where
  answers : Nat → Answer Nat
  reopening : Nat → Option Errno

/-- `errno`, the results of `send` and the number of `ipc_reopen` so far, and the call. -/
structure State where
  errno : Option Errno
  sends : List (Answer Nat)
  reopens : Nat
  call : Activity WritePoint Int

/-- `errno` behind a `send`: a success leaves it as it is. -/
def errnoBehind (errno : Option Errno) : Answer Nat → Option Errno
  | .moved _ => errno
  | .failed error => some error

/-- Perform an operation of the call: `send` gets the kernel's next answer and leaves `errno` as
that answer does, and `ipc_reopen` is counted. -/
def State.perform (kernel : Kernel) (state : State) : IpcOperation WritePoint Int → State
  | .send _ resume =>
      let answer := kernel.answers state.sends.length
      let errno := errnoBehind state.errno answer
      { state with errno := errno, sends := state.sends ++ [answer],
                   call := .after (resume answer errno) }
  | .reopen resume =>
      { state with errno := (kernel.reopening state.reopens).or state.errno,
                   reopens := state.reopens + 1, call := .after resume }

/-- One step of the call. A call that returned stays as it is. -/
def step (kernel : Kernel) (state : State) : State :=
  match state.call with
  | .inside point => state.perform kernel (ipcWriteLoop point)
  | _ => state

/-- The call behind its entry, in front of its first `send` or already refused because of the
length. -/
def start (errno : Option Errno) (buffer : List Byte) : State :=
  ⟨errno, [], 0, .after (ipcWriteMessage buffer)⟩

/-- The call after some number of steps, where `errno` had a value before it. -/
def run (kernel : Kernel) (errno : Option Errno) (buffer : List Byte) (steps : Nat) : State :=
  (step kernel)^[steps] (start errno buffer)

/-- The counts of the sends that succeeded, in their order; the failed ones are left out. -/
def successes (sends : List (Answer Nat)) : List Nat :=
  sends.filterMap fun
    | .moved count => some count
    | .failed _ => none

/-- The errors after which the call tries again on the same socket: the socket was busy, timed
out or had no buffers. -/
def Transient (error : Errno) : Prop :=
  error = .etimedout ∨ error = enobufs ∨ error = .eagain ∨ error = einval

/-- A `send` succeeds with a positive count, or fails with an error that passes, and after
every failure one succeeds. -/
structure Kernel.Allowed (kernel : Kernel) : Prop where
  outcome : ∀ index, (∃ count, 0 < count ∧ kernel.answers index = .moved count) ∨
    ∃ error, Transient error ∧ kernel.answers index = .failed error
  eventually : ∀ index, ∃ later count, index ≤ later ∧ kernel.answers later = .moved count

/-- The call returns the count of its one successful `send`, and reopened the socket only
behind a `send` that returned zero or failed with `EIO`. -/
def SentOnce (kernel : Kernel) (errno : Option Errno) (buffer : List Byte) : Prop :=
  (∃ steps, ∃ count : Nat, (run kernel errno buffer steps).call = .outside count ∧
      successes (run kernel errno buffer steps).sends = [count]) ∧
    ∀ steps, 0 < (run kernel errno buffer steps).reopens →
      .moved 0 ∈ (run kernel errno buffer steps).sends ∨
        .failed eio ∈ (run kernel errno buffer steps).sends

section Calls

variable {kernel : Kernel} {state : State} {message : List Byte}

/-- A `send` that fails for a while is made again. -/
theorem step_failed {error : Errno} (sending : state.call = .inside (.send message))
    (transient : Transient error)
    (answered : kernel.answers state.sends.length = .failed error) :
    step kernel state = { state with
      errno := some error, sends := state.sends ++ [.failed error] } := by
  have again : error = .etimedout ∨ error = enobufs ∨ error = .eagain ∨ error = einval := transient
  simp [step, sending, State.perform, ipcWriteLoop, answered, errnoBehind, again, Activity.after]

/-- A `send` that succeeds ends the call, if `errno` is not `EIO` at that time. -/
theorem step_succeeded {count : Nat} (sending : state.call = .inside (.send message))
    (positive : 0 < count) (clear : state.errno ≠ some eio)
    (answered : kernel.answers state.sends.length = .moved count) :
    step kernel state = { state with
      sends := state.sends ++ [.moved count], call := .outside count } := by
  have done : ¬ (count = 0 ∨ state.errno = some eio) := by
    rintro (zero | stale)
    · omega
    · exact clear stale
  simp [step, sending, State.perform, ipcWriteLoop, answered, errnoBehind, done, Activity.after]

/-- A `send` that succeeds while `errno` is `EIO` makes the call reopen the socket, although
nothing has failed. -/
theorem step_stale {count : Nat} (sending : state.call = .inside (.send message))
    (stale : state.errno = some eio)
    (answered : kernel.answers state.sends.length = .moved count) :
    step kernel state = { state with
      sends := state.sends ++ [.moved count], call := .inside (.reopen message) } := by
  simp [step, sending, State.perform, ipcWriteLoop, answered, errnoBehind, stale, Activity.after]

/-- Behind `ipc_reopen` the call goes on at its `send`; the step counts as one more socket and
sends nothing. -/
theorem step_reopens (reopening : state.call = .inside (.reopen message)) :
    (step kernel state).reopens = state.reopens + 1 ∧
      (step kernel state).sends = state.sends := by
  simp [step, reopening, State.perform, ipcWriteLoop]

/-- The call sends or has returned, `errno` is not `EIO`, and the socket is the same. -/
structure Clear (message : List Byte) (state : State) : Prop where
  place : state.call = .inside (.send message) ∨ ∃ count, state.call = .outside count
  errno : state.errno ≠ some eio
  socket : state.reopens = 0

/-- An error after which the call tries again is not `EIO`, so it does not mislead the test
behind a success. -/
theorem transient_clear {error : Errno} (transient : Transient error) :
    some error ≠ some eio := by
  rintro same
  obtain rfl := Option.some.inj same
  rcases transient with never | never | never | never
  all_goals exact absurd never (by decide)

/-- A step of a call with a clear `errno` keeps it clear, and does not reach `ipc_reopen`. -/
theorem step_clear (allowed : kernel.Allowed) (clear : Clear message state) :
    Clear message (step kernel state) := by
  rcases clear.place with sending | ⟨result, returned⟩
  · rcases allowed.outcome state.sends.length with
      ⟨count, positive, answered⟩ | ⟨error, transient, answered⟩
    · rw [step_succeeded sending positive clear.errno answered]
      exact ⟨.inr ⟨count, rfl⟩, clear.errno, clear.socket⟩
    · rw [step_failed sending transient answered]
      exact ⟨.inl sending, transient_clear transient, clear.socket⟩
  · have stays : step kernel state = state := by simp [step, returned]
    rwa [stays]

/-- A call that began with a clear `errno` never reopens its socket, however many steps it
takes. -/
theorem clear_keeps_socket (allowed : kernel.Allowed) (clear : Clear message state) (steps : Nat) :
    ((step kernel)^[steps] state).reopens = 0 := by
  have kept : Clear message ((step kernel)^[steps] state) := by
    induction steps with
    | zero => exact clear
    | succ steps inductionHypothesis =>
      rw [Function.iterate_succ_apply']
      exact step_clear allowed inductionHypothesis
  exact kept.socket

/-- A success is on its way, so the call returns with the first one. The induction is on the
number of results up to the success. -/
theorem clear_returns (allowed : kernel.Allowed) (clear : Clear message state)
    (sending : state.call = .inside (.send message)) :
    ∃ steps, ∃ count : Nat, ((step kernel)^[steps] state).call = .outside count ∧
      successes ((step kernel)^[steps] state).sends = successes state.sends ++ [count] := by
  obtain ⟨later, found, reached, success⟩ := allowed.eventually state.sends.length
  obtain ⟨gap, rfl⟩ := Nat.exists_eq_add_of_le reached
  clear reached
  induction gap generalizing state with
  | zero =>
    rcases allowed.outcome state.sends.length with
      ⟨count, positive, answered⟩ | ⟨error, -, answered⟩
    · refine ⟨1, count, ?_⟩
      rw [Function.iterate_one, step_succeeded sending positive clear.errno answered]
      exact ⟨rfl, by simp [successes]⟩
    · rw [Nat.add_zero, answered] at success
      cases success
  | succ gap inductionHypothesis =>
    rcases allowed.outcome state.sends.length with
      ⟨count, positive, answered⟩ | ⟨error, transient, answered⟩
    · refine ⟨1, count, ?_⟩
      rw [Function.iterate_one, step_succeeded sending positive clear.errno answered]
      exact ⟨rfl, by simp [successes]⟩
    · have next := step_clear allowed clear
      have stepped := step_failed sending transient answered
      have ahead : (step kernel state).sends.length + gap = state.sends.length + (gap + 1) := by
        rw [stepped, List.length_append, List.length_singleton]
        omega
      obtain ⟨steps, count, returned, sent⟩ := inductionHypothesis next
        (by rw [stepped]; exact sending) (by rw [ahead]; exact success)
      refine ⟨steps + 1, count, returned, ?_⟩
      rw [Function.iterate_succ_apply, sent, stepped]
      simp [successes]

/-- The call of a message that `ipc_write_message` accepts begins with a `send`. -/
def Accepted (errno : Option Errno) (buffer message : List Byte) : Prop :=
  start errno buffer = ⟨errno, [], 0, .inside (.send message)⟩

variable {errno : Option Errno} {buffer : List Byte}

/-- If `errno` is not `EIO` before the call, the message is sent once. -/
theorem clear_sent_once (accepted : Accepted errno buffer message) (allowed : kernel.Allowed)
    (different : errno ≠ some eio) : SentOnce kernel errno buffer := by
  have entered : start errno buffer = ⟨errno, [], 0, .inside (.send message)⟩ := accepted
  have clear : Clear message ⟨errno, [], 0, .inside (.send message)⟩ :=
    ⟨.inl rfl, different, rfl⟩
  simp only [SentOnce, run, entered]
  refine ⟨clear_returns allowed clear rfl, fun steps reopened => ?_⟩
  rw [clear_keeps_socket allowed clear] at reopened
  exact absurd reopened (Nat.lt_irrefl 0)

/-- If the first `send` fails, `errno` is overwritten, and the message is sent once. -/
theorem failed_sent_once {error : Errno} (accepted : Accepted errno buffer message)
    (allowed : kernel.Allowed) (answered : kernel.answers 0 = .failed error) :
    SentOnce kernel errno buffer := by
  have entered : start errno buffer = ⟨errno, [], 0, .inside (.send message)⟩ := accepted
  have transient : Transient error := by
    rcases allowed.outcome 0 with ⟨count, -, success⟩ | ⟨other, transient, failure⟩
    · rw [answered] at success
      cases success
    · rw [answered] at failure
      rwa [Answer.failed.inj failure]
  have first := @step_failed kernel ⟨errno, [], 0, .inside (.send message)⟩ message error rfl
    transient answered
  have clear : Clear message ⟨some error, [.failed error], 0, .inside (.send message)⟩ :=
    ⟨.inl rfl, transient_clear transient, rfl⟩
  simp only [SentOnce, run, entered]
  constructor
  · obtain ⟨steps, count, returned, sent⟩ := clear_returns allowed clear rfl
    refine ⟨steps + 1, count, ?_⟩
    rw [Function.iterate_succ_apply, first]
    exact ⟨returned, sent⟩
  · intro steps reopened
    cases steps with
    | zero => exact absurd reopened (Nat.lt_irrefl 0)
    | succ steps =>
      rw [Function.iterate_succ_apply, first] at reopened
      have kept := clear_keeps_socket allowed clear steps
      exact absurd reopened (Nat.not_lt.mpr (Nat.le_of_eq kept))

/-- If `errno` is `EIO` and the first `send` succeeds, the socket is reopened without cause. -/
theorem stale_not_sent_once {count : Nat} (accepted : Accepted errno buffer message)
    (stale : errno = some eio) (positive : 0 < count) (answered : kernel.answers 0 = .moved count) :
    ¬ SentOnce kernel errno buffer := by
  have entered : start errno buffer = ⟨errno, [], 0, .inside (.send message)⟩ := accepted
  rintro ⟨-, reopened⟩
  have first := @step_stale kernel ⟨errno, [], 0, .inside (.send message)⟩ message count rfl
    stale answered
  obtain ⟨opened, sent⟩ := @step_reopens kernel
    ⟨errno, [.moved count], 0, .inside (.reopen message)⟩ message rfl
  have excused := reopened 2
  rw [run, entered, Function.iterate_succ_apply, Function.iterate_one, first] at excused
  simp only [List.nil_append, opened, sent, List.mem_singleton] at excused
  rcases excused Nat.one_pos with zero | failed
  · obtain rfl := Answer.moved.inj zero
    exact Nat.lt_irrefl 0 positive
  · cases failed

end Calls

/-- The message is sent once if `errno` is not `EIO` before the call or the first `send`
fails, which overwrites it; otherwise the socket is reopened behind the first success. -/
theorem sent_once_iff (kernel : Kernel) (errno : Option Errno) (message : List Byte)
    (allowed : kernel.Allowed) (nonempty : message ≠ []) (text : 0 ∉ message)
    (short : message.length < dfMaxBufferLen) :
    SentOnce kernel errno (message ++ [0]) ↔
      errno ≠ some eio ∨ ∃ error, kernel.answers 0 = .failed error := by
  have accepted : Accepted errno (message ++ [0]) message := by
    rw [Accepted, start, write_accepted ⟨nonempty, text, short.trans (by decide)⟩ short]
    rfl
  constructor
  · intro once
    by_cases stale : errno = some eio
    · rcases allowed.outcome 0 with ⟨count, positive, answered⟩ | ⟨error, -, answered⟩
      · exact absurd once (stale_not_sent_once accepted stale positive answered)
      · exact .inr ⟨error, answered⟩
    · exact .inl stale
  · rintro (different | ⟨error, answered⟩)
    · exact clear_sent_once accepted allowed different
    · exact failed_sent_once accepted allowed answered

/-- A kernel whose every `send` takes a message of one byte and whose every socket opens without
an error. -/
def accepting : Kernel := ⟨fun _ => .moved 1, fun _ => none⟩

/-- Such a kernel answers as the law asks: every `send` succeeds, and with a positive count. -/
theorem accepting_allowed : accepting.Allowed :=
  ⟨fun _ => .inl ⟨1, Nat.one_pos, rfl⟩, fun index => ⟨index, 1, Nat.le_refl index, rfl⟩⟩

/-- The law at work where an earlier call has left `ETIMEDOUT`, which the branch behind the
success does not take for `EIO`. -/
theorem sent_once_accepting : SentOnce accepting (some .etimedout) ([97] ++ [0]) :=
  (sent_once_iff accepting (some .etimedout) [97] accepting_allowed (by decide) (by decide)
    (by decide)).mpr (.inl (by decide))

/-- A call that finds `EIO` in `errno` sends the message a second time on another socket, and
goes on. -/
theorem stale_errno_sends_twice :
    (run accepting (some eio) [97, 0] 3).sends = [.moved 1, .moved 1] ∧
      (run accepting (some eio) [97, 0] 3).reopens = 1 ∧
      accepting.Allowed ∧ ¬ SentOnce accepting (some eio) [97, 0] := by
  have opened : (run accepting (some eio) [97, 0] 2).reopens = 1 ∧
      (run accepting (some eio) [97, 0] 2).sends = [.moved 1] := ⟨rfl, rfl⟩
  refine ⟨rfl, rfl, accepting_allowed, fun once => ?_⟩
  have excused := once.2 2
  rw [opened.1, opened.2] at excused
  rcases excused Nat.one_pos with zero | failed
  · simp at zero
  · simp at failed

end Dragonfly.DatagramSending
