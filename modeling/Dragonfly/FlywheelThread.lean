import Dragonfly.Flywheel
import Dragonfly.Transitions

/-!
# Runs of the flywheel thread on a tail

The thread opens its path, runs the loop and, when the loop returns, closes the
handle and opens the path again. Beside it files grow, are renamed and created,
and the engine may be stopped.

The state records where the first open left the descriptor, and the descriptor
with which the loop returned last. Both decide nothing: they only say what a run
has shown so far.
-/

namespace Dragonfly.FlywheelThread

open Tail Flywheel

/-- The files, `g_running`, the thread until it exits, what it put into the queue,
the first opening, and the descriptor with which the loop returned last. -/
structure State where
  fs : FileSystem
  running : Bool
  point : Option ThreadPoint
  enqueued : List (Piece Byte)
  opened : Option OpenFile
  left : Option OpenFile

/-- An operation of the thread, a write, or the end of the engine. -/
inductive Label where
  | step (now : Int)
  | append (inode : Inode) (bytes : List Byte)
  | rename (source target : Path)
  | create (path : Path) (inode : Inode)
  | stop

/-- The message a step of the thread puts into the queue. -/
def threadSending : ThreadPoint → List (Piece Byte)
  | .loop point => sending point
  | _ => []

/-- The descriptor that an `open` has left which just succeeded, told from the points in front
of and behind a step of the thread. -/
def newlyOpened : ThreadPoint → ThreadPoint → Option OpenFile
  | .opening _, .loop (.loop handle .test) => handle.fd
  | _, _ => none

/-- The descriptor with which the loop returns; the thread is about to close it. -/
def leaving : ThreadPoint → ThreadPoint → Option OpenFile
  | .loop _, .closing file => some file
  | _, _ => none

/-- One operation of the thread, with the clock at `now`. It records what was put into the
queue, the first descriptor, and the one the loop returned with. -/
def threadNext (path : Path) (state : State) (now : Int) : Option State :=
  match state.point with
  | none => none
  | some point =>
      let enqueued := state.enqueued ++ threadSending point
      match (luaFlywheelThread path point).perform state.fs state.running now with
      | .goto after =>
          some { state with
            point := some after
            enqueued := enqueued
            opened := state.opened.or (newlyOpened point after)
            left := (leaving point after).or state.left }
      | .ret _ => some { state with point := none, enqueued := enqueued }
      | .exit => none

/-- One step of the thread, or a change from outside: a file grows, is renamed or created, or
the engine is stopped. -/
def next (path : Path) (state : State) : Label → Option State
  | .step now => threadNext path state now
  | .append inode bytes => some { state with fs := state.fs.append inode bytes }
  | .rename source target => some { state with fs := state.fs.rename source target }
  | .create path inode => some { state with fs := state.fs.create path inode }
  | .stop => some { state with running := false }

/-- A thread that is about to begin on a file system: nothing is opened, and nothing was put
into the queue. -/
def initial (fs : FileSystem) : State where
  fs := fs
  running := true
  point := some .test
  enqueued := []
  opened := none
  left := none

/-- The runs of the flywheel thread whose URI names a path in a log directory. -/
def system (logdir path : Path) : System State Label where
  start state := ∃ fs, state = initial fs
  next := next (filePath logdir path)

/-- The messages put into the queue so far, and the one about to be put there. -/
def State.messages (state : State) : List (List Byte) :=
  (state.enqueued ++ state.point.elim [] threadSending).map Piece.items

/-- The descriptor of a running loop, be the loop inside its reader or not. -/
def State.standing (state : State) : Option OpenFile :=
  match state.point with
  | some (.loop (.loop handle _)) => handle.fd
  | some (.loop (.reading point)) => descriptor point
  | _ => none

/-- The steps of the thread alone, with the clock at each of them. -/
def ownSteps (clocks : Nat → Int) (index : Nat) : Label := .step (clocks index)

/-- A bound on the steps of a thread that is left alone with a file until it has read the file to
its end: as the loop counts it, and outside the loop more than any loop that is not idle needs. -/
def State.rank (target : Inode) (state : State) : Nat :=
  match state.point with
  | none => 0
  | some (.loop point) =>
      point.rank (state.fs.files target).length (state.standing.elim 0 OpenFile.offset)
  | some point => 8 * (state.fs.files target).length + 20 + point.pause

/-- The descriptor of the first opening stays recorded, whatever the thread does later. -/
theorem opened_kept {file : Path} {state after : State} {descriptor : OpenFile} {now : Int}
    (opened : state.opened = some descriptor) (moved : threadNext file state now = some after) :
    after.opened = some descriptor := by
  unfold threadNext at moved
  split at moved
  · cases moved
  · split at moved
    · exact Option.some.inj moved ▸ by simp [opened]
    · exact Option.some.inj moved ▸ opened
    · cases moved

/-- Every terminated line is nonempty, and every line is shorter than the buffer. -/
def PlainLines (text : List Byte) : Prop :=
  (linesOf newline text).Short maxBufferSize ∧ ∀ line ∈ (linesOf newline text).complete, line ≠ []

instance (text : List Byte) : Decidable (PlainLines text) :=
  inferInstanceAs (Decidable ((linesOf newline text).Short maxBufferSize ∧
    ∀ line ∈ (linesOf newline text).complete, line ≠ []))

/-- Plain lines that are cut somewhere begin with plain lines: an initial part of such a text is
one too. -/
theorem PlainLines.initial {first whole : List Byte} (plain : PlainLines whole)
    (initial : first <+: whole) : PlainLines first :=
  ⟨plain.1.initial initial,
    fun line listed => plain.2 line ((complete_initial newline initial).subset listed)⟩

/-- Plain lines are queued as they are: each complete line of the text is a message, and no line
is cut or skipped. -/
theorem PlainLines.queued {text : List Byte} (plain : PlainLines text) (base : Nat) :
    (queuedFor base (splitOf newline maxBufferSize text).pieces).map Piece.items =
      (linesOf newline text).complete := by
  rw [queued_short base plain.1]
  exact List.filter_eq_self.mpr (fun line listed => decide_eq_true (plain.2 line listed))

/-- Behind a descriptor there is no line without its newline. -/
def AtLineStart (fs : FileSystem) (descriptor : OpenFile) : Prop :=
  (linesOf newline ((fs.files descriptor.inode).drop descriptor.offset)).rest = []

instance (fs : FileSystem) (descriptor : OpenFile) : Decidable (AtLineStart fs descriptor) :=
  inferInstanceAs (Decidable (_ = []))

/-- A text whose lines are complete leaves nothing in the buffer. -/
theorem nothing_buffered {content : List Byte} {base : Nat} {pieces : List (Piece Byte)}
    {line : List Byte}
    (delivered : Delivered content maxBufferSize base content.length pieces line)
    (ended : (linesOf newline (content.drop base)).rest = []) : line = [] := by
  have buffered := @pending_exact Byte _ newline maxBufferSize (by decide) (content.drop base)
  have split := delivered.split
  rw [stretch, List.take_length] at split
  rw [split, ended] at buffered
  simpa using buffered

/-- The messages for what a reader has delivered of a content. -/
theorem messages_exact {content : List Byte} {base offset : Nat} {pieces : List (Piece Byte)}
    {line : List Byte} (delivered : Delivered content maxBufferSize base offset pieces line)
    (plain : PlainLines (content.drop base)) :
    (queuedFor base pieces).map Piece.items =
      (linesOf newline (stretch content base offset)).complete := by
  have behind : stretch content base offset <+: content.drop base :=
    stretch_prefix ..
  rw [← (plain.initial behind).queued base, delivered.split]

/-! ## The thread between two runs of the loop -/

/-- The thread is outside the loop, and has not been refused a file. -/
inductive Paused (fs : FileSystem) (file : Path) (accepted : OpenFile → Prop) (running : Bool) :
    Option ThreadPoint → Prop where
  | closing (descriptor : OpenFile) : Paused fs file accepted running (some (.closing descriptor))
  | test : Paused fs file accepted running (some .test)
  | opening (point : OpenPoint) (opening : Opening fs file accepted point) :
      Paused fs file accepted running (some (.opening point))
  | exited (halted : running = false) : Paused fs file accepted running none

/-- A paused thread stays so while its name leads to the same file and files only
grow. -/
theorem Paused.carried {fs after : FileSystem} {file : Path} {accepted accepted' : OpenFile → Prop}
    {running : Bool} {point : Option ThreadPoint} (paused : Paused fs file accepted running point)
    (names : after.names = fs.names) (grown : ∀ inode, fs.files inode <+: after.files inode)
    (implied : ∀ inode offset, offset ≤ (fs.files inode).length →
      accepted ⟨inode, offset⟩ → accepted' ⟨inode, offset⟩) :
    Paused after file accepted' running point := by
  cases paused with
  | closing descriptor => exact .closing descriptor
  | test => exact .test
  | opening point opening => exact .opening point (opening.carried names grown implied)
  | exited halted => exact .exited halted

/-- A paused thread stays one when the engine is stopped; it then does not begin another loop. -/
theorem Paused.stopped {fs : FileSystem} {file : Path} {accepted : OpenFile → Prop}
    {running : Bool} {point : Option ThreadPoint} (paused : Paused fs file accepted running point) :
    Paused fs file accepted false point := by
  cases paused with
  | closing descriptor => exact .closing descriptor
  | test => exact .test
  | opening point opening => exact .opening point opening
  | exited halted => exact .exited rfl

/-- A paused thread has nothing in hand, stands in no file, and has ended only
because the engine stopped. -/
theorem Paused.silent {file : Path} {accepted : OpenFile → Prop} {state : State}
    (paused : Paused state.fs file accepted state.running state.point) :
    state.messages = state.enqueued.map Piece.items ∧ state.standing = none ∧
      (state.point = none → state.running = false) := by
  generalize place : state.point = point at paused
  cases paused with
  | closing descriptor => simp [State.messages, State.standing, place, threadSending]
  | test => simp [State.messages, State.standing, place, threadSending]
  | opening point opening => simp [State.messages, State.standing, place, threadSending]
  | exited halted => simp [State.messages, State.standing, place, halted]

/-- What a step of a paused thread leads to: it stays outside the loop, finds no
file, or enters the loop where its seek left the descriptor. -/
inductive PausedProgress (file : Path) (accepted : OpenFile → Prop) (state : State) :
    ThreadPoint → State → Prop where
  | within (point : ThreadPoint) (after : Option ThreadPoint)
      (paused : Paused state.fs file accepted state.running after)
      (sooner : after.elim 0 ThreadPoint.pause < point.pause) :
      PausedProgress file accepted state point { state with point := after }
  | missing (absent : state.fs.names (openedAs file).1 = none) :
      PausedProgress file accepted state (.opening (.openFile file)) { state with point := none }
  | entered (inode : Inode) (offset : Nat)
      (leads : state.fs.names (openedAs file).1 = some inode)
      (within : offset ≤ (state.fs.files inode).length) (accept : accepted ⟨inode, offset⟩) :
      PausedProgress file accepted state (.opening (.setFlags ⟨inode, offset⟩))
        { state with
          point := some (.loop (.loop ⟨some ⟨inode, offset⟩, file.take pathMax⟩ .test))
          opened := state.opened.or (some ⟨inode, offset⟩) }

/-- A thread that enters the loop follows the file it opened. -/
theorem flies_entered {moved : Prop} {fs : FileSystem} {file : Path}
    (fits : file.length ≤ pathMax) {inode : Inode} {base offset : Nat}
    {pieces queued : List (Piece Byte)} (reports : queued = queuedFor base pieces)
    (delivered : Delivered (fs.files inode) maxBufferSize base offset pieces []) :
    Flies moved fs file inode base offset pieces [] queued
      (.loop ⟨some ⟨inode, offset⟩, file.take pathMax⟩ .test) := by
  rw [List.take_of_length_le fits, reports]
  exact .idle pieces .test (.inl rfl) delivered

/-- A paused thread that has not ended makes its next step, and such progress. -/
theorem paused_step {file : Path} {accepted : OpenFile → Prop} {state : State}
    {point : ThreadPoint} (place : state.point = some point)
    (paused : Paused state.fs file accepted state.running (some point))
    (sought : ∀ inode, point = .opening (.lseek ⟨inode, 0⟩ (openedAs file).2) →
      accepted (state.fs.seek ⟨inode, 0⟩ (openedAs file).2)) (now : Int) :
    ∃ after, threadNext file state now = some after ∧
      PausedProgress file accepted state point after := by
  simp only [threadNext, place]
  cases paused with
  | closing descriptor =>
    have progress : PausedProgress file accepted state (.closing descriptor)
        { state with point := some .test } := .within _ (some .test) .test (Nat.lt_succ_self 5)
    simpa [luaFlywheelThread, Operation.perform, FileSystem.perform, afterClose,
      dragonflyIoIsfile, threadSending, newlyOpened, leaving] using progress
  | test =>
    cases running : state.running with
    | false =>
      have progress : PausedProgress file accepted state .test { state with point := none } :=
        .within _ none (.exited running) (by decide : 0 < 5)
      simpa [luaFlywheelThread, Operation.perform, threadSending, running] using progress
    | true =>
      have progress : PausedProgress file accepted state .test
          { state with point := some (.opening (.openFile file)) } :=
        .within _ _ (.opening _ .openFile) (Nat.lt_succ_self 4)
      simpa [luaFlywheelThread, Operation.perform, threadSending, newlyOpened, leaving, running]
        using progress
  | opening point opening =>
    have progress := opening_step opening (fun inode same => sought inode (same ▸ rfl)) now
    simp only [luaFlywheelThread, Operation.perform, tailOpen, FileSystem.perform_call]
    generalize state.fs.perform now (tailOpenNonblockFile point) = outcome at progress
    cases progress with
    | within _ after opening sooner =>
      have progress : PausedProgress file accepted state (.opening point)
          { state with point := some (.opening after) } :=
        .within _ _ (.opening after opening) sooner
      exact ⟨_, rfl, by simpa [threadSending, newlyOpened, leaving] using progress⟩
    | missing absent =>
      exact ⟨_, rfl, by simpa [threadSending] using PausedProgress.missing absent⟩
    | opened inode offset leads within accept =>
      exact ⟨_, rfl, by simpa [threadSending, newlyOpened, leaving] using
        PausedProgress.entered inode offset leads within accept⟩

/-- Where a step of a paused thread leads, it makes such progress. -/
theorem paused_moved {file : Path} {accepted : OpenFile → Prop} {state after : State}
    {point : ThreadPoint} (place : state.point = some point)
    (paused : Paused state.fs file accepted state.running (some point))
    (sought : ∀ inode, point = .opening (.lseek ⟨inode, 0⟩ (openedAs file).2) →
      accepted (state.fs.seek ⟨inode, 0⟩ (openedAs file).2)) {now : Int}
    (moved : threadNext file state now = some after) :
    PausedProgress file accepted state point after := by
  obtain ⟨reached, stepped, progress⟩ := paused_step place paused sought now
  obtain rfl : reached = after := Option.some.inj (stepped.symm.trans moved)
  exact progress

/-- Each step of the thread outside its loop lowers the rank that counts the steps up to the
next loop. -/
theorem PausedProgress.lowers {file : Path} {accepted : OpenFile → Prop} {state after : State}
    {point : ThreadPoint} (place : state.point = some point)
    (progress : PausedProgress file accepted state point after)
    (paused : Paused state.fs file accepted state.running (some point))
    (named : state.fs.names (openedAs file).1 ≠ none) (target : Inode) :
    after.fs = state.fs ∧ after.running = state.running ∧ after.rank target < state.rank target := by
  have outside : state.rank target = 8 * (state.fs.files target).length + 20 + point.pause := by
    cases paused <;> simp only [State.rank, place]
  rw [outside]
  cases progress with
  | within _ after paused sooner =>
    refine ⟨rfl, rfl, ?_⟩
    cases paused with
    | exited halted =>
      simp only [State.rank]
      omega
    | _ => exact Nat.add_lt_add_left sooner _
  | missing absent => exact absurd absent named
  | entered inode offset leads within accept =>
    refine ⟨rfl, rfl, ?_⟩
    simp only [State.rank, FlywheelPoint.rank, FlywheelPoint.idles, Bool.false_eq_true, if_false,
      FlywheelPoint.delay]
    omega

/-! ## The thread inside the loop -/

/-- What a step of a thread that follows a file leads to: it stays on the file, or
the loop returns because the engine stops or the path leads nowhere, or the file
is about to be left for another one. -/
inductive FlyingProgress (moved : Prop) (file : Path) (target : Inode) (base offset : Nat)
    (queued : List (Piece Byte)) (state : State) : FlywheelPoint → State → Prop where
  | within (point after : FlywheelPoint) (reached : Nat) (pieces : List (Piece Byte))
      (line : List Byte)
      (flies : Flies moved state.fs file target base reached pieces line
        (queued ++ sending point) after)
      (nearer : Nearer moved (state.fs.files target).length offset reached point after) :
      FlyingProgress moved file target base offset queued state point
        { state with point := some (.loop after), enqueued := state.enqueued ++ sending point }
  | stopped (halted : state.running = false) :
      FlyingProgress moved file target base offset queued state
        (.loop ⟨some ⟨target, offset⟩, file⟩ .test)
        { state with point := some (.closing ⟨target, offset⟩), left := some ⟨target, offset⟩ }
  | refused (locals : Locals) (fdstat : Stat) (missing : state.fs.names file = none) :
      FlyingProgress moved file target base offset queued state
        (.reading (.stat file ⟨target, offset⟩ locals fdstat))
        { state with
          point := some (.closing ⟨target, offset⟩)
          left := some ⟨target, offset⟩ }
  | leaves (locals : Locals)
      (elsewhere : ∃ other, state.fs.names file = some other ∧ other ≠ target) :
      FlyingProgress moved file target base offset queued state
        (.reading (.close file ⟨target, offset⟩ locals))
        { state with
          point := some (.loop (.reading (.moved file locals (.openFile (fileSpec file))))) }

/-- A thread that follows a file makes its next step, and such progress. -/
theorem flying_step {moved : Prop} {file : Path} {target : Inode} {base offset : Nat}
    {pieces queued : List (Piece Byte)} {line : List Byte} {point : FlywheelPoint}
    {state : State} (place : state.point = some (.loop point))
    (flies : Flies moved state.fs file target base offset pieces line queued point) (now : Int) :
    ∃ after, threadNext file state now = some after ∧
      FlyingProgress moved file target base offset queued state point after := by
  have progress : FlywheelProgress moved state.fs state.running file target base offset queued
      point ((luaFlywheelLoopTail point).perform state.fs state.running now) := flies_step flies now
  simp only [threadNext, place, luaFlywheelThread, perform_call]
  generalize (luaFlywheelLoopTail point).perform state.fs state.running now = outcome at progress
  cases progress with
  | within _ after reached more rest kept nearer =>
    exact ⟨_, rfl, by simpa [threadSending, newlyOpened, leaving] using
      FlyingProgress.within point after reached more rest kept nearer⟩
  | stopped halted =>
    exact ⟨_, rfl, by simpa [threadSending, newlyOpened, leaving, sending] using
      FlyingProgress.stopped halted⟩
  | refused locals fdstat missing =>
    exact ⟨_, rfl, by simpa [threadSending, newlyOpened, leaving, sending] using
      FlyingProgress.refused locals fdstat missing⟩
  | leaves locals elsewhere =>
    exact ⟨_, rfl, by simpa [threadSending, newlyOpened, leaving, sending] using
      FlyingProgress.leaves locals elsewhere⟩

/-- Where a step of a thread that follows a file leads, it makes such progress. -/
theorem flying_moved {moved : Prop} {file : Path} {target : Inode} {base offset : Nat}
    {pieces queued : List (Piece Byte)} {line : List Byte} {point : FlywheelPoint}
    {state after : State} (place : state.point = some (.loop point))
    (flies : Flies moved state.fs file target base offset pieces line queued point) {now : Int}
    (stepped : threadNext file state now = some after) :
    FlyingProgress moved file target base offset queued state point after := by
  obtain ⟨reached, made, progress⟩ := flying_step place flies now
  obtain rfl : reached = after := Option.some.inj (made.symm.trans stepped)
  exact progress

/-- A thread in the loop has its message in hand and stands in its file. -/
theorem flying_position {moved : Prop} {fs : FileSystem} {file : Path} {target : Inode}
    {base offset : Nat} {pieces queued : List (Piece Byte)} {line : List Byte}
    {point : FlywheelPoint} {state : State} (place : state.point = some (.loop point))
    (flies : Flies moved fs file target base offset pieces line queued point) :
    state.messages = (state.enqueued ++ sending point).map Piece.items ∧
      state.standing = some ⟨target, offset⟩ := by
  have same := flies.standing
  cases point with
  | loop handle point =>
    constructor
    · simp [State.messages, place, threadSending]
    · simpa [State.standing, place] using same
  | reading point =>
    constructor
    · simp [State.messages, place, threadSending]
    · simpa [State.standing, place] using same

/-- The rank of a thread in the loop is that of its loop. -/
theorem flying_rank {target : Inode} {offset : Nat} {point : FlywheelPoint} {state : State}
    (place : state.point = some (.loop point))
    (standing : state.standing = some ⟨target, offset⟩) :
    state.rank target = point.rank (state.fs.files target).length offset := by
  simp only [State.rank, place, standing, Option.elim_some]

end Dragonfly.FlywheelThread
