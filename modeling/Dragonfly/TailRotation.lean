import Dragonfly.RotationCatchUp

/-!
# No line is lost in a rotation noticed in time

In every state of a run in which the rotation is noticed in time, the messages
are the lines of the old file up to where the thread stands, or all of them and
those of the new file up to where it stands; and a thread that is left alone
queues what is left. What is claimed is about lines that are neither empty nor
as long as the buffer.
-/

namespace Dragonfly.FlywheelThread

open Tail Flywheel

variable {logdir path : Path} {file : Path} {old new : Inode}

/-- A stopped thread on its way out has nothing in hand and stands in no file. -/
theorem Ending.silent {state : State} (ending : Ending state.point) :
    state.messages = state.enqueued.map Piece.items ∧ state.standing = none := by
  generalize place : state.point = point at ending
  cases ending with
  | closing descriptor => simp [State.messages, State.standing, place, threadSending]
  | test => simp [State.messages, State.standing, place, threadSending]
  | exited => simp [State.messages, State.standing, place]

/-- Where the messages are those for the old file, its lines up to the offset are read. -/
theorem old_read {state : State} {base offset : Nat} {pieces : List (Piece Byte)}
    {line : List Byte}
    (delivered : Delivered (state.fs.files old) maxBufferSize base offset pieces line)
    (plain : PlainLines ((state.fs.files old).drop base))
    (messages : state.messages = (queuedFor base pieces).map Piece.items)
    (stands : state.standing.or state.left = some ⟨old, offset⟩ ∨
      state.standing = none ∧ offset = (state.fs.files old).length) :
    ReadUpTo old new base state := by
  refine .inl ⟨offset, delivered.started, delivered.within, ?_, stands⟩
  rw [messages, messages_exact delivered plain]

/-- A thread that has left the old file at its end, and is not in the new one yet, has read all of
the old file. -/
theorem OldRead.all {state : State} {base : Nat} {pieces : List (Piece Byte)}
    (read : OldRead file old new base pieces state)
    (plain : PlainLines ((state.fs.files old).drop base))
    (messages : state.messages = (queuedFor base pieces).map Piece.items)
    (nowhere : state.standing = none) : ReadUpTo old new base state :=
  old_read read.whole plain messages (.inr ⟨nowhere, rfl⟩)

/-- What a phase of the rotation says of the messages. -/
theorem Phase.read {state : State} (phase : Phase file old new state) {base : Nat}
    (opened : state.opened = some ⟨old, base⟩)
    (plainOld : PlainLines ((state.fs.files old).drop base))
    (plainNew : PlainLines (state.fs.files new)) :
    ReadUpTo old new base state ∧ (state.point = none → state.running = false) := by
  have sameBase {other : Nat} (opened' : state.opened = some ⟨old, other⟩) : other = base := by
    simpa using opened'.symm.trans opened
  cases phase with
  | starting unopened => simp [unopened] at opened
  | refused unopened => simp [unopened] at opened
  | elsewhere descriptor opened' other =>
    rw [opened'] at opened
    exact absurd (congrArg OpenFile.inode (Option.some.inj opened)) other
  | old base' offset pieces line point reads =>
    obtain rfl := sameBase reads.opened
    obtain ⟨delivered, queued⟩ := reads.flies.delivered
    obtain ⟨messages, standing⟩ := flying_position reads.place reads.flies
    rw [queued] at messages
    refine ⟨old_read delivered plainOld messages (.inl ?_), by simp [reads.place]⟩
    rw [standing, Option.some_or]
  | between base' pieces between =>
    obtain rfl := sameBase between.read.opened
    obtain ⟨messages, standing, halted⟩ := between.paused.silent
    rw [between.queued] at messages
    exact ⟨between.read.all plainOld messages standing, halted⟩
  | moving base' pieces locals point moves =>
    obtain rfl := sameBase moves.read.opened
    have messages : state.messages = (queuedFor base' pieces).map Piece.items := by
      rw [← moves.queued]
      simp [State.messages, moves.place, threadSending, sending]
    have standing : state.standing = none := by simp [State.standing, moves.place, descriptor]
    exact ⟨moves.read.all plainOld messages standing, by simp [moves.place]⟩
  | new base' pieces offset more line later point reads =>
    obtain rfl := sameBase reads.read.opened
    obtain ⟨messages, standing⟩ := flying_position reads.place reads.flies
    refine ⟨.inr ⟨offset, reads.flies.delivered.1.within, reads.messages plainOld plainNew, ?_⟩,
      by simp [reads.place]⟩
    rw [standing, Option.some_or]
  | stoppedOld base' offset pieces stopped =>
    obtain rfl := sameBase stopped.opened
    obtain ⟨messages, standing⟩ := stopped.ending.silent
    rw [stopped.queued] at messages
    refine ⟨old_read stopped.delivered plainOld messages (.inl ?_), fun _ => stopped.halted⟩
    rw [standing, Option.none_or, stopped.left]
  | stoppedNew base' pieces offset more stopped =>
    obtain rfl := sameBase stopped.read.opened
    obtain ⟨messages, standing⟩ := stopped.ending.silent
    have plain : PlainLines ((state.fs.files new).drop 0) := plainNew
    refine ⟨.inr ⟨offset, stopped.delivered.within, ?_, ?_⟩, fun _ => stopped.halted⟩
    · rw [messages, stopped.queued, List.map_append, stopped.read.messages plainOld,
        messages_exact stopped.delivered plain]
      rfl
    · rw [standing, Option.none_or, stopped.left]

/-- A running thread that is left alone queues what is left of the files. -/
theorem Phase.completes
    (suffixFree : openedAs (filePath logdir path) = (filePath logdir path, .seekEnd))
    (fits : (filePath logdir path).length + 1 < pathMax) (distinct : new ≠ old) {state : State}
    (phase : Phase (filePath logdir path) old new state) {base : Nat}
    (opened : state.opened = some ⟨old, base⟩) (running : state.running = true)
    (plainOld : PlainLines ((state.fs.files old).drop base))
    (plainNew : PlainLines (state.fs.files new)) {clocks : Nat → Int}
    (advances : Advances clocks) :
    (system logdir path).Comes (InTime (filePath logdir path) old new)
      (AllQueued (filePath logdir path) old new base state.fs) (ownSteps clocks) state := by
  have sameBase {other : Nat} (opened' : state.opened = some ⟨old, other⟩) : other = base := by
    simpa using opened'.symm.trans opened
  have runs {halted : Prop} (stopped : state.running = false) : halted := by
    rw [running] at stopped
    cases stopped
  cases phase with
  | starting unopened => simp [unopened] at opened
  | refused unopened => simp [unopened] at opened
  | elsewhere descriptor opened' other =>
    rw [opened'] at opened
    exact absurd (congrArg OpenFile.inode (Option.some.inj opened)) other
  | old base' offset pieces line point reads =>
    obtain rfl := sameBase reads.opened
    exact reads.completes suffixFree fits distinct running plainOld plainNew advances
  | between base' pieces between =>
    obtain rfl := sameBase between.read.opened
    by_cases named : state.fs.names (filePath logdir path) = some new
    · exact Arriving.completes suffixFree fits (.between pieces between) running named plainOld
        plainNew clocks
    · -- The path leads nowhere, so all there is to queue is queued.
      refine System.Comes.there ⟨rfl, ?_⟩
      rw [if_neg named, List.append_nil, between.paused.silent.1, between.queued,
        between.read.messages plainOld]
  | moving base' pieces locals point moves =>
    obtain rfl := sameBase moves.read.opened
    exact Arriving.completes suffixFree fits (.moving pieces locals point moves) running
      moves.named plainOld plainNew clocks
  | new base' pieces offset more line later point reads =>
    obtain rfl := sameBase reads.read.opened
    exact Arriving.completes suffixFree fits (.new pieces offset more line later point reads)
      running reads.named plainOld plainNew clocks
  | stoppedOld base' offset pieces stopped => exact runs stopped.halted
  | stoppedNew base' pieces offset more stopped => exact runs stopped.halted

/-- When the rotation is noticed in time, the plain lines of the old file and then
those of the new one are queued, each once and in order. -/
theorem rotation_survived (suffixFree : SuffixFree (filePath logdir path))
    (fits : (filePath logdir path).length + 1 < pathMax) (distinct : new ≠ old) {state : State}
    (reached : (system logdir path).Reaches (InTime (filePath logdir path) old new) state)
    {base : Nat} (opened : state.opened = some ⟨old, base⟩)
    (plainOld : PlainLines ((state.fs.files old).drop base))
    (plainNew : PlainLines (state.fs.files new)) :
    BothRead (system logdir path) (InTime (filePath logdir path) old new) (filePath logdir path)
      old new base state := by
  have seeksEnd := opened_as_suffix_free suffixFree (file_path_length logdir path)
  have phase : Phase (filePath logdir path) old new state := by
    apply reached.invariant
    · rintro _ ⟨fs, rfl⟩
      exact .starting rfl rfl .test
    · exact fun _ _ _ phase admitted moved =>
        phase_step seeksEnd fits distinct phase admitted.1 admitted.2 moved
  obtain ⟨read, alive⟩ := phase.read opened plainOld plainNew
  refine ⟨read, alive, fun running clocks advances => ?_⟩
  exact phase.completes seeksEnd fits distinct opened running plainOld plainNew advances

/-- A file system with one file, `/x`, which has the given content; renaming and creating files
is left to the run. -/
def rotatedFile (content : List Byte) : FileSystem where
  names path := if path = [47, 120] then some 1 else none
  files inode := if inode = 1 then content else []

/-- The line `"a"` is read of the old file, which is renamed to `/y`; `/x` is created
with the line `"b"`, and found when inodes are compared. -/
theorem rotation_survived_two_lines : ∃ state, state.messages = [[97], [98]] ∧
    BothRead (system [47] [47, 120]) (InTime (filePath [47] [47, 120]) 1 2)
      (filePath [47] [47, 120]) 1 2 0 state := by
  have run : ∃ state, (system [47] [47, 120]).follow
      ([.step 0, .step 0, .step 0, .step 0, .step 0, .append 1 [97, 10],
        .step 0, .step 0, .step 0, .step 0, .step 0, .step 0, .step 0, .step 0,
        .rename [47, 120] [47, 121], .create [47, 120] 2, .append 2 [98, 10]] ++
        List.replicate 11 (.step 5))
      (initial (rotatedFile [])) = some state ∧ state.messages = [[97], [98]] ∧
      state.opened = some ⟨1, 0⟩ ∧ state.fs.files 1 = [97, 10] ∧ state.fs.files 2 = [98, 10] :=
    ⟨_, rfl, rfl, rfl, rfl, rfl⟩
  obtain ⟨state, completed, messages, opened, oldContent, newContent⟩ := run
  have started : (system [47] [47, 120]).start (initial (rotatedFile [])) := ⟨_, rfl⟩
  have reached : (system [47] [47, 120]).Reaches (InTime (filePath [47] [47, 120]) 1 2) state :=
    (System.Reaches.initial started).followed _ state (by decide) completed
  have plainOld : PlainLines ((state.fs.files 1).drop 0) := by
    rw [oldContent]
    decide
  have plainNew : PlainLines (state.fs.files 2) := by
    rw [newContent]
    decide
  exact ⟨state, messages, rotation_survived (by decide) (by decide) (by decide) reached opened
    plainOld plainNew⟩

/-- The line `"a"` is appended to the old file between the reader's end of the file
and its comparison of inodes, in front of the rename: it is never queued. -/
theorem rotation_loses_line :
    ¬ ∀ state, (system [47] [47, 120]).Reaches (RotatedOnce (filePath [47] [47, 120]) 1 2) state →
      state.opened = some ⟨1, 0⟩ → PlainLines (state.fs.files 1) → PlainLines (state.fs.files 2) →
        BothRead (system [47] [47, 120]) (RotatedOnce (filePath [47] [47, 120]) 1 2)
          (filePath [47] [47, 120]) 1 2 0 state := by
  intro claimed
  have run : ∃ state, (system [47] [47, 120]).follow
      ([.step 0, .step 0, .step 0, .step 0, .step 0, .step 0, .step 0, .step 0,
        .append 1 [97, 10], .rename [47, 120] [47, 121], .create [47, 120] 2,
        .append 2 [98, 10]] ++ List.replicate 10 (.step 5))
      (initial (rotatedFile [])) = some state ∧ state.messages = [[98]] ∧
      state.opened = some ⟨1, 0⟩ ∧ state.fs.files 1 = [97, 10] ∧ state.fs.files 2 = [98, 10] :=
    ⟨_, rfl, rfl, rfl, rfl, rfl⟩
  obtain ⟨state, completed, messages, opened, oldContent, newContent⟩ := run
  have started : (system [47] [47, 120]).start (initial (rotatedFile [])) := ⟨_, rfl⟩
  have reached : (system [47] [47, 120]).Reaches (RotatedOnce (filePath [47] [47, 120]) 1 2) state :=
    (System.Reaches.initial started).followed _ state (by decide) completed
  have plainOld : PlainLines (state.fs.files 1) := by
    rw [oldContent]
    decide
  have plainNew : PlainLines (state.fs.files 2) := by
    rw [newContent]
    decide
  rcases (claimed state reached opened plainOld plainNew).delivered with
    ⟨offset, _, _, exact, _⟩ | ⟨offset, _, exact, _⟩
  · have behind : stretch (state.fs.files 1) 0 offset <+: state.fs.files 1 := List.take_prefix _ _
    have read := complete_initial newline behind
    rw [← exact, messages, oldContent] at read
    exact absurd read (by decide)
  · rw [messages, oldContent] at exact
    have head := congrArg List.head? exact
    simp [linesOf, Lines.push, newline] at head

end Dragonfly.FlywheelThread
