import Dragonfly.FlywheelThread

/-!
# Rotation by rename

The writer appends complete lines under a path, renames the file once and later
creates a new one under the path. The reader learns of it only by comparing
inodes at an end of the file, five seconds after it last did. Between the rename
and the creation the comparison finds no file: the loop returns, and the thread
opens the path again, in vain or at the end of the new file. And a comparison
that finds the new file leaves the old one, with whatever was appended to it
since the reader met its end.

No line is lost while every comparison made after the rename finds the old file
read to its end, and every open that follows one finds the new file still empty.
-/

namespace Dragonfly.FlywheelThread

open Tail Flywheel

variable {file : Path} {old new : Inode}

/-- The bytes are complete lines, the last of which ends with a newline; no bytes are none of
them. -/
def CompleteLines (bytes : List Byte) : Prop :=
  bytes = [] ∨ bytes.getLast? = some newline

/-- The writer appends complete lines to the file under the path; once the thread
follows the old file, it renames it and creates the new one. -/
def RotatedOnce (file : Path) (old new : Inode) (state : State) : Label → Prop
  | .step _ => True
  | .append inode bytes => state.fs.names file = some inode ∧ CompleteLines bytes
  | .rename source target => source = file ∧ target ≠ file ∧ state.fs.names file = some old ∧
      state.opened.map OpenFile.inode = some old
  | .create name inode => name = file ∧ inode = new ∧ state.fs.names file = none ∧
      state.opened.map OpenFile.inode = some old
  | .stop => True

/-- A comparison of inodes finds the old file under its path or read to its end; an
open after the first one finds a file, and finds it empty. -/
def RotationNoticedAt (old : Inode) (state : State) : Option ThreadPoint → Prop
  | some (.loop (.reading (.stat file descriptor _ _))) => descriptor.inode = old →
      state.fs.names file = some old ∨ descriptor.offset = (state.fs.files old).length
  | some (.opening (.openFile file)) => state.opened ≠ none →
      state.fs.names (openedAs file).1 ≠ none
  | some (.opening (.lseek descriptor whence)) => state.opened ≠ none →
      (state.fs.seek descriptor whence).offset = 0
  | _ => True

/-- Each step of the thread notices the rotation in time. -/
def RotationNoticed (old : Inode) (state : State) : Label → Prop
  | .step _ => RotationNoticedAt old state state.point
  | _ => True

/-- The steps of a run in which the file is rotated once and the thread notices it in time. -/
def InTime (file : Path) (old new : Inode) (state : State) (label : Label) : Prop :=
  RotatedOnce file old new state label ∧ RotationNoticed old state label

instance (bytes : List Byte) : Decidable (CompleteLines bytes) :=
  inferInstanceAs (Decidable (bytes = [] ∨ bytes.getLast? = some newline))

instance (file : Path) (old new : Inode) (state : State) (label : Label) :
    Decidable (RotatedOnce file old new state label) :=
  match label with
  | .step _ => .isTrue trivial
  | .append inode bytes => inferInstanceAs (Decidable
      (state.fs.names file = some inode ∧ CompleteLines bytes))
  | .rename source target => inferInstanceAs (Decidable
      (source = file ∧ target ≠ file ∧ state.fs.names file = some old ∧
        state.opened.map OpenFile.inode = some old))
  | .create name inode => inferInstanceAs (Decidable
      (name = file ∧ inode = new ∧ state.fs.names file = none ∧
        state.opened.map OpenFile.inode = some old))
  | .stop => .isTrue trivial

instance (old : Inode) (state : State) (point : Option ThreadPoint) :
    Decidable (RotationNoticedAt old state point) :=
  match point with
  | some (.loop (.reading (.stat file descriptor _ _))) => inferInstanceAs (Decidable
      (descriptor.inode = old → state.fs.names file = some old ∨
        descriptor.offset = (state.fs.files old).length))
  | some (.opening (.openFile file)) => inferInstanceAs (Decidable
      (state.opened ≠ none → state.fs.names (openedAs file).1 ≠ none))
  | some (.opening (.lseek descriptor whence)) => inferInstanceAs (Decidable
      (state.opened ≠ none → (state.fs.seek descriptor whence).offset = 0))
  | some (.opening (.getFlags _)) => .isTrue trivial
  | some (.opening (.setFlags _)) => .isTrue trivial
  | some (.opening (.close _)) => .isTrue trivial
  | some (.loop (.loop _ _)) => .isTrue trivial
  | some (.loop (.reading (.enter _))) => .isTrue trivial
  | some (.loop (.reading (.reopen _ _ _))) => .isTrue trivial
  | some (.loop (.reading (.read _ _ _))) => .isTrue trivial
  | some (.loop (.reading (.fstat _ _ _))) => .isTrue trivial
  | some (.loop (.reading (.lseek _ _ _ _))) => .isTrue trivial
  | some (.loop (.reading (.clock _ _ _ _))) => .isTrue trivial
  | some (.loop (.reading (.close _ _ _))) => .isTrue trivial
  | some (.loop (.reading (.moved _ _ _))) => .isTrue trivial
  | some .test => .isTrue trivial
  | some (.closing _) => .isTrue trivial
  | none => .isTrue trivial

instance (old : Inode) (state : State) (label : Label) :
    Decidable (RotationNoticed old state label) :=
  match label with
  | .step _ => inferInstanceAs (Decidable (RotationNoticedAt old state state.point))
  | .append _ _ => .isTrue trivial
  | .rename _ _ => .isTrue trivial
  | .create _ _ => .isTrue trivial
  | .stop => .isTrue trivial

instance (file : Path) (old new : Inode) (state : State) (label : Label) :
    Decidable (InTime file old new state label) :=
  inferInstanceAs (Decidable (_ ∧ _))

/-- The clock goes on: it shows every time, or a later one, from some step on. -/
def Advances (clocks : Nat → Int) : Prop :=
  ∀ time, ∃ index, ∀ later, index ≤ later → time ≤ clocks later

/-- The messages are the lines of the old file from the opening offset to the descriptor of the
thread (or to where its last loop left the file, or to the end of a file the thread has left), or
all of them and those of the new file up to the descriptor, each once and in order. -/
def ReadUpTo (old new : Inode) (base : Nat) (state : State) : Prop :=
  (∃ offset, base ≤ offset ∧ offset ≤ (state.fs.files old).length ∧
      state.messages = (linesOf newline (stretch (state.fs.files old) base offset)).complete ∧
      (state.standing.or state.left = some ⟨old, offset⟩ ∨
        state.standing = none ∧ offset = (state.fs.files old).length)) ∨
    ∃ offset, offset ≤ (state.fs.files new).length ∧
      state.messages = (linesOf newline ((state.fs.files old).drop base)).complete ++
        (linesOf newline ((state.fs.files new).take offset)).complete ∧
      state.standing.or state.left = some ⟨new, offset⟩

/-- The files are as they were, and the messages are all lines of the old file from the opening
offset and, where the new file is under the path, all of its lines. -/
def AllQueued (file : Path) (old new : Inode) (base : Nat) (fs : FileSystem) (state : State) :
    Prop :=
  state.fs = fs ∧ state.messages = (linesOf newline ((fs.files old).drop base)).complete ++
    if fs.names file = some new then (linesOf newline (fs.files new)).complete else []

/-- Both files are read up to where the thread stands. It goes on until it is stopped; and a running
thread that is left alone while the clock goes on queues all that is left of them, unless its run
leaves the guard. -/
structure BothRead (runs : System State Label) (guard : State → Label → Prop) (file : Path)
    (old new : Inode) (base : Nat) (state : State) : Prop where
  delivered : ReadUpTo old new base state
  alive : state.point = none → state.running = false
  progresses : state.running = true → ∀ clocks, Advances clocks →
    runs.Comes guard (AllQueued file old new base state.fs) (ownSteps clocks) state

/-! ## The writer -/

/-- What one write of the rotation does to the files. -/
inductive Written (file : Path) (old new : Inode) (fs : FileSystem) : FileSystem → Prop where
  | append (inode : Inode) (bytes : List Byte) (named : fs.names file = some inode)
      (complete : CompleteLines bytes) : Written file old new fs (fs.append inode bytes)
  | rename (target : Path) (elsewhere : target ≠ file) (named : fs.names file = some old) :
      Written file old new fs (fs.rename file target)
  | create (missing : fs.names file = none) : Written file old new fs (fs.create file new)

/-- The path leads to the old file, nowhere, or to the new one. -/
def Rotating (file : Path) (old new : Inode) (fs : FileSystem) : Prop :=
  fs.names file = some old ∨ fs.names file = none ∨ fs.names file = some new

/-- The path has left the old file: it leads nowhere, or to the new file. -/
def Renamed (file : Path) (new : Inode) (fs : FileSystem) : Prop :=
  fs.names file = none ∨ fs.names file = some new

/-- Appending complete lines completes the lines of a text that ends with one. -/
theorem complete_lines_appended {text bytes : List Byte}
    (ended : (linesOf newline text).rest = []) (complete : CompleteLines bytes) :
    (linesOf newline (text ++ bytes)).rest = [] := by
  rcases complete with rfl | last
  · rwa [List.append_nil]
  · obtain ⟨earlier, rfl⟩ := List.getLast?_eq_some_iff.mp last
    rw [← List.append_assoc, lines_of_separator]

/-- The writer makes the old file only longer, and what it held before is still there in front. -/
theorem Written.old_grown (distinct : new ≠ old) {fs after : FileSystem}
    (written : Written file old new fs after) : fs.files old <+: after.files old := by
  cases written with
  | append inode bytes named complete => exact fs.append_grown inode bytes old
  | rename target elsewhere named => exact List.prefix_rfl
  | create missing => simp [FileSystem.create, distinct.symm]

/-- The new file only grows once it is under the path. -/
theorem Written.new_grown (distinct : new ≠ old) {fs after : FileSystem}
    (written : Written file old new fs after) (named : fs.names file = some new) :
    fs.files new <+: after.files new ∧ after.names file = some new := by
  cases written with
  | append inode bytes same complete => exact ⟨fs.append_grown inode bytes new, named⟩
  | rename target elsewhere same =>
    rw [named] at same
    exact absurd (Option.some.inj same) distinct
  | create missing =>
    rw [named] at missing
    cases missing

/-- The old file is left alone once the path has left it. -/
theorem Written.old_kept (distinct : new ≠ old) {fs after : FileSystem}
    (written : Written file old new fs after) (left : fs.names file ≠ some old) :
    after.files old = fs.files old := by
  cases written with
  | append inode bytes named complete =>
    have other : old ≠ inode := by
      rintro rfl
      exact left named
    exact fs.append_other bytes other
  | rename target elsewhere named => exact absurd named left
  | create missing => simp [FileSystem.create, distinct.symm]

/-- A path that leads to another file keeps leading there. -/
theorem Written.other_kept {fs after : FileSystem} (written : Written file old new fs after)
    (other : Inode) (different : other ≠ old) (named : fs.names file = some other) :
    after.names file = some other := by
  cases written with
  | append inode bytes same complete => exact named
  | rename target elsewhere same =>
    rw [named] at same
    exact absurd (Option.some.inj same) different
  | create missing =>
    rw [named] at missing
    cases missing

/-- Where the path leads stays within the rotation: to the old file, then nowhere, then to the
new file. -/
theorem Written.rotating {fs after : FileSystem} (written : Written file old new fs after)
    (rotating : Rotating file old new fs) : Rotating file old new after := by
  cases written with
  | append inode bytes named complete => exact rotating
  | rename target elsewhere named => exact .inr (.inl (by simp [FileSystem.rename]))
  | create missing => exact .inr (.inr (by simp [FileSystem.create]))

/-- A path that has left the old file does not return to it. -/
theorem Written.renamed (distinct : new ≠ old) {fs after : FileSystem}
    (written : Written file old new fs after) (renamed : Renamed file new fs) :
    Renamed file new after := by
  cases written with
  | append inode bytes named complete => exact renamed
  | rename target elsewhere named =>
    rcases renamed with missing | same
    · simp [missing] at named
    · rw [same] at named
      exact absurd (Option.some.inj named) distinct
  | create missing => exact .inr (by simp [FileSystem.create])

/-- If the old file ends with a complete line, then it does so behind everything the writer
does. -/
theorem Written.ended {fs after : FileSystem} (distinct : new ≠ old) {base : Nat}
    (written : Written file old new fs after) (within : base ≤ (fs.files old).length)
    (ended : (linesOf newline ((fs.files old).drop base)).rest = []) :
    (linesOf newline ((after.files old).drop base)).rest = [] := by
  cases written with
  | append inode bytes named complete =>
    by_cases same : old = inode
    · subst same
      rw [FileSystem.append_own, List.drop_append_of_le_length within]
      exact complete_lines_appended ended complete
    · rw [fs.append_other bytes same]
      exact ended
  | rename target elsewhere named => exact ended
  | create missing =>
    have kept : (fs.create file new).files old = fs.files old := by
      simp [FileSystem.create, distinct.symm]
    rw [kept]
    exact ended

/-- A path that has left the old file leads to no other but the new one. -/
theorem Renamed.left (distinct : new ≠ old) {fs : FileSystem} (renamed : Renamed file new fs) :
    fs.names file ≠ some old := by
  rcases renamed with missing | named
  · simp [missing]
  · rw [named]
    exact fun same => distinct (Option.some.inj same)

/-! ## The thread through a rotation -/

/-- The old file has been read to its end, and its path has left it. -/
structure OldRead (file : Path) (old new : Inode) (base : Nat) (pieces : List (Piece Byte))
    (state : State) : Prop where
  opened : state.opened = some ⟨old, base⟩
  renamed : Renamed file new state.fs
  whole : Delivered (state.fs.files old) maxBufferSize base (state.fs.files old).length pieces []

/-- A thread that was stopped goes on to its exit. -/
inductive Ending : Option ThreadPoint → Prop where
  | closing (descriptor : OpenFile) : Ending (some (.closing descriptor))
  | test : Ending (some .test)
  | exited : Ending none

/-- The thread follows the old file, and is about to close it only at its end. -/
structure ReadsOld (file : Path) (old new : Inode) (base offset : Nat) (pieces : List (Piece Byte))
    (line : List Byte) (point : FlywheelPoint) (state : State) : Prop where
  opened : state.opened = some ⟨old, base⟩
  rotating : Rotating file old new state.fs
  ended : AtLineStart state.fs ⟨old, base⟩
  place : state.point = some (.loop point)
  flies : Flies False state.fs file old base offset pieces line state.enqueued point
  leaving : point.closes → offset = (state.fs.files old).length

/-- The loop returned at the end of the old file, and the thread is on its way to the new one. -/
structure Between (file : Path) (old new : Inode) (base : Nat) (pieces : List (Piece Byte))
    (state : State) : Prop where
  read : OldRead file old new base pieces state
  queued : state.enqueued = queuedFor base pieces
  left : state.left = some ⟨old, (state.fs.files old).length⟩
  paused : Paused state.fs file (fun descriptor => descriptor.offset = 0) state.running state.point

/-- The reader closed the old file at its end and opens the new one. -/
structure Moves (file : Path) (old new : Inode) (base : Nat) (pieces : List (Piece Byte))
    (locals : Locals) (point : OpenPoint) (state : State) : Prop where
  read : OldRead file old new base pieces state
  queued : state.enqueued = queuedFor base pieces
  named : state.fs.names file = some new
  place : state.point = some (.loop (.reading (.moved file locals point)))
  opening : Opening state.fs (fileSpec file) (fun descriptor => descriptor.offset = 0) point

/-- The thread follows the new file from its start, behind the messages of the old file. -/
structure ReadsNew (file : Path) (old new : Inode) (base : Nat) (pieces : List (Piece Byte))
    (offset : Nat) (more : List (Piece Byte)) (line : List Byte) (later : List (Piece Byte))
    (point : FlywheelPoint) (state : State) : Prop where
  read : OldRead file old new base pieces state
  queued : state.enqueued = queuedFor base pieces ++ later
  named : state.fs.names file = some new
  place : state.point = some (.loop point)
  flies : Flies True state.fs file new 0 offset more line later point

/-- The thread was stopped while it was in the old file, and is on its way out. -/
structure StoppedOld (old : Inode) (base offset : Nat) (pieces : List (Piece Byte))
    (state : State) : Prop where
  opened : state.opened = some ⟨old, base⟩
  halted : state.running = false
  ending : Ending state.point
  left : state.left = some ⟨old, offset⟩
  delivered : Delivered (state.fs.files old) maxBufferSize base offset pieces []
  queued : state.enqueued = queuedFor base pieces

/-- The thread was stopped while it was in the new file, and is on its way out. -/
structure StoppedNew (file : Path) (old new : Inode) (base : Nat) (pieces : List (Piece Byte))
    (offset : Nat) (more : List (Piece Byte)) (state : State) : Prop where
  read : OldRead file old new base pieces state
  named : state.fs.names file = some new
  halted : state.running = false
  ending : Ending state.point
  left : state.left = some ⟨new, offset⟩
  delivered : Delivered (state.fs.files new) maxBufferSize 0 offset more []
  queued : state.enqueued = queuedFor base pieces ++ queuedFor 0 more

/-- The states of a thread through a rotation that it notices in time. -/
inductive Phase (file : Path) (old new : Inode) (state : State) : Prop where
  | starting (unopened : state.opened = none) (empty : state.enqueued = [])
      (paused : Paused state.fs file (AtLineStart state.fs) state.running state.point)
  | refused (unopened : state.opened = none) (ended : state.point = none)
  | elsewhere (descriptor : OpenFile) (opened : state.opened = some descriptor)
      (other : descriptor.inode ≠ old)
  | old (base offset : Nat) (pieces : List (Piece Byte)) (line : List Byte) (point : FlywheelPoint)
      (reads : ReadsOld file old new base offset pieces line point state)
  | between (base : Nat) (pieces : List (Piece Byte))
      (between : Between file old new base pieces state)
  | moving (base : Nat) (pieces : List (Piece Byte)) (locals : Locals) (point : OpenPoint)
      (moves : Moves file old new base pieces locals point state)
  | new (base : Nat) (pieces : List (Piece Byte)) (offset : Nat) (more : List (Piece Byte))
      (line : List Byte) (later : List (Piece Byte)) (point : FlywheelPoint)
      (reads : ReadsNew file old new base pieces offset more line later point state)
  | stoppedOld (base offset : Nat) (pieces : List (Piece Byte))
      (stopped : StoppedOld old base offset pieces state)
  | stoppedNew (base : Nat) (pieces : List (Piece Byte)) (offset : Nat) (more : List (Piece Byte))
      (stopped : StoppedNew file old new base pieces offset more state)

/-! ## Writes during the phases -/

/-- A write leaves what was read of the old file as it is. -/
theorem OldRead.written (distinct : new ≠ old) {base : Nat} {pieces : List (Piece Byte)}
    {state : State} {fs : FileSystem} (read : OldRead file old new base pieces state)
    (written : Written file old new state.fs fs) :
    OldRead file old new base pieces { state with fs := fs } := by
  have kept : fs.files old = state.fs.files old :=
    written.old_kept distinct (read.renamed.left distinct)
  constructor
  · exact read.opened
  · exact written.renamed distinct read.renamed
  · change Delivered (fs.files old) maxBufferSize base (fs.files old).length pieces []
    rw [kept]
    exact read.whole

/-- A thread that follows the old file follows it after a write. -/
theorem ReadsOld.written (distinct : new ≠ old) {base offset : Nat} {pieces : List (Piece Byte)}
    {line : List Byte} {point : FlywheelPoint} {state : State} {fs : FileSystem}
    (reads : ReadsOld file old new base offset pieces line point state)
    (written : Written file old new state.fs fs) :
    ReadsOld file old new base offset pieces line point { state with fs := fs } := by
  have delivered := reads.flies.delivered.1
  constructor
  · exact reads.opened
  · exact written.rotating reads.rotating
  · exact written.ended distinct (delivered.started.trans delivered.within) reads.ended
  · exact reads.place
  · exact reads.flies.carried (written.old_grown distinct) written.other_kept
  · intro closes
    obtain ⟨other, leads, different⟩ := reads.flies.closing closes
    have left : state.fs.names file ≠ some old := by
      rw [leads]
      exact fun same => different (Option.some.inj same)
    change offset = (fs.files old).length
    rw [written.old_kept distinct left]
    exact reads.leaving closes

/-- A thread outside the loop is still there after a write. -/
theorem paused_written {fs after : FileSystem} {running : Bool} {point : Option ThreadPoint}
    (named : (openedAs file).1 = file) (renamed : Renamed file new fs)
    (paused : Paused fs file (fun descriptor => descriptor.offset = 0) running point)
    (written : Written file old new fs after) (distinct : new ≠ old) :
    Paused after file (fun descriptor => descriptor.offset = 0) running point := by
  cases written with
  | append inode bytes same complete =>
    exact paused.carried rfl (fs.append_grown inode bytes) (fun _ _ _ accept => accept)
  | rename target elsewhere same => exact absurd same (renamed.left distinct)
  | create missing =>
    cases paused with
    | closing descriptor => exact .closing descriptor
    | test => exact .test
    | exited halted => exact .exited halted
    | opening point opening =>
      have start := opening.unnamed (by rw [named]; exact missing)
      subst start
      exact .opening _ .openFile

/-- A thread between the two files stays between them when the writer writes to either. -/
theorem Between.written (named : (openedAs file).1 = file) (distinct : new ≠ old) {base : Nat}
    {pieces : List (Piece Byte)} {state : State} {fs : FileSystem}
    (between : Between file old new base pieces state)
    (written : Written file old new state.fs fs) :
    Between file old new base pieces { state with fs := fs } := by
  have kept : fs.files old = state.fs.files old :=
    written.old_kept distinct (between.read.renamed.left distinct)
  constructor
  · exact between.read.written distinct written
  · exact between.queued
  · change state.left = some ⟨old, (fs.files old).length⟩
    rw [kept]
    exact between.left
  · exact paused_written named between.read.renamed between.paused written distinct

/-- A reader that moves to the new file goes on after a write. -/
theorem Moves.written (distinct : new ≠ old) {base : Nat} {pieces : List (Piece Byte)}
    {locals : Locals} {point : OpenPoint} {state : State} {fs : FileSystem}
    (moves : Moves file old new base pieces locals point state)
    (written : Written file old new state.fs fs) :
    Moves file old new base pieces locals point { state with fs := fs } := by
  obtain ⟨_, stays⟩ := written.new_grown distinct moves.named
  refine ⟨moves.read.written distinct written, moves.queued, stays, moves.place, ?_⟩
  cases written with
  | append inode bytes same complete =>
    exact moves.opening.carried rfl (state.fs.append_grown inode bytes) (fun _ _ _ accept => accept)
  | rename target elsewhere same => exact absurd same (moves.read.renamed.left distinct)
  | create missing =>
    rw [moves.named] at missing
    cases missing

/-- A thread that follows the new file follows it after a write. -/
theorem ReadsNew.written (distinct : new ≠ old) {base offset : Nat}
    {pieces more later : List (Piece Byte)} {line : List Byte} {point : FlywheelPoint}
    {state : State} {fs : FileSystem}
    (reads : ReadsNew file old new base pieces offset more line later point state)
    (written : Written file old new state.fs fs) :
    ReadsNew file old new base pieces offset more line later point { state with fs := fs } := by
  obtain ⟨grown, stays⟩ := written.new_grown distinct reads.named
  refine ⟨reads.read.written distinct written, reads.queued, stays, reads.place,
    reads.flies.carried grown ?_⟩
  intro other different found
  rw [reads.named] at found
  exact absurd (Option.some.inj found).symm different

/-- A write keeps the phase of a thread that has opened the old file. -/
theorem Phase.written (named : (openedAs file).1 = file) (distinct : new ≠ old) {state : State}
    {fs : FileSystem} (phase : Phase file old new state) (opened : state.opened ≠ none)
    (written : Written file old new state.fs fs) : Phase file old new { state with fs := fs } := by
  cases phase with
  | starting unopened => exact absurd unopened opened
  | refused unopened => exact absurd unopened opened
  | elsewhere descriptor opened other => exact .elsewhere descriptor opened other
  | old base offset pieces line point reads =>
    exact .old base offset pieces line point (reads.written distinct written)
  | between base pieces between =>
    exact .between base pieces (between.written named distinct written)
  | moving base pieces locals point moves =>
    exact .moving base pieces locals point (moves.written distinct written)
  | new base pieces offset more line later point reads =>
    exact .new base pieces offset more line later point (reads.written distinct written)
  | stoppedOld base offset pieces stopped =>
    exact .stoppedOld base offset pieces ⟨stopped.opened, stopped.halted, stopped.ending,
      stopped.left, stopped.delivered.extended (written.old_grown distinct), stopped.queued⟩
  | stoppedNew base pieces offset more stopped =>
    obtain ⟨grown, stays⟩ := written.new_grown distinct stopped.named
    exact .stoppedNew base pieces offset more ⟨stopped.read.written distinct written, stays,
      stopped.halted, stopped.ending, stopped.left, stopped.delivered.extended grown,
      stopped.queued⟩

/-- Appending complete lines keeps the phase of a thread that has opened nothing. -/
theorem Phase.appended {state : State} (phase : Phase file old new state)
    (unopened : state.opened = none) (inode : Inode) {bytes : List Byte}
    (complete : CompleteLines bytes) :
    Phase file old new { state with fs := state.fs.append inode bytes } := by
  have impossible {descriptor : OpenFile} (opened : state.opened = some descriptor) : False := by
    simp [unopened] at opened
  cases phase with
  | refused unopened ended => exact .refused unopened ended
  | starting unopened empty paused =>
    refine .starting unopened empty (paused.carried rfl (state.fs.append_grown inode bytes) ?_)
    intro other offset within accept
    unfold AtLineStart at accept ⊢
    by_cases same : other = inode
    · subst same
      rw [FileSystem.append_own, List.drop_append_of_le_length within]
      exact complete_lines_appended accept complete
    · rw [state.fs.append_other bytes same]
      exact accept
  | elsewhere descriptor opened => exact (impossible opened).elim
  | old base offset pieces line point reads => exact (impossible reads.opened).elim
  | between base pieces between => exact (impossible between.read.opened).elim
  | moving base pieces locals point moves => exact (impossible moves.read.opened).elim
  | new base pieces offset more line later point reads =>
    exact (impossible reads.read.opened).elim
  | stoppedOld base offset pieces stopped => exact (impossible stopped.opened).elim
  | stoppedNew base pieces offset more stopped => exact (impossible stopped.read.opened).elim

/-- Stopping the engine leaves what was read of the old file as it is. -/
theorem OldRead.halted {base : Nat} {pieces : List (Piece Byte)} {state : State}
    (read : OldRead file old new base pieces state) :
    OldRead file old new base pieces { state with running := false } :=
  ⟨read.opened, read.renamed, read.whole⟩

/-- Stopping the engine keeps the phase of the rotation the thread is in. -/
theorem Phase.stopped {state : State} (phase : Phase file old new state) :
    Phase file old new { state with running := false } := by
  cases phase with
  | starting unopened empty paused => exact .starting unopened empty paused.stopped
  | refused unopened ended => exact .refused unopened ended
  | elsewhere descriptor opened other => exact .elsewhere descriptor opened other
  | old base offset pieces line point reads =>
    exact .old base offset pieces line point ⟨reads.opened, reads.rotating, reads.ended,
      reads.place, reads.flies, reads.leaving⟩
  | between base pieces between =>
    exact .between base pieces ⟨between.read.halted, between.queued, between.left,
      between.paused.stopped⟩
  | moving base pieces locals point moves =>
    exact .moving base pieces locals point ⟨moves.read.halted, moves.queued, moves.named,
      moves.place, moves.opening⟩
  | new base pieces offset more line later point reads =>
    exact .new base pieces offset more line later point ⟨reads.read.halted, reads.queued,
      reads.named, reads.place, reads.flies⟩
  | stoppedOld base offset pieces stopped =>
    exact .stoppedOld base offset pieces ⟨stopped.opened, rfl, stopped.ending, stopped.left,
      stopped.delivered, stopped.queued⟩
  | stoppedNew base pieces offset more stopped =>
    exact .stoppedNew base pieces offset more ⟨stopped.read.halted, stopped.named, rfl,
      stopped.ending, stopped.left, stopped.delivered, stopped.queued⟩

end Dragonfly.FlywheelThread
