import Dragonfly.Rotation

/-!
# The steps of a thread through a rotation

Each step of the thread leads from one phase of the rotation to the next: a
comparison of inodes finds the old file under its path or read to its end, an
open after a return finds the new file still empty, and an open after a move
starts at the beginning of it.

For each phase one theorem says where its next step leads, with the measure by
which a thread that stays in the phase has come nearer to the end of it.
-/

namespace Dragonfly.FlywheelThread

open Tail Flywheel

variable {file : Path} {old new : Inode}

/-- A stopped thread makes its way out: a step of it leads to a point further on and changes
nothing else. -/
theorem ending_step {state after : State} {now : Int} (halted : state.running = false)
    (ending : Ending state.point) (moved : threadNext file state now = some after) :
    ∃ point, Ending point ∧ after = { state with point := point } := by
  generalize place : state.point = point at ending
  cases ending with
  | closing descriptor =>
    refine ⟨some .test, .test, ?_⟩
    simpa [threadNext, place, luaFlywheelThread, Operation.perform, FileSystem.perform, afterClose,
      dragonflyIoIsfile, threadSending, newlyOpened, leaving] using moved.symm
  | test =>
    refine ⟨none, .exited, ?_⟩
    simpa [threadNext, place, luaFlywheelThread, Operation.perform, halted, threadSending]
      using moved.symm
  | exited =>
    rw [threadNext, place] at moved
    cases moved

/-- A step of a thread that has opened nothing yet. -/
theorem starting_step (suffixFree : openedAs file = (file, .seekEnd)) (fits : file.length ≤ pathMax)
    {state after : State} {now : Int} (unopened : state.opened = none)
    (empty : state.enqueued = [])
    (paused : Paused state.fs file (AtLineStart state.fs) state.running state.point)
    (moved : threadNext file state now = some after) : Phase file old new after := by
  cases place : state.point with
  | none =>
    rw [threadNext, place] at moved
    cases moved
  | some point =>
    rw [place] at paused
    have sought : ∀ inode, point = .opening (.lseek ⟨inode, 0⟩ (openedAs file).2) →
        AtLineStart state.fs (state.fs.seek ⟨inode, 0⟩ (openedAs file).2) := by
      intro inode _
      rw [suffixFree]
      simp [AtLineStart, FileSystem.seek]
    cases paused_moved place paused sought moved with
    | within _ after paused => exact .starting unopened empty paused
    | missing absent => exact .refused unopened rfl
    | entered inode offset leads within accept =>
      have opened : state.opened.or (some ⟨inode, offset⟩) = some ⟨inode, offset⟩ := by
        rw [unopened]
        rfl
      by_cases same : inode = old
      · subst same
        rw [suffixFree] at leads
        exact .old offset offset [] [] _ ⟨opened, .inl leads, accept, rfl,
          flies_entered fits empty (Delivered.initial _ offset within), by rintro ⟨⟩⟩
      · exact .elsewhere ⟨inode, offset⟩ opened same

/-! ## In the old file -/

/-- Where a step in the old file leads: on in it, out of the loop because the engine stops or, at
the end of the file, because the path leads nowhere, or, at its end too, to the open of the new
file. -/
inductive OldProgress (file : Path) (old new : Inode) (base offset : Nat) (state : State)
    (point : FlywheelPoint) : State → Prop where
  | within (reached : Nat) (pieces : List (Piece Byte)) (line : List Byte) (next : FlywheelPoint)
      (reads : ReadsOld file old new base reached pieces line next
        { state with point := some (.loop next), enqueued := state.enqueued ++ sending point })
      (nearer : Nearer False (state.fs.files old).length offset reached point next) :
      OldProgress file old new base offset state point
        { state with point := some (.loop next), enqueued := state.enqueued ++ sending point }
  | stopped (halted : state.running = false) (pieces : List (Piece Byte)) (after : State)
      (stopped : StoppedOld old base offset pieces after) :
      OldProgress file old new base offset state point after
  | missed (missing : state.fs.names file = none) (ended : offset = (state.fs.files old).length)
      (pieces : List (Piece Byte)) (after : State)
      (between : Between file old new base pieces after) :
      OldProgress file old new base offset state point after
  | leaves (ended : offset = (state.fs.files old).length) (closes : point.closes)
      (pieces : List (Piece Byte)) (locals : Locals)
      (moves : Moves file old new base pieces locals (.openFile (fileSpec file))
        { state with
          point := some (.loop (.reading (.moved file locals (.openFile (fileSpec file))))) }) :
      OldProgress file old new base offset state point
        { state with
          point := some (.loop (.reading (.moved file locals (.openFile (fileSpec file))))) }

/-- A thread that follows the old file makes its next step, and such progress. -/
theorem old_step {state : State} {base offset : Nat} {pieces : List (Piece Byte)}
    {line : List Byte} {point : FlywheelPoint}
    (reads : ReadsOld file old new base offset pieces line point state)
    (noticed : RotationNoticedAt old state state.point) (now : Int) :
    ∃ after, threadNext file state now = some after ∧
      OldProgress file old new base offset state point after := by
  obtain ⟨opened, rotating, ended, place, flies, leaving⟩ := reads
  obtain ⟨delivered, queued⟩ := flies.delivered
  have compared : ∀ locals fdstat, point = .reading (.stat file ⟨old, offset⟩ locals fdstat) →
      state.fs.names file = some old ∨ offset = (state.fs.files old).length := by
    rintro locals fdstat rfl
    rw [place] at noticed
    exact noticed rfl
  obtain ⟨after, moved, progress⟩ := flying_step place flies now
  refine ⟨after, moved, ?_⟩
  cases progress with
  | within _ next reached more rest kept nearer =>
    refine .within reached more rest next ⟨opened, rotating, ended, rfl, kept, ?_⟩ nearer
    intro closes
    obtain ⟨checks, same⟩ := nearer.leaving closes
    obtain ⟨locals, fdstat, stat⟩ := flies.checking checks
    obtain ⟨other, leads, different⟩ := kept.closing closes
    rcases compared locals fdstat stat with named | whole
    · rw [leads] at named
      exact absurd (Option.some.inj named) different
    · exact same.trans whole
  | stopped halted =>
    have idle : line = [] := flies.between_reads
    subst idle
    refine .stopped halted pieces _ ⟨opened, halted, .closing _, rfl, delivered, ?_⟩
    rw [← queued]
    exact (List.append_nil _).symm
  | refused locals fdstat missing =>
    have whole : offset = (state.fs.files old).length := by
      rcases compared locals fdstat rfl with named | whole
      · rw [missing] at named
        cases named
      · exact whole
    subst whole
    have idle : line = [] := nothing_buffered delivered ended
    subst idle
    refine .missed missing rfl pieces _ ⟨⟨opened, .inl missing, delivered⟩, ?_, rfl, .closing _⟩
    rw [← queued]
    exact (List.append_nil _).symm
  | leaves locals elsewhere =>
    have whole := leaving rfl
    subst whole
    have idle : line = [] := nothing_buffered delivered ended
    subst idle
    obtain ⟨other, leads, different⟩ := elsewhere
    have named : state.fs.names file = some new := by
      rcases rotating with same | missing | named
      · rw [leads] at same
        exact absurd (Option.some.inj same) different
      · rw [leads] at missing
        cases missing
      · exact named
    refine .leaves rfl rfl pieces locals ⟨⟨opened, .inr named, delivered⟩, ?_, named, rfl, .openFile⟩
    rw [← queued]
    exact (List.append_nil _).symm

/-! ## Between the files -/

/-- Where a step between the files leads: on outside the loop, or to the start of the new file. -/
inductive BetweenProgress (file : Path) (old new : Inode) (base : Nat) (pieces : List (Piece Byte))
    (state : State) : State → Prop where
  | within (after : State) (between : Between file old new base pieces after) :
      BetweenProgress file old new base pieces state after
  | entered (point : FlywheelPoint) (after : State)
      (reads : ReadsNew file old new base pieces 0 [] [] [] point after) :
      BetweenProgress file old new base pieces state after

/-- A running thread between the files makes its next step, and such progress, and has come nearer
to the end of the new file. -/
theorem between_step (suffixFree : openedAs file = (file, .seekEnd)) (fits : file.length ≤ pathMax)
    {state : State} {base : Nat} {pieces : List (Piece Byte)}
    (between : Between file old new base pieces state)
    (noticed : RotationNoticedAt old state state.point) (going : state.point ≠ none) (now : Int) :
    ∃ after, threadNext file state now = some after ∧
      BetweenProgress file old new base pieces state after ∧ after.fs = state.fs ∧
      after.running = state.running ∧
      (state.fs.names file ≠ none → after.rank new < state.rank new) := by
  obtain ⟨read, queued, left, paused⟩ := between
  have opened : state.opened ≠ none := by simp [read.opened]
  cases place : state.point with
  | none => exact absurd place going
  | some point =>
    rw [place] at paused noticed
    have sought : ∀ inode, point = .opening (.lseek ⟨inode, 0⟩ (openedAs file).2) →
        (state.fs.seek ⟨inode, 0⟩ (openedAs file).2).offset = 0 := by
      rintro inode rfl
      exact noticed opened
    obtain ⟨after, moved, progress⟩ := paused_step place paused sought now
    have lowers := progress.lowers place paused
    rw [suffixFree] at lowers
    refine ⟨after, moved, ?_⟩
    cases progress with
    | within _ after still sooner =>
      exact ⟨.within _ ⟨⟨read.opened, read.renamed, read.whole⟩, queued, left, still⟩, rfl, rfl,
        fun named => (lowers named new).2.2⟩
    | missing absent => exact absurd absent (noticed opened)
    | entered inode offset leads within accept =>
      have zero : offset = 0 := accept
      subst zero
      rw [suffixFree] at leads
      have named : inode = new := by
        rcases read.renamed with missing | named
        · rw [leads] at missing
          cases missing
        · exact Option.some.inj (leads.symm.trans named)
      subst named
      have kept : state.opened.or (some ⟨inode, 0⟩) = some ⟨old, base⟩ := by
        rw [read.opened]
        rfl
      refine ⟨.entered _ _ ⟨⟨kept, read.renamed, read.whole⟩, ?_, leads, rfl, ?_⟩, rfl, rfl,
        fun named => (lowers named inode).2.2⟩
      · rw [queued, List.append_nil]
      · exact flies_entered fits rfl (Delivered.initial _ 0 within)

/-- Where a step of the open of a moved file leads: the next call of it, or the start of the new
file. -/
inductive MovesProgress (file : Path) (old new : Inode) (base : Nat) (pieces : List (Piece Byte))
    (locals : Locals) (state : State) (point : OpenPoint) : State → Prop where
  | within (next : OpenPoint) (sooner : next.delay < point.delay)
      (moves : Moves file old new base pieces locals next
        { state with point := some (.loop (.reading (.moved file locals next))) }) :
      MovesProgress file old new base pieces locals state point
        { state with point := some (.loop (.reading (.moved file locals next))) }
  | entered (reads : ReadsNew file old new base pieces 0 [] [] []
        (.reading (.read file ⟨new, 0⟩ { locals with line := [] }))
        { state with
          point := some (.loop (.reading (.read file ⟨new, 0⟩ { locals with line := [] }))) }) :
      MovesProgress file old new base pieces locals state point
        { state with
          point := some (.loop (.reading (.read file ⟨new, 0⟩ { locals with line := [] }))) }

/-- A reader that moves to the new file makes its next step, and such progress. -/
theorem moving_step (fits : file.length + 1 < pathMax) {state : State} {base : Nat}
    {pieces : List (Piece Byte)} {locals : Locals} {point : OpenPoint}
    (moves : Moves file old new base pieces locals point state) (now : Int) :
    ∃ after, threadNext file state now = some after ∧
      MovesProgress file old new base pieces locals state point after := by
  obtain ⟨read, queued, named, place, opening⟩ := moves
  have target := opened_as_file_spec fits
  have sought : ∀ inode, point = .lseek ⟨inode, 0⟩ (openedAs (fileSpec file)).2 →
      (state.fs.seek ⟨inode, 0⟩ (openedAs (fileSpec file)).2).offset = 0 := by
    intro inode _
    rw [target]
    rfl
  have progress := opening_step opening sought now
  simp only [threadNext, place, luaFlywheelThread, perform_call, luaFlywheelLoopTail]
  simp only [Operation.perform, readTail, FileSystem.perform_call, perform_read_line, tailNextLine]
  generalize state.fs.perform now (tailOpenNonblockFile point) = outcome at progress
  cases progress with
  | within _ next opening sooner =>
    have moves : Moves file old new base pieces locals next
        { state with point := some (.loop (.reading (.moved file locals next))) } :=
      ⟨⟨read.opened, read.renamed, read.whole⟩, queued, named, rfl, opening⟩
    exact ⟨_, rfl, by simpa [threadSending, sending, newlyOpened, leaving] using
      MovesProgress.within next sooner moves⟩
  | missing absent =>
    rw [target, named] at absent
    cases absent
  | opened inode offset leads within accept =>
    have zero : offset = 0 := accept
    have sameFile : inode = new := by
      rw [target, named] at leads
      exact (Option.some.inj leads).symm
    subst zero sameFile
    have room : ([] : List Byte).length < maxBufferSize := by decide
    have reads : ReadsNew file old inode base pieces 0 [] [] []
        (.reading (.read file ⟨inode, 0⟩ { locals with line := [] }))
        { state with
          point := some (.loop (.reading (.read file ⟨inode, 0⟩ { locals with line := [] }))) } := by
      refine ⟨⟨read.opened, read.renamed, read.whole⟩, ?_, named, rfl,
        .reading [] [] _ ⟨Delivered.initial _ 0 (Nat.zero_le _), ?_⟩⟩
      · exact queued.trans (List.append_nil _).symm
      · exact .read { locals with line := [] } (.inr ⟨trivial, rfl, rfl⟩)
    simp only [Outcome.call, loopEnd, if_pos room, loopTop, id_eq]
    exact ⟨_, rfl, by simpa [threadSending, sending, newlyOpened, leaving] using
      MovesProgress.entered reads⟩

/-! ## In the new file -/

/-- Where a step in the new file leads: on in it, or out of the loop because the engine stops. -/
inductive NewProgress (file : Path) (old new : Inode) (base : Nat) (pieces : List (Piece Byte))
    (offset : Nat) (state : State) (point : FlywheelPoint) : State → Prop where
  | within (reached : Nat) (more : List (Piece Byte)) (line : List Byte)
      (later : List (Piece Byte)) (next : FlywheelPoint)
      (reads : ReadsNew file old new base pieces reached more line later next
        { state with point := some (.loop next), enqueued := state.enqueued ++ sending point })
      (nearer : Nearer True (state.fs.files new).length offset reached point next) :
      NewProgress file old new base pieces offset state point
        { state with point := some (.loop next), enqueued := state.enqueued ++ sending point }
  | stopped (halted : state.running = false) (more : List (Piece Byte)) (after : State)
      (stopped : StoppedNew file old new base pieces offset more after) :
      NewProgress file old new base pieces offset state point after

/-- A thread that follows the new file makes its next step, and such progress. -/
theorem new_step {state : State} {base offset : Nat} {pieces more later : List (Piece Byte)}
    {line : List Byte} {point : FlywheelPoint}
    (reads : ReadsNew file old new base pieces offset more line later point state) (now : Int) :
    ∃ after, threadNext file state now = some after ∧
      NewProgress file old new base pieces offset state point after := by
  obtain ⟨read, queued, named, place, flies⟩ := reads
  obtain ⟨delivered, reports⟩ := flies.delivered
  obtain ⟨after, moved, progress⟩ := flying_step place flies now
  refine ⟨after, moved, ?_⟩
  cases progress with
  | within _ next reached more rest kept nearer =>
    refine .within reached more rest (later ++ sending point) next
      ⟨⟨read.opened, read.renamed, read.whole⟩, ?_, named, rfl, kept⟩ nearer
    rw [queued, List.append_assoc]
  | stopped halted =>
    have idle : line = [] := flies.between_reads
    subst idle
    refine .stopped halted more _ ⟨⟨read.opened, read.renamed, read.whole⟩, named, halted,
      .closing _, rfl, delivered, ?_⟩
    rw [queued, ← reports]
    exact congrArg _ (List.append_nil _).symm
  | refused locals fdstat missing =>
    rw [named] at missing
    cases missing
  | leaves locals elsewhere =>
    obtain ⟨other, leads, different⟩ := elsewhere
    rw [named] at leads
    exact absurd (Option.some.inj leads).symm different

/-! ## From phase to phase -/

/-- Each step of a run that notices the rotation in time leads to a next phase. -/
theorem phase_step (suffixFree : openedAs file = (file, .seekEnd)) (fits : file.length + 1 < pathMax)
    (distinct : new ≠ old) {state after : State} {label : Label}
    (phase : Phase file old new state) (rotated : RotatedOnce file old new state label)
    (noticed : RotationNoticed old state label) (moved : next file state label = some after) :
    Phase file old new after := by
  have named : (openedAs file).1 = file := by rw [suffixFree]
  have bounded : file.length ≤ pathMax := by omega
  have tailed : state.opened.map OpenFile.inode = some old → state.opened ≠ none := by
    intro opened none
    simp [none] at opened
  cases label with
  | stop => exact Option.some.inj moved ▸ phase.stopped
  | append inode bytes =>
    obtain ⟨leads, complete⟩ := rotated
    by_cases unopened : state.opened = none
    · exact Option.some.inj moved ▸ phase.appended unopened inode complete
    · exact Option.some.inj moved ▸ phase.written named distinct unopened
        (.append inode bytes leads complete)
  | rename source target =>
    obtain ⟨rfl, elsewhere, leads, opened⟩ := rotated
    exact Option.some.inj moved ▸ phase.written named distinct (tailed opened)
      (.rename target elsewhere leads)
  | create name inode =>
    obtain ⟨rfl, rfl, missing, opened⟩ := rotated
    exact Option.some.inj moved ▸ phase.written named distinct (tailed opened) (.create missing)
  | step now =>
    change threadNext file state now = some after at moved
    cases phase with
    | starting unopened empty paused =>
      exact starting_step suffixFree bounded unopened empty paused moved
    | refused unopened ended =>
      rw [threadNext, ended] at moved
      cases moved
    | elsewhere descriptor opened other => exact .elsewhere descriptor (opened_kept opened moved) other
    | old base offset pieces line point reads =>
      obtain ⟨reached, stepped, progress⟩ := old_step reads noticed now
      obtain rfl : reached = after := Option.some.inj (stepped.symm.trans moved)
      cases progress with
      | within offset pieces line next reads => exact .old base offset pieces line next reads
      | stopped halted pieces _ stopped => exact .stoppedOld base offset pieces stopped
      | missed missing ended pieces _ between => exact .between base pieces between
      | leaves ended closes pieces locals moves => exact .moving base pieces locals _ moves
    | between base pieces between =>
      have going : state.point ≠ none := by
        intro ended
        rw [threadNext, ended] at moved
        cases moved
      obtain ⟨reached, stepped, progress, -⟩ :=
        between_step suffixFree bounded between noticed going now
      obtain rfl : reached = after := Option.some.inj (stepped.symm.trans moved)
      cases progress with
      | within _ between => exact .between base pieces between
      | entered point _ reads => exact .new base pieces 0 [] [] [] point reads
    | moving base pieces locals point moves =>
      obtain ⟨reached, stepped, progress⟩ := moving_step fits moves now
      obtain rfl : reached = after := Option.some.inj (stepped.symm.trans moved)
      cases progress with
      | within next sooner moves => exact .moving base pieces locals next moves
      | entered reads => exact .new base pieces 0 [] [] [] _ reads
    | new base pieces offset more line later point reads =>
      obtain ⟨reached, stepped, progress⟩ := new_step reads now
      obtain rfl : reached = after := Option.some.inj (stepped.symm.trans moved)
      cases progress with
      | within offset more line later next reads =>
        exact .new base pieces offset more line later next reads
      | stopped halted more _ stopped => exact .stoppedNew base pieces offset more stopped
    | stoppedOld base offset pieces stopped =>
      obtain ⟨point, ending, rfl⟩ := ending_step stopped.halted stopped.ending moved
      exact .stoppedOld base offset pieces ⟨stopped.opened, stopped.halted, ending, stopped.left,
        stopped.delivered, stopped.queued⟩
    | stoppedNew base pieces offset more stopped =>
      obtain ⟨point, ending, rfl⟩ := ending_step stopped.halted stopped.ending moved
      have read := stopped.read
      exact .stoppedNew base pieces offset more ⟨⟨read.opened, read.renamed, read.whole⟩,
        stopped.named, stopped.halted, ending, stopped.left, stopped.delivered, stopped.queued⟩

end Dragonfly.FlywheelThread
