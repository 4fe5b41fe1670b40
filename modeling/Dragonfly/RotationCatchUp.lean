import Dragonfly.RotationSteps

/-!
# A thread left alone after a rotation

A running thread that is left alone reads the old file to its end. Where the new
file is under the path by then, the reader goes on to ask for the end of the old
file until the clock is five seconds behind its last read; it compares inodes,
moves to the new file and reads that to its end, too. A thread that is between
the files opens the path again and does the same.

For each part of the way a rank falls with every step. While the reader waits
for the clock, the rank counts the steps until the clock is late enough.
-/

namespace Dragonfly.FlywheelThread

open Tail Flywheel

variable {logdir path : Path} {file : Path} {old new : Inode}

/-- The messages for an old file read to its end are all its lines. -/
theorem OldRead.messages {base : Nat} {pieces : List (Piece Byte)} {state : State}
    (read : OldRead file old new base pieces state)
    (plain : PlainLines ((state.fs.files old).drop base)) :
    (queuedFor base pieces).map Piece.items =
      (linesOf newline ((state.fs.files old).drop base)).complete := by
  rw [messages_exact read.whole plain, stretch, List.take_length]

/-- The messages of a thread that follows the new file. -/
theorem ReadsNew.messages {state : State} {base offset : Nat}
    {pieces more later : List (Piece Byte)} {line : List Byte} {point : FlywheelPoint}
    (reads : ReadsNew file old new base pieces offset more line later point state)
    (plainOld : PlainLines ((state.fs.files old).drop base))
    (plainNew : PlainLines (state.fs.files new)) :
    state.messages = (linesOf newline ((state.fs.files old).drop base)).complete ++
      (linesOf newline ((state.fs.files new).take offset)).complete := by
  obtain ⟨delivered, reports⟩ := reads.flies.delivered
  have plain : PlainLines ((state.fs.files new).drop 0) := plainNew
  rw [(flying_position reads.place reads.flies).1, reads.queued, List.append_assoc, reports,
    List.map_append, reads.read.messages plainOld, messages_exact delivered plain]
  rfl

/-! ## On the way to the new file and in it -/

/-- The thread has left the old file at its end. -/
inductive Arriving (file : Path) (old new : Inode) (base : Nat) (state : State) : Prop where
  | between (pieces : List (Piece Byte)) (between : Between file old new base pieces state)
  | moving (pieces : List (Piece Byte)) (locals : Locals) (point : OpenPoint)
      (moves : Moves file old new base pieces locals point state)
  | new (pieces : List (Piece Byte)) (offset : Nat) (more : List (Piece Byte)) (line : List Byte)
      (later : List (Piece Byte)) (point : FlywheelPoint)
      (reads : ReadsNew file old new base pieces offset more line later point state)

/-- A running thread that has arrived in the new file and has not queued all its lines makes its
next step and is nearer to the end of the file behind it. -/
theorem Arriving.onward (suffixFree : openedAs file = (file, .seekEnd))
    (fits : file.length + 1 < pathMax) {state : State} {base : Nat} {now : Int}
    (arriving : Arriving file old new base state) (running : state.running = true)
    (named : state.fs.names file = some new)
    (plainOld : PlainLines ((state.fs.files old).drop base))
    (plainNew : PlainLines (state.fs.files new))
    (unread : ¬ AllQueued file old new base state.fs state)
    (noticed : RotationNoticedAt old state state.point) :
    ∃ after, threadNext file state now = some after ∧ Arriving file old new base after ∧
      after.fs = state.fs ∧ after.running = true ∧ after.rank new < state.rank new := by
  cases arriving with
  | between pieces between =>
    have going : state.point ≠ none := by
      intro ended
      have halted := between.paused.silent.2.2 ended
      rw [running] at halted
      cases halted
    obtain ⟨after, moved, progress, sameFiles, still, lower⟩ :=
      between_step suffixFree (by omega) between noticed going now
    have lowered := lower (by simp [named])
    cases progress with
    | within _ between =>
      exact ⟨after, moved, .between pieces between, sameFiles, still.trans running, lowered⟩
    | entered point _ reads =>
      exact ⟨after, moved, .new pieces 0 [] [] [] point reads, sameFiles, still.trans running,
        lowered⟩
  | moving pieces locals point moves =>
    have nowhere : state.standing = none := by simp [State.standing, moves.place, descriptor]
    have ranked : state.rank new = 8 * (state.fs.files new).length + point.delay := by
      simp [State.rank, moves.place, nowhere, FlywheelPoint.rank, FlywheelPoint.idles,
        TailPoint.idles, FlywheelPoint.delay, TailPoint.delay]
    rw [ranked]
    have positive : 0 < point.delay := by cases point <;> exact Nat.succ_pos _
    obtain ⟨after, moved, progress⟩ := moving_step fits moves now
    refine ⟨after, moved, ?_⟩
    cases progress with
    | within next sooner moves =>
      refine ⟨.moving pieces locals next moves, rfl, running, ?_⟩
      simp only [State.rank, State.standing, descriptor, Option.elim_none, FlywheelPoint.rank,
        FlywheelPoint.idles, TailPoint.idles, Bool.false_eq_true, if_false, FlywheelPoint.delay,
        TailPoint.delay]
      omega
    | entered reads =>
      refine ⟨.new pieces 0 [] [] [] _ reads, rfl, running, ?_⟩
      simp only [State.rank, State.standing, descriptor, Option.elim_some, FlywheelPoint.rank,
        FlywheelPoint.idles, TailPoint.idles, Bool.false_eq_true, if_false, FlywheelPoint.delay,
        TailPoint.delay]
      omega
  | new pieces offset more line later point reads =>
    have standing := (flying_position reads.place reads.flies).2
    have further : offset < (state.fs.files new).length := by
      refine Nat.lt_of_le_of_ne reads.flies.delivered.1.within fun ended => unread ⟨rfl, ?_⟩
      rw [reads.messages plainOld plainNew, if_pos named, ended, List.take_length]
    rw [flying_rank reads.place standing]
    obtain ⟨after, moved, progress⟩ := new_step reads now
    refine ⟨after, moved, ?_⟩
    cases progress with
    | within reached more line later next reads nearer =>
      refine ⟨.new pieces reached more line later next reads, rfl, running, ?_⟩
      exact lt_of_eq_of_lt (flying_rank reads.place (flying_position reads.place reads.flies).2)
        (nearer.lowers further)
    | stopped halted =>
      rw [running] at halted
      cases halted

/-- A running thread that has arrived in the new file queues all its lines, if it is left alone. -/
theorem Arriving.completes
    (suffixFree : openedAs (filePath logdir path) = (filePath logdir path, .seekEnd))
    (fits : (filePath logdir path).length + 1 < pathMax) {state : State} {base : Nat}
    (arriving : Arriving (filePath logdir path) old new base state)
    (running : state.running = true) (named : state.fs.names (filePath logdir path) = some new)
    (plainOld : PlainLines ((state.fs.files old).drop base))
    (plainNew : PlainLines (state.fs.files new)) (clocks : Nat → Int) :
    (system logdir path).Comes (InTime (filePath logdir path) old new)
      (AllQueued (filePath logdir path) old new base state.fs) (ownSteps clocks) state := by
  refine System.Comes.lowered
    (fun now => Arriving (filePath logdir path) old new base now ∧ now.fs = state.fs ∧
      now.running = true)
    (fun now => now.rank new) ?_ ⟨arriving, rfl, running⟩
  rintro index now ⟨arriving, sameFiles, running⟩ unread ⟨-, noticed⟩
  rw [← sameFiles] at named plainOld plainNew unread
  obtain ⟨after, moved, still, unchanged, runs, lower⟩ :=
    arriving.onward suffixFree fits running named plainOld plainNew unread noticed
  exact ⟨after, moved, ⟨still, unchanged.trans sameFiles, runs⟩, lower⟩

/-! ## To the end of the old file -/

/-- The thread follows the old file and stands at its end. -/
def AtOldEnd (file : Path) (old new : Inode) (base : Nat) (point : FlywheelPoint)
    (state : State) : Prop :=
  ∃ pieces line, ReadsOld file old new base (state.fs.files old).length pieces line point state

/-- A running thread that follows the old file and is left alone reads it to its end. -/
theorem old_read_out {state : State} {base offset : Nat} {pieces : List (Piece Byte)}
    {line : List Byte} {point : FlywheelPoint} {runs : System State Label}
    (same : ∀ state now, runs.next state (.step now) = threadNext file state now)
    (reads : ReadsOld file old new base offset pieces line point state)
    (running : state.running = true) (clocks : Nat → Int) :
    runs.Comes (InTime file old new)
      (fun after => after.fs = state.fs ∧ after.running = true ∧
        ∃ point, AtOldEnd file old new base point after) (ownSteps clocks) state := by
  refine System.Comes.lowered
    (fun now => now.fs = state.fs ∧ now.running = true ∧ ∃ offset pieces line point,
      ReadsOld file old new base offset pieces line point now)
    (fun now => now.rank old) ?_ ⟨rfl, running, offset, pieces, line, point, reads⟩
  rintro index now ⟨sameFiles, running, offset, pieces, line, point, reads⟩ unread ⟨-, noticed⟩
  have further : offset < (now.fs.files old).length := by
    refine Nat.lt_of_le_of_ne reads.flies.delivered.1.within fun ended => unread ?_
    exact ⟨sameFiles, running, point, pieces, line, ended ▸ reads⟩
  rw [ownSteps, same, flying_rank reads.place (flying_position reads.place reads.flies).2]
  obtain ⟨after, moved, progress⟩ := old_step reads noticed (clocks index)
  refine ⟨after, moved, ?_⟩
  cases progress with
  | within reached pieces line next reads nearer =>
    refine ⟨⟨sameFiles, running, reached, pieces, line, next, reads⟩, ?_⟩
    exact lt_of_eq_of_lt (flying_rank reads.place (flying_position reads.place reads.flies).2)
      (nearer.lowers further)
  | stopped halted =>
    rw [running] at halted
    cases halted
  | missed missing ended => exact absurd ended (Nat.ne_of_lt further)
  | leaves ended => exact absurd ended (Nat.ne_of_lt further)

/-! ## Waiting at the end of the old file -/

/-- The reader waits at an end of the file, which it last read from at that time; or it has found
that five seconds have passed. -/
inductive Waiting (since : Int) : TailPoint → Prop where
  | read (path : Path) (file : OpenFile) (locals : Locals) (last : locals.lastReadTime = since) :
      Waiting since (.read path file locals)
  | fstat (path : Path) (file : OpenFile) (locals : Locals) (last : locals.lastReadTime = since) :
      Waiting since (.fstat path file locals)
  | clock (path : Path) (file : OpenFile) (locals : Locals) (fdstat : Stat)
      (last : locals.lastReadTime = since) : Waiting since (.clock path file locals fdstat)
  | stat (path : Path) (file : OpenFile) (locals : Locals) (fdstat : Stat) :
      Waiting since (.stat path file locals fdstat)
  | close (path : Path) (file : OpenFile) (locals : Locals) :
      Waiting since (.close path file locals)

/-- System calls from a point of the wait to the end of it, if the clock is late enough. -/
def waitLeft : TailPoint → Nat
  | .read _ _ _ => 5
  | .fstat _ _ _ => 4
  | .clock _ _ _ _ => 3
  | .stat _ _ _ _ => 2
  | .close _ _ _ => 1
  | _ => 0

/-- How long a thread still waits until its reader may compare inodes again, and nothing where
it is not in the reader. -/
def State.waitLeft (state : State) : Nat :=
  match state.point with
  | some (.loop (.reading point)) => FlywheelThread.waitLeft point
  | _ => 0

/-- A call of the reader that stays in the call is a step of the thread. -/
theorem reading_continues {state : State} {point next : TailPoint} {now : Int}
    (place : state.point = some (.loop (.reading point)))
    (stays : state.fs.perform now (tailReadLine maxBufferSize point) = .goto next) :
    threadNext file state now = some { state with point := some (.loop (.reading next)) } := by
  have performed : (luaFlywheelLoopTail (.reading point)).perform state.fs state.running now =
      .goto (.reading next) := by
    simp only [luaFlywheelLoopTail, Operation.perform, readTail, FileSystem.perform_call, stays,
      Outcome.call]
  simp [threadNext, place, luaFlywheelThread, performed, Outcome.call, threadSending, sending,
    newlyOpened, leaving]

/-- A call of a waiting reader whose path leads to the new file: it is nearer to the end of the
wait, or the clock is too early. -/
theorem wait_call {fs : FileSystem} {base : Nat} {pieces : List (Piece Byte)} {line : List Byte}
    {point : TailPoint} {since : Int} (distinct : new ≠ old) (named : fs.names file = some new)
    (follows : Follows False fs maxBufferSize file old base (fs.files old).length pieces line point)
    (waiting : Waiting since point) (stays : point.closes = false) (now : Int) :
    ∃ next, fs.perform now (tailReadLine maxBufferSize point) = .goto next ∧ Waiting since next ∧
      descriptor next = some ⟨old, (fs.files old).length⟩ ∧
      (waitLeft next < waitLeft point ∨ now < since + fiveSeconds ∧ waitLeft next ≤ 5) := by
  have room := follows.delivered.room (by decide)
  simp only [perform_read_line]
  cases follows.reading with
  | enter => cases waiting
  | read locals =>
    have ended : fs.readByte ⟨old, (fs.files old).length⟩ = .endOfFile := by
      simp [FileSystem.readByte]
    cases waiting with
    | read _ _ _ last =>
      simp only [tailNextLine, FileSystem.perform, ended, Outcome.call, id_eq]
      exact ⟨_, rfl, .fstat _ _ _ last, rfl, .inl (Nat.lt_succ_self 4)⟩
  | fstat locals remembered =>
    have kept : ¬ (fs.status old).size < locals.lastFileSize :=
      Nat.not_lt.mpr (remembered.resolve_right (fun fresh => fresh.1))
    cases waiting with
    | fstat _ _ _ last =>
      simp only [tailNextLine, FileSystem.perform, if_neg kept, Outcome.call, id_eq]
      exact ⟨_, rfl, .clock _ _ _ _ last, rfl, .inl (Nat.lt_succ_self 3)⟩
  | lseek locals fdstat same fresh => exact fresh.1.elim
  | clock locals fdstat same remembered =>
    cases waiting with
    | clock _ _ _ _ last =>
      simp only [tailNextLine, FileSystem.perform, loop_end_reads room]
      by_cases late : now - locals.lastReadTime ≥ fiveSeconds
      · simp only [if_pos late, Outcome.call, id_eq]
        exact ⟨_, rfl, .stat _ _ _ _, rfl, .inl (Nat.lt_succ_self 2)⟩
      · simp only [if_neg late, Outcome.call, id_eq]
        refine ⟨_, rfl, .read _ _ _ last, rfl, .inr ⟨?_, Nat.le_refl 5⟩⟩
        rw [last] at late
        omega
  | stat locals fdstat same remembered =>
    have other : fdstat.inode ≠ (fs.status new).inode := by
      rw [same]
      exact Ne.symm distinct
    simp only [tailNextLine, FileSystem.perform, named, Option.map_some, if_pos other,
      Outcome.call, id_eq]
    exact ⟨_, rfl, .close _ _ _, rfl, .inl (Nat.lt_succ_self 1)⟩
  | close locals => cases stays

/-- A step that leaves the thread in the loop, on a descriptor of the old file, leaves it in that
file. -/
theorem old_kept {state : State} {base offset reached : Nat} {pieces : List (Piece Byte)}
    {line : List Byte} {point next : FlywheelPoint} {now : Int}
    (reads : ReadsOld file old new base offset pieces line point state)
    (noticed : RotationNoticedAt old state state.point) {after : State}
    (moved : threadNext file state now = some after) (place : after.point = some (.loop next))
    (standing : after.standing = some ⟨old, reached⟩) :
    ∃ pieces line, ReadsOld file old new base reached pieces line next after := by
  obtain ⟨made, stepped, progress⟩ := old_step reads noticed now
  obtain rfl : made = after := Option.some.inj (stepped.symm.trans moved)
  cases progress with
  | within arrived pieces line following reads =>
    have same := (flying_position reads.place reads.flies).2
    rw [standing] at same
    obtain rfl : reached = arrived := congrArg OpenFile.offset (Option.some.inj same)
    obtain rfl : following = next := by simpa using place
    exact ⟨pieces, line, reads⟩
  | stopped halted pieces _ stopped =>
    have ending := stopped.ending
    rw [place] at ending
    cases ending
  | missed missing ended pieces _ between =>
    have paused := between.paused
    rw [place] at paused
    cases paused
  | leaves ended closes pieces locals moves =>
    simp [State.standing, descriptor] at standing

/-- A running reader that waits at the end of the old file, with the new one under its path, makes
its next step: it goes on to wait, or it begins to move. -/
theorem waiting_step {state : State} {base : Nat} {point : TailPoint} {since : Int}
    (distinct : new ≠ old) (named : state.fs.names file = some new)
    (atEnd : AtOldEnd file old new base (.reading point) state) (running : state.running = true)
    (waiting : Waiting since point) (noticed : RotationNoticedAt old state state.point)
    (now : Int) :
    ∃ after, threadNext file state now = some after ∧ after.fs = state.fs ∧
      after.running = true ∧
      (Arriving file old new base after ∨
        ∃ next, AtOldEnd file old new base (.reading next) after ∧ Waiting since next) ∧
      (after.waitLeft < state.waitLeft ∨ now < since + fiveSeconds ∧ after.waitLeft ≤ 5) := by
  obtain ⟨pieces, line, reads⟩ := atEnd
  have here : state.waitLeft = waitLeft point := by simp [State.waitLeft, reads.place]
  cases closes : point.closes with
  | true =>
    obtain ⟨after, moved, progress⟩ := old_step reads noticed now
    refine ⟨after, moved, ?_⟩
    cases progress with
    | within reached pieces line next kept nearer =>
      cases waiting with
      | close path descriptor locals =>
        -- Behind the close there is no point at which the reader has a file open.
        have left := @reading_continues file state (.close path descriptor locals)
          (.moved path locals (.openFile (fileSpec path))) now reads.place rfl
        rw [left] at moved
        obtain rfl : next = .reading (.moved path locals (.openFile (fileSpec path))) := by
          simpa using (congrArg State.point (Option.some.inj moved)).symm
        cases kept.flies.follows.reading
      | _ => cases closes
    | stopped halted =>
      rw [running] at halted
      cases halted
    | missed missing =>
      rw [named] at missing
      cases missing
    | leaves ended _ pieces locals moves =>
      refine ⟨rfl, running, .inl (.moving pieces locals _ moves), .inl ?_⟩
      rw [here]
      cases waiting with
      | close _ _ _ => exact Nat.zero_lt_one
      | _ => cases closes
  | false =>
    obtain ⟨next, stays, waits, standing, nearer⟩ :=
      wait_call distinct named reads.flies.follows waiting closes now
    have moved : threadNext file state now = _ := reading_continues reads.place stays
    obtain ⟨pieces, line, kept⟩ := old_kept reads noticed moved rfl standing
    refine ⟨_, moved, rfl, running, .inr ⟨next, ⟨pieces, line, kept⟩, waits⟩, ?_⟩
    rw [here]
    exact nearer

/-- A reader that waits at the end of the old file moves to the new file once the clock is five
seconds behind its last read. -/
theorem wait_ends {runs : System State Label}
    (same : ∀ state now, runs.next state (.step now) = threadNext file state now) {state : State}
    {base : Nat} {point : TailPoint} {since : Int} (distinct : new ≠ old)
    (named : state.fs.names file = some new)
    (atEnd : AtOldEnd file old new base (.reading point) state) (running : state.running = true)
    (waiting : Waiting since point) {clocks : Nat → Int} (advances : Advances clocks) :
    runs.Comes (InTime file old new)
      (fun after => after.fs = state.fs ∧ after.running = true ∧
        Arriving file old new base after) (ownSteps clocks) state := by
  obtain ⟨late, arrives⟩ := advances (since + fiveSeconds)
  refine System.Comes.ranked
    (fun _ now => now.fs = state.fs ∧ now.running = true ∧ (Arriving file old new base now ∨
      ∃ point, AtOldEnd file old new base (.reading point) now ∧ Waiting since point))
    (fun index now => 8 * (late - index) + now.waitLeft) ?_
    ⟨rfl, running, .inr ⟨point, atEnd, waiting⟩⟩
  rintro index now ⟨sameFiles, running, arriving | ⟨point, atEnd, waiting⟩⟩ unread ⟨-, noticed⟩
  · exact absurd ⟨sameFiles, running, arriving⟩ unread
  · rw [← sameFiles] at named
    obtain ⟨after, moved, unchanged, runs, still, lower⟩ :=
      waiting_step distinct named atEnd running waiting noticed (clocks index)
    rw [ownSteps, same]
    refine ⟨after, moved, ⟨unchanged.trans sameFiles, runs, still⟩, ?_⟩
    rcases lower with less | ⟨early, few⟩
    · omega
    · have before : index < late := by
        by_contra reached
        have passed := arrives index (Nat.le_of_not_lt reached)
        omega
      omega

/-! ## Coming to the wait -/

/-- Operations of the thread until it takes a byte or looks for the end of the file. -/
def State.delay (state : State) : Nat :=
  match state.point with
  | some (.loop point) => point.delay
  | _ => 0

/-- A reader inside the read of a line that has the file open and is past the clock at the entry
waits. -/
theorem waits_past_entry {fs : FileSystem} {base offset : Nat} {pieces : List (Piece Byte)}
    {line : List Byte} {point : TailPoint}
    (follows : Follows False fs maxBufferSize file old base offset pieces line point)
    (past : ∀ handle, point ≠ .enter handle) : ∃ since, Waiting since point := by
  cases follows.reading with
  | enter => exact absurd rfl (past _)
  | read locals => exact ⟨_, .read _ _ _ rfl⟩
  | fstat locals => exact ⟨_, .fstat _ _ _ rfl⟩
  | lseek locals fdstat same fresh => exact fresh.1.elim
  | clock locals fdstat => exact ⟨_, .clock _ _ _ _ rfl⟩
  | stat locals fdstat => exact ⟨0, .stat _ _ _ _⟩
  | close locals => exact ⟨0, .close _ _ _⟩

/-- A running thread at the end of the old file comes to wait there. -/
theorem comes_to_wait {runs : System State Label}
    (same : ∀ state now, runs.next state (.step now) = threadNext file state now) {state : State}
    {base : Nat} {point : FlywheelPoint} (named : state.fs.names file ≠ none)
    (atEnd : AtOldEnd file old new base point state) (running : state.running = true)
    (clocks : Nat → Int) :
    runs.Comes (InTime file old new)
      (fun after => after.fs = state.fs ∧ after.running = true ∧ ∃ since point,
        AtOldEnd file old new base (.reading point) after ∧ Waiting since point)
      (ownSteps clocks) state := by
  refine System.Comes.lowered
    (fun now => now.fs = state.fs ∧ now.running = true ∧
      ∃ point, AtOldEnd file old new base point now)
    (fun now => now.delay) ?_ ⟨rfl, running, point, atEnd⟩
  rintro index now ⟨sameFiles, running, point, pieces, line, reads⟩ unread ⟨-, noticed⟩
  have entering : point.takes = false ∧ point.closes = false := by
    cases point with
    | loop handle point => exact ⟨rfl, rfl⟩
    | reading point =>
      by_cases past : ∀ handle, point ≠ .enter handle
      · obtain ⟨since, waiting⟩ := waits_past_entry reads.flies.follows past
        exact absurd ⟨sameFiles, running, since, point, ⟨pieces, line, reads⟩, waiting⟩ unread
      · obtain ⟨handle, entry⟩ := Classical.not_forall.mp past
        obtain rfl := Classical.not_not.mp entry
        exact ⟨rfl, rfl⟩
  rw [ownSteps, same]
  obtain ⟨after, moved, progress⟩ := old_step reads noticed (clocks index)
  refine ⟨after, moved, ?_⟩
  cases progress with
  | within reached pieces line next kept nearer =>
    have ended : reached = (now.fs.files old).length :=
      Nat.le_antisymm kept.flies.delivered.1.within (nearer.forward id)
    refine ⟨⟨sameFiles, running, next, pieces, line, ended ▸ kept⟩, ?_⟩
    simp only [State.delay, reads.place]
    exact nearer.sooner entering.1
  | stopped halted =>
    rw [running] at halted
    cases halted
  | missed missing =>
    rw [← sameFiles] at named
    exact absurd missing named
  | leaves ended closes =>
    rw [entering.2] at closes
    cases closes

/-! ## All the way -/

/-- The steps of the thread behind the first ones of a sequence. -/
theorem own_steps_behind (clocks : Nat → Int) (index : Nat) :
    (fun later => ownSteps clocks (later + index)) =
      ownSteps fun later => clocks (later + index) := rfl

/-- A clock that goes on does so behind any step. -/
theorem Advances.behind {clocks : Nat → Int} (advances : Advances clocks) (index : Nat) :
    Advances fun later => clocks (later + index) := by
  intro time
  obtain ⟨late, arrives⟩ := advances time
  exact ⟨late, fun later passed => arrives (later + index) (passed.trans (Nat.le_add_right _ _))⟩

/-- A running thread that follows the old file and is left alone while the clock goes on queues all
lines of both files, as far as they are under the path. -/
theorem ReadsOld.completes
    (suffixFree : openedAs (filePath logdir path) = (filePath logdir path, .seekEnd))
    (fits : (filePath logdir path).length + 1 < pathMax) (distinct : new ≠ old) {state : State}
    {base offset : Nat} {pieces : List (Piece Byte)} {line : List Byte} {point : FlywheelPoint}
    (reads : ReadsOld (filePath logdir path) old new base offset pieces line point state)
    (running : state.running = true) (plainOld : PlainLines ((state.fs.files old).drop base))
    (plainNew : PlainLines (state.fs.files new)) {clocks : Nat → Int}
    (advances : Advances clocks) :
    (system logdir path).Comes (InTime (filePath logdir path) old new)
      (AllQueued (filePath logdir path) old new base state.fs) (ownSteps clocks) state := by
  have same : ∀ state now, (system logdir path).next state (.step now) =
      threadNext (filePath logdir path) state now := fun _ _ => rfl
  apply (old_read_out same reads running clocks).trans
  rintro index atEnd ⟨sameFiles, running, point, pieces, line, reads⟩
  rw [own_steps_behind]
  by_cases named : state.fs.names (filePath logdir path) = some new
  · rw [← sameFiles] at named plainOld plainNew ⊢
    apply (comes_to_wait same (by simp [named]) ⟨pieces, line, reads⟩ running _).trans
    rintro further waiter ⟨unchanged, running, since, place, still, waiting⟩
    rw [own_steps_behind]
    rw [← unchanged] at named plainOld plainNew ⊢
    apply (wait_ends same distinct named still running waiting
      ((advances.behind index).behind further)).trans
    rintro last mover ⟨kept, running, arriving⟩
    rw [← kept] at named plainOld plainNew ⊢
    exact arriving.completes suffixFree fits running named plainOld plainNew _
  · apply System.Comes.there
    refine ⟨sameFiles, ?_⟩
    obtain ⟨delivered, queued⟩ := reads.flies.delivered
    rw [if_neg named, List.append_nil, (flying_position reads.place reads.flies).1, queued]
    rw [sameFiles] at delivered
    rw [messages_exact delivered plainOld, stretch, List.take_length]

end Dragonfly.FlywheelThread
