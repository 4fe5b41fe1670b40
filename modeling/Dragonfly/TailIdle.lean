import Dragonfly.FlywheelThread

/-!
# Idle periods

After five seconds without data the reader looks up the inode of its path. A
path with a suffix names no file, so the read fails, the loop returns and the
thread opens the path again: from the start, or from the end, whatever the
suffix says. Lines already queued are queued again, or lines not yet queued are
skipped, unless the open happens to lead back to the first line not yet queued.

The file keeps its name and its inode and is only appended to.
-/

namespace Dragonfly.FlywheelThread

open Tail Flywheel

variable {logdir path : Path}

/-- Files are only appended to, and the path, read with its suffix, names no other
file. -/
def KeepsName (file : Path) (state : State) : Label → Prop
  | .rename _ _ => False
  | .create _ _ => False
  | _ => state.fs.names file = none ∨ state.fs.names file = state.fs.names (openedAs file).1

/-- Where an open after a return of the loop seeks to the start of the file, the loop left the file
in its first line; where it seeks to the end, the loop left the file there, and behind the first
opening there are complete lines only. -/
def ReopensAt (state : State) : Option ThreadPoint → Prop
  | some (.opening (.lseek file .seekSet)) => ∀ descriptor ∈ state.left,
      descriptor.offset < maxBufferSize ∧
        newline ∉ (state.fs.files file.inode).take descriptor.offset
  | some (.opening (.lseek file .seekEnd)) => ∀ descriptor ∈ state.left,
      descriptor.offset = (state.fs.files file.inode).length ∧
        ∀ first ∈ state.opened, AtLineStart state.fs first
  | _ => True

/-- Each seek of an open after a return of the loop finds the loop to have left the file where the
seek goes, or with nothing read but a part of the first line. -/
def ReopensInPlace (state : State) : Label → Prop
  | .step _ => ReopensAt state state.point
  | _ => True

instance (file : Path) (state : State) (label : Label) : Decidable (KeepsName file state label) :=
  match label with
  | .rename _ _ => .isFalse id
  | .create _ _ => .isFalse id
  | .step _ => inferInstanceAs (Decidable (_ ∨ _))
  | .append _ _ => inferInstanceAs (Decidable (_ ∨ _))
  | .stop => inferInstanceAs (Decidable (_ ∨ _))

instance (state : State) (point : Option ThreadPoint) : Decidable (ReopensAt state point) :=
  match point with
  | some (.opening (.lseek file .seekSet)) => inferInstanceAs (Decidable
      (∀ descriptor ∈ state.left, descriptor.offset < maxBufferSize ∧
        newline ∉ (state.fs.files file.inode).take descriptor.offset))
  | some (.opening (.lseek file .seekEnd)) => inferInstanceAs (Decidable
      (∀ descriptor ∈ state.left, descriptor.offset = (state.fs.files file.inode).length ∧
        ∀ first ∈ state.opened, AtLineStart state.fs first))
  | some (.opening (.openFile _)) => .isTrue trivial
  | some (.opening (.getFlags _)) => .isTrue trivial
  | some (.opening (.setFlags _)) => .isTrue trivial
  | some (.opening (.close _)) => .isTrue trivial
  | some .test => .isTrue trivial
  | some (.loop _) => .isTrue trivial
  | some (.closing _) => .isTrue trivial
  | none => .isTrue trivial

instance (state : State) (label : Label) : Decidable (ReopensInPlace state label) :=
  match label with
  | .step _ => inferInstanceAs (Decidable (ReopensAt state state.point))
  | .append _ _ => .isTrue trivial
  | .rename _ _ => .isTrue trivial
  | .create _ _ => .isTrue trivial
  | .stop => .isTrue trivial

/-- The steps of a run in which the file keeps its name and every open after a return of the loop
leads back to the first line that was not queued. -/
def LeadsBack (file : Path) (state : State) (label : Label) : Prop :=
  KeepsName file state label ∧ ReopensInPlace state label

instance (file : Path) (state : State) (label : Label) : Decidable (LeadsBack file state label) :=
  inferInstanceAs (Decidable (_ ∧ _))

/-- The messages are the lines of the file from the first opening to the descriptor of the thread,
or to where its last loop left the file, each once and in order. The thread goes on until it is
stopped; and a running thread, left alone with the file and whatever clocks it sees, goes on to
queue all lines the file has behind the first opening, unless its run leaves the guard. -/
structure EachLineOnce (runs : System State Label) (guard : State → Label → Prop)
    (target : Inode) (base : Nat) (state : State) : Prop where
  delivered : ∃ offset, state.standing.or state.left = some ⟨target, offset⟩ ∧ base ≤ offset ∧
    offset ≤ (state.fs.files target).length ∧
    state.messages = (linesOf newline (stretch (state.fs.files target) base offset)).complete
  alive : state.point = none → state.running = false
  progresses : state.running = true → ∀ clocks, runs.Comes guard
    (fun after => after.fs = state.fs ∧
      after.messages = (linesOf newline ((state.fs.files target).drop base)).complete)
    (ownSteps clocks) state

/-- The first opening was at the start of the file if the path is opened there. -/
def FirstAt (file : Path) (offset : Nat) : Prop := (openedAs file).2 = .seekSet → offset = 0

/-- The states of a thread whose every return leads back: it has opened nothing yet,
follows its file, or is outside the loop and will go on at the beginning of the line in which the
loop left off. -/
inductive Resumes (file : Path) (state : State) : Prop where
  | starting (paused : Paused state.fs file (fun descriptor => FirstAt file descriptor.offset)
        state.running state.point)
      (unopened : state.opened = none) (fresh : state.left = none) (empty : state.enqueued = [])
  | refused (unopened : state.opened = none) (ended : state.point = none)
  | flying (target : Inode) (base offset : Nat) (pieces : List (Piece Byte)) (line : List Byte)
      (point : FlywheelPoint) (opened : state.opened = some ⟨target, base⟩)
      (first : FirstAt file base) (leads : state.fs.names (openedAs file).1 = some target)
      (place : state.point = some (.loop point))
      (flies : Flies False state.fs file target base offset pieces line state.enqueued point)
  | between (target : Inode) (base offset : Nat) (pieces : List (Piece Byte)) (line : List Byte)
      (opened : state.opened = some ⟨target, base⟩) (first : FirstAt file base)
      (leads : state.fs.names (openedAs file).1 = some target)
      (left : state.left = some ⟨target, offset⟩)
      (paused : Paused state.fs file
        (fun descriptor => descriptor.offset = offset - line.length) state.running state.point)
      (delivered : Delivered (state.fs.files target) maxBufferSize base offset pieces line)
      (queued : state.enqueued = queuedFor base pieces)

/-- Appending to a file keeps the thread resuming: what it has queued stays, and lines only come
behind. -/
theorem Resumes.appended {file : Path} {state : State} (resumes : Resumes file state)
    (inode : Inode) (bytes : List Byte) :
    Resumes file { state with fs := state.fs.append inode bytes } := by
  have grown := state.fs.append_grown inode bytes
  cases resumes with
  | starting paused unopened fresh empty =>
    exact .starting (paused.carried rfl grown (fun _ _ _ first => first)) unopened fresh empty
  | refused unopened ended => exact .refused unopened ended
  | flying target base offset pieces line point opened first leads place flies =>
    exact .flying target base offset pieces line point opened first leads place
      (flies.carried (grown target) (fun _ _ leads => leads))
  | between target base offset pieces line opened first leads left paused delivered queued =>
    exact .between target base offset pieces line opened first leads left
      (paused.carried rfl grown (fun _ _ _ accept => accept)) (delivered.extended (grown target))
      queued

/-- Stopping the engine keeps the thread resuming, as it changes nothing but the flag. -/
theorem Resumes.stopped {file : Path} {state : State} (resumes : Resumes file state) :
    Resumes file { state with running := false } := by
  cases resumes with
  | starting paused unopened fresh empty => exact .starting paused.stopped unopened fresh empty
  | refused unopened ended => exact .refused unopened ended
  | flying target base offset pieces line point opened first leads place flies =>
    exact .flying target base offset pieces line point opened first leads place flies
  | between target base offset pieces line opened first leads left paused delivered queued =>
    exact .between target base offset pieces line opened first leads left paused.stopped delivered
      queued

/-- Text without a newline that is shorter than the buffer is in the buffer. -/
theorem all_buffered {content : List Byte} {offset : Nat} {pieces : List (Piece Byte)}
    {line : List Byte} (delivered : Delivered content maxBufferSize 0 offset pieces line)
    (short : offset < maxBufferSize) (unbroken : newline ∉ content.take offset) :
    line.length = offset := by
  have size := @pending_length Byte _ newline maxBufferSize (by decide) (stretch content 0 offset)
  have whole : stretch content 0 offset = content.take offset := rfl
  rw [delivered.split, whole, lines_of_unterminated unbroken,
    List.length_take_of_le delivered.within, Nat.mod_eq_of_lt short] at size
  exact size

/-- Where the file is found as the condition says, the seek leads to the beginning of the line in
which the loop left off. -/
theorem reopens_at_line {file : Path} {state : State} {target : Inode} {base offset : Nat}
    {pieces : List (Piece Byte)} {line : List Byte} {inode : Inode}
    (opened : state.opened = some ⟨target, base⟩) (first : FirstAt file base)
    (leads : state.fs.names (openedAs file).1 = some target)
    (left : state.left = some ⟨target, offset⟩)
    (delivered : Delivered (state.fs.files target) maxBufferSize base offset pieces line)
    (found : state.fs.names (openedAs file).1 = some inode)
    (inPlace : ReopensAt state (some (.opening (.lseek ⟨inode, 0⟩ (openedAs file).2)))) :
    (state.fs.seek ⟨inode, 0⟩ (openedAs file).2).offset = offset - line.length := by
  obtain rfl : inode = target := Option.some.inj (found.symm.trans leads)
  cases whence : (openedAs file).2 with
  | seekSet =>
    rw [whence] at inPlace
    obtain ⟨short, unbroken⟩ := inPlace _ left
    obtain rfl := first whence
    have all := all_buffered delivered short unbroken
    simp only [FileSystem.seek]
    omega
  | seekEnd =>
    rw [whence] at inPlace
    obtain ⟨atEnd, complete⟩ := inPlace _ left
    have whole : offset = (state.fs.files inode).length := atEnd
    subst whole
    have idle : line = [] := nothing_buffered delivered (complete _ opened)
    rw [idle]
    rfl

/-- Where the path is opened again in place, the seek of a thread outside its loop leads back to
the start of the line it was in when the loop returned. -/
theorem between_sought {file : Path} {state : State} {target : Inode} {base offset : Nat}
    {pieces : List (Piece Byte)} {line : List Byte} {point : ThreadPoint} {now : Int}
    (opened : state.opened = some ⟨target, base⟩) (first : FirstAt file base)
    (leads : state.fs.names (openedAs file).1 = some target)
    (left : state.left = some ⟨target, offset⟩) (place : state.point = some point)
    (paused : Paused state.fs file
      (fun descriptor => descriptor.offset = offset - line.length) state.running (some point))
    (delivered : Delivered (state.fs.files target) maxBufferSize base offset pieces line)
    (inPlace : ReopensInPlace state (.step now)) (inode : Inode)
    (seeks : point = .opening (.lseek ⟨inode, 0⟩ (openedAs file).2)) :
    (state.fs.seek ⟨inode, 0⟩ (openedAs file).2).offset = offset - line.length := by
  subst seeks
  rw [ReopensInPlace, place] at inPlace
  cases paused with
  | opening _ opening =>
    cases opening with
    | lseek _ found => exact reopens_at_line opened first leads left delivered found inPlace

/-- A step outside the loop keeps the thread on its way back, or enters the loop at the beginning of
the line in which it left off. -/
theorem between_resumes {file : Path} (fits : file.length ≤ pathMax) {state after : State}
    {target : Inode} {base offset : Nat} {pieces : List (Piece Byte)} {line : List Byte} {now : Int}
    (opened : state.opened = some ⟨target, base⟩) (first : FirstAt file base)
    (leads : state.fs.names (openedAs file).1 = some target)
    (left : state.left = some ⟨target, offset⟩)
    (paused : Paused state.fs file
      (fun descriptor => descriptor.offset = offset - line.length) state.running state.point)
    (delivered : Delivered (state.fs.files target) maxBufferSize base offset pieces line)
    (queued : state.enqueued = queuedFor base pieces)
    (inPlace : ReopensInPlace state (.step now))
    (moved : threadNext file state now = some after) : Resumes file after := by
  cases place : state.point with
  | none =>
    rw [threadNext, place] at moved
    cases moved
  | some point =>
    rw [place] at paused
    have sought := between_sought opened first leads left place paused delivered inPlace
    cases paused_moved place paused sought moved with
    | within _ after paused =>
      exact .between target base offset pieces line opened first leads left paused delivered queued
    | missing absent =>
      rw [leads] at absent
      cases absent
    | entered inode reached leads' within accept =>
      have sameFile : inode = target := Option.some.inj (leads'.symm.trans leads)
      have sameOffset : reached = offset - line.length := accept
      subst sameFile sameOffset
      refine .flying inode base (offset - line.length) pieces [] _ ?_ first leads rfl ?_
      · rw [opened]
        rfl
      · exact flies_entered fits queued delivered.line_start.2

/-- A path that names no other file does not lead a thread away from its file. -/
theorem stays_named {file : Path} {state : State} {target : Inode} {now : Int}
    (leads : state.fs.names (openedAs file).1 = some target)
    (keeps : KeepsName file state (.step now)) :
    ¬ ∃ other, state.fs.names file = some other ∧ other ≠ target := by
  rintro ⟨other, found, different⟩
  rcases keeps with none | same
  · rw [none] at found
    cases found
  · rw [same, leads] at found
    exact different (Option.some.inj found).symm

/-- A step of the loop follows the file, or leaves the loop. -/
theorem flying_resumes {file : Path} {state after : State} {target : Inode} {base offset : Nat}
    {pieces : List (Piece Byte)} {line : List Byte} {point : FlywheelPoint} {now : Int}
    (opened : state.opened = some ⟨target, base⟩) (first : FirstAt file base)
    (leads : state.fs.names (openedAs file).1 = some target)
    (place : state.point = some (.loop point))
    (flies : Flies False state.fs file target base offset pieces line state.enqueued point)
    (keeps : KeepsName file state (.step now))
    (moved : threadNext file state now = some after) : Resumes file after := by
  obtain ⟨delivered, queued⟩ := flies.delivered
  cases flying_moved place flies moved with
  | within _ next reached more rest kept nearer =>
    exact .flying target base reached more rest next opened first leads rfl kept
  | stopped halted =>
    refine .between target base offset pieces line opened first leads rfl (.closing _) delivered ?_
    rw [← queued]
    exact (List.append_nil _).symm
  | refused locals fdstat missing =>
    refine .between target base offset pieces line opened first leads rfl (.closing _) delivered ?_
    rw [← queued]
    exact (List.append_nil _).symm
  | leaves locals elsewhere => exact absurd elsewhere (stays_named leads keeps)

/-- Each step of the thread that leads back keeps it resuming. -/
theorem resumes_step {file : Path} (fits : file.length ≤ pathMax) {state after : State}
    {label : Label} (resumes : Resumes file state) (keeps : KeepsName file state label)
    (inPlace : ReopensInPlace state label) (moved : next file state label = some after) :
    Resumes file after := by
  cases label with
  | rename source target => exact keeps.elim
  | create path inode => exact keeps.elim
  | append inode bytes => exact Option.some.inj moved ▸ resumes.appended inode bytes
  | stop => exact Option.some.inj moved ▸ resumes.stopped
  | step now =>
    change threadNext file state now = some after at moved
    cases resumes with
    | refused unopened ended =>
      rw [threadNext, ended] at moved
      cases moved
    | starting paused unopened fresh empty =>
      cases place : state.point with
      | none =>
        rw [threadNext, place] at moved
        cases moved
      | some point =>
        rw [place] at paused
        have sought : ∀ inode, point = .opening (.lseek ⟨inode, 0⟩ (openedAs file).2) →
            FirstAt file (state.fs.seek ⟨inode, 0⟩ (openedAs file).2).offset := by
          intro inode _ whence
          rw [whence]
          rfl
        cases paused_moved place paused sought moved with
        | within _ after paused => exact .starting paused unopened fresh empty
        | missing absent => exact .refused unopened rfl
        | entered inode offset leads within first =>
          refine .flying inode offset offset [] [] _ ?_ first leads rfl ?_
          · rw [unopened]
            rfl
          · exact flies_entered fits empty (Delivered.initial _ offset within)
    | between target base offset pieces line opened first leads left paused delivered queued =>
      exact between_resumes fits opened first leads left paused delivered queued inPlace moved
    | flying target base offset pieces line point opened first leads place flies =>
      exact flying_resumes opened first leads place flies keeps moved

/-! ## The thread left alone -/

/-- A running thread with a line still to queue makes its next step and is nearer to the end of its
file. -/
theorem Resumes.onward {file : Path} {state : State} {target : Inode} {base : Nat} {now : Int}
    (resumes : Resumes file state) (opened : state.opened = some ⟨target, base⟩)
    (running : state.running = true) (plain : PlainLines ((state.fs.files target).drop base))
    (unread : state.messages ≠ (linesOf newline ((state.fs.files target).drop base)).complete)
    (keeps : KeepsName file state (.step now)) (inPlace : ReopensInPlace state (.step now)) :
    ∃ after, threadNext file state now = some after ∧ after.fs = state.fs ∧
      after.running = true ∧ after.rank target < state.rank target := by
  cases resumes with
  | starting paused unopened => simp [unopened] at opened
  | refused unopened => simp [unopened] at opened
  | between target' base' offset pieces line opened' first leads left paused delivered queued =>
    obtain ⟨rfl, rfl⟩ : target' = target ∧ base' = base := by
      simpa using opened'.symm.trans opened
    cases place : state.point with
    | none =>
      rw [place] at paused
      cases paused with
      | exited halted =>
        rw [running] at halted
        cases halted
    | some point =>
      rw [place] at paused
      obtain ⟨after, moved, progress⟩ := paused_step place paused
        (between_sought opened first leads left place paused delivered inPlace) now
      obtain ⟨sameFiles, still, lower⟩ :=
        progress.lowers place paused (by simp [leads]) target'
      exact ⟨after, moved, sameFiles, still.trans running, lower⟩
  | flying target' base' offset pieces line point opened' first leads place flies =>
    obtain ⟨rfl, rfl⟩ : target' = target ∧ base' = base := by
      simpa using opened'.symm.trans opened
    obtain ⟨delivered, queued⟩ := flies.delivered
    obtain ⟨messages, standing⟩ := flying_position place flies
    have further : offset < (state.fs.files target').length := by
      refine Nat.lt_of_le_of_ne delivered.within fun ended => unread ?_
      rw [messages, queued, messages_exact delivered plain, ended, stretch, List.take_length]
    rw [flying_rank place standing]
    obtain ⟨after, moved, progress⟩ := flying_step place flies now
    refine ⟨after, moved, ?_⟩
    cases progress with
    | within _ next reached more rest kept nearer =>
      refine ⟨rfl, running, ?_⟩
      exact lt_of_eq_of_lt (flying_rank rfl (flying_position rfl kept).2) (nearer.lowers further)
    | stopped halted =>
      rw [running] at halted
      cases halted
    | refused locals fdstat missing =>
      refine ⟨rfl, running, ?_⟩
      simp only [State.rank, ThreadPoint.pause, FlywheelPoint.rank, FlywheelPoint.idles,
        TailPoint.idles, if_true]
      omega
    | leaves locals elsewhere => exact absurd elsewhere (stays_named leads keeps)

/-- A running thread that is left alone with its file queues all plain lines of it, whatever
clocks it sees, unless it opens the path again out of place. -/
theorem Resumes.completes {state : State} {target : Inode} {base : Nat}
    (resumes : Resumes (filePath logdir path) state)
    (opened : state.opened = some ⟨target, base⟩) (running : state.running = true)
    (plain : PlainLines ((state.fs.files target).drop base)) (clocks : Nat → Int) :
    (system logdir path).Comes (LeadsBack (filePath logdir path))
      (fun after => after.fs = state.fs ∧
        after.messages = (linesOf newline ((state.fs.files target).drop base)).complete)
      (ownSteps clocks) state := by
  refine System.Comes.lowered
    (fun now => Resumes (filePath logdir path) now ∧ now.fs = state.fs ∧
      now.opened = some ⟨target, base⟩ ∧ now.running = true)
    (fun now => now.rank target) ?_ ⟨resumes, rfl, opened, running⟩
  rintro index now ⟨resumes, sameFiles, opened, running⟩ unread ⟨keeps, inPlace⟩
  obtain ⟨after, moved, unchanged, still, lower⟩ := resumes.onward opened running
    (sameFiles ▸ plain) (fun read => unread ⟨sameFiles, sameFiles ▸ read⟩) keeps inPlace
  refine ⟨after, moved, ⟨?_, unchanged.trans sameFiles, ?_, still⟩, lower⟩
  · exact resumes_step (file_path_length logdir path) resumes keeps inPlace moved
  · exact opened_kept opened moved

/-- Whatever the suffix and the idle periods: as long as an open after a return of the loop that goes
to the start of the file finds none of its lines queued, and one that goes to the end finds all of
them queued, the plain lines of the file are queued once and in order. -/
theorem idle_survived {state : State}
    (reached : (system logdir path).Reaches (LeadsBack (filePath logdir path)) state)
    {target : Inode} {base : Nat} (opened : state.opened = some ⟨target, base⟩)
    (plain : PlainLines ((state.fs.files target).drop base)) :
    EachLineOnce (system logdir path) (LeadsBack (filePath logdir path)) target base state := by
  have resumes : Resumes (filePath logdir path) state := by
    apply reached.invariant
    · rintro _ ⟨fs, rfl⟩
      exact .starting .test rfl rfl rfl
    · exact fun _ _ _ resumes admitted moved =>
        resumes_step (file_path_length logdir path) resumes admitted.1 admitted.2 moved
  have progresses := fun running => resumes.completes opened running plain
  cases resumes with
  | starting paused unopened => simp [unopened] at opened
  | refused unopened => simp [unopened] at opened
  | flying target' base' offset pieces line point opened' first leads place flies =>
    obtain ⟨rfl, rfl⟩ : target' = target ∧ base' = base := by
      simpa using opened'.symm.trans opened
    obtain ⟨delivered, queued⟩ := flies.delivered
    obtain ⟨messages, standing⟩ := flying_position place flies
    refine ⟨⟨offset, ?_, delivered.started, delivered.within, ?_⟩, by simp [place], progresses⟩
    · rw [standing, Option.some_or]
    · rw [← messages_exact delivered plain, ← queued, messages]
  | between target' base' offset pieces line opened' first leads left paused delivered queued =>
    obtain ⟨rfl, rfl⟩ : target' = target ∧ base' = base := by
      simpa using opened'.symm.trans opened
    obtain ⟨messages, standing, halted⟩ := paused.silent
    refine ⟨⟨offset, ?_, delivered.started, delivered.within, ?_⟩, halted, progresses⟩
    · rw [standing, Option.none_or, left]
    · rw [← messages_exact delivered plain, ← queued, messages]

/-- A file system with one file, `/x`, which has the given content. -/
def oneFile (content : List Byte) : FileSystem where
  names path := if path = [47, 120] then some 1 else none
  files inode := if inode = 1 then content else []

/-- The path `/x<` is opened on an empty file; after five idle seconds the thread
opens it again, at the start and in place; then `"a\n"` is written and queued once. -/
theorem idle_survived_empty_file : ∃ state, state.messages = [[97]] ∧
    EachLineOnce (system [47] [47, 120, 60]) (LeadsBack (filePath [47] [47, 120, 60])) 1 0 state := by
  have run : ∃ state, (system [47] [47, 120, 60]).follow
      [.step 0, .step 0, .step 0, .step 0, .step 0, .step 0, .step 0, .step 0, .step 0, .step 5,
        .step 5, .step 5, .step 5, .step 5, .step 5, .step 5, .step 5, .append 1 [97, 10],
        .step 5, .step 5, .step 5, .step 5, .step 5]
      (initial (oneFile [])) = some state ∧
      state.messages = [[97]] ∧ state.opened = some ⟨1, 0⟩ ∧ state.fs.files 1 = [97, 10] :=
    ⟨_, rfl, rfl, rfl, rfl⟩
  obtain ⟨state, completed, messages, opened, content⟩ := run
  have started : (system [47] [47, 120, 60]).start (initial (oneFile [])) := ⟨_, rfl⟩
  have reached : (system [47] [47, 120, 60]).Reaches (LeadsBack (filePath [47] [47, 120, 60]))
      state :=
    (System.Reaches.initial started).followed _ state (by decide) completed
  have plain : PlainLines ((state.fs.files 1).drop 0) := by
    rw [content]
    decide
  exact ⟨state, messages, idle_survived reached opened plain⟩

/-- With the same path a line that was queued before the idle period is queued
again. -/
theorem idle_repeats_line :
    ¬ ∀ state, (system [47] [47, 120, 60]).Reaches (KeepsName (filePath [47] [47, 120, 60])) state →
      state.opened = some ⟨1, 0⟩ → PlainLines (state.fs.files 1) →
        EachLineOnce (system [47] [47, 120, 60]) (KeepsName (filePath [47] [47, 120, 60])) 1 0
          state := by
  intro claimed
  have run : ∃ state, (system [47] [47, 120, 60]).follow
      [.step 0, .step 0, .step 0, .step 0, .step 0, .step 0, .step 0, .step 0, .step 0, .step 0,
        .step 0, .step 0, .step 0, .step 0, .step 5, .step 5, .step 5, .step 5, .step 5, .step 5,
        .step 5, .step 5, .step 5, .step 5, .step 5, .step 5, .step 5]
      (initial (oneFile [97, 10])) = some state ∧
      state.messages = [[97], [97]] ∧ state.opened = some ⟨1, 0⟩ ∧ state.fs.files 1 = [97, 10] :=
    ⟨_, rfl, rfl, rfl, rfl⟩
  obtain ⟨state, completed, messages, opened, content⟩ := run
  have started : (system [47] [47, 120, 60]).start (initial (oneFile [97, 10])) := ⟨_, rfl⟩
  have reached : (system [47] [47, 120, 60]).Reaches (KeepsName (filePath [47] [47, 120, 60])) state :=
    (System.Reaches.initial started).followed _ state (by decide) completed
  have plain : PlainLines (state.fs.files 1) := by
    rw [content]
    decide
  obtain ⟨offset, _, _, _, exact⟩ := (claimed state reached opened plain).delivered
  have behind : stretch (state.fs.files 1) 0 offset <+: state.fs.files 1 := List.take_prefix _ _
  have few := (complete_initial newline behind).length_le
  rw [← exact, messages, content] at few
  exact absurd few (by decide)

end Dragonfly.FlywheelThread
