import Dragonfly.Flywheel
import Dragonfly.Transitions

/-!
# What the flywheel loop puts into the queue

The loop runs on a tail whose descriptor stands anywhere in the file, while any
file may grow and the engine may be stopped. The path of the handle leads to the
file, or nowhere when it carries a suffix.

A message is located by the offset of the descriptor when it is queued, so that
a message is a whole line only where it was read, not because an equal line
stands elsewhere.
-/

namespace Dragonfly.FlywheelLines

open Tail Flywheel

/-- The files, `g_running`, the loop until it returns, and what it put into the queue. -/
structure State where
  fs : FileSystem
  running : Bool
  point : Option FlywheelPoint
  enqueued : List (Piece Byte)

/-- An operation of the loop, an append, or the end of the engine. -/
inductive Label where
  | step (now : Int)
  | append (inode : Inode) (bytes : List Byte)
  | stop

/-- One step of the flywheel, of a process that appends to a file, or of the engine, which is
stopped. -/
def next (state : State) : Label → Option State
  | .step now =>
      match state.point with
      | none => none
      | some point =>
          let enqueued := state.enqueued ++ sending point
          match (luaFlywheelLoopTail point).perform state.fs state.running now with
          | .goto after => some { state with point := some after, enqueued := enqueued }
          | .ret _ => some { state with point := none, enqueued := enqueued }
          | .exit => none
  | .append inode bytes => some { state with fs := state.fs.append inode bytes }
  | .stop => some { state with running := false }

/-- A loop that is about to begin at an offset of a file. -/
def initial (path : Path) (target : Inode) (base : Nat) (fs : FileSystem) : State where
  fs := fs
  running := true
  point := some (.loop ⟨some ⟨target, base⟩, path⟩ .test)
  enqueued := []

/-- The path of the handle leads to the file that is followed, or it leads nowhere. -/
def Named (fs : FileSystem) (path : Path) (target : Inode) : Prop :=
  ∀ other, fs.names path = some other → other = target

/-- The runs of the loop from an offset of a file. -/
def system (path : Path) (target : Inode) (base : Nat) : System State Label where
  start state := ∃ fs, base ≤ (fs.files target).length ∧ Named fs path target ∧
    state = initial path target base fs
  next := next

/-- Every message is a line of the text that begins at the start offset, and fits
the buffer. -/
def OnlyWholeLines (base : Nat) (text : List Byte) (state : State) : Prop :=
  ∀ piece ∈ state.enqueued,
    WholeLine newline text ⟨piece.position - base, piece.items⟩ ∧
      piece.items.length < maxBufferSize

/-- The loop flies on its file, or has returned with its reports queued. -/
structure Sound (path : Path) (target : Inode) (base : Nat) (state : State) : Prop where
  named : Named state.fs path target
  position : match state.point with
    | some point => ∃ offset pieces line,
        Flies False state.fs path target base offset pieces line state.enqueued point
    | none => ∃ offset pieces line,
        Delivered (state.fs.files target) maxBufferSize base offset pieces line ∧
          state.enqueued = queuedFor base pieces

variable {path : Path} {target : Inode} {base : Nat}

/-- Each step keeps the loop sound: it follows the file, and the queue has got the messages of
its reports so far. -/
theorem sound_step {state after : State} {label : Label} (sound : Sound path target base state)
    (moved : next state label = some after) : Sound path target base after := by
  obtain ⟨named, position⟩ := sound
  cases label with
  | append inode bytes =>
    have grown := state.fs.append_grown inode bytes target
    have same : { state with fs := state.fs.append inode bytes } = after := Option.some.inj moved
    subst same
    refine ⟨named, ?_⟩
    cases place : state.point with
    | none =>
      simp only [place] at position ⊢
      obtain ⟨offset, pieces, line, delivered, queued⟩ := position
      exact ⟨offset, pieces, line, delivered.extended grown, queued⟩
    | some point =>
      simp only [place] at position ⊢
      obtain ⟨offset, pieces, line, flies⟩ := position
      exact ⟨offset, pieces, line, flies.carried grown (fun _ _ leads => leads)⟩
  | stop => exact Option.some.inj moved ▸ ⟨named, position⟩
  | step now =>
    cases place : state.point with
    | none => simp [next, place] at moved
    | some point =>
      simp only [place] at position
      obtain ⟨offset, pieces, line, flies⟩ := position
      obtain ⟨delivered, queued⟩ := flies.delivered
      have progress : FlywheelProgress False state.fs state.running path target base offset
          state.enqueued point ((luaFlywheelLoopTail point).perform state.fs state.running now) :=
        flies_step flies now
      simp only [next, place] at moved
      generalize (luaFlywheelLoopTail point).perform state.fs state.running now = outcome
        at progress moved
      cases progress with
      | within _ after reached more rest kept nearer =>
        exact Option.some.inj moved ▸ ⟨named, reached, more, rest, kept⟩
      | stopped halted =>
        exact Option.some.inj moved ▸ ⟨named, offset, pieces, line, delivered, queued⟩
      | refused locals fdstat missing =>
        exact Option.some.inj moved ▸ ⟨named, offset, pieces, line, delivered, queued⟩
      | leaves locals elsewhere =>
        obtain ⟨other, leads, different⟩ := elsewhere
        exact absurd (named other leads) different

/-- Every reachable state is sound, whatever the order in which the file grew and the loop
moved. -/
theorem sound_reachable {state : State} (reached : (system path target base).Reachable state) :
    Sound path target base state := by
  apply reached.invariant
  · rintro _ ⟨fs, within, named, rfl⟩
    exact ⟨named, base, [], [], .idle [] .test (.inl rfl) (Delivered.initial _ base within)⟩
  · exact fun _ _ _ sound _ moved => sound_step sound moved

/-- What a sound loop has queued are reports on the text behind its descriptor. -/
theorem Sound.reports {state : State} (sound : Sound path target base state) :
    ∃ offset, state.enqueued <+: queuedFor base
      (splitOf newline maxBufferSize (stretch (state.fs.files target) base offset)).pieces := by
  obtain ⟨_, position⟩ := sound
  cases place : state.point with
  | none =>
    simp only [place] at position
    obtain ⟨offset, pieces, line, delivered, queued⟩ := position
    exact ⟨offset, by rw [delivered.split, queued]⟩
  | some point =>
    simp only [place] at position
    obtain ⟨offset, pieces, line, flies⟩ := position
    obtain ⟨delivered, queued⟩ := flies.delivered
    exact ⟨offset, by rw [delivered.split, ← queued]; exact List.prefix_append _ _⟩

/-- The reports queued are whole lines exactly when all but full buffers are. -/
theorem queued_whole_iff (base : Nat) (text : List Byte) (consumed : List Byte) :
    (∀ piece ∈ queuedFor base (splitOf newline maxBufferSize consumed).pieces,
        WholeLine newline text ⟨piece.position - base, piece.items⟩ ∧
          piece.items.length < maxBufferSize) ↔
      WholeLinesOnly newline maxBufferSize text
        (splitOf newline maxBufferSize consumed).pieces := by
  have bounded : ∀ piece ∈ (splitOf newline maxBufferSize consumed).pieces,
      piece.items.length ≤ maxBufferSize := piece_bounded (by decide) consumed
  constructor
  · intro whole piece listed line
    have queued : (⟨base + piece.position, piece.items⟩ : Piece Byte) ∈
        queuedFor base (splitOf newline maxBufferSize consumed).pieces :=
      List.mem_map.mpr ⟨piece, List.mem_filter.mpr ⟨listed, by simpa using line⟩, rfl⟩
    have located := (whole _ queued).1
    rwa [Nat.add_sub_cancel_left] at located
  · intro whole entry queued
    obtain ⟨piece, kept, rfl⟩ := List.mem_map.mp queued
    obtain ⟨listed, line⟩ := List.mem_filter.mp kept
    have line : piece.items.length ≠ maxBufferSize := by simpa using line
    constructor
    · rw [Nat.add_sub_cancel_left]
      exact whole piece listed line
    · exact Nat.lt_of_le_of_ne (bounded piece listed) line

/-- When every line is shorter than the buffer or a multiple of it, only whole
lines are queued. -/
theorem whole_lines_queued {state : State} (reached : (system path target base).Reachable state)
    (fits : ∀ line ∈ (linesOf newline ((state.fs.files target).drop base)).complete,
      line.length < maxBufferSize ∨ maxBufferSize ∣ line.length) :
    OnlyWholeLines base ((state.fs.files target).drop base) state := by
  obtain ⟨offset, queued⟩ := (sound_reachable reached).reports
  have behind : stretch (state.fs.files target) base offset <+:
      (state.fs.files target).drop base :=
    stretch_prefix ..
  have consumed := (whole_lines_iff (by decide : 0 < maxBufferSize) _).mpr
    (fun line listed => fits line ((complete_initial newline behind).subset listed))
  obtain ⟨more, text⟩ := behind
  rw [← text]
  intro piece listed
  exact (queued_whole_iff base _ _).mpr ((whole_lines_only_extend _ more).mpr consumed) piece
    (queued.subset listed)

/-! ## Reading to the end -/

/-- A flying loop whose path leads to its file makes its next step and is nearer to
the end of the file. -/
theorem flight_step {state : State} {offset : Nat} {pieces : List (Piece Byte)} {line : List Byte}
    {point : FlywheelPoint} (place : state.point = some point) (running : state.running = true)
    (leads : state.fs.names path = some target)
    (flies : Flies False state.fs path target base offset pieces line state.enqueued point) :
    ∃ after reached more rest place, next state (.step 0) = some after ∧ after.fs = state.fs ∧
      after.running = true ∧ after.point = some place ∧
      Flies False state.fs path target base reached more rest after.enqueued place ∧
      Nearer False (state.fs.files target).length offset reached point place := by
  have progress : FlywheelProgress False state.fs state.running path target base offset
      state.enqueued point ((luaFlywheelLoopTail point).perform state.fs state.running 0) :=
    flies_step flies 0
  simp only [next, place]
  generalize (luaFlywheelLoopTail point).perform state.fs state.running 0 = outcome
    at progress ⊢
  cases progress with
  | within _ after reached more rest kept nearer =>
    exact ⟨_, reached, more, rest, after, rfl, rfl, running, rfl, kept, nearer⟩
  | stopped halted =>
    rw [running] at halted
    cases halted
  | refused locals fdstat missing =>
    rw [leads] at missing
    cases missing
  | leaves locals elsewhere =>
    obtain ⟨other, found, different⟩ := elsewhere
    rw [leads] at found
    exact absurd (Option.some.inj found).symm different

/-- A flying loop at the end of its file, with nothing in hand. -/
def AtEnd (path : Path) (target : Inode) (base : Nat) (state : State) : Prop :=
  ∃ point pieces line, state.point = some point ∧ sending point = [] ∧
    Flies False state.fs path target base (state.fs.files target).length pieces line
      state.enqueued point

/-- A loop that has come to the end of its file has queued every report on what lies behind the
start. -/
theorem AtEnd.queued {state : State} (atEnd : AtEnd path target base state) :
    state.enqueued = queuedFor base
      (splitOf newline maxBufferSize ((state.fs.files target).drop base)).pieces := by
  obtain ⟨point, pieces, line, _, silent, flies⟩ := atEnd
  obtain ⟨delivered, queued⟩ := flies.delivered
  rw [silent, List.append_nil] at queued
  have split := delivered.split
  rw [stretch, List.take_length] at split
  rw [split, queued]

/-- Left alone, the loop reaches the end of its file. -/
theorem flight_completes (measure : Nat) :
    ∀ {state : State} {offset : Nat} {pieces : List (Piece Byte)} {line : List Byte}
      {point : FlywheelPoint}, (system path target base).Reachable state →
      state.point = some point → state.running = true → state.fs.names path = some target →
      Flies False state.fs path target base offset pieces line state.enqueued point →
      8 * ((state.fs.files target).length - offset) + point.delay ≤ measure →
      ∃ after, (system path target base).Reachable after ∧ after.fs = state.fs ∧
        AtEnd path target base after := by
  induction measure using Nat.strong_induction_on with
  | _ measure inductionHypothesis =>
    intro state offset pieces line point reached place running leads flies bound
    have within := flies.delivered.1.within
    by_cases ended : offset = (state.fs.files target).length ∧ sending point = []
    · exact ⟨state, reached, rfl, point, pieces, line, place, ended.2, ended.1 ▸ flies⟩
    · have something : offset < (state.fs.files target).length ∨ sending point ≠ [] := by
        by_cases unread : offset < (state.fs.files target).length
        · exact .inl unread
        · exact .inr (fun silent => ended ⟨by omega, silent⟩)
      obtain ⟨middle, ahead, more, rest, next, stepped, sameFiles, still, placed, kept, nearer⟩ :=
        flight_step place running leads flies
      have less := nearer.nearer id something
      obtain ⟨after, arrived, unchanged, atEnd⟩ :=
        inductionHypothesis _ (Nat.lt_of_lt_of_le less bound)
          (reached.extend (.step 0) trivial stepped) placed still (by rw [sameFiles]; exact leads)
          (by rw [sameFiles]; exact kept) (by rw [sameFiles])
      rw [sameFiles] at unchanged
      exact ⟨after, arrived, unchanged, atEnd⟩

/-- For every text there is a run that reads it to the end. -/
theorem every_text_read (path : Path) (target : Inode) (base : Nat) (text : List Byte) :
    ∃ state, (system path target base).Reachable state ∧
      (state.fs.files target).drop base = text ∧ AtEnd path target base state := by
  let fs : FileSystem := ⟨fun _ => some target, fun _ => List.replicate base 0 ++ text⟩
  have content : (fs.files target).drop base = text := by simp [fs]
  have within : base ≤ (fs.files target).length := by simp [fs]
  have reached : (system path target base).Reachable (initial path target base fs) :=
    System.Reaches.initial ⟨fs, within, fun other leads => (Option.some.inj leads).symm, rfl⟩
  obtain ⟨state, arrived, sameFiles, atEnd⟩ := flight_completes _ reached rfl rfl rfl
    (.idle [] .test (.inl rfl) (Delivered.initial _ base within)) (Nat.le_refl _)
  refine ⟨state, arrived, ?_, atEnd⟩
  rw [sameFiles]
  exact content

/-- For every text there is a run over a file with this text, at the end of which every report
on it was queued. -/
theorem every_report_queued (path : Path) (target : Inode) (base : Nat) (text : List Byte) :
    ∃ state, (system path target base).Reachable state ∧
      (state.fs.files target).drop base = text ∧
      state.enqueued = queuedFor base (splitOf newline maxBufferSize text).pieces := by
  obtain ⟨state, reached, content, atEnd⟩ := every_text_read path target base text
  exact ⟨state, reached, content, by rw [← content]; exact atEnd.queued⟩

/-- The loop queues only whole lines of a text, in every run, exactly when every
terminated line of the text is shorter than the buffer or a multiple of it. -/
theorem only_whole_lines_iff (path : Path) (target : Inode) (base : Nat) (text : List Byte) :
    (∀ state, (system path target base).Reachable state →
        (state.fs.files target).drop base = text → OnlyWholeLines base text state) ↔
      ∀ line ∈ (linesOf newline text).complete,
        line.length < maxBufferSize ∨ maxBufferSize ∣ line.length := by
  constructor
  · intro whole
    obtain ⟨state, reached, content, queued⟩ := every_report_queued path target base text
    have only := whole state reached content
    rw [OnlyWholeLines, queued] at only
    exact (whole_lines_iff (by decide : 0 < maxBufferSize) text).mp
      ((queued_whole_iff base text text).mp only)
  · rintro fits state reached rfl
    exact whole_lines_queued reached fits

/-- A line one byte longer than the buffer is cut, and its last byte is queued as
a message. -/
theorem fragment_enqueued :
    ¬ ∀ path target base text state, (system path target base).Reachable state →
      (state.fs.files target).drop base = text → OnlyWholeLines base text state := by
  intro claimed
  have other : newline ∉ List.replicate 32769 (97 : Byte) := by
    intro present
    exact absurd (List.eq_of_mem_replicate present) (by decide)
  obtain ⟨state, reached, content, queued⟩ :=
    every_report_queued [47, 120] 1 0 (List.replicate 32769 97 ++ [newline])
  have only := claimed _ _ _ _ state reached content
  rw [OnlyWholeLines, queued] at only
  have fits := (whole_lines_iff (by decide : 0 < maxBufferSize) _).mp
    ((queued_whole_iff 0 _ _).mp only)
  rw [lines_of_separator, lines_of_unterminated other] at fits
  have line := fits (List.replicate 32769 97) (List.mem_append_right _ List.mem_cons_self)
  rw [List.length_replicate, maxBufferSize] at line
  omega

end Dragonfly.FlywheelLines
