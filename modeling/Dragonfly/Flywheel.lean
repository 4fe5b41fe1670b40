import Dragonfly.TailFollowing

/-!
# The flywheel: `lua_flywheel_loop` and `lua_flywheel_thread`

The loop reads a message from the source and puts it into the input queue; a
read that fills the buffer is skipped, a negative one ends the loop. The thread
opens the source, runs the loop, closes the source and opens it again, unless
the source is a flat file.

The loop is given once for any source and once with `tail_read_line` in place of
the read. Putting a message into the queue is one step here; what the queue does
with it is a matter of its own. Logging is left out.
-/

namespace Dragonfly.Flywheel

open Tail

/-- The constant `_MAX_BUFFER_SIZE_`: the size of the buffers in which messages are read, queued
and received. -/
def maxBufferSize : Nat := 32768

/-- One shared operation of the loop over any source: the load of the flag, a read from the
source, or a message for the queue. -/
inductive LoopOperation (Point Result : Type) where
  | loadRunning (resume : Bool → Outcome Point Result)
  | ioRead (len : Nat) (resume : Int → List Byte → Outcome Point Result)
  | send (message : List Byte) (resume : Outcome Point Result)

/-- The points of `lua_flywheel_loop`: the loop condition, the read, and the
`msgqueue_send`. -/
inductive LoopPoint where
  | test
  | read
  | send (message : List Byte)

/-- What follows the read: a negative count ends the loop, a full buffer is skipped, and
anything else is put into the queue, an empty line included. -/
def afterRead (n : Int) (buffer : List Byte) : Outcome LoopPoint Unit :=
  if n < 0 then .ret ()
  else if n = maxBufferSize then .goto .test
  else .goto (.send (buffer.take n.toNat))

/-- The function `lua_flywheel_loop` over any source: it tests the flag, reads, and sends what
was read. -/
def luaFlywheelLoop : LoopPoint → LoopOperation LoopPoint Unit
  | .test => .loadRunning fun running => if running then .goto .read else .ret ()
  | .read => .ioRead maxBufferSize afterRead
  | .send message => .send message (.goto .test)

/-! ## On a tail -/

/-- One shared operation of the flywheel thread on a tail. -/
inductive Operation (Point Result : Type) where
  | loadRunning (resume : Bool → Outcome Point Result)
  | file (operation : FileOperation Point Result)
  | send (message : List Byte) (resume : Outcome Point Result)

/-- An operation of a function that is called becomes one of its caller: what the callee returns
is given to the caller's continuation. -/
def Operation.call {Point Result Outer Final : Type} (inside : Point → Outer)
    (returned : Result → Outcome Outer Final) : Operation Point Result → Operation Outer Final
  | .loadRunning resume => .loadRunning fun running => (resume running).call inside returned
  | .file operation => .file (operation.call inside returned)
  | .send message resume => .send message (resume.call inside returned)

/-- Perform an operation with these files, this value of `g_running` and this clock. -/
def Operation.perform {Point Result : Type} (fs : FileSystem) (running : Bool) (now : Int) :
    Operation Point Result → Outcome Point Result
  | .loadRunning resume => resume running
  | .file operation => fs.perform now operation
  | .send _ resume => resume

/-- An operation of a callee is performed alike inside its caller, and the outcome is the
callee's as the caller sees it. -/
@[simp] theorem perform_call {Point Result Outer Final : Type} (fs : FileSystem) (running : Bool)
    (now : Int) (operation : Operation Point Result) (inside : Point → Outer)
    (returned : Result → Outcome Outer Final) :
    (operation.call inside returned).perform fs running now =
      (operation.perform fs running now).call inside returned := by
  cases operation with
  | loadRunning resume => rfl
  | file operation => exact fs.perform_call now operation inside returned
  | send message resume => rfl

/-- The loop with its handle, or inside the read of a line. -/
inductive FlywheelPoint where
  | loop (handle : Handle) (point : LoopPoint)
  | reading (point : TailPoint)

/-- The loop continues on its handle; at its end the handle is the thread's again. -/
def onHandle (handle : Handle) (outcome : Outcome LoopPoint Unit) : Outcome FlywheelPoint Handle :=
  outcome.call (.loop handle) fun _ => .ret handle

/-- The call of `tail_read_line` inside the loop: it goes on at its next point, or the loop goes
on with what was read. -/
def readTail (len : Nat) (point : TailPoint) : FileOperation FlywheelPoint Handle :=
  (tailReadLine len point).call .reading fun returned =>
    onHandle returned.handle (afterRead returned.n returned.data)

/-- The function `lua_flywheel_loop` on a tail, whose read is a call of `tail_read_line` that
takes steps of its own. -/
def luaFlywheelLoopTail : FlywheelPoint → Operation FlywheelPoint Handle
  | .loop handle point =>
      match luaFlywheelLoop point with
      | .loadRunning resume => .loadRunning fun running => onHandle handle (resume running)
      | .ioRead len _ => .file (readTail len (.enter handle))
      | .send message resume => .send message (onHandle handle resume)
  | .reading point => .file (readTail maxBufferSize point)

/-- The types of handles that the flywheel thread tells apart: `DF_IN_FILE_TYPE`,
`DF_OUT_FILE_TYPE` and `DF_IN_TAIL_TYPE`. -/
inductive IoType where
  | inFile
  | outFile
  | inTail
deriving DecidableEq

/-- The function `dragonfly_io_isfile`, which is true for the two types of flat files and not
for a tail. -/
def dragonflyIoIsfile (type : IoType) : Bool := type = .outFile || type = .inFile

/-- The points of `lua_flywheel_thread`: the loop condition, `dragonfly_io_open`,
the loop, and the `close` in `dragonfly_io_close`. -/
inductive ThreadPoint where
  | test
  | opening (point : OpenPoint)
  | loop (point : FlywheelPoint)
  | closing (file : OpenFile)

/-- What follows `dragonfly_io_close`. The thread asks the freed handle for its
type, which is taken to be still there. -/
def afterClose : Outcome ThreadPoint Unit :=
  if dragonflyIoIsfile .inTail then .ret () else .goto .test

/-- `dragonfly_io_close` of a tail: only an open descriptor is closed. -/
def ioClose (handle : Handle) : Outcome ThreadPoint Unit :=
  match handle.fd with
  | some file => .goto (.closing file)
  | none => afterClose

/-- The function `lua_flywheel_thread` on the tail under a path: it opens the path, runs the
loop, closes the handle behind it and starts again while the engine runs. -/
def luaFlywheelThread (path : Path) : ThreadPoint → Operation ThreadPoint Unit
  | .test => .loadRunning fun running =>
      if running then .goto (.opening (.openFile path)) else .ret ()
  | .opening point => .file ((tailOpen path point).call .opening fun
      | none => .ret ()
      | some handle => .goto (.loop (.loop handle .test)))
  | .loop point => (luaFlywheelLoopTail point).call .loop ioClose
  | .closing file => .file (.close file afterClose)

/-! ## The flywheel follows a file -/

/-- The message a step from this point puts into the queue, with the offset of the
descriptor. -/
def sending : FlywheelPoint → List (Piece Byte)
  | .loop ⟨some file, _⟩ (.send message) => [⟨file.offset, message⟩]
  | .loop ⟨none, _⟩ (.send message) => [⟨0, message⟩]
  | _ => []

/-- What the loop puts into the queue for the reports of the reader: all but full
buffers, at their offsets in the file. -/
def queuedFor (base : Nat) (pieces : List (Piece Byte)) : List (Piece Byte) :=
  (pieces.filter fun piece => decide (piece.items.length ≠ maxBufferSize)).map
    fun piece => ⟨base + piece.position, piece.items⟩

@[simp] theorem queued_for_nil (base : Nat) : queuedFor base [] = [] := rfl

/-- A report that fills the buffer is not put into the queue, so the queue stays as it is. -/
theorem queued_for_full (base : Nat) (pieces : List (Piece Byte)) {piece : Piece Byte}
    (full : piece.items.length = maxBufferSize) :
    queuedFor base (pieces ++ [piece]) = queuedFor base pieces := by
  simp [queuedFor, full]

/-- A report that does not fill the buffer is put into the queue as a message, at its place in
the file. -/
theorem queued_for_line (base : Nat) (pieces : List (Piece Byte)) {piece : Piece Byte}
    (line : piece.items.length ≠ maxBufferSize) :
    queuedFor base (pieces ++ [piece]) =
      queuedFor base pieces ++ [⟨base + piece.position, piece.items⟩] := by
  simp [queuedFor, line]

/-- The flywheel has the file open and has queued, or is about to queue, the
reports on what lies behind its descriptor. -/
inductive Flies (moved : Prop) (fs : FileSystem) (path : Path) (target : Inode)
    (base offset : Nat) : List (Piece Byte) → List Byte → List (Piece Byte) → FlywheelPoint →
    Prop where
  | idle (pieces : List (Piece Byte)) (point : LoopPoint) (between : point = .test ∨ point = .read)
      (delivered : Delivered (fs.files target) maxBufferSize base offset pieces []) :
      Flies moved fs path target base offset pieces [] (queuedFor base pieces)
        (.loop ⟨some ⟨target, offset⟩, path⟩ point)
  | sending (pieces : List (Piece Byte)) (piece : Piece Byte)
      (line : piece.items.length ≠ maxBufferSize) (position : base + piece.position = offset)
      (delivered : Delivered (fs.files target) maxBufferSize base offset (pieces ++ [piece]) []) :
      Flies moved fs path target base offset (pieces ++ [piece]) [] (queuedFor base pieces)
        (.loop ⟨some ⟨target, offset⟩, path⟩ (.send piece.items))
  | reading (pieces : List (Piece Byte)) (line : List Byte) (point : TailPoint)
      (follows : Follows moved fs maxBufferSize path target base offset pieces line point) :
      Flies moved fs path target base offset pieces line (queuedFor base pieces) (.reading point)

/-- On short lines the queue gets the nonempty terminated lines. -/
theorem queued_short (base : Nat) {text : List Byte}
    (short : (linesOf newline text).Short maxBufferSize) :
    (queuedFor base (splitOf newline maxBufferSize text).pieces).map Piece.items =
      (linesOf newline text).complete.filter fun line => decide (line ≠ []) := by
  have reported := (split_short short).1
  have all : ∀ piece ∈ (splitOf newline maxBufferSize text).pieces,
      decide (piece.items.length ≠ maxBufferSize) = true := by
    intro piece listed
    have line : piece.items ∈ (linesOf newline text).complete.filter
        fun line => decide (line ≠ []) := reported ▸ List.mem_map_of_mem listed
    exact decide_eq_true (Nat.ne_of_lt (short.1 _ (List.mem_of_mem_filter line)))
  rw [queuedFor, List.filter_eq_self.mpr all, List.map_map, ← reported]
  rfl

/-- Operations until the next `read` of a byte, while there is something to read. -/
def FlywheelPoint.delay : FlywheelPoint → Nat
  | .loop _ .test => 6
  | .loop _ .read => 5
  | .loop _ (.send _) => 7
  | .reading point => point.delay

/-- Operations of the thread until it is in the loop again. -/
def ThreadPoint.pause : ThreadPoint → Nat
  | .closing _ => 6
  | .test => 5
  | .opening point => point.delay
  | .loop _ => 0

/-- The flywheel is inside its reader, which is about to compare the inode of the path with that
of the descriptor. -/
def FlywheelPoint.checks : FlywheelPoint → Bool
  | .reading point => point.checks
  | _ => false

/-- The flywheel is about to close its file to open another one. -/
def FlywheelPoint.closes : FlywheelPoint → Bool
  | .reading point => point.closes
  | _ => false

/-- The flywheel met the end of the file and has not gone on to the next read. -/
def FlywheelPoint.idles : FlywheelPoint → Bool
  | .reading point => point.idles
  | _ => false

/-- The flywheel is inside its reader, which is about to take a byte of the file. -/
def FlywheelPoint.takes : FlywheelPoint → Bool
  | .reading point => point.takes
  | _ => false

/-- With something to read, or a message in hand, the flywheel is nearer to the end of the file. As
long as something is left to read it does not look at the clock or at its path, except at the end
of an idle round in which it came in. Every operation but the read of a byte is nearer to the next
read of one; and the file is closed only right after comparing inodes. -/
structure Nearer (moved : Prop) (size offset reached : Nat) (point after : FlywheelPoint) :
    Prop where
  forward : ¬ moved → offset ≤ reached
  nearer : ¬ moved → offset < size ∨ sending point ≠ [] →
    8 * (size - reached) + after.delay < 8 * (size - offset) + point.delay
  busy : point.idles = false → offset < size → after.idles = false ∧
    8 * (size - reached) + after.delay < 8 * (size - offset) + point.delay
  sooner : point.takes = false → after.delay < point.delay
  leaving : after.closes → point.checks ∧ reached = offset

/-- A bound on the steps a flywheel needs to the end of its file, in which an idle round counts for
more than reading the file anew from its start. -/
def FlywheelPoint.rank (size offset : Nat) (point : FlywheelPoint) : Nat :=
  if point.idles then 8 * size + 40 + point.delay else 8 * (size - offset) + point.delay

/-- Between two reads of a byte the flywheel performs few operations: its delay is at most
seven. -/
theorem flywheel_delay_le (point : FlywheelPoint) : point.delay ≤ 7 := by
  cases point with
  | loop handle point => cases point <;> simp [FlywheelPoint.delay]
  | reading point => exact (tail_delay_le point).trans (by decide)

/-- Where there is something to read, each step of the flywheel that brings it nearer to its
next report lowers the rank. -/
theorem Nearer.lowers {moved : Prop} {size offset reached : Nat} {point after : FlywheelPoint}
    (nearer : Nearer moved size offset reached point after) (unread : offset < size) :
    after.rank size reached < point.rank size offset := by
  have few := flywheel_delay_le after
  unfold FlywheelPoint.rank
  cases idles : point.idles with
  | true =>
    have waits : point.takes = false := by
      cases point with
      | loop handle point => rfl
      | reading point =>
        by_contra taking
        have awake : point.idles = false := takes_not_idle (eq_true_of_ne_false taking)
        rw [FlywheelPoint.idles, awake] at idles
        cases idles
    have sooner := nearer.sooner waits
    split
    · simp only [if_true]
      omega
    · simp only [if_true]
      omega
  | false =>
    obtain ⟨awake, less⟩ := nearer.busy idles unread
    simp only [awake, Bool.false_eq_true, if_false]
    exact less

/-- What a step of the flywheel leads to: it stays on the file, it was stopped, it
finds no file under its path, or it closes the file to open another one. -/
inductive FlywheelProgress (moved : Prop) (fs : FileSystem) (running : Bool) (path : Path)
    (target : Inode) (base offset : Nat) (queued : List (Piece Byte)) :
    FlywheelPoint → Outcome FlywheelPoint Handle → Prop where
  | within (point after : FlywheelPoint) (reached : Nat) (pieces : List (Piece Byte))
      (line : List Byte)
      (flies : Flies moved fs path target base reached pieces line (queued ++ sending point) after)
      (nearer : Nearer moved (fs.files target).length offset reached point after) :
      FlywheelProgress moved fs running path target base offset queued point (.goto after)
  | stopped (halted : running = false) :
      FlywheelProgress moved fs running path target base offset queued
        (.loop ⟨some ⟨target, offset⟩, path⟩ .test) (.ret ⟨some ⟨target, offset⟩, path⟩)
  | refused (locals : Locals) (fdstat : Stat) (missing : fs.names path = none) :
      FlywheelProgress moved fs running path target base offset queued
        (.reading (.stat path ⟨target, offset⟩ locals fdstat)) (.ret ⟨some ⟨target, offset⟩, path⟩)
  | leaves (locals : Locals) (elsewhere : ∃ other, fs.names path = some other ∧ other ≠ target) :
      FlywheelProgress moved fs running path target base offset queued
        (.reading (.close path ⟨target, offset⟩ locals))
        (.goto (.reading (.moved path locals (.openFile (fileSpec path)))))

/-- A call on the way to the next byte is nearer in the measure of the loop too. -/
theorem nearer_within {moved : Prop} {size offset reached : Nat} {point after : TailPoint}
    (onward : Onward moved size offset reached point after) (place : FlywheelPoint)
    (entered : point.delay ≤ place.delay) (silent : sending place = [])
    (idles : place.idles = point.idles) (takes : place.takes = point.takes)
    (checks : point.checks → place.checks) :
    Nearer moved size offset reached place (.reading after) := by
  have small := tail_delay_le after
  constructor
  · exact onward.forward
  · intro unmoved something
    have unread : offset < size := something.resolve_right (fun sends => sends silent)
    have forward := onward.forward unmoved
    have less := onward.nearer unmoved unread
    change 8 * (size - reached) + after.delay < _
    omega
  · intro reads unread
    obtain ⟨awake, forward, less⟩ := onward.busy (idles ▸ reads) unread
    refine ⟨awake, ?_⟩
    change 8 * (size - reached) + after.delay < _
    omega
  · intro waits
    exact Nat.lt_of_lt_of_le (onward.sooner (takes ▸ waits)) entered
  · intro closes
    obtain ⟨checked, same⟩ := onward.leaving closes
    exact ⟨checks checked, same⟩

/-- Having read a byte is nearer whatever the loop does with the line. -/
theorem nearer_returned {moved : Prop} {size offset : Nat} {place after : FlywheelPoint}
    (within : offset + 1 ≤ size) (settled : after.delay ≤ 7) (takes : place.takes)
    (awake : after.idles = false) (stays : after.closes = false) :
    Nearer moved size offset (offset + 1) place after := by
  constructor
  · exact fun _ => Nat.le_succ offset
  · intro _ _
    omega
  · intro _ _
    exact ⟨awake, by omega⟩
  · simp [takes]
  · simp [stays]

/-- A step of the reader inside the loop keeps the loop on its tail: the reader goes on, or it
returns and the loop goes on with what was read. -/
theorem read_step {moved : Prop} {fs : FileSystem} {running : Bool} {path : Path}
    {target : Inode} {base offset : Nat} {pieces : List (Piece Byte)} {line : List Byte}
    {point : TailPoint} (place : FlywheelPoint)
    (follows : Follows moved fs maxBufferSize path target base offset pieces line point)
    (entered : point.delay ≤ place.delay) (silent : sending place = [])
    (idles : place.idles = point.idles) (taking : place.takes = point.takes)
    (same : place = .reading point ∨ point.checks = false ∧ point.closes = false) (now : Int) :
    FlywheelProgress moved fs running path target base offset (queuedFor base pieces) place
      (fs.perform now (readTail maxBufferSize point)) := by
  have positive : 0 < maxBufferSize := by decide
  have progress := follows_step positive follows now
  rw [readTail, FileSystem.perform_call]
  generalize fs.perform now (tailReadLine maxBufferSize point) = outcome at progress ⊢
  cases progress with
  | within _ after reached line kept onward =>
    have checks : point.checks → place.checks := by
      rcases same with same | ⟨unchecked, _⟩
      · subst same
        exact id
      · simp [unchecked]
    apply FlywheelProgress.within
    · rw [silent, List.append_nil]
      exact .reading pieces line after kept
    · exact nearer_within onward place entered silent idles taking checks
  | returned _ reached piece ahead position nonempty kept onward takes =>
    subst ahead
    have taken : place.takes := taking.trans takes
    have size : ¬ (piece.items.length : Int) < 0 := by omega
    have within := kept.delivered.within
    by_cases full : piece.items.length = maxBufferSize
    · have skipped : (piece.items.length : Int) = maxBufferSize := by exact_mod_cast full
      simp only [Outcome.call, onHandle, afterRead, if_neg size, if_pos skipped]
      apply FlywheelProgress.within
      · rw [silent, List.append_nil, ← queued_for_full base pieces full]
        exact .idle _ .test (.inl rfl) kept.delivered
      · exact nearer_returned within (by simp [FlywheelPoint.delay]) taken rfl rfl
    · have sent : (piece.items.length : Int) ≠ maxBufferSize := by exact_mod_cast full
      simp only [Outcome.call, onHandle, afterRead, if_neg size, if_neg sent, Int.toNat_natCast,
        List.take_length]
      apply FlywheelProgress.within
      · rw [silent, List.append_nil]
        exact .sending pieces piece full position kept.delivered
      · exact nearer_returned within (Nat.le_refl 7) taken rfl rfl
  | refused locals fdstat missing =>
    rcases same with same | ⟨unchecked, _⟩
    · subst same
      exact .refused locals fdstat missing
    · cases unchecked
  | leaves locals elsewhere =>
    rcases same with same | ⟨_, stays⟩
    · subst same
      exact .leaves locals elsewhere
    · cases stays

/-- Every step of a flywheel that has the file open makes progress on it. -/
theorem flies_step {moved : Prop} {fs : FileSystem} {running : Bool} {path : Path}
    {target : Inode} {base offset : Nat} {pieces queued : List (Piece Byte)} {line : List Byte}
    {point : FlywheelPoint}
    (flies : Flies moved fs path target base offset pieces line queued point) (now : Int) :
    FlywheelProgress moved fs running path target base offset queued point
      ((luaFlywheelLoopTail point).perform fs running now) := by
  cases flies with
  | idle pieces point between delivered =>
    rcases between with rfl | rfl
    · cases running with
      | false => exact .stopped rfl
      | true =>
        apply FlywheelProgress.within
        · change Flies _ _ _ _ _ _ _ _ (queuedFor base pieces ++ []) _
          rw [List.append_nil]
          exact .idle pieces .read (.inr rfl) delivered
        · constructor
          · exact fun _ => Nat.le_refl offset
          · intro _ _
            exact Nat.add_lt_add_left (Nat.lt_succ_self 5) _
          · intro _ _
            exact ⟨rfl, Nat.add_lt_add_left (Nat.lt_succ_self 5) _⟩
          · exact fun _ => Nat.lt_succ_self 5
          · simp [FlywheelPoint.closes]
    · exact read_step _ ⟨delivered, .enter⟩ (by simp [TailPoint.delay, FlywheelPoint.delay]) rfl
        rfl rfl (.inr ⟨rfl, rfl⟩) now
  | sending pieces piece sent position delivered =>
    apply FlywheelProgress.within
    · rw [sending, ← position, ← queued_for_line base pieces sent]
      exact .idle _ .test (.inl rfl) (position ▸ delivered)
    · rw [position]
      constructor
      · exact fun _ => Nat.le_refl offset
      · intro _ _
        exact Nat.add_lt_add_left (Nat.lt_succ_self 6) _
      · intro _ _
        exact ⟨rfl, Nat.add_lt_add_left (Nat.lt_succ_self 6) _⟩
      · exact fun _ => Nat.lt_succ_self 6
      · simp [FlywheelPoint.closes]
  | reading pieces line point follows =>
    exact read_step _ follows (Nat.le_refl _) rfl rfl rfl (.inl rfl) now

/-- The flywheel flies on while the file only grows and, where its path leads away,
it keeps leading away. -/
theorem Flies.carried {moved : Prop} {fs after : FileSystem} {path : Path} {target : Inode}
    {base offset : Nat} {pieces queued : List (Piece Byte)} {line : List Byte}
    {point : FlywheelPoint}
    (flies : Flies moved fs path target base offset pieces line queued point)
    (grown : fs.files target <+: after.files target)
    (kept : ∀ other, other ≠ target → fs.names path = some other → after.names path = some other) :
    Flies moved after path target base offset pieces line queued point := by
  cases flies with
  | idle pieces point between delivered =>
    exact .idle pieces point between (delivered.extended grown)
  | sending pieces piece sent position delivered =>
    exact .sending pieces piece sent position (delivered.extended grown)
  | reading pieces line point follows =>
    exact .reading pieces line point (follows.carried grown kept)

/-- What lies behind the descriptor of a flywheel is what its reports have left, and the
messages are those of the reports. -/
theorem Flies.delivered {moved : Prop} {fs : FileSystem} {path : Path} {target : Inode}
    {base offset : Nat} {pieces queued : List (Piece Byte)} {line : List Byte}
    {point : FlywheelPoint}
    (flies : Flies moved fs path target base offset pieces line queued point) :
    Delivered (fs.files target) maxBufferSize base offset pieces line ∧
      queued ++ Flywheel.sending point = queuedFor base pieces := by
  cases flies with
  | idle pieces point between delivered =>
    rcases between with rfl | rfl <;> exact ⟨delivered, List.append_nil _⟩
  | sending pieces piece sent position delivered =>
    exact ⟨delivered, by rw [queued_for_line base pieces sent, position]; rfl⟩
  | reading pieces line point follows => exact ⟨follows.delivered, List.append_nil _⟩

/-- Between two reads there is no line in the buffer. -/
theorem Flies.between_reads {moved : Prop} {fs : FileSystem} {path : Path} {target : Inode}
    {base offset : Nat} {pieces queued : List (Piece Byte)} {line : List Byte} {handle : Handle}
    {point : LoopPoint}
    (flies : Flies moved fs path target base offset pieces line queued (.loop handle point)) :
    line = [] := by
  cases flies with
  | idle => rfl
  | sending => rfl

/-- Inside the read of a line the reader follows the file. -/
theorem Flies.follows {moved : Prop} {fs : FileSystem} {path : Path} {target : Inode}
    {base offset : Nat} {pieces queued : List (Piece Byte)} {line : List Byte} {point : TailPoint}
    (flies : Flies moved fs path target base offset pieces line queued (.reading point)) :
    Follows moved fs maxBufferSize path target base offset pieces line point := by
  cases flies with
  | reading pieces line point follows => exact follows

/-- The descriptor of a flying loop stands at the offset up to which the file was read. -/
theorem Flies.standing {moved : Prop} {fs : FileSystem} {path : Path} {target : Inode}
    {base offset : Nat} {pieces queued : List (Piece Byte)} {line : List Byte}
    {point : FlywheelPoint}
    (flies : Flies moved fs path target base offset pieces line queued point) :
    (match point with
      | .loop handle _ => handle.fd
      | .reading point => descriptor point) = some ⟨target, offset⟩ := by
  cases flies with
  | idle => rfl
  | sending => rfl
  | reading pieces line point follows => exact follows_descriptor follows

/-- A flywheel that compares inodes compares those of its file. -/
theorem Flies.checking {moved : Prop} {fs : FileSystem} {path : Path} {target : Inode}
    {base offset : Nat} {pieces queued : List (Piece Byte)} {line : List Byte}
    {point : FlywheelPoint}
    (flies : Flies moved fs path target base offset pieces line queued point)
    (checks : point.checks) :
    ∃ locals fdstat, point = .reading (.stat path ⟨target, offset⟩ locals fdstat) := by
  cases flies with
  | idle => cases checks
  | sending => cases checks
  | reading pieces line point follows =>
    cases follows.reading with
    | stat locals fdstat => exact ⟨locals, fdstat, rfl⟩
    | _ => cases checks

/-- A flywheel that closes its file finds another under its path. -/
theorem Flies.closing {moved : Prop} {fs : FileSystem} {path : Path} {target : Inode}
    {base offset : Nat} {pieces queued : List (Piece Byte)} {line : List Byte}
    {point : FlywheelPoint}
    (flies : Flies moved fs path target base offset pieces line queued point)
    (closes : point.closes) : ∃ other, fs.names path = some other ∧ other ≠ target := by
  cases flies with
  | idle => cases closes
  | sending => cases closes
  | reading pieces line point follows =>
    cases follows.reading with
    | close locals elsewhere => exact elsewhere
    | _ => cases closes

end Dragonfly.Flywheel
