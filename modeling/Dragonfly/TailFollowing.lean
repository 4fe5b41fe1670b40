import Dragonfly.LineSplitter
import Dragonfly.Tail

/-!
# The tail reader is a splitter over the file it has open

While the descriptor stays on one file that is only appended to, what
`tail_read_line` has returned is what a splitter with a buffer of the passed
length reports on the bytes between the starting offset and the descriptor, and
the line in the buffer is the splitter's. Every system call of the reader keeps
this, whatever the clock shows and whatever was appended in between.

The reader leaves the file in two ways only: its path leads nowhere when the
inode is compared, or it leads to another file. A seek to the start happens only
when nothing was returned yet, because the remembered size is no larger than
the file unless it was remembered of a file left in the same call.
-/

namespace Dragonfly.Tail

/-- The bytes of a content between two offsets, which is what was read of it from the one to the
other. -/
def stretch (content : List Byte) (base offset : Nat) : List Byte :=
  (content.take offset).drop base

/-- What was read from an offset on is the beginning of what lies behind this offset. -/
theorem stretch_prefix (content : List Byte) (base offset : Nat) :
    stretch content base offset <+: content.drop base := by
  rw [stretch, List.drop_take]
  exact List.take_prefix _ _

/-- Reading from `base` has arrived at `offset` with these reports and this line
in the buffer. -/
structure Delivered (content : List Byte) (len base offset : Nat) (pieces : List (Piece Byte))
    (line : List Byte) : Prop where
  started : base ≤ offset
  within : offset ≤ content.length
  split : splitOf newline len (stretch content base offset) = ⟨offset - base, pieces, line⟩

/-- A remembered size is no larger than the file. If the reader moved here from
another file it may be that file's, as long as nothing was returned since. -/
def Remembered (moved : Prop) (size base : Nat) (pieces : List (Piece Byte)) (recalled : Nat) :
    Prop :=
  recalled ≤ size ∨ (moved ∧ pieces = [] ∧ base = 0)

/-- The descriptor that a point of the reader has open, and none where the file is about to be
opened again. -/
def descriptor : TailPoint → Option OpenFile
  | .enter handle => handle.fd
  | .reopen _ _ _ => none
  | .read _ file _ => some file
  | .fstat _ file _ => some file
  | .lseek _ file _ _ => some file
  | .clock _ file _ _ => some file
  | .stat _ file _ _ => some file
  | .close _ file _ => some file
  | .moved _ _ _ => none

/-- How many system calls an `open` of the tail still makes when it is at this point. -/
def OpenPoint.delay : OpenPoint → Nat
  | .openFile _ => 4
  | .lseek _ _ => 3
  | .getFlags _ => 2
  | .setFlags _ => 1
  | .close _ => 1

/-- System calls until the next `read`, while there is something to read. -/
def TailPoint.delay : TailPoint → Nat
  | .enter _ => 1
  | .fstat _ _ _ => 4
  | .lseek _ _ _ _ => 3
  | .clock _ _ _ _ => 2
  | .stat _ _ _ _ => 1
  | .moved _ _ point => point.delay
  | _ => 0

/-- The points from which no byte is taken are few in a row: the delay of a point is at most
four. -/
theorem tail_delay_le (point : TailPoint) : point.delay ≤ 4 := by
  cases point with
  | moved path locals point => cases point <;> simp [TailPoint.delay, OpenPoint.delay]
  | _ => simp [TailPoint.delay]

/-- The points at which the reader has the file open. It compares inodes with
the file's own, and closes the file only because its path leads to another. -/
inductive Reading (moved : Prop) (system : FileSystem) (path : Path) (target : Inode)
    (base offset : Nat) (pieces : List (Piece Byte)) : List Byte → TailPoint → Prop where
  | enter : Reading moved system path target base offset pieces []
      (.enter ⟨some ⟨target, offset⟩, path⟩)
  | read (locals : Locals)
      (remembered : Remembered moved (system.files target).length base pieces locals.lastFileSize) :
      Reading moved system path target base offset pieces locals.line
        (.read path ⟨target, offset⟩ locals)
  | fstat (locals : Locals)
      (remembered : Remembered moved (system.files target).length base pieces locals.lastFileSize) :
      Reading moved system path target base offset pieces locals.line
        (.fstat path ⟨target, offset⟩ locals)
  | lseek (locals : Locals) (fdstat : Stat) (same : fdstat.inode = target)
      (fresh : moved ∧ pieces = [] ∧ base = 0) :
      Reading moved system path target base offset pieces locals.line
        (.lseek path ⟨target, offset⟩ locals fdstat)
  | clock (locals : Locals) (fdstat : Stat) (same : fdstat.inode = target)
      (remembered : Remembered moved (system.files target).length base pieces locals.lastFileSize) :
      Reading moved system path target base offset pieces locals.line
        (.clock path ⟨target, offset⟩ locals fdstat)
  | stat (locals : Locals) (fdstat : Stat) (same : fdstat.inode = target)
      (remembered : Remembered moved (system.files target).length base pieces locals.lastFileSize) :
      Reading moved system path target base offset pieces locals.line
        (.stat path ⟨target, offset⟩ locals fdstat)
  | close (locals : Locals)
      (elsewhere : ∃ other, system.names path = some other ∧ other ≠ target) :
      Reading moved system path target base offset pieces locals.line
        (.close path ⟨target, offset⟩ locals)

/-- The reader stands at a point with the file open and has delivered what lies
behind it. -/
structure Follows (moved : Prop) (system : FileSystem) (len : Nat) (path : Path) (target : Inode)
    (base offset : Nat) (pieces : List (Piece Byte)) (line : List Byte) (point : TailPoint) :
    Prop where
  delivered : Delivered (system.files target) len base offset pieces line
  reading : Reading moved system path target base offset pieces line point

/-! ## Bytes behind the descriptor -/

/-- Where reading begins nothing was reported, and the buffer is empty. -/
theorem Delivered.initial {content : List Byte} (len base : Nat)
    (within : base ≤ content.length) : Delivered content len base base [] [] where
  started := Nat.le_refl base
  within := within
  split := by simp [stretch]

/-- What lies behind the descriptor does not depend on what follows. -/
theorem Delivered.extended {content longer : List Byte} {len base offset : Nat}
    {pieces : List (Piece Byte)} {line : List Byte}
    (delivered : Delivered content len base offset pieces line) (grown : content <+: longer) :
    Delivered longer len base offset pieces line := by
  obtain ⟨more, rfl⟩ := grown
  constructor
  · exact delivered.started
  · rw [List.length_append]
    exact Nat.le_add_right_of_le delivered.within
  · rw [stretch, List.take_append_of_le_length delivered.within]
    exact delivered.split

/-- The buffer has room for another byte, because a full one was reported and emptied. -/
theorem Delivered.room {content : List Byte} {len base offset : Nat}
    {pieces : List (Piece Byte)} {line : List Byte} (positive : 0 < len)
    (delivered : Delivered content len base offset pieces line) : line.length < len := by
  have size : (splitOf newline len (stretch content base offset)).pending.length =
      (linesOf newline (stretch content base offset)).rest.length % len := pending_length positive _
  rw [delivered.split] at size
  rw [size]
  exact Nat.mod_lt _ positive

/-- Reading the byte at the descriptor feeds it to the splitter. -/
theorem Delivered.advance {content : List Byte} {len base offset : Nat}
    {pieces : List (Piece Byte)} {line : List Byte} {value : Byte}
    (delivered : Delivered content len base offset pieces line)
    (next : content[offset]? = some value) (after : Split Byte)
    (fed : Split.feed newline len ⟨offset - base, pieces, line⟩ value = after) :
    Delivered content len base (offset + 1) after.pieces after.pending := by
  obtain ⟨inside, exact⟩ := List.getElem?_eq_some_iff.mp next
  have started := delivered.started
  have longer : stretch content base (offset + 1) = stretch content base offset ++ [value] := by
    rw [stretch, stretch, List.take_add_one, next, Option.toList_some,
      List.drop_append_of_le_length]
    rw [List.length_take_of_le (Nat.le_of_lt inside)]
    exact started
  have split : splitOf newline len (stretch content base (offset + 1)) = after := by
    rw [longer, split_of_snoc, delivered.split, fed]
  have consumed : after.consumed = offset + 1 - base := by
    have counted : (Split.feed newline len ⟨offset - base, pieces, line⟩ value).consumed =
        offset - base + 1 := (feed_extends _ value).1
    rw [← fed, counted]
    omega
  constructor
  · omega
  · exact inside
  · rw [split, ← consumed]

/-- Up to the beginning of the line in the buffer the reports are the same, and the
buffer is empty. -/
theorem Delivered.line_start {content : List Byte} {len base offset : Nat}
    {pieces : List (Piece Byte)} {line : List Byte}
    (delivered : Delivered content len base offset pieces line) :
    line.length ≤ offset - base ∧
      Delivered content len base (offset - line.length) pieces [] := by
  have started := delivered.started
  have within := delivered.within
  have size : (stretch content base offset).length = offset - base := by
    rw [stretch, List.length_drop, List.length_take_of_le within]
  have buffered := @split_before_pending Byte _ newline len (stretch content base offset)
  rw [delivered.split, size] at buffered
  obtain ⟨shorter, before⟩ := buffered
  change line.length ≤ offset - base at shorter
  have cut : stretch content base (offset - line.length) =
      (stretch content base offset).take (offset - base - line.length) := by
    rw [stretch, stretch, List.take_drop, List.take_take]
    congr 2
    omega
  constructor
  · exact shorter
  · constructor
    · omega
    · omega
    · rw [cut, before]
      congr 1
      change offset - base - line.length = offset - line.length - base
      omega

/-! ## One system call -/

/-- A reader that follows a file has its descriptor in that file, at the offset up to which it
was read. -/
theorem follows_descriptor {moved : Prop} {system : FileSystem} {file : Path} {target : Inode}
    {len base offset : Nat} {pieces : List (Piece Byte)} {line : List Byte} {point : TailPoint}
    (follows : Follows moved system len file target base offset pieces line point) :
    descriptor point = some ⟨target, offset⟩ := by
  cases follows.reading <;> rfl

/-- The reader follows on while the file only grows and, where its path leads
away, it keeps leading away. -/
theorem Follows.carried {moved : Prop} {system after : FileSystem} {len : Nat} {path : Path}
    {target : Inode}
    {base offset : Nat} {pieces : List (Piece Byte)} {line : List Byte} {point : TailPoint}
    (follows : Follows moved system len path target base offset pieces line point)
    (grown : system.files target <+: after.files target)
    (kept : ∀ other, other ≠ target → system.names path = some other →
      after.names path = some other) :
    Follows moved after len path target base offset pieces line point := by
  have larger (recalled : Nat)
      (remembered : Remembered moved (system.files target).length base pieces recalled) :
      Remembered moved (after.files target).length base pieces recalled :=
    remembered.imp_left (fun bound => bound.trans grown.length_le)
  constructor
  · exact follows.delivered.extended grown
  · cases follows.reading with
    | enter => exact .enter
    | read locals remembered => exact .read locals (larger _ remembered)
    | fstat locals remembered => exact .fstat locals (larger _ remembered)
    | lseek locals fdstat same fresh => exact .lseek locals fdstat same fresh
    | clock locals fdstat same remembered => exact .clock locals fdstat same (larger _ remembered)
    | stat locals fdstat same remembered => exact .stat locals fdstat same (larger _ remembered)
    | close locals elsewhere =>
      obtain ⟨other, leads, different⟩ := elsewhere
      exact .close locals ⟨other, kept other different leads, different⟩

/-- The reader is about to compare the inode of its path with that of its descriptor. -/
def TailPoint.checks : TailPoint → Bool
  | .stat _ _ _ _ => true
  | _ => false

/-- The reader is about to close the file that its descriptor stands in. -/
def TailPoint.closes : TailPoint → Bool
  | .close _ _ _ => true
  | _ => false

/-- The reader met the end of the file and finds out whether the file is still the one under its
path: the points between that end and the next read. -/
def TailPoint.idles : TailPoint → Bool
  | .fstat _ _ _ => true
  | .lseek _ _ _ _ => true
  | .clock _ _ _ _ => true
  | .stat _ _ _ _ => true
  | _ => false

/-- The reader is about to take a byte of the file, or to find its end. -/
def TailPoint.takes : TailPoint → Bool
  | .read _ _ _ => true
  | _ => false

/-- A reader that takes a byte is not at the end of the file. -/
theorem takes_not_idle {point : TailPoint} (takes : point.takes) : point.idles = false := by
  cases point with
  | read => rfl
  | _ => cases takes

/-- With something to read the reader is nearer to reading it, or has read it, and a reader that is
not at the end of the file does not come there. Every call but that of a byte is nearer to the next
one, wherever it begins. The reader closes the file only right after comparing inodes. -/
structure Onward (moved : Prop) (size offset reached : Nat) (point after : TailPoint) : Prop where
  forward : ¬ moved → offset ≤ reached
  nearer : ¬ moved → offset < size →
    6 * (size - reached) + after.delay < 6 * (size - offset) + point.delay
  busy : point.idles = false → offset < size → after.idles = false ∧ offset ≤ reached ∧
    6 * (size - reached) + after.delay < 6 * (size - offset) + point.delay
  sooner : point.takes = false → after.delay < point.delay
  leaving : after.closes → point.checks ∧ reached = offset

/-- What a system call of the reader leads to: it stays in the call with the same
reports, returns the next report, finds no file under its path, or closes the
file to open another one. -/
inductive Progress (moved : Prop) (system : FileSystem) (len : Nat) (path : Path) (target : Inode)
    (base offset : Nat) (pieces : List (Piece Byte)) :
    TailPoint → Outcome TailPoint Returned → Prop where
  | within (point after : TailPoint) (reached : Nat) (line : List Byte)
      (follows : Follows moved system len path target base reached pieces line after)
      (onward : Onward moved (system.files target).length offset reached point after) :
      Progress moved system len path target base offset pieces point (.goto after)
  | returned (point : TailPoint) (reached : Nat) (piece : Piece Byte)
      (ahead : reached = offset + 1) (position : base + piece.position = reached)
      (nonempty : piece.items ≠ [])
      (follows : Follows moved system len path target base reached (pieces ++ [piece]) []
        (.enter ⟨some ⟨target, reached⟩, path⟩))
      (onward : Onward moved (system.files target).length offset reached point
        (.enter ⟨some ⟨target, reached⟩, path⟩)) (takes : point.takes) :
      Progress moved system len path target base offset pieces point
        (.ret ⟨⟨some ⟨target, reached⟩, path⟩, piece.items.length, piece.items⟩)
  | refused (locals : Locals) (fdstat : Stat) (missing : system.names path = none) :
      Progress moved system len path target base offset pieces
        (.stat path ⟨target, offset⟩ locals fdstat) (.ret ⟨⟨some ⟨target, offset⟩, path⟩, -1, []⟩)
  | leaves (locals : Locals) (elsewhere : ∃ other, system.names path = some other ∧ other ≠ target) :
      Progress moved system len path target base offset pieces (.close path ⟨target, offset⟩ locals)
        (.goto (.moved path locals (.openFile (fileSpec path))))

/-- The loop goes on while there is room in the buffer. -/
theorem loop_end_reads {len : Nat} {path : Path} {file : OpenFile} {locals : Locals}
    (room : locals.line.length < len) :
    loopEnd len ⟨some file, path⟩ locals = .goto (.read path file locals) := by
  simp [loopEnd, room, loopTop]

/-- `tail_read_line` performs the call of `tail_next_line` and skips an empty line. -/
theorem perform_read_line (system : FileSystem) (now : Int) (len : Nat) (point : TailPoint) :
    system.perform now (tailReadLine len point) =
      (system.perform now (tailNextLine len point)).call id fun returned =>
        if returned.n = 0 then .goto (.enter returned.handle) else .ret returned :=
  FileSystem.perform_call system now (tailNextLine len point) id _

/-- Reading a byte is progress, whatever point the reader goes on at behind it. -/
theorem onward_byte {moved : Prop} {system : FileSystem} {target : Inode} {offset : Nat}
    {value : Byte} (next : (system.files target)[offset]? = some value) {point : TailPoint}
    (takes : point.takes) (after : TailPoint) (delay : after.delay ≤ 1)
    (awake : after.idles = false) (stays : after.closes = false) :
    Onward moved (system.files target).length offset (offset + 1) point after := by
  obtain ⟨inside, _⟩ := List.getElem?_eq_some_iff.mp next
  constructor
  · exact fun _ => Nat.le_succ offset
  · intro _ _
    omega
  · intro _ _
    exact ⟨awake, by omega, by omega⟩
  · simp [takes]
  · simp [stays]

/-- A byte read is fed to the splitter; what it reports is returned. -/
theorem byte_step {moved : Prop} {system : FileSystem} {len : Nat} {path : Path} {target : Inode}
    {base offset : Nat} {pieces : List (Piece Byte)} {locals : Locals} {value : Byte}
    (point : TailPoint) (takes : point.takes)
    (delivered : Delivered (system.files target) len base offset pieces locals.line)
    (remembered : Remembered moved (system.files target).length base pieces locals.lastFileSize)
    (next : (system.files target)[offset]? = some value) :
    Progress moved system len path target base offset pieces point
      ((afterByte len ⟨some ⟨target, offset + 1⟩, path⟩ locals value).call id fun returned =>
        if returned.n = 0 then .goto (.enter returned.handle) else .ret returned) := by
  have counted : base + (offset - base + 1) = offset + 1 := by
    have started := delivered.started
    omega
  have onward (after : TailPoint) (delay : after.delay ≤ 1) (awake : after.idles = false)
      (stays : after.closes = false) :
      Onward moved (system.files target).length offset (offset + 1) point after :=
    onward_byte next takes after delay awake stays
  by_cases terminated : value = newline
  · subst terminated
    by_cases empty : locals.line = []
    · have read := delivered.advance next _ (feed_empty empty)
      simp only [afterByte, if_true, empty, List.length_nil, Outcome.call, Int.natCast_zero]
      exact .within _ _ _ _ ⟨read, .enter⟩ (onward _ (Nat.le_refl _) rfl rfl)
    · have read := delivered.advance next _ (feed_line empty)
      have nonzero : (locals.line.length : Int) ≠ 0 := by
        have positiveLength := List.length_pos_iff.mpr empty
        omega
      simp only [afterByte, if_true, Outcome.call, if_neg nonzero]
      exact .returned _ _ ⟨_, locals.line⟩ rfl counted empty ⟨read, .enter⟩
        (onward _ (Nat.le_refl _) rfl rfl) takes
  · by_cases room : locals.line.length + 1 < len
    · have read := delivered.advance next _ (feed_item terminated room)
      have fits : (locals.line ++ [value]).length < len := by
        rwa [List.length_append, List.length_singleton]
      simp only [afterByte, if_neg terminated, loopEnd, if_pos fits, loopTop, Outcome.call, id_eq]
      exact .within _ _ _ _
        ⟨read, .read { locals with line := locals.line ++ [value] } remembered⟩
        (onward _ (Nat.zero_le _) rfl rfl)
    · have read := delivered.advance next _ (feed_full terminated room)
      have full : ¬ (locals.line ++ [value]).length < len := by
        rwa [List.length_append, List.length_singleton]
      have nonzero : ((locals.line ++ [value]).length : Int) ≠ 0 := by simp; omega
      simp only [afterByte, if_neg terminated, loopEnd, if_neg full, Outcome.call, if_neg nonzero]
      exact .returned _ _ ⟨_, locals.line ++ [value]⟩ rfl counted (by simp) ⟨read, .enter⟩
        (onward _ (Nat.le_refl _) rfl rfl) takes

/-- A call that reads nothing comes nearer to the next read. -/
theorem onward_sooner {moved : Prop} {size offset : Nat} (point after : TailPoint)
    (less : after.delay < point.delay) (awake : point.idles ∨ after.idles = false)
    (leaving : after.closes → point.checks) : Onward moved size offset offset point after := by
  constructor
  · exact fun _ => Nat.le_refl offset
  · exact fun _ _ => Nat.add_lt_add_left less _
  · intro reads _
    exact ⟨awake.resolve_left (by simp [reads]), Nat.le_refl _, Nat.add_lt_add_left less _⟩
  · exact fun _ => less
  · exact fun closes => ⟨leaving closes, rfl⟩

section Calls

variable {moved : Prop} {system : FileSystem} {len : Nat} {path : Path} {target : Inode}
  {base offset : Nat} {pieces : List (Piece Byte)} {locals : Locals} {now : Int}
  (delivered : Delivered (system.files target) len base offset pieces locals.line)

include delivered

/-- `read` takes a byte, or finds the end of the file. -/
theorem read_progress
    (remembered : Remembered moved (system.files target).length base pieces locals.lastFileSize) :
    Progress moved system len path target base offset pieces (.read path ⟨target, offset⟩ locals)
      (system.perform now (tailReadLine len (.read path ⟨target, offset⟩ locals))) := by
  rw [perform_read_line]
  cases next : (system.files target)[offset]? with
  | none =>
    have ended : system.readByte ⟨target, offset⟩ = .endOfFile := by
      simp [FileSystem.readByte, next]
    have atEnd : (system.files target).length ≤ offset := List.getElem?_eq_none_iff.mp next
    simp only [tailNextLine, FileSystem.perform, ended, Outcome.call, id_eq]
    exact .within _ _ _ _ ⟨delivered, .fstat locals remembered⟩
      ⟨fun _ => Nat.le_refl offset, fun _ unread => absurd unread (Nat.not_lt.mpr atEnd),
        fun _ unread => absurd unread (Nat.not_lt.mpr atEnd), by simp [TailPoint.takes],
        by simp [TailPoint.closes]⟩
  | some value =>
    have got : system.readByte ⟨target, offset⟩ = .byte value ⟨target, offset + 1⟩ := by
      simp [FileSystem.readByte, next, OpenFile.advance]
    simp only [tailNextLine, FileSystem.perform, got]
    exact byte_step _ rfl delivered remembered next

/-- The size that `fstat` finds is smaller than the one remembered, or it is remembered for the
next time. -/
theorem fstat_progress
    (remembered : Remembered moved (system.files target).length base pieces locals.lastFileSize) :
    Progress moved system len path target base offset pieces (.fstat path ⟨target, offset⟩ locals)
      (system.perform now (tailReadLine len (.fstat path ⟨target, offset⟩ locals))) := by
  rw [perform_read_line]
  simp only [tailNextLine, FileSystem.perform]
  by_cases shrunk : (system.status target).size < locals.lastFileSize
  · have fresh : moved ∧ pieces = [] ∧ base = 0 := by
      rcases remembered with bound | fresh
      · exact absurd shrunk (Nat.not_lt.mpr bound)
      · exact fresh
    rw [if_pos shrunk]
    exact .within _ _ _ _ ⟨delivered, .lseek locals (system.status target) rfl fresh⟩
      (onward_sooner _ _ (Nat.lt_succ_self 3) (.inl rfl) (by simp [TailPoint.closes]))
  · rw [if_neg shrunk]
    have whole : Remembered moved (system.files target).length base pieces
        (system.files target).length := .inl (Nat.le_refl _)
    exact .within _ _ _ _
      ⟨delivered, .clock { locals with lastFileSize := _ } (system.status target) rfl whole⟩
      (onward_sooner _ _ (by decide : 2 < 4) (.inl rfl) (by simp [TailPoint.closes]))

/-- At an end of the file the clock tells whether the path is looked at, or the file is read
again. -/
theorem clock_progress (room : locals.line.length < len) {fdstat : Stat}
    (same : fdstat.inode = target)
    (remembered : Remembered moved (system.files target).length base pieces locals.lastFileSize) :
    Progress moved system len path target base offset pieces
      (.clock path ⟨target, offset⟩ locals fdstat)
      (system.perform now (tailReadLine len (.clock path ⟨target, offset⟩ locals fdstat))) := by
  rw [perform_read_line]
  simp only [tailNextLine, FileSystem.perform, loop_end_reads room]
  by_cases late : now - locals.lastReadTime ≥ fiveSeconds
  · simp only [if_pos late, Outcome.call, id_eq]
    exact .within _ _ _ _
      ⟨delivered, .stat { locals with lastReadTime := now } fdstat same remembered⟩
      (onward_sooner _ _ (Nat.lt_succ_self 1) (.inl rfl) (by simp [TailPoint.closes]))
  · simp only [if_neg late, Outcome.call, id_eq]
    exact .within _ _ _ _ ⟨delivered, .read _ remembered⟩
      (onward_sooner _ _ (by decide : 0 < 2) (.inl rfl) (by simp [TailPoint.closes]))

/-- A call of `stat` finds no file at the path, the file that is open, or another one. -/
theorem stat_progress (room : locals.line.length < len) {fdstat : Stat}
    (same : fdstat.inode = target)
    (remembered : Remembered moved (system.files target).length base pieces locals.lastFileSize) :
    Progress moved system len path target base offset pieces
      (.stat path ⟨target, offset⟩ locals fdstat)
      (system.perform now (tailReadLine len (.stat path ⟨target, offset⟩ locals fdstat))) := by
  rw [perform_read_line]
  simp only [tailNextLine, FileSystem.perform, loop_end_reads room]
  cases found : system.names path with
  | none => exact .refused locals fdstat found
  | some other =>
    simp only [Option.map_some, FileSystem.status, same]
    by_cases different : target = other
    · simp only [ne_eq, different, not_true_eq_false, if_false, Outcome.call, id_eq]
      subst different
      exact .within _ _ _ _ ⟨delivered, .read _ remembered⟩
        (onward_sooner _ _ Nat.zero_lt_one (.inl rfl) (by simp [TailPoint.closes, TailPoint.checks]))
    · simp only [ne_eq, different, not_false_eq_true, if_true, Outcome.call, id_eq]
      exact .within _ _ _ _ ⟨delivered, .close _ ⟨other, found, Ne.symm different⟩⟩
        (onward_sooner _ _ Nat.zero_lt_one (.inl rfl) (by simp [TailPoint.closes, TailPoint.checks]))

end Calls

/-- Every system call of a reader that follows a file makes progress on it. -/
theorem follows_step {moved : Prop} {system : FileSystem} {len : Nat} {path : Path}
    {target : Inode} {base offset : Nat} {pieces : List (Piece Byte)} {line : List Byte}
    {point : TailPoint} (positive : 0 < len)
    (follows : Follows moved system len path target base offset pieces line point) (now : Int) :
    Progress moved system len path target base offset pieces point
      (system.perform now (tailReadLine len point)) := by
  obtain ⟨delivered, reading⟩ := follows
  have room := delivered.room positive
  cases reading with
  | enter =>
    rw [perform_read_line]
    exact .within _ _ _ _ ⟨delivered, .read ⟨now, 0, 0, []⟩ (.inl (Nat.zero_le _))⟩
      (onward_sooner _ _ Nat.zero_lt_one (.inr rfl) (by simp [loopTop, TailPoint.closes]))
  | read locals remembered => exact read_progress delivered remembered
  | fstat locals remembered => exact fstat_progress delivered remembered
  | lseek locals fdstat same fresh =>
    obtain ⟨changed, rfl, rfl⟩ := fresh
    rw [perform_read_line]
    simp only [tailNextLine, FileSystem.perform, FileSystem.seek, Option.getD_some, Outcome.call,
      id_eq]
    exact .within _ _ _ _ ⟨Delivered.initial len 0 (Nat.zero_le _),
      .clock { locals with line := [], lastFileSize := _ } fdstat same (.inr ⟨changed, rfl, rfl⟩)⟩
      ⟨fun unmoved => absurd changed unmoved, fun unmoved => absurd changed unmoved,
        by simp [TailPoint.idles], fun _ => Nat.lt_succ_self 2, by simp [TailPoint.closes]⟩
  | clock locals fdstat same remembered => exact clock_progress delivered room same remembered
  | stat locals fdstat same remembered => exact stat_progress delivered room same remembered
  | close locals elsewhere =>
    rw [perform_read_line]
    simp only [tailNextLine, FileSystem.perform, Outcome.call, id_eq]
    exact .leaves locals elsewhere

/-! ## Opening -/

/-- The points of an `open` of a path on which no call has failed. Where the seek
leaves the descriptor is accepted. -/
inductive Opening (system : FileSystem) (path : Path) (accepted : OpenFile → Prop) :
    OpenPoint → Prop where
  | openFile : Opening system path accepted (.openFile path)
  | lseek (inode : Inode) (leads : system.names (openedAs path).1 = some inode) :
      Opening system path accepted (.lseek ⟨inode, 0⟩ (openedAs path).2)
  | getFlags (inode : Inode) (offset : Nat) (leads : system.names (openedAs path).1 = some inode)
      (within : offset ≤ (system.files inode).length) (accept : accepted ⟨inode, offset⟩) :
      Opening system path accepted (.getFlags ⟨inode, offset⟩)
  | setFlags (inode : Inode) (offset : Nat) (leads : system.names (openedAs path).1 = some inode)
      (within : offset ≤ (system.files inode).length) (accept : accepted ⟨inode, offset⟩) :
      Opening system path accepted (.setFlags ⟨inode, offset⟩)

/-- What a system call of an `open` leads to: the next call, a missing name, or a
descriptor where the seek left it. -/
inductive OpenProgress (system : FileSystem) (path : Path) (accepted : OpenFile → Prop) :
    OpenPoint → Outcome OpenPoint (Option OpenFile) → Prop where
  | within (point after : OpenPoint) (opening : Opening system path accepted after)
      (sooner : after.delay < point.delay) :
      OpenProgress system path accepted point (.goto after)
  | missing (absent : system.names (openedAs path).1 = none) :
      OpenProgress system path accepted (.openFile path) (.ret none)
  | opened (inode : Inode) (offset : Nat) (leads : system.names (openedAs path).1 = some inode)
      (within : offset ≤ (system.files inode).length) (accept : accepted ⟨inode, offset⟩) :
      OpenProgress system path accepted (.setFlags ⟨inode, offset⟩) (.ret (some ⟨inode, offset⟩))

/-- Every system call of an `open` makes progress on it. -/
theorem opening_step {system : FileSystem} {path : Path} {accepted : OpenFile → Prop}
    {point : OpenPoint} (opening : Opening system path accepted point)
    (sought : ∀ inode, point = .lseek ⟨inode, 0⟩ (openedAs path).2 →
      accepted (system.seek ⟨inode, 0⟩ (openedAs path).2)) (now : Int) :
    OpenProgress system path accepted point (system.perform now (tailOpenNonblockFile point)) := by
  cases opening with
  | openFile =>
    simp only [tailOpenNonblockFile, FileSystem.perform]
    cases found : system.names (openedAs path).1 with
    | none => exact .missing found
    | some inode => exact .within _ _ (.lseek inode found) (Nat.lt_succ_self 3)
  | lseek inode leads =>
    have accept := sought inode rfl
    simp only [tailOpenNonblockFile, FileSystem.perform]
    cases whence : (openedAs path).2 with
    | seekSet =>
      rw [whence] at accept
      exact .within _ _ (.getFlags inode 0 leads (Nat.zero_le _) accept) (Nat.lt_succ_self 2)
    | seekEnd =>
      rw [whence] at accept
      exact .within _ _ (.getFlags inode _ leads (Nat.le_refl _) accept) (Nat.lt_succ_self 2)
  | getFlags inode offset leads within accept =>
    exact .within _ _ (.setFlags inode offset leads within accept) (Nat.lt_succ_self 1)
  | setFlags inode offset leads within accept =>
    exact .opened inode offset leads within accept

/-- An `open` goes on while the name leads to the same file and files only grow. -/
theorem Opening.carried {system after : FileSystem} {path : Path}
    {accepted accepted' : OpenFile → Prop} {point : OpenPoint}
    (opening : Opening system path accepted point) (names : after.names = system.names)
    (grown : ∀ inode, system.files inode <+: after.files inode)
    (implied : ∀ inode offset, offset ≤ (system.files inode).length →
      accepted ⟨inode, offset⟩ → accepted' ⟨inode, offset⟩) :
    Opening after path accepted' point := by
  cases opening with
  | openFile => exact .openFile
  | lseek inode leads => exact .lseek inode (names ▸ leads)
  | getFlags inode offset leads within accept =>
    exact .getFlags inode offset (names ▸ leads) (within.trans (grown inode).length_le)
      (implied inode offset within accept)
  | setFlags inode offset leads within accept =>
    exact .setFlags inode offset (names ▸ leads) (within.trans (grown inode).length_le)
      (implied inode offset within accept)

/-- While the name is missing, nothing was opened under it. -/
theorem Opening.unnamed {system : FileSystem} {path : Path} {accepted : OpenFile → Prop}
    {point : OpenPoint} (opening : Opening system path accepted point)
    (missing : system.names (openedAs path).1 = none) : point = .openFile path := by
  cases opening with
  | openFile => rfl
  | lseek inode leads => simp [missing] at leads
  | getFlags inode offset leads => simp [missing] at leads
  | setFlags inode offset leads => simp [missing] at leads

/-- The path carries neither of the two characters at its end, so it is opened and compared
under the same name. -/
def SuffixFree (path : Path) : Prop :=
  ∀ last ∈ path.getLast?, last ≠ fromStart ∧ last ≠ fromEnd

instance (path : Path) : Decidable (SuffixFree path) :=
  decidable_of_iff
    (path.getLast?.all (fun last => decide (last ≠ fromStart ∧ last ≠ fromEnd)) = true)
    (by cases last : path.getLast? <;> simp [SuffixFree, last])

/-- A path without suffix is opened under its own name, at the end. -/
theorem opened_as_suffix_free {path : Path} (free : SuffixFree path)
    (fits : path.length ≤ pathMax) : openedAs path = (path, .seekEnd) := by
  unfold openedAs
  rw [List.take_of_length_le fits]
  cases last : path.getLast? with
  | none => rw [List.getLast?_eq_none_iff.mp last]
  | some value =>
    obtain ⟨notStart, notEnd⟩ := free value last
    simp only [notStart, notEnd, if_false]

/-- The path that `tail_open` builds of the log directory and a relative path fits its buffer,
because it is cut there. -/
theorem file_path_length (logdir path : Path) : (filePath logdir path).length ≤ pathMax := by
  unfold filePath
  split_ifs
  · exact List.length_take_le _ _
  · exact (List.length_take_le _ _).trans (Nat.sub_le _ _)

/-- A moved file is opened again under its own name, at the start. -/
theorem opened_as_file_spec {path : Path} (fits : path.length + 1 < pathMax) :
    openedAs (fileSpec path) = (path, .seekSet) := by
  have short : (path ++ [fromStart]).length ≤ pathMax - 1 := by
    rw [List.length_append, List.length_singleton]
    omega
  have whole : fileSpec path = path ++ [fromStart] := List.take_of_length_le short
  rw [whole, openedAs, List.take_of_length_le (short.trans (Nat.sub_le _ _))]
  simp

end Dragonfly.Tail
