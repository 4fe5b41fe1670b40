import Dragonfly.TailFollowing
import Dragonfly.Transitions

/-!
# Runs of one tail reader beside the writers of its file

The reader opens its path through `tail_open` and then calls `tail_read_line`
with the same length over and over. A step is one system call of the reader,
with the clock it shows, or one write: an append to any file, or a truncation
to length zero. Names never change in these runs.

A truncation of the open file starts a history of the reader since then; the
history decides nothing, it only says what a run has shown so far.
-/

namespace Dragonfly.TailReader

open Tail

/-- The value of one call of `tail_read_line`, and the buffer before the terminator. -/
structure ReadResult where
  n : Int
  data : List Byte
deriving DecidableEq

/-- Where the reader is: inside `tail_open`, refused by it, or inside a call of
`tail_read_line`. -/
inductive ReaderPoint where
  | opening (point : OpenPoint)
  | failed
  | reading (point : TailPoint)

/-- What the reader did since its file was truncated: whether the descriptor still
stands where it was in the old content, whether the end of the file was polled
and whether such an iteration was completed, and what was returned. -/
structure Truncation where
  behind : Bool
  polling : Bool
  polled : Bool
  since : List ReadResult
deriving DecidableEq

/-- The files, the reader, where `tail_open` left its descriptor, what it returned,
and its history since the last truncation. -/
structure State where
  fs : FileSystem
  point : ReaderPoint
  opened : Option OpenFile
  results : List ReadResult
  truncation : Option Truncation

/-- A step of the reader, which is one system call at a time of the clock, or a write to a file:
an append or a truncation. -/
inductive Label where
  | reader (now : Int)
  | append (inode : Inode) (bytes : List Byte)
  | truncate (inode : Inode)

/-- The reader is about to call `fstat` after an end of the file. -/
def polls : TailPoint → Bool
  | .fstat _ _ _ => true
  | _ => false

/-- The reader is about to seek to the start of the file. -/
def rewinds : TailPoint → Bool
  | .lseek _ _ _ _ => true
  | _ => false

/-- An iteration of the loop of `tail_next_line` has just ended. -/
def iterated : TailPoint → Bool
  | .enter _ => true
  | .read _ _ _ => true
  | _ => false

/-- A system call that led from one point to another becomes part of the history. -/
def Truncation.observe (history : Truncation) (point after : TailPoint) : Truncation :=
  { history with
    behind := history.behind && !rewinds point
    polling := history.polling || polls point
    polled := history.polled || ((history.polling || polls point) && iterated after) }

/-- The reader continues inside its call at another point. What was observed of a truncation is
kept up to date. -/
def State.continued (state : State) (point after : TailPoint) : State :=
  { state with
    point := .reading after
    truncation := state.truncation.map fun history => history.observe point after }

/-- The call returned; the next one follows on the same handle. -/
def State.answered (state : State) (point : TailPoint) (returned : Returned) : State :=
  { state with
    point := .reading (.enter returned.handle)
    results := state.results ++ [⟨returned.n, returned.data⟩]
    truncation := state.truncation.map fun history =>
      { history.observe point (.enter returned.handle) with
        since := history.since ++ [⟨returned.n, returned.data⟩] } }

/-- One system call of the reader at a time of the clock, whose outcome leads to the next point,
to a result, or to the next call. -/
def readerNext (logdir path : Path) (len : Nat) (state : State) (now : Int) : Option State :=
  match state.point with
  | .opening point =>
      match state.fs.perform now (tailOpen (filePath logdir path) point) with
      | .goto after => some { state with point := .opening after }
      | .ret none => some { state with point := .failed }
      | .ret (some handle) =>
          some { state with point := .reading (.enter handle), opened := handle.fd }
      | .exit => none
  | .failed => none
  | .reading point =>
      match state.fs.perform now (tailReadLine len point) with
      | .goto after => some (state.continued point after)
      | .ret returned => some (state.answered point returned)
      | .exit => none

/-- A truncation of the open file begins a new history; the descriptor keeps its
offset. -/
def truncateNext (state : State) (inode : Inode) : State :=
  match state.point with
  | .reading point =>
      match descriptor point with
      | some file =>
          if file.inode = inode then
            { state with
              fs := state.fs.truncate inode
              truncation := some ⟨decide (0 < file.offset), false, false, []⟩ }
          else { state with fs := state.fs.truncate inode }
      | none => { state with fs := state.fs.truncate inode }
  | _ => { state with fs := state.fs.truncate inode }

/-- One step of the reader or of a writer, which appends to any file or truncates one. -/
def next (logdir path : Path) (len : Nat) (state : State) : Label → Option State
  | .reader now => readerNext logdir path len state now
  | .append inode bytes => some { state with fs := state.fs.append inode bytes }
  | .truncate inode => some (truncateNext state inode)

/-- A reader that is about to open its path on a file system, with nothing read yet. -/
def initial (logdir path : Path) (fs : FileSystem) : State where
  fs := fs
  point := .opening (.openFile (filePath logdir path))
  opened := none
  results := []
  truncation := none

/-- The runs of a reader among any files, with writes to them in between. -/
def system (logdir path : Path) (len : Nat) : System State Label where
  start state := ∃ fs, state = initial logdir path fs
  next := next logdir path len

/-- The result of a call that returns a line: its length and its bytes. -/
def lineResult (line : List Byte) : ReadResult := ⟨line.length, line⟩

/-- The results for the nonempty terminated lines of a text. -/
def lineResults (text : List Byte) : List ReadResult :=
  ((linesOf newline text).complete.filter fun line => decide (line ≠ [])).map lineResult

/-! ## Files that are only appended to -/

/-- A step in which nothing is truncated, which is the condition on runs that only append. -/
def AppendOnly (_ : State) : Label → Prop
  | .reader _ => True
  | .append _ _ => True
  | .truncate _ => False

instance (state : State) (label : Label) : Decidable (AppendOnly state label) :=
  match label with
  | .reader _ => .isTrue trivial
  | .append _ _ => .isTrue trivial
  | .truncate _ => .isFalse id

/-- The reader follows the file it opened, its path leads there, and its results
are the reports. -/
structure Tracks (file : Path) (len : Nat) (target : Inode) (base offset : Nat)
    (pieces : List (Piece Byte)) (line : List Byte) (point : TailPoint) (state : State) : Prop where
  place : state.point = .reading point
  opened : state.opened = some ⟨target, base⟩
  leads : state.fs.names file = some target
  follows : Follows False state.fs len file target base offset pieces line point
  results : state.results = pieces.map (fun piece => lineResult piece.items)

/-- Every state of a reader of an appended file: it is opening, was refused, or
tracks the file it opened. -/
inductive Sound (file : Path) (len : Nat) (state : State) : Prop where
  | opening (point : OpenPoint) (place : state.point = .opening point)
      (unopened : state.opened = none) (empty : state.results = [])
      (opening : Opening state.fs file (fun _ => True) point)
  | failed (place : state.point = .failed) (unopened : state.opened = none)
  | tracks (target : Inode) (base offset : Nat) (pieces : List (Piece Byte)) (line : List Byte)
      (point : TailPoint) (tracks : Tracks file len target base offset pieces line point state)

variable {logdir path : Path} {len : Nat}

/-- A system call kept the reader in its call, or returned one more report. -/
inductive Advanced (state : State) (point : TailPoint) (pieces : List (Piece Byte)) :
    List (Piece Byte) → TailPoint → State → Prop where
  | continued (after : TailPoint) :
      Advanced state point pieces pieces after (state.continued point after)
  | answered (handle : Handle) (piece : Piece Byte) :
      Advanced state point pieces (pieces ++ [piece]) (.enter handle)
        (state.answered point ⟨handle, piece.items.length, piece.items⟩)

/-- Advancing is the reader's own doing: files and the opening offset stay. -/
theorem Advanced.unchanged {state after : State} {point place : TailPoint}
    {pieces more : List (Piece Byte)} (advanced : Advanced state point pieces more place after) :
    after.fs = state.fs ∧ after.opened = state.opened ∧ after.point = .reading place := by
  cases advanced with
  | continued => exact ⟨rfl, rfl, rfl⟩
  | answered handle piece => exact ⟨rfl, rfl, rfl⟩

/-- A reader that follows a file, and whose path leads there when inodes are
compared, makes its next system call and follows on. -/
theorem reader_follows {moved : Prop} {file : Path} {target : Inode} {base offset : Nat}
    {pieces : List (Piece Byte)} {line : List Byte} {point : TailPoint} {state : State}
    (logdir path : Path) (positive : 0 < len) (place : state.point = .reading point)
    (follows : Follows moved state.fs len file target base offset pieces line point)
    (stays : point.closes = false)
    (leads : point.checks → state.fs.names file = some target) (now : Int) :
    ∃ after reached more rest next, readerNext logdir path len state now = some after ∧
      Advanced state point pieces more next after ∧ next.closes = false ∧
      Follows moved state.fs len file target base reached more rest next ∧
      Onward moved (state.fs.files target).length offset reached point next := by
  have progress := follows_step positive follows now
  simp only [readerNext, place]
  generalize state.fs.perform now (tailReadLine len point) = outcome at progress ⊢
  cases progress with
  | within _ after reached rest kept onward =>
    have remains : after.closes = false := by
      by_contra closing
      obtain ⟨checks, _⟩ := onward.leaving (eq_true_of_ne_false closing)
      cases kept.reading with
      | close locals elsewhere =>
        obtain ⟨other, found, different⟩ := elsewhere
        rw [leads checks] at found
        exact different (Option.some.inj found).symm
      | _ => exact closing rfl
    exact ⟨_, reached, pieces, rest, after, rfl, .continued after, remains, kept, onward⟩
  | returned _ reached piece ahead position nonempty kept onward =>
    exact ⟨_, reached, _, [], _, rfl, .answered _ piece, rfl, kept, onward⟩
  | refused locals fdstat missing =>
    rw [leads rfl] at missing
    cases missing
  | leaves locals elsewhere => cases stays

/-- Where a step of such a reader leads: it follows on, in the same files. -/
theorem follows_moved {moved : Prop} {file : Path} {target : Inode} {base offset : Nat}
    {pieces : List (Piece Byte)} {line : List Byte} {point : TailPoint} {state after : State}
    {logdir path : Path} (positive : 0 < len) (place : state.point = .reading point)
    (follows : Follows moved state.fs len file target base offset pieces line point)
    (stays : point.closes = false)
    (leads : point.checks → state.fs.names file = some target) {now : Int}
    (stepped : readerNext logdir path len state now = some after) :
    ∃ reached more rest next, Advanced state point pieces more next after ∧
      next.closes = false ∧ after.point = .reading next ∧ after.opened = state.opened ∧
      Follows moved after.fs len file target base reached more rest next := by
  obtain ⟨_, reached, more, rest, next, returned, advanced, remains, kept, _⟩ :=
    reader_follows logdir path positive place follows stays leads now
  obtain rfl : _ = after := Option.some.inj (returned.symm.trans stepped)
  obtain ⟨sameFiles, sameOpened, placed⟩ := advanced.unchanged
  exact ⟨reached, more, rest, next, advanced, remains, placed, sameOpened, sameFiles ▸ kept⟩

/-- A tracking reader makes its next system call, stays on its file and is nearer
to the end of it. -/
theorem Tracks.step {file : Path} {target : Inode} {base offset : Nat}
    {pieces : List (Piece Byte)} {line : List Byte} {point : TailPoint} {state : State}
    (tracks : Tracks file len target base offset pieces line point state) (logdir path : Path)
    (positive : 0 < len) (now : Int) :
    ∃ after reached more rest place, readerNext logdir path len state now = some after ∧
      after.fs = state.fs ∧ Tracks file len target base reached more rest place after ∧
      Onward False (state.fs.files target).length offset reached point place := by
  have stays : point.closes = false := by
    cases tracks.follows.reading with
    | close locals elsewhere =>
      obtain ⟨other, found, different⟩ := elsewhere
      rw [tracks.leads] at found
      exact absurd (Option.some.inj found).symm different
    | _ => rfl
  obtain ⟨after, reached, more, rest, place, stepped, advanced, _, follows, onward⟩ :=
    reader_follows logdir path positive tracks.place tracks.follows stays
      (fun _ => tracks.leads) now
  obtain ⟨sameFiles, sameOpened, placed⟩ := advanced.unchanged
  refine ⟨after, reached, more, rest, place, stepped, sameFiles, ?_, onward⟩
  constructor
  · exact placed
  · exact sameOpened.trans tracks.opened
  · exact sameFiles ▸ tracks.leads
  · exact sameFiles ▸ follows
  · cases advanced with
    | continued => exact tracks.results
    | answered handle piece =>
      rw [State.answered, tracks.results, List.map_append]
      rfl

/-- What a call of a reader that opens its file leads to: the next call, no file, or a reader
that stands where the seek left it. -/
inductive ReaderOpens (file : Path) (state : State) : State → Prop where
  | within (point : OpenPoint) (opening : Opening state.fs file (fun _ => True) point) :
      ReaderOpens file state { state with point := .opening point }
  | missing : ReaderOpens file state { state with point := .failed }
  | opened (inode : Inode) (offset : Nat) (leads : state.fs.names (openedAs file).1 = some inode)
      (within : offset ≤ (state.fs.files inode).length) :
      ReaderOpens file state { state with
        point := .reading (.enter ⟨some ⟨inode, offset⟩, file⟩)
        opened := some ⟨inode, offset⟩ }

/-- Every call of the reader while it opens its path leads to the next one, to no descriptor, or
to one inside the file under the name. -/
theorem reader_opens (logdir path : Path) {state after : State} {point : OpenPoint} {now : Int}
    (place : state.point = .opening point)
    (opening : Opening state.fs (filePath logdir path) (fun _ => True) point)
    (moved : readerNext logdir path len state now = some after) :
    ReaderOpens (filePath logdir path) state after := by
  have progress := opening_step opening (fun _ _ => trivial) now
  rw [readerNext, place] at moved
  simp only [tailOpen, FileSystem.perform_call] at moved
  generalize state.fs.perform now (tailOpenNonblockFile point) = outcome at progress moved
  cases progress with
  | within _ next opening => exact Option.some.inj moved ▸ .within next opening
  | missing absent => exact Option.some.inj moved ▸ .missing
  | opened inode offset leads within accept =>
    have whole : (filePath logdir path).take pathMax = filePath logdir path :=
      List.take_of_length_le (file_path_length logdir path)
    simp only [whole] at moved
    exact Option.some.inj moved ▸ .opened inode offset leads within

/-- Each step of an append-only run keeps the reader sound. -/
theorem sound_step (suffixFree : SuffixFree (filePath logdir path)) (positive : 0 < len)
    {state after : State} {label : Label} (sound : Sound (filePath logdir path) len state)
    (appended : AppendOnly state label)
    (moved : next logdir path len state label = some after) :
    Sound (filePath logdir path) len after := by
  have named := opened_as_suffix_free suffixFree (file_path_length logdir path)
  cases label with
  | truncate inode => exact appended.elim
  | append inode bytes =>
    have same : { state with fs := state.fs.append inode bytes } = after := Option.some.inj moved
    subst same
    have grown := state.fs.append_grown inode bytes
    cases sound with
    | opening point place unopened empty opening =>
      exact .opening point place unopened empty (opening.carried rfl grown (fun _ _ _ _ => trivial))
    | failed place unopened => exact .failed place unopened
    | tracks target base offset pieces line point tracks =>
      exact .tracks target base offset pieces line point ⟨tracks.place, tracks.opened, tracks.leads,
        tracks.follows.carried (grown target) (fun _ _ leads => leads), tracks.results⟩
  | reader now =>
    change readerNext logdir path len state now = some after at moved
    cases sound with
    | failed place unopened =>
      rw [readerNext, place] at moved
      cases moved
    | tracks target base offset pieces line point tracks =>
      obtain ⟨reached, offset', more, rest, place, stepped, _, kept, _⟩ :=
        tracks.step logdir path positive now
      rw [stepped] at moved
      exact Option.some.inj moved ▸ .tracks target base offset' more rest place kept
    | opening point place unopened empty opening =>
      cases reader_opens logdir path place opening moved with
      | within next opening => exact .opening next rfl unopened empty opening
      | missing => exact .failed rfl unopened
      | opened inode offset leads within =>
        rw [named] at leads
        refine .tracks inode offset offset [] [] _ ⟨rfl, rfl, leads, ?_, ?_⟩
        · exact ⟨Delivered.initial len offset within, .enter⟩
        · simp [empty]

/-- The calls of the reader alone, with the clock at each of them. -/
def readerSteps (clocks : Nat → Int) (steps : Nat) : List Label :=
  (List.range steps).map fun index => .reader (clocks index)

/-- Reading first at one clock and then at the following ones. -/
theorem reader_steps_succ (clocks : Nat → Int) (steps : Nat) :
    readerSteps clocks (steps + 1) =
      .reader (clocks 0) :: readerSteps (fun index => clocks (index + 1)) steps := by
  simp [readerSteps, List.range_succ_eq_map]

/-- A tracking reader that is left alone reaches the end of its file, whatever
clocks it sees. The measure is the number of calls it may still need. -/
theorem Tracks.catches_up {file : Path} (logdir path : Path) (positive : 0 < len) (measure : Nat) :
    ∀ {target : Inode} {base offset : Nat} {pieces : List (Piece Byte)} {line : List Byte}
      {point : TailPoint} {state : State} (clocks : Nat → Int),
      Tracks file len target base offset pieces line point state →
      6 * ((state.fs.files target).length - offset) + point.delay ≤ measure →
      ∃ steps after more rest place,
        (system logdir path len).follow (readerSteps clocks steps) state = some after ∧
          after.fs = state.fs ∧
          Tracks file len target base (state.fs.files target).length more rest place after := by
  induction measure using Nat.strong_induction_on with
  | _ measure inductionHypothesis =>
    intro target base offset pieces line point state clocks tracks bound
    have within := tracks.follows.delivered.within
    by_cases ended : offset = (state.fs.files target).length
    · exact ⟨0, state, pieces, line, point, rfl, rfl, ended ▸ tracks⟩
    · obtain ⟨middle, reached, more, rest, place, stepped, sameFiles, kept, onward⟩ :=
        tracks.step logdir path positive (clocks 0)
      have nearer := onward.nearer id (by omega)
      obtain ⟨steps, after, more, rest, place, completed, unchanged, arrived⟩ :=
        inductionHypothesis _ (Nat.lt_of_lt_of_le nearer bound)
          (fun index => clocks (index + 1)) kept (by rw [sameFiles])
      rw [sameFiles] at unchanged arrived
      refine ⟨steps + 1, after, more, rest, place, ?_, unchanged, arrived⟩
      rw [reader_steps_succ]
      change ((readerNext logdir path len state (clocks 0)).bind _) = some after
      rw [stepped]
      exact completed

/-- On short lines the results of a tracking reader are the nonempty terminated
lines behind its descriptor. -/
theorem Tracks.results_exact {file : Path} {target : Inode} {base offset : Nat}
    {pieces : List (Piece Byte)} {line : List Byte} {point : TailPoint} {state : State}
    (tracks : Tracks file len target base offset pieces line point state)
    (short : (linesOf newline ((state.fs.files target).drop base)).Short len) :
    state.results = lineResults (stretch (state.fs.files target) base offset) := by
  have behind : stretch (state.fs.files target) base offset <+:
      (state.fs.files target).drop base :=
    stretch_prefix ..
  have reported := (split_short (short.initial behind)).1
  rw [tracks.follows.delivered.split] at reported
  rw [tracks.results, lineResults, ← reported, List.map_map]
  rfl

/-- A reader of a file that is only appended to has returned exactly the nonempty
terminated lines between the opening offset and its descriptor, in order, each
once and with its length; and from every state, whatever clocks it sees, it goes
on to return all those the file has. -/
theorem tail_exact (suffixFree : SuffixFree (filePath logdir path)) {state : State}
    (reached : (system logdir path len).Reaches AppendOnly state) {target : Inode} {base : Nat}
    (opened : state.opened = some ⟨target, base⟩)
    (short : (linesOf newline ((state.fs.files target).drop base)).Short len) :
    (∃ point offset, state.point = .reading point ∧ descriptor point = some ⟨target, offset⟩ ∧
      base ≤ offset ∧ offset ≤ (state.fs.files target).length ∧
      state.results = lineResults (stretch (state.fs.files target) base offset)) ∧
    ∀ clocks : Nat → Int, ∃ steps after,
      (system logdir path len).follow (readerSteps clocks steps) state = some after ∧
        after.fs = state.fs ∧
        after.results = lineResults ((state.fs.files target).drop base) := by
  have positive : 0 < len := Nat.lt_of_le_of_lt (Nat.zero_le _) short.2
  have sound : Sound (filePath logdir path) len state := by
    apply reached.invariant
    · rintro _ ⟨fs, rfl⟩
      exact .opening _ rfl rfl rfl .openFile
    · exact fun _ _ _ sound appended moved => sound_step suffixFree positive sound appended moved
  cases sound with
  | opening point place unopened => simp [unopened] at opened
  | failed place unopened => simp [unopened] at opened
  | tracks target' base' offset pieces line point tracks =>
    have same := tracks.opened.symm.trans opened
    simp only [Option.some.injEq, OpenFile.mk.injEq] at same
    obtain ⟨rfl, rfl⟩ := same
    constructor
    · exact ⟨point, offset, tracks.place, follows_descriptor tracks.follows,
        tracks.follows.delivered.started, tracks.follows.delivered.within,
        tracks.results_exact short⟩
    · intro clocks
      obtain ⟨steps, after, more, rest, place, completed, unchanged, arrived⟩ :=
        Tracks.catches_up logdir path positive _ clocks tracks (Nat.le_refl _)
      refine ⟨steps, after, completed, unchanged, ?_⟩
      rw [← unchanged] at short ⊢
      rw [arrived.results_exact short, stretch, unchanged, List.take_length]

/-- A file system with one file, `/x`, which has the given content. -/
def oneFile (content : List Byte) : FileSystem where
  names path := if path = [47, 120] then some 1 else none
  files inode := if inode = 1 then content else []

/-- The four calls of `tail_open`, from the end of `"a\n"`; then `"b\nc"` is appended
and the line `"b"` read. -/
theorem tail_exact_one_line : ∃ state, state.results = [⟨1, [98]⟩] ∧
    (∃ point offset, state.point = .reading point ∧ descriptor point = some ⟨1, offset⟩ ∧
      2 ≤ offset ∧ offset ≤ (state.fs.files 1).length ∧
      state.results = lineResults (stretch (state.fs.files 1) 2 offset)) ∧
    ∀ clocks : Nat → Int, ∃ steps after,
      (system [47] [47, 120] 8).follow (readerSteps clocks steps) state = some after ∧
        after.fs = state.fs ∧ after.results = lineResults ((state.fs.files 1).drop 2) := by
  have run : ∃ state, (system [47] [47, 120] 8).follow
      [.reader 0, .reader 0, .reader 0, .reader 0, .append 1 [98, 10, 99], .reader 0, .reader 0,
        .reader 0] (initial [47] [47, 120] (oneFile [97, 10])) = some state ∧
      state.results = [⟨1, [98]⟩] ∧ state.opened = some ⟨1, 2⟩ ∧
      state.fs.files 1 = [97, 10, 98, 10, 99] := ⟨_, rfl, rfl, rfl, rfl⟩
  obtain ⟨state, completed, results, opened, content⟩ := run
  have free : SuffixFree (filePath [47] [47, 120]) := by decide
  have started : (system [47] [47, 120] 8).start (initial [47] [47, 120] (oneFile [97, 10])) :=
    ⟨_, rfl⟩
  have reached : (system [47] [47, 120] 8).Reaches AppendOnly state :=
    (System.Reaches.initial started).followed _ state (by decide) completed
  have short : (linesOf newline ((state.fs.files 1).drop 2)).Short 8 := by
    rw [content]
    decide
  exact ⟨state, results, tail_exact free reached opened short⟩

end Dragonfly.TailReader
