import Dragonfly.FlatFiles
import Dragonfly.FlywheelLines

/-!
# Which bytes of the buffer the readers write

`tail_next_line` reads a byte to index `i` of the buffer and ends with a terminator there,
also where the loop ended because `i` is the length of the buffer. `file_read_line` and
`zfile_read_line` put their terminator in front of the end of what they got, which for a
chunk that begins with a zero byte is in front of the buffer. All other indices lie inside.
-/

namespace Dragonfly.BufferBounds

open Tail Flywheel FlywheelLines LineSources FlatFiles

/-- An index that lies inside the buffer of `maxBufferSize` bytes which `lua_flywheel_loop`
passes to its readers. -/
def Inside (index : Int) : Prop := 0 ≤ index ∧ index < maxBufferSize

/-! ## Tails -/

/-- The index a `read` of `tail_next_line` stores its byte at. -/
def readIndices : TailPoint → List Int
  | .read _ _ locals => [locals.line.length]
  | _ => []

/-- The index of the terminator when `tail_next_line` returns, unless it returns an error. -/
def terminators : Outcome TailPoint Returned → List Int
  | .ret returned => if returned.n < 0 then [] else [returned.n]
  | _ => []

/-- The files, the reader until it reports an error, and the indices it wrote. -/
structure State where
  fs : FileSystem
  point : Option TailPoint
  written : List Int

/-- What may happen next: a system call of the reader at some time, or an append of another
process to a file. -/
inductive Label where
  | step (now : Int)
  | append (inode : Inode) (bytes : List Byte)

/-- The state behind an operation of `tail_read_line`. A call that returned is followed by the
next one. -/
def State.continued (state : State) : Outcome TailPoint Returned → Option State
  | .goto after => some { state with point := some after }
  | .ret returned => some { state with
      point := if returned.n < 0 then none else some (.enter returned.handle) }
  | .exit => none

/-- One step of the tail reader or of the file system. A step of the reader also records the
indices it writes to. -/
def next (state : State) : Label → Option State
  | .step now => state.point.bind fun point =>
      { state with written := state.written ++ readIndices point ++
          terminators (state.fs.perform now (tailNextLine maxBufferSize point)) }.continued
        (state.fs.perform now (tailReadLine maxBufferSize point))
  | .append inode bytes => some { state with fs := state.fs.append inode bytes }

/-- The calls on a tail whose descriptor stands at an offset of a file; the path leads to the
file, or nowhere. -/
def system (path : Path) (target : Inode) (base : Nat) : System State Label where
  start state := ∃ fs, base ≤ (fs.files target).length ∧ Named fs path target ∧
    state = ⟨fs, some (.enter ⟨some ⟨target, base⟩, path⟩), []⟩
  next := next

/-- On a tail with this text behind its descriptor every index is inside. -/
def TailInside (path : Path) (target : Inode) (base : Nat) (text : List Byte) : Prop :=
  ∀ state, (system path target base).Reachable state →
    (state.fs.files target).drop base = text → ∀ index ∈ state.written, Inside index

/-- The indices are those inside and the lengths of the reports. -/
structure Logged (pieces : List (Piece Byte)) (written : List Int) : Prop where
  bounded : ∀ index ∈ written, Inside index ∨ ∃ piece ∈ pieces, index = piece.items.length
  reported : ∀ piece ∈ pieces, (piece.items.length : Int) ∈ written

/-- Writing at indices inside the buffer changes nothing about which pieces the indices outside
it come from. -/
theorem Logged.inside {pieces : List (Piece Byte)} {written more : List Int}
    (logged : Logged pieces written) (inside : ∀ index ∈ more, Inside index) :
    Logged pieces (written ++ more) := by
  constructor
  · intro index listed
    rcases List.mem_append.mp listed with earlier | new
    · exact logged.bounded index earlier
    · exact .inl (inside index new)
  · exact fun piece listed => List.mem_append_left _ (logged.reported piece listed)

/-- A reported piece comes with one more index, that of its terminator, which is the length of
the piece. -/
theorem Logged.report {pieces : List (Piece Byte)} {written : List Int}
    (logged : Logged pieces written) (piece : Piece Byte) :
    Logged (pieces ++ [piece]) (written ++ [(piece.items.length : Int)]) := by
  constructor
  · intro index listed
    rcases List.mem_append.mp listed with earlier | new
    · apply (logged.bounded index earlier).imp_right
      rintro ⟨other, known, same⟩
      exact ⟨other, List.mem_append_left _ known, same⟩
    · exact .inr ⟨piece, by simp, List.mem_singleton.mp new⟩
  · intro other listed
    rcases List.mem_append.mp listed with earlier | new
    · exact List.mem_append_left _ (logged.reported other earlier)
    · rw [List.mem_singleton.mp new]
      simp

section Tails

variable {path : Path} {target : Inode} {base : Nat} {state : State}

/-- A byte that was read is stored inside the buffer: the loop stands at an index that is
smaller than the length. -/
theorem read_indices_inside {fs : FileSystem} {offset : Nat} {pieces : List (Piece Byte)}
    {line : List Byte} {point : TailPoint}
    (follows : Follows False fs maxBufferSize path target base offset pieces line point) :
    ∀ index ∈ readIndices point, Inside index := by
  have room : line.length < maxBufferSize := follows.delivered.room (by decide)
  cases follows.reading with
  | read locals remembered =>
    intro index listed
    obtain rfl := List.mem_singleton.mp listed
    exact ⟨Int.natCast_nonneg _, by exact_mod_cast room⟩
  | _ =>
    intro index listed
    cases listed

/-- `tail_read_line` returns what `tail_next_line` does, unless that is an empty line. -/
theorem terminators_of_return (outcome : Outcome TailPoint Returned) (returned : Returned)
    (same : (outcome.call id fun returned =>
      if returned.n = 0 then .goto (.enter returned.handle) else .ret returned) = .ret returned) :
    terminators outcome = if returned.n < 0 then [] else [returned.n] := by
  cases outcome with
  | goto point => cases same
  | exit => cases same
  | ret result =>
    simp only [Outcome.call] at same
    split at same
    · cases same
    · rw [← Outcome.ret.inj same]
      rfl

/-- Where `tail_read_line` goes on, `tail_next_line` has terminated nothing, or an empty line. -/
theorem terminators_of_goto (outcome : Outcome TailPoint Returned) (after : TailPoint)
    (same : (outcome.call id fun returned =>
      if returned.n = 0 then .goto (.enter returned.handle) else .ret returned) = .goto after) :
    ∀ index ∈ terminators outcome, Inside index := by
  cases outcome with
  | goto point => simp [terminators]
  | exit => cases same
  | ret result =>
    simp only [Outcome.call] at same
    split at same
    · rename_i empty
      simp [terminators, empty, Inside, maxBufferSize]
    · cases same

/-- A step of a reader that follows its file: it stays on it and logs the indices it wrote, or
finds no file under its path. -/
theorem tail_step {offset : Nat} {pieces : List (Piece Byte)} {line : List Byte}
    {point : TailPoint} (place : state.point = some point) (named : Named state.fs path target)
    (follows : Follows False state.fs maxBufferSize path target base offset pieces line point)
    (logged : Logged pieces state.written) (now : Int) :
    ∃ after reached more rest, next state (.step now) = some after ∧ after.fs = state.fs ∧
      Delivered (state.fs.files target) maxBufferSize base reached more rest ∧
      Logged more after.written ∧
      ((∃ place, after.point = some place ∧
          Follows False state.fs maxBufferSize path target base reached more rest place ∧
          Onward False (state.fs.files target).length offset reached point place) ∨
        (after.point = none ∧ state.fs.names path = none)) := by
  have stored := read_indices_inside follows
  have progress := follows_step (by decide : 0 < maxBufferSize) follows now
  have delivered := follows.delivered
  have returns := perform_read_line state.fs now maxBufferSize point
  simp only [next, place, Option.bind_some]
  generalize state.fs.perform now (tailReadLine maxBufferSize point) = outcome
    at progress returns ⊢
  generalize state.fs.perform now (tailNextLine maxBufferSize point) = inner at returns ⊢
  cases progress with
  | within _ after reached line kept onward =>
    have terminated := terminators_of_goto inner after returns.symm
    refine ⟨_, reached, pieces, line, rfl, rfl, kept.delivered, ?_, .inl ⟨after, rfl, kept, onward⟩⟩
    exact (logged.inside stored).inside terminated
  | returned _ reached piece ahead position nonempty kept onward =>
    have terminated := terminators_of_return inner _ returns.symm
    have size : ¬ (piece.items.length : Int) < 0 := by omega
    simp only [if_neg size] at terminated
    refine ⟨_, reached, pieces ++ [piece], [], rfl, rfl, kept.delivered, ?_,
      .inl ⟨_, ?_, kept, onward⟩⟩
    · rw [terminated]
      exact (logged.inside stored).report piece
    · simp only [if_neg size]
  | refused locals fdstat missing =>
    have terminated := terminators_of_return inner _ returns.symm
    refine ⟨_, offset, pieces, line, rfl, rfl, delivered, ?_, .inr ⟨rfl, missing⟩⟩
    rw [terminated]
    simpa using logged.inside stored
  | leaves locals elsewhere =>
    obtain ⟨other, leads, different⟩ := elsewhere
    exact absurd (named other leads) different

/-- The reader follows its file, or has reported an error, with its indices logged. -/
structure Watched (path : Path) (target : Inode) (base : Nat) (state : State) : Prop where
  named : Named state.fs path target
  position : ∃ offset pieces line,
    Delivered (state.fs.files target) maxBufferSize base offset pieces line ∧
      Logged pieces state.written ∧ ∀ point, state.point = some point →
        Follows False state.fs maxBufferSize path target base offset pieces line point

/-- In every reachable state, the indices written so far are those of the pieces reported so far
and indices inside the buffer. -/
theorem watched_reachable (reached : (system path target base).Reachable state) :
    Watched path target base state := by
  apply reached.invariant
  · rintro _ ⟨fs, within, named, rfl⟩
    refine ⟨named, base, [], [], Delivered.initial _ base within, ⟨by simp, by simp⟩, ?_⟩
    intro point place
    obtain rfl := Option.some.inj place
    exact ⟨Delivered.initial _ base within, .enter⟩
  · rintro before label after ⟨named, offset, pieces, line, delivered, logged, follows⟩ _ moved
    cases label with
    | append inode bytes =>
      obtain rfl := Option.some.inj moved
      have grown := before.fs.append_grown inode bytes target
      exact ⟨named, offset, pieces, line, delivered.extended grown, logged,
        fun point place => (follows point place).carried grown (fun _ _ leads => leads)⟩
    | step now =>
      cases place : before.point with
      | none => simp [system, next, place] at moved
      | some point =>
        obtain ⟨next, reached, more, rest, stepped, sameFiles, delivered, logged, position⟩ :=
          tail_step place named (follows point place) logged now
        obtain rfl := Option.some.inj (stepped.symm.trans moved)
        refine ⟨sameFiles ▸ named, reached, more, rest, sameFiles ▸ delivered, logged, ?_⟩
        intro point place
        rcases position with ⟨known, found, kept, -⟩ | ⟨ended, -⟩
        · obtain rfl := Option.some.inj (found.symm.trans place)
          exact sameFiles ▸ kept
        · rw [ended] at place
          cases place

/-- Left alone, a reader whose path leads to its file reads it to the end. The measure is the
number of calls it may still need. -/
theorem tail_completes (measure : Nat) :
    ∀ {state : State} {offset : Nat} {pieces : List (Piece Byte)} {line : List Byte}
      {point : TailPoint}, (system path target base).Reachable state →
      state.point = some point → state.fs.names path = some target →
      Follows False state.fs maxBufferSize path target base offset pieces line point →
      Logged pieces state.written →
      6 * ((state.fs.files target).length - offset) + point.delay ≤ measure →
      ∃ after more rest, (system path target base).Reachable after ∧ after.fs = state.fs ∧
        Delivered (state.fs.files target) maxBufferSize base (state.fs.files target).length
          more rest ∧ Logged more after.written := by
  induction measure using Nat.strong_induction_on with
  | _ measure inductionHypothesis =>
    intro state offset pieces line point reached place leads follows logged bound
    by_cases ended : offset = (state.fs.files target).length
    · exact ⟨state, pieces, line, reached, rfl, ended ▸ follows.delivered, logged⟩
    · have within := follows.delivered.within
      have named : Named state.fs path target := fun other found => by
        rw [leads] at found
        exact (Option.some.inj found).symm
      obtain ⟨middle, ahead, more, rest, stepped, sameFiles, -, kept, position⟩ :=
        tail_step place named follows logged 0
      rcases position with ⟨next, placed, following, onward⟩ | ⟨-, missing⟩
      · have nearer := onward.nearer id (by omega)
        obtain ⟨after, all, last, arrived, unchanged, whole, complete⟩ :=
          inductionHypothesis _ (Nat.lt_of_lt_of_le nearer bound)
            (reached.extend (.step 0) trivial stepped) placed (sameFiles ▸ leads)
            (sameFiles ▸ following) kept (by rw [sameFiles])
        rw [sameFiles] at unchanged whole
        exact ⟨after, all, last, arrived, unchanged, whole, complete⟩
      · rw [leads] at missing
        cases missing

/-- For every text there is a run that reads it to the end. -/
theorem every_text_logged (path : Path) (target : Inode) (base : Nat) (text : List Byte) :
    ∃ state, (system path target base).Reachable state ∧
      (state.fs.files target).drop base = text ∧
      Logged (splitOf newline maxBufferSize text).pieces state.written := by
  let fs : FileSystem := ⟨fun _ => some target, fun _ => List.replicate base 0 ++ text⟩
  have content : (fs.files target).drop base = text := by simp [fs]
  have within : base ≤ (fs.files target).length := by simp [fs]
  have reached : (system path target base).Reachable
      ⟨fs, some (.enter ⟨some ⟨target, base⟩, path⟩), []⟩ :=
    System.Reaches.initial ⟨fs, within, fun other leads => (Option.some.inj leads).symm, rfl⟩
  obtain ⟨state, pieces, line, arrived, sameFiles, delivered, logged⟩ :=
    tail_completes _ reached rfl rfl ⟨Delivered.initial _ base within, .enter⟩
      ⟨by simp, by simp⟩ (Nat.le_refl _)
  refine ⟨state, arrived, by rw [sameFiles, content], ?_⟩
  have split := delivered.split
  rw [stretch, List.take_length, content] at split
  rw [split]
  exact logged

end Tails

/-- On a tail every index is inside exactly if all lines behind its descriptor are shorter
than the buffer, the last one included if it is not terminated. -/
theorem tail_inside_iff (path : Path) (target : Inode) (base : Nat) (text : List Byte) :
    TailInside path target base text ↔ (linesOf newline text).Short maxBufferSize := by
  constructor
  · intro inside
    obtain ⟨state, reached, content, logged⟩ := every_text_logged path target base text
    rw [short_iff_pieces (by decide)]
    intro piece listed
    have index := inside state reached content _ (logged.reported piece listed)
    exact_mod_cast index.2
  · rintro short state reached rfl index listed
    obtain ⟨-, offset, pieces, line, delivered, logged, -⟩ := watched_reachable reached
    have behind : stretch (state.fs.files target) base offset <+:
        (state.fs.files target).drop base :=
      stretch_prefix ..
    have all := (short_iff_pieces (by decide) _).mp (short.initial behind)
    rw [delivered.split] at all
    rcases logged.bounded index listed with inside | ⟨piece, known, rfl⟩
    · exact inside
    · exact ⟨Int.natCast_nonneg _, by exact_mod_cast all piece known⟩

/-! ## Files -/

/-- The indices a reader of a file writes: those of `fgets` or `gzgets` with their terminator,
and its own. -/
def streamIndices (stream : List Byte) : List Int :=
  if stream = [] then []
  else
    let line := getLine maxBufferSize stream
    (List.range (line.length + 1)).map (fun index : Nat => (index : Int)) ++
      [(strnlen (line ++ [0]) maxBufferSize : Int) - 1]

/-- What successive calls leave of the content, as long as they are defined. -/
inductive Reached (readLine : Nat → List Byte → Option Reading) (content : List Byte) :
    List Byte → Prop where
  | start : Reached readLine content content
  | next (stream : List Byte) (reading : Reading) (earlier : Reached readLine content stream)
      (returned : readLine maxBufferSize stream = some reading) :
      Reached readLine content reading.rest

/-- On a file with this content every index is inside. -/
def StreamInside (readLine : Nat → List Byte → Option Reading) (content : List Byte) : Prop :=
  ∀ stream, Reached readLine content stream → ∀ index ∈ streamIndices stream, Inside index

/-- No zero byte begins a line, or stands a multiple of the room behind its beginning. -/
def NoZeroFirst (content : List Byte) : Prop :=
  ∀ front back, content = front ++ 0 :: back →
    (linesOf newline front).rest.length % room ≠ 0

section Streams

variable {result : Nat → Int} {byte : Byte} {more : List Byte}

/-- What is taken from a stream begins with its first byte. -/
theorem get_line_head (byte : Byte) (more : List Byte) :
    ∃ rest, getLine maxBufferSize (byte :: more) = byte :: rest := by
  have size : maxBufferSize - 1 = maxBufferSize - 2 + 1 := rfl
  rw [getLine, size, List.take_succ_cons]
  exact ⟨_, List.take_succ_cons⟩

/-- A string that begins with a zero byte is empty. -/
theorem strnlen_zero_iff (byte : Byte) (rest : List Byte) :
    strnlen (byte :: rest) maxBufferSize = 0 ↔ byte = 0 := by
  have size : maxBufferSize = maxBufferSize - 1 + 1 := rfl
  rw [strnlen, size, List.take_succ_cons, cString, List.length_eq_zero_iff]
  by_cases zero : byte = 0
  · simp [zero]
  · simp [zero]

/-- The function `strnlen` never returns more than its bound, whatever there is in memory. -/
theorem strnlen_bounded (memory : List Byte) (max : Nat) : strnlen memory max ≤ max :=
  (List.takeWhile_prefix _).length_le.trans (List.length_take_le max memory)

/-- A read is defined where the stream does not begin with a zero byte. -/
theorem read_line_defined (text : byte ≠ 0) :
    ∃ reading, readLine result maxBufferSize (byte :: more) = some reading := by
  obtain ⟨rest, line⟩ := get_line_head byte more
  have size : strnlen (byte :: (rest ++ [0])) maxBufferSize ≠ 0 := fun empty =>
    text ((strnlen_zero_iff byte _).mp empty)
  rw [readLine, if_neg (by simp), line]
  dsimp only
  rw [List.cons_append, if_neg size]
  exact ⟨_, rfl⟩

/-- A call of the reader takes from the stream what its `fgets` or `gzgets` returned, which is
the first chunk. -/
theorem read_line_rest {stream : List Byte} {reading : Reading}
    (returned : readLine result maxBufferSize stream = some reading) :
    reading.rest = stream.drop (firstChunk newline room stream).length := by
  rw [readLine] at returned
  split at returned
  · rename_i ended
    rw [← Option.some.inj returned, ended, List.drop_nil]
  · dsimp only at returned
    split at returned
    · cases returned
    · rw [← Option.some.inj returned]
      rfl

/-- The indices are inside where the stream does not begin with a zero byte. -/
theorem stream_indices_inside :
    (∀ index ∈ streamIndices (byte :: more), Inside index) ↔ byte ≠ 0 := by
  obtain ⟨rest, line⟩ := get_line_head byte more
  have bounded : (getLine maxBufferSize (byte :: more)).length ≤ room :=
    (first_chunked newline room (byte :: more)).bounded
  have room : room = 32767 := rfl
  have size : maxBufferSize = 32768 := rfl
  have terminated := strnlen_zero_iff byte (rest ++ [0])
  have limited := strnlen_bounded (byte :: (rest ++ [0])) maxBufferSize
  rw [streamIndices, if_neg (by simp)]
  dsimp only
  rw [line] at bounded ⊢
  rw [List.cons_append]
  constructor
  · intro inside zero
    have index := inside _ (List.mem_append_right _ (List.mem_singleton.mpr rfl))
    rw [terminated.mpr zero] at index
    exact absurd index.1 (by decide)
  · intro text index listed
    rcases List.mem_append.mp listed with stored | own
    · obtain ⟨place, within, rfl⟩ := List.mem_map.mp stored
      have below := List.mem_range.mp within
      rw [Inside]
      omega
    · have positive : strnlen (byte :: (rest ++ [0])) maxBufferSize ≠ 0 := fun empty =>
        text (terminated.mp empty)
      obtain rfl := List.mem_singleton.mp own
      rw [Inside]
      omega

/-- Where all indices of a file lie inside the buffer, no chunk stops the reader, and so every
chunk of the file is reached. -/
theorem cut_reached {content : List Byte} (inside : StreamInside (readLine result) content)
    {stream : List Byte} (cut : Cut newline room content stream) :
    Reached (readLine result) content stream := by
  induction cut with
  | start => exact .start
  | next back cut nonempty inductionHypothesis =>
    cases back with
    | nil => exact absurd rfl nonempty
    | cons byte more =>
      have text := stream_indices_inside.mp (inside _ inductionHypothesis)
      obtain ⟨reading, returned⟩ := @read_line_defined result byte more text
      rw [← read_line_rest returned]
      exact .next _ reading inductionHypothesis returned

/-- Before the end of the content only chunks are reached. -/
theorem reached_cut {content stream : List Byte}
    (reached : Reached (readLine result) content stream) :
    stream = [] ∨ Cut newline room content stream := by
  induction reached with
  | start => exact .inr .start
  | next stream reading earlier returned inductionHypothesis =>
    rw [read_line_rest returned]
    rcases inductionHypothesis with rfl | cut
    · exact .inl List.drop_nil
    · by_cases ended : stream = []
      · rw [ended]
        exact .inl List.drop_nil
      · exact .inr (.next stream cut ended)

/-- On a file every index is inside exactly if no zero byte begins a line or a full buffer of
one. -/
theorem stream_inside_iff (result : Nat → Int) (content : List Byte) :
    StreamInside (readLine result) content ↔ NoZeroFirst content := by
  constructor
  · rintro inside front back rfl zero
    have cut := (cut_iff (by decide) front (List.cons_ne_nil 0 back)).mpr zero
    exact stream_indices_inside.mp (inside _ (cut_reached inside cut)) rfl
  · intro text stream reached
    cases stream with
    | nil => exact fun index listed => by cases listed
    | cons byte more =>
      rw [stream_indices_inside]
      rintro rfl
      rcases reached_cut reached with ended | cut
      · cases ended
      · obtain ⟨front, rfl⟩ := cut.suffix
        exact text front more rfl ((cut_iff (by decide) front (List.cons_ne_nil 0 more)).mp cut)

end Streams

/-- The readers stay inside the buffer: a tail where all lines behind its descriptor, the last
one too, are shorter than the buffer; a file or a compressed file where no zero byte begins a
line or a full buffer of one. -/
theorem readers_inside_iff (path : Path) (target : Inode) (base : Nat) (content : List Byte) :
    (TailInside path target base content ↔ (linesOf newline content).Short maxBufferSize) ∧
      (StreamInside fileReadLine content ↔ NoZeroFirst content) ∧
      (StreamInside zfileReadLine content ↔ NoZeroFirst content) :=
  ⟨tail_inside_iff path target base content, stream_inside_iff _ content,
    stream_inside_iff _ content⟩

/-- A tail with a line as long as the buffer is terminated behind it, and a file whose first
line begins with a zero byte in front of it. -/
theorem readers_outside :
    ¬ TailInside [47, 120] 1 0 (List.replicate 32768 97 ++ [newline]) ∧
      ¬ StreamInside fileReadLine [0, newline] ∧ ¬ StreamInside zfileReadLine [0, newline] := by
  refine ⟨fun inside => ?_, fun inside => ?_, fun inside => ?_⟩
  · have short := (tail_inside_iff _ _ _ _).mp inside
    have absent : newline ∉ List.replicate 32768 (97 : Byte) := fun present =>
      absurd (List.eq_of_mem_replicate present) (by decide)
    rw [lines_of_separator, lines_of_unterminated absent] at short
    have line := short.1 (List.replicate 32768 97) (List.mem_append_right _ List.mem_cons_self)
    rw [List.length_replicate] at line
    exact Nat.lt_irrefl _ line
  · exact (stream_inside_iff _ _).mp inside [] [newline] rfl rfl
  · exact (stream_inside_iff _ _).mp inside [] [newline] rfl rfl

end Dragonfly.BufferBounds
