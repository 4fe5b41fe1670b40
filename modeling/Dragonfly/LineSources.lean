import Dragonfly.FlywheelLines
import Dragonfly.FlywheelThread

/-!
# The flywheel on a file and on a compressed file

`file_read_line` and `zfile_read_line` take a line from a stream with `fgets` and
`gzgets`, replace its last byte by a terminator and return its length, the one with the
byte that was replaced and the other without. At the end of the stream both return
zero. The thread reads its source from the start until the loop returns, and opens it
again unless it is a flat file.

A stream is what is left of a fixed content; the content of a compressed file is what
`zlib` makes of it. Opening and reading do not fail. A line that begins with a zero byte
is undefined: its terminator is written in front of the buffer.
-/

namespace Dragonfly.LineSources

open Flywheel

/-- What `fgets` and `gzgets` take from a stream for a buffer of `max` bytes: the bytes
up to the first newline and with it, `max - 1` of them at most. -/
def getLine (max : Nat) (stream : List Byte) : List Byte :=
  let front := stream.take (max - 1)
  front.take (front.findIdx (fun byte => byte == newline) + 1)

/-- The result of a reader, the buffer, and what it leaves of the stream. -/
structure Reading where
  n : Int
  data : List Byte
  rest : List Byte

/-- What both readers do: at the end of the stream they return zero, and otherwise they take a
line, put a terminator over its last byte, and return a result that depends on its length. -/
def readLine (result : Nat → Int) (max : Nat) (stream : List Byte) : Option Reading :=
  if stream = [] then some ⟨0, [], []⟩
  else
    let line := getLine max stream
    let n := strnlen (line ++ [0]) max
    if n = 0 then none else some ⟨result n, line.set (n - 1) 0, stream.drop line.length⟩

/-- The function `file_read_line`, which returns the length of the line with the byte that was
overwritten. -/
def fileReadLine : Nat → List Byte → Option Reading := readLine fun n => n

/-- The function `zfile_read_line`, which returns the length of the line without the byte that
was overwritten. -/
def zfileReadLine : Nat → List Byte → Option Reading := readLine fun n => n - 1

/-- A source that is read by lines: its reader, and whether `dragonfly_io_isfile` holds of its
handle. -/
structure StreamSource where
  readLine : Nat → List Byte → Option Reading
  isfile : Bool

/-- The source of a `file://` URI, which `dragonfly_io_isfile` takes for a flat file. -/
def fileSource : StreamSource := ⟨fileReadLine, dragonflyIoIsfile .inFile⟩

/-- The source of a `zfile://` URI; `DF_IN_ZFILE_TYPE` is no type of a flat file. -/
def zfileSource : StreamSource := ⟨zfileReadLine, false⟩

/-! ## The thread -/

/-- One shared operation of the flywheel thread: those of its loop, and the opening and closing
of its source. -/
inductive Operation (Point Result : Type) where
  | loadRunning (resume : Bool → Outcome Point Result)
  | ioOpen (resume : Outcome Point Result)
  | ioRead (len : Nat) (resume : Int → List Byte → Outcome Point Result)
  | send (message : List Byte) (resume : Outcome Point Result)
  | ioClose (resume : Outcome Point Result)

/-- The points of `lua_flywheel_thread`: the loop condition, `dragonfly_io_open`, the
loop, and `dragonfly_io_close`. -/
inductive ThreadPoint where
  | test
  | opening
  | loop (point : LoopPoint)
  | closing

/-- The loop inside the thread: its operations are those of the thread, which closes the source
when the loop returns. -/
def callLoop : LoopOperation LoopPoint Unit → Operation ThreadPoint Unit
  | .loadRunning resume =>
      .loadRunning fun running => (resume running).call .loop fun _ => .goto .closing
  | .ioRead len resume =>
      .ioRead len fun n buffer => (resume n buffer).call .loop fun _ => .goto .closing
  | .send message resume => .send message (resume.call .loop fun _ => .goto .closing)

/-- The function `lua_flywheel_thread` on a handle of this kind: it opens the source, runs the
loop and closes the source, and leaves a flat file then. -/
def luaFlywheelThread (isfile : Bool) : ThreadPoint → Operation ThreadPoint Unit
  | .test => .loadRunning fun running => if running then .goto .opening else .ret ()
  | .opening => .ioOpen (.goto (.loop .test))
  | .loop point => callLoop (luaFlywheelLoop point)
  | .closing => .ioClose (if isfile then .ret () else .goto .test)

/-- What is left of the stream, `g_running`, the thread until it returns, what it put
into the queue, and whether a read has found the end of the stream. -/
structure State where
  rest : List Byte
  running : Bool
  point : Option ThreadPoint
  enqueued : List (List Byte)
  ended : Bool

/-- Continue the thread at its next point; where it has returned it has none. -/
def State.continued (state : State) : Outcome ThreadPoint Unit → State
  | .goto point => { state with point := some point }
  | .ret _ => { state with point := none }
  | .exit => { state with point := none }

/-- Perform an operation of the thread on a source with this content. -/
def State.perform (state : State) (source : StreamSource) (content : List Byte) :
    Operation ThreadPoint Unit → Option State
  | .loadRunning resume => some (state.continued (resume state.running))
  | .ioOpen resume => some ({ state with rest := content }.continued resume)
  | .ioRead len resume =>
      (source.readLine len state.rest).map fun reading =>
        { state with
          rest := reading.rest
          ended := state.ended || state.rest.isEmpty }.continued (resume reading.n reading.data)
  | .send message resume =>
      some ({ state with enqueued := state.enqueued ++ [message] }.continued resume)
  | .ioClose resume => some (state.continued resume)

/-- An operation of the thread, or the end of the engine. -/
inductive Label where
  | step
  | stop
deriving DecidableEq

/-- One step of the thread, or of the engine that stops it. -/
def next (source : StreamSource) (content : List Byte) (state : State) : Label → Option State
  | .step => state.point.bind fun point =>
      state.perform source content (luaFlywheelThread source.isfile point)
  | .stop => some { state with running := false }

/-- A thread that is about to begin: the engine runs, nothing is opened, and nothing was put
into the queue. -/
def initial : State where
  rest := []
  running := true
  point := some .test
  enqueued := []
  ended := false

/-- The runs of the thread on a source with this content. -/
def system (source : StreamSource) (content : List Byte) : System State Label where
  start state := state = initial
  next := next source content

/-- The loop stands at the end of the content, with every message in the queue, and has
not read there. -/
def State.AtEnd (state : State) : Prop :=
  state.rest = [] ∧ state.ended = false ∧
    (state.point = some (.loop .test) ∨ state.point = some (.loop .read))

/-! ## Lines -/

/-- A line that fits every reader: it is not empty, has neither a newline nor a zero byte, and
leaves room for newline and terminator. -/
structure PlainLine (line : List Byte) : Prop where
  nonempty : line ≠ []
  unbroken : newline ∉ line
  text : 0 ∉ line
  short : line.length ≤ 32766

/-- The content of a file of lines, each with its newline behind it. -/
def contentOf (lines : List (List Byte)) : List Byte := lines.flatMap fun line => line ++ [newline]

@[simp] theorem content_of_nil : contentOf [] = [] := rfl

theorem content_of_cons (line : List Byte) (rest : List (List Byte)) :
    contentOf (line :: rest) = line ++ newline :: contentOf rest := by
  simp [contentOf]

/-- A line that fits is taken from the stream together with its newline, and nothing more is
taken. -/
theorem get_line_plain {line : List Byte} (plain : PlainLine line) (rest : List Byte) :
    getLine maxBufferSize (line ++ newline :: rest) = line ++ [newline] := by
  have short := plain.short
  have front : (line ++ newline :: rest).take (maxBufferSize - 1) =
      line ++ newline :: rest.take (maxBufferSize - 1 - (line.length + 1)) := by
    rw [List.take_append, List.take_of_length_le (by rw [maxBufferSize]; omega)]
    have room : maxBufferSize - 1 - line.length =
        maxBufferSize - 1 - (line.length + 1) + 1 := by
      rw [maxBufferSize]
      omega
    rw [room, List.take_succ_cons]
  have found : (line ++ newline :: rest.take (maxBufferSize - 1 - (line.length + 1))).findIdx
      (fun byte => byte == newline) = line.length := by
    rw [List.findIdx_append]
    have absent : line.findIdx (fun byte => byte == newline) = line.length := by
      rw [List.findIdx_eq_length]
      intro byte listed
      simpa using fun same : byte = newline => plain.unbroken (same ▸ listed)
    simp [absent, List.findIdx_cons]
  rw [getLine, front, found, List.take_append]
  simp

/-- Both readers on a line that fits: the newline is overwritten, and the stream goes on with
the next line. -/
theorem read_line_plain {line : List Byte} (plain : PlainLine line) (result : Nat → Int)
    (rest : List Byte) :
    readLine result maxBufferSize (line ++ newline :: rest) =
      some ⟨result (line.length + 1), line ++ [0], rest⟩ := by
  have text : 0 ∉ line ++ [newline] := by
    intro present
    rcases List.mem_append.mp present with inside | last
    · exact plain.text inside
    · exact absurd (List.mem_singleton.mp last) (by decide)
  have inside : (line ++ [newline]).length < maxBufferSize := by
    have short := plain.short
    rw [List.length_append, List.length_singleton, maxBufferSize]
    omega
  have length : strnlen (line ++ [newline] ++ [0]) maxBufferSize = line.length + 1 := by
    rw [strnlen_terminated text inside, List.length_append, List.length_singleton]
  rw [readLine, if_neg (by simp), get_line_plain plain]
  dsimp only
  rw [length]
  simp

/-- What a source makes of lines: a message for each, and zero at the end. -/
structure ReadsLines (source : StreamSource) (message : List Byte → List Byte) : Prop where
  line : ∀ (line rest : List Byte), PlainLine line → ∃ n data,
    source.readLine maxBufferSize (line ++ newline :: rest) = some ⟨n, data, rest⟩ ∧
      afterRead n data = .goto (.send (message line))
  last : source.readLine maxBufferSize [] = some ⟨0, [], []⟩

/-- The reader of flat files counts the newline it has overwritten, so a terminator stands at
the end of each of its messages. -/
theorem file_reads_lines : ReadsLines fileSource fun line => line ++ [0] where
  line line rest plain := by
    refine ⟨_, _, read_line_plain plain _ rest, ?_⟩
    have short := plain.short
    have positive : ¬ ((line.length + 1 : Nat) : Int) < 0 := by omega
    have other : ((line.length + 1 : Nat) : Int) ≠ maxBufferSize := by
      rw [maxBufferSize]
      omega
    rw [afterRead, if_neg positive, if_neg other, Int.toNat_natCast,
      List.take_of_length_le (by simp)]
  last := rfl

/-- The reader of compressed files does not count the newline it has overwritten, so its
messages are the lines. -/
theorem zfile_reads_lines : ReadsLines zfileSource id where
  line line rest plain := by
    refine ⟨_, _, read_line_plain plain (fun n => n - 1) rest, ?_⟩
    have short := plain.short
    have length : ((line.length + 1 : Nat) : Int) - 1 = line.length := by omega
    have positive : ¬ (line.length : Int) < 0 := by omega
    have other : (line.length : Int) ≠ maxBufferSize := by
      rw [maxBufferSize]
      omega
    rw [length, afterRead, if_neg positive, if_neg other, Int.toNat_natCast, List.take_left, id]
  last := rfl

/-! ## Reading to the end -/

section Lines

variable {source : StreamSource} {message : List Byte → List Byte} {lines : List (List Byte)}

/-- Where a thread is until a read finds the end of the content: before the loop, at a
line, with a message in hand, or stopped. -/
inductive Reads (message : List Byte → List Byte) (lines : List (List Byte)) (state : State) :
    Prop where
  | before (point : state.point = some .test ∨ state.point = some .opening)
      (empty : state.enqueued = [])
  | reading (done left : List (List Byte)) (split : done ++ left = lines)
      (point : state.point = some (.loop .test) ∨ state.point = some (.loop .read))
      (rest : state.rest = contentOf left) (sent : state.enqueued = done.map message)
  | sending (done left : List (List Byte)) (line : List Byte)
      (split : done ++ line :: left = lines)
      (point : state.point = some (.loop (.send (message line))))
      (rest : state.rest = contentOf left) (sent : state.enqueued = done.map message)
  | stopped (halted : state.running = false)
      (point : state.point = some .closing ∨ state.point = some .test ∨ state.point = none)
  | ended (found : state.ended = true)

/-- Once the end of the file was found, it stays found for the rest of the run. -/
theorem ended_kept {content : List Byte} {state after : State} {label : Label}
    (found : state.ended = true) (moved : next source content state label = some after) :
    after.ended = true := by
  have continued (state : State) (outcome : Outcome ThreadPoint Unit) :
      (state.continued outcome).ended = state.ended := by
    cases outcome <;> rfl
  cases label with
  | stop =>
    obtain rfl := Option.some.inj moved
    exact found
  | step =>
    obtain ⟨point, _, moved⟩ := Option.bind_eq_some_iff.mp moved
    cases operation : luaFlywheelThread source.isfile point with
    | ioRead len resume =>
      rw [operation, State.perform, Option.map_eq_some_iff] at moved
      obtain ⟨reading, _, rfl⟩ := moved
      simp [continued, found]
    | _ =>
      rw [operation] at moved
      obtain rfl := Option.some.inj moved
      rw [continued]
      exact found

/-- A step of a thread behind its loop, with the engine stopped, leads to its end and not into
another loop. -/
theorem stopped_step {content : List Byte} {state after : State} (halted : state.running = false)
    (point : state.point = some .closing ∨ state.point = some .test ∨ state.point = none)
    (moved : next source content state .step = some after) :
    after.running = false ∧
      (after.point = some .closing ∨ after.point = some .test ∨ after.point = none) := by
  rcases point with closing | test | none
  · rw [next, closing] at moved
    obtain rfl := Option.some.inj moved
    cases source.isfile with
    | false => exact ⟨halted, .inr (.inl rfl)⟩
    | true => exact ⟨halted, .inr (.inr rfl)⟩
  · rw [next, test] at moved
    obtain rfl : { state with point := none } = after := by
      simpa [luaFlywheelThread, State.perform, State.continued, halted] using moved
    exact ⟨halted, .inr (.inr rfl)⟩
  · rw [next, none] at moved
    cases moved

/-- A step of a thread that has not begun its loop has put nothing into the queue, and leads to
the first line at most. -/
theorem before_step {state after : State}
    (point : state.point = some .test ∨ state.point = some .opening) (empty : state.enqueued = [])
    (moved : next source (contentOf lines) state .step = some after) :
    Reads message lines after := by
  rcases point with test | opening
  · rw [next, test] at moved
    cases running : state.running with
    | false =>
      obtain rfl : { state with point := none } = after := by
        simpa [luaFlywheelThread, State.perform, State.continued, running] using moved
      exact .stopped running (.inr (.inr rfl))
    | true =>
      obtain rfl : { state with point := some .opening } = after := by
        simpa [luaFlywheelThread, State.perform, State.continued, running] using moved
      exact .before (.inr rfl) empty
  · rw [next, opening] at moved
    obtain rfl := Option.some.inj moved
    exact .reading [] lines rfl (.inl rfl) rfl empty

/-- A step of a thread at one of the lines takes this line and queues its message, or does not
move past it. -/
theorem reading_step (reader : ReadsLines source message)
    (plain : ∀ line ∈ lines, PlainLine line) {state after : State} {done left : List (List Byte)}
    (split : done ++ left = lines)
    (point : state.point = some (.loop .test) ∨ state.point = some (.loop .read))
    (rest : state.rest = contentOf left) (sent : state.enqueued = done.map message)
    (moved : next source (contentOf lines) state .step = some after) :
    Reads message lines after := by
  rcases point with test | read
  · rw [next, test] at moved
    cases running : state.running with
    | false =>
      obtain rfl : { state with point := some .closing } = after := by
        simpa [luaFlywheelThread, callLoop, luaFlywheelLoop, State.perform, State.continued,
          Outcome.call, running] using moved
      exact .stopped running (.inl rfl)
    | true =>
      obtain rfl : { state with point := some (.loop .read) } = after := by
        simpa [luaFlywheelThread, callLoop, luaFlywheelLoop, State.perform, State.continued,
          Outcome.call, running] using moved
      exact .reading done left split (.inr rfl) rest sent
  · rw [next, read] at moved
    simp only [Option.bind_some, luaFlywheelThread, callLoop, luaFlywheelLoop, State.perform, rest]
      at moved
    cases left with
    | nil =>
      simp only [content_of_nil, reader.last, Option.map_some, Option.some.injEq] at moved
      subst moved
      exact .ended (by simp [afterRead, maxBufferSize, Outcome.call, State.continued])
    | cons line more =>
      obtain ⟨n, data, taken, sends⟩ := reader.line line (contentOf more)
        (plain line (split ▸ List.mem_append_right _ List.mem_cons_self))
      simp only [content_of_cons, taken, sends, Option.map_some, Option.some.injEq] at moved
      subst moved
      exact .sending done more line split rfl rfl sent

/-- Each step keeps a thread at its lines: it has queued the messages of those it has taken, and
the others are left in its stream. -/
theorem reads_step (reader : ReadsLines source message)
    (plain : ∀ line ∈ lines, PlainLine line) {state after : State} {label : Label}
    (reads : Reads message lines state)
    (moved : next source (contentOf lines) state label = some after) :
    Reads message lines after := by
  cases label with
  | stop =>
    obtain rfl : { state with running := false } = after := Option.some.inj moved
    cases reads with
    | before point empty => exact .before point empty
    | reading done left split point rest sent => exact .reading done left split point rest sent
    | sending done left line split point rest sent =>
      exact .sending done left line split point rest sent
    | stopped halted point => exact .stopped rfl point
    | ended found => exact .ended found
  | step =>
    cases reads with
    | before point empty => exact before_step point empty moved
    | reading done left split point rest sent =>
      exact reading_step reader plain split point rest sent moved
    | sending done left line split point rest sent =>
      rw [next, point] at moved
      obtain rfl := Option.some.inj moved
      refine .reading (done ++ [line]) left (by simpa using split) (.inl rfl) rest ?_
      change state.enqueued ++ [message line] = _
      rw [sent, List.map_append, List.map_singleton]
    | stopped halted point =>
      obtain ⟨still, place⟩ := stopped_step halted point moved
      exact .stopped still place
    | ended found => exact .ended (ended_kept found moved)

/-- At the end of the content every line is a message. -/
theorem end_exact (reader : ReadsLines source message) (plain : ∀ line ∈ lines, PlainLine line)
    {state : State} (reached : (system source (contentOf lines)).Reachable state)
    (atEnd : state.AtEnd) : state.enqueued = lines.map message := by
  have reads : Reads message lines state := by
    apply reached.invariant
    · rintro _ rfl
      exact .before (.inl rfl) rfl
    · exact fun _ _ _ reads _ moved => reads_step reader plain reads moved
  obtain ⟨rest, unfound, place⟩ := atEnd
  cases reads with
  | before point empty => rcases point with point | point <;> simp [point] at place
  | reading done left split point left' sent =>
    cases left with
    | nil => rw [sent, ← split, List.append_nil]
    | cons line more => simp [rest, content_of_cons] at left'
  | sending done left line split point => simp [point] at place
  | stopped halted point => rcases point with point | point | point <;> simp [point] at place
  | ended found => simp [unfound] at found

/-- A running loop takes the lines that are left one after the other, and comes to the end of
the stream. -/
theorem lines_taken (reader : ReadsLines source message) (content : List Byte)
    {guard : State → Label → Prop} (admitted : ∀ state, guard state .step)
    (left : List (List Byte)) :
    ∀ {enqueued : List (List Byte)}, (∀ line ∈ left, PlainLine line) →
      (system source content).Reaches guard
        ⟨contentOf left, true, some (.loop .test), enqueued, false⟩ →
      (system source content).Reaches guard
        ⟨[], true, some (.loop .test), enqueued ++ left.map message, false⟩ := by
  induction left with
  | nil =>
    intro enqueued _ reached
    simpa using reached
  | cons line more inductionHypothesis =>
    intro enqueued plain reached
    obtain ⟨n, data, taken, sends⟩ := reader.line line (contentOf more)
      (plain line List.mem_cons_self)
    have tested : (system source content).Reaches guard
        ⟨contentOf (line :: more), true, some (.loop .read), enqueued, false⟩ :=
      reached.extend .step (admitted _) rfl
    have read : (system source content).Reaches guard
        ⟨contentOf more, true, some (.loop (.send (message line))), enqueued, false⟩ := by
      apply tested.extend .step (admitted _)
      simp [system, next, luaFlywheelThread, callLoop, luaFlywheelLoop, State.perform, taken,
        sends, content_of_cons, State.continued, Outcome.call]
    have sent : (system source content).Reaches guard
        ⟨contentOf more, true, some (.loop .test), enqueued ++ [message line], false⟩ :=
      read.extend .step (admitted _) rfl
    have others : ∀ later ∈ more, PlainLine later := fun later listed =>
      plain later (List.mem_cons_of_mem _ listed)
    simpa using inductionHypothesis others sent

/-- Every file of lines is read to its end, with the message of each of its lines in the queue. -/
theorem end_reached (reader : ReadsLines source message) (plain : ∀ line ∈ lines, PlainLine line)
    {guard : State → Label → Prop} (admitted : ∀ state, guard state .step) :
    (system source (contentOf lines)).Reaches guard
      ⟨[], true, some (.loop .test), lines.map message, false⟩ := by
  have started : (system source (contentOf lines)).Reaches guard initial :=
    System.Reaches.initial rfl
  have tested : (system source (contentOf lines)).Reaches guard
      ⟨[], true, some .opening, [], false⟩ := started.extend .step (admitted _) rfl
  have entered : (system source (contentOf lines)).Reaches guard
      ⟨contentOf lines, true, some (.loop .test), [], false⟩ :=
    tested.extend .step (admitted _) rfl
  simpa using lines_taken reader (contentOf lines) admitted lines plain entered

end Lines

/-! ## A flat file is never left -/

/-- A step that does not stop the engine, which is the condition on runs in which it keeps
running. -/
def Running (_ : State) (label : Label) : Prop := label ≠ .stop

instance (state : State) (label : Label) : Decidable (Running state label) :=
  inferInstanceAs (Decidable (label ≠ .stop))

/-- How many lines a content has, with the one that no newline ends. -/
def lineCount (content : List Byte) : Nat :=
  (linesOf newline content).complete.length + if (linesOf newline content).rest = [] then 0 else 1

/-- While the engine runs, the thread on a file ends; when it has ended, each line was a
message; and once a read has found the end of the file, nothing is put into the queue. -/
structure ReadOnce (content : List Byte) : Prop where
  terminates : ∃ state, (system fileSource content).Reaches Running state ∧ state.point = none
  counted : ∀ state, (system fileSource content).Reaches Running state → state.point = none →
    state.enqueued.length = lineCount content
  silent : ∀ state after label, (system fileSource content).Reaches Running state →
    state.ended = true → Running state label →
    next fileSource content state label = some after → after.enqueued = state.enqueued

/-- The function `file_read_line` never returns a negative count, whatever its stream holds. -/
theorem file_read_nonnegative {max : Nat} {stream : List Byte} {reading : Reading}
    (read : fileReadLine max stream = some reading) : 0 ≤ reading.n := by
  rw [fileReadLine, readLine] at read
  split at read
  · obtain rfl := Option.some.inj read
    exact Int.le_refl 0
  · dsimp only at read
    split at read
    · cases read
    · obtain rfl := Option.some.inj read
      exact Int.natCast_nonneg _

/-- Where a read does not return a negative count, the loop goes on at one of its points. -/
theorem read_goes_on {n : Int} (positive : 0 ≤ n) (buffer : List Byte) :
    ∃ point, afterRead n buffer = .goto point := by
  rw [afterRead, if_neg (Int.not_lt.mpr positive)]
  split
  · exact ⟨.test, rfl⟩
  · exact ⟨_, rfl⟩

/-- While the engine runs, the loop on a flat file never returns: the thread is at its loop, or
has not begun it. -/
theorem file_loop_stays {content : List Byte} {state : State}
    (reached : (system fileSource content).Reaches Running state) :
    state.running = true ∧ (state.point = some .test ∨ state.point = some .opening ∨
      ∃ point, state.point = some (.loop point)) := by
  apply reached.invariant (fun state => state.running = true ∧ (state.point = some .test ∨
    state.point = some .opening ∨ ∃ point, state.point = some (.loop point)))
  · rintro _ rfl
    exact ⟨rfl, .inl rfl⟩
  · rintro state label after ⟨running, place⟩ runs moved
    cases label with
    | stop => exact absurd rfl runs
    | step =>
      rcases place with test | opening | ⟨point, loop⟩
      · simp only [system, next, test] at moved
        obtain rfl : { state with point := some .opening } = after := by
          simpa [luaFlywheelThread, State.perform, State.continued, running] using moved
        exact ⟨running, .inr (.inl rfl)⟩
      · simp only [system, next, opening] at moved
        obtain rfl := Option.some.inj moved
        exact ⟨running, .inr (.inr ⟨.test, rfl⟩)⟩
      · simp only [system, next, loop] at moved
        cases point with
        | test =>
          obtain rfl : { state with point := some (.loop .read) } = after := by
            simpa [luaFlywheelThread, callLoop, luaFlywheelLoop, State.perform, State.continued,
              Outcome.call, running] using moved
          exact ⟨running, .inr (.inr ⟨.read, rfl⟩)⟩
        | send message =>
          obtain rfl := Option.some.inj moved
          exact ⟨running, .inr (.inr ⟨.test, rfl⟩)⟩
        | read =>
          obtain ⟨reading, read, moved⟩ := Option.map_eq_some_iff.mp moved
          obtain ⟨point, onward⟩ := read_goes_on (file_read_nonnegative read) reading.data
          have moved : State.continued _ ((afterRead reading.n reading.data).call ThreadPoint.loop
            fun _ => .goto .closing) = after := moved
          rw [onward] at moved
          subst moved
          exact ⟨running, .inr (.inr ⟨point, rfl⟩)⟩

/-- No flat file is read once and then left, because the end of the file is no error to its
reader. -/
theorem file_never_left (content : List Byte) : ¬ ReadOnce content := by
  intro once
  obtain ⟨state, reached, ended⟩ := once.terminates
  obtain ⟨_, test | opening | ⟨point, loop⟩⟩ := file_loop_stays reached
  · simp [test] at ended
  · simp [opening] at ended
  · simp [loop] at ended

/-- For the file `"a\n"`, an empty message is put into the queue behind its line. -/
theorem empty_message_after_end : ¬ ReadOnce [97, 10] := by
  intro once
  -- the flag, the file, the flag, the line, its message, the flag, and the end
  obtain ⟨state, completed, found, after, moved, more⟩ :
      ∃ state, (system fileSource [97, 10]).follow (List.replicate 7 .step) initial = some state ∧
        state.ended = true ∧ ∃ after, next fileSource [97, 10] state .step = some after ∧
          after.enqueued ≠ state.enqueued :=
    ⟨_, rfl, rfl, _, rfl, by decide⟩
  have reached : (system fileSource [97, 10]).Reaches Running state :=
    (System.Reaches.initial rfl).followed _ state (by decide) completed
  exact more (once.silent state after .step reached found (by simp [Running]) moved)

end Dragonfly.LineSources
