import Dragonfly.LineSources

/-!
# What the three line sources make of the same lines

The same lines are read as a flat file, as a compressed file and as a tail that begins
at the start. Until the end of the content is reached, the messages of the last two are
the lines; those of the first keep the terminator that took the place of the newline.
-/

namespace Dragonfly.LineSources

open Flywheel

/-- The three sources that read lines: a flat file, a compressed file, and a tail that begins at
the start. -/
inductive Source where
  | file
  | zfile
  | tail
deriving DecidableEq

/-- The descriptor of a loop on a tail, be the loop inside its reader or not. -/
def tailFile : FlywheelPoint → Option OpenFile
  | .loop handle _ => handle.fd
  | .reading point => Tail.descriptor point

/-- The loop on a tail stands at the end of its file, with every message in the queue. -/
def TailAtEnd (target : Inode) (state : FlywheelLines.State) : Prop :=
  ∃ point, state.point = some point ∧ sending point = [] ∧
    tailFile point = some ⟨target, (state.fs.files target).length⟩

/-- The messages in the queue when a source has been read to the end of this content. A
tail whose path ends in `<` is read from offset zero. -/
def Enqueues (content : List Byte) (messages : List (List Byte)) : Source → Prop
  | .file => ∃ state, (system fileSource content).Reachable state ∧ state.AtEnd ∧
      state.enqueued = messages
  | .zfile => ∃ state, (system zfileSource content).Reachable state ∧ state.AtEnd ∧
      state.enqueued = messages
  | .tail => ∃ path target state, (FlywheelLines.system path target 0).Reachable state ∧
      state.fs.files target = content ∧ TailAtEnd target state ∧
      state.enqueued.map Piece.items = messages

/-- Every source makes the same of the lines, namely the lines. -/
def SourcesAgree (lines : List (List Byte)) : Prop :=
  ∀ source messages, Enqueues (contentOf lines) messages source ↔ messages = lines

/-! ## The tail -/

/-- A line without a newline at the end of a text extends its unterminated last line. -/
theorem lines_of_unbroken (text : List Byte) {line : List Byte} (unbroken : newline ∉ line) :
    linesOf newline (text ++ line) =
      ⟨(linesOf newline text).complete, (linesOf newline text).rest ++ line⟩ := by
  induction line using List.reverseRecOn with
  | nil => simp
  | append_singleton line byte inductionHypothesis =>
    have front : newline ∉ line := fun present => unbroken (List.mem_append_left _ present)
    have other : byte ≠ newline := fun same =>
      unbroken (List.mem_append_right _ (same ▸ List.mem_singleton_self _))
    rw [← List.append_assoc, lines_of_other newline _ other, inductionHypothesis front]
    simp

/-- The lines of a content are the lines it was made of. -/
theorem lines_of_content {lines : List (List Byte)} (plain : ∀ line ∈ lines, PlainLine line) :
    linesOf newline (contentOf lines) = ⟨lines, []⟩ := by
  induction lines using List.reverseRecOn with
  | nil => rfl
  | append_singleton lines line inductionHypothesis =>
    have earlier := inductionHypothesis fun other listed =>
      plain other (List.mem_append_left _ listed)
    have last := plain line (List.mem_append_right _ (List.mem_singleton_self _))
    have split : contentOf (lines ++ [line]) = contentOf lines ++ line ++ [newline] := by
      simp [contentOf]
    rw [split, lines_of_separator, lines_of_unbroken _ last.unbroken, earlier, List.nil_append]

/-- Lines that fit every reader are plain lines to a tail. -/
theorem content_plain {lines : List (List Byte)} (plain : ∀ line ∈ lines, PlainLine line) :
    FlywheelThread.PlainLines (contentOf lines) := by
  rw [FlywheelThread.PlainLines, lines_of_content plain]
  refine ⟨⟨fun line listed => ?_, by simp [maxBufferSize]⟩, fun line listed => ?_⟩
  · have short := (plain line listed).short
    rw [maxBufferSize]
    omega
  · exact (plain line listed).nonempty

/-- A sound loop at the end of its file has queued its lines. -/
theorem tail_end_exact {path : Path} {target : Inode} {lines : List (List Byte)}
    (plain : ∀ line ∈ lines, PlainLine line) {state : FlywheelLines.State}
    (reached : (FlywheelLines.system path target 0).Reachable state)
    (content : state.fs.files target = contentOf lines) (atEnd : TailAtEnd target state) :
    state.enqueued.map Piece.items = lines := by
  obtain ⟨point, place, silent, ended⟩ := atEnd
  have position := (FlywheelLines.sound_reachable reached).position
  rw [place] at position
  obtain ⟨offset, pieces, line, flies⟩ := position
  have standing : tailFile point = some ⟨target, offset⟩ := by
    have same := flies.standing
    cases point <;> exact same
  obtain rfl : (state.fs.files target).length = offset := by
    simpa using ended.symm.trans standing
  obtain ⟨delivered, queued⟩ := flies.delivered
  have exact := FlywheelThread.messages_exact delivered (by
    rw [content, List.drop_zero]
    exact content_plain plain)
  rw [← queued, silent, List.append_nil, content, Tail.stretch, List.take_length, List.drop_zero,
    lines_of_content plain] at exact
  exact exact

/-- Every content is read to its end as a tail. -/
theorem tail_end_reached (content : List Byte) : ∃ path target state,
    (FlywheelLines.system path target 0).Reachable state ∧ state.fs.files target = content ∧
      TailAtEnd target state := by
  obtain ⟨state, reached, same, point, pieces, line, place, silent, flies⟩ :=
    FlywheelLines.every_text_read [] 0 0 content
  refine ⟨[], 0, state, reached, by simpa using same, point, place, silent, ?_⟩
  have standing := flies.standing
  cases point <;> exact standing

/-! ## The comparison -/

/-- What each source makes of the lines: the flat file keeps a terminator behind each of them,
the others do not. -/
def messagesOf (lines : List (List Byte)) : Source → List (List Byte)
  | .file => lines.map fun line => line ++ [0]
  | .zfile => lines
  | .tail => lines

/-- Every source is read to the end, with these messages. -/
theorem enqueues_exact {lines : List (List Byte)} (plain : ∀ line ∈ lines, PlainLine line)
    (source : Source) (messages : List (List Byte)) :
    Enqueues (contentOf lines) messages source ↔ messages = messagesOf lines source := by
  have admitted (state : State) : (fun (_ : State) (_ : Label) => True) state .step := trivial
  cases source with
  | file =>
    constructor
    · rintro ⟨state, reached, atEnd, rfl⟩
      exact end_exact file_reads_lines plain reached atEnd
    · rintro rfl
      exact ⟨_, end_reached file_reads_lines plain admitted, ⟨rfl, rfl, .inl rfl⟩, rfl⟩
  | zfile =>
    constructor
    · rintro ⟨state, reached, atEnd, rfl⟩
      exact (end_exact zfile_reads_lines plain reached atEnd).trans (List.map_id _)
    · intro same
      exact ⟨_, end_reached zfile_reads_lines plain admitted, ⟨rfl, rfl, .inl rfl⟩,
        (List.map_id _).trans same.symm⟩
  | tail =>
    constructor
    · rintro ⟨path, target, state, reached, content, atEnd, rfl⟩
      exact tail_end_exact plain reached content atEnd
    · intro same
      obtain ⟨path, target, state, reached, content, atEnd⟩ := tail_end_reached (contentOf lines)
      exact ⟨path, target, state, reached, content, atEnd,
        (tail_end_exact plain reached content atEnd).trans same.symm⟩

/-- The messages of a flat file are the lines only when there are none. -/
theorem file_messages_iff (lines : List (List Byte)) :
    lines = messagesOf lines .file ↔ lines = [] := by
  constructor
  · intro same
    cases lines with
    | nil => rfl
    | cons line rest =>
      have first : line = line ++ [0] := (List.cons.inj same).1
      have longer := congrArg List.length first
      simp at longer
  · rintro rfl
    rfl

/-- The three sources agree on the messages of some lines exactly if there are no lines. -/
theorem sources_agree_iff (lines : List (List Byte)) (plain : ∀ line ∈ lines, PlainLine line) :
    SourcesAgree lines ↔ lines = [] := by
  constructor
  · intro agree
    have read := (agree .file (messagesOf lines .file)).mp
      ((enqueues_exact plain .file _).mpr rfl)
    exact (file_messages_iff lines).mp read.symm
  · rintro rfl source messages
    rw [enqueues_exact plain]
    cases source <;> rfl

/-- The line of the letter `"a"` fits every reader, which is all the examples need. -/
theorem letter_plain : ∀ line ∈ [[97]], PlainLine line := by
  intro line listed
  obtain rfl := List.mem_singleton.mp listed
  exact ⟨by decide, by decide, by decide, by decide⟩

/-- A single line is enough for the sources to differ: the flat file keeps its terminator. -/
theorem sources_agree_one_line : ¬ SourcesAgree [[97]] := fun agree =>
  absurd ((sources_agree_iff [[97]] letter_plain).mp agree) (by decide)

/-- As a flat file, `"a\n"` is the message `"a"` with its terminator. -/
theorem terminator_enqueued :
    ¬ ∀ lines : List (List Byte), (∀ line ∈ lines, PlainLine line) → SourcesAgree lines := by
  intro agree
  have read := (agree [[97]] letter_plain .file [[97, 0]]).mp
    ((enqueues_exact letter_plain .file _).mpr rfl)
  exact absurd read (by decide)

end Dragonfly.LineSources
