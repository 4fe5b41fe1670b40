import Dragonfly.LineChunks
import Dragonfly.LineSources

/-!
# What the readers of flat files return of a file

`file_read_line` and `zfile_read_line` take the last byte they got for a newline and put the
terminator there. That is right for a line that was read with its newline; a line that does
not fit the buffer loses a byte at each cut, and a last line without newline its last one.
-/

namespace Dragonfly.FlatFiles

open Flywheel LineSources

/-- The data bytes of successive calls until the end of the file: what each leaves in front of
the terminator. -/
def readToEnd (readLine : Nat → List Byte → Option Reading) : Nat → List Byte → Option (List Byte)
  | 0, _ => none
  | calls + 1, stream =>
      (readLine maxBufferSize stream).bind fun reading =>
        if stream = [] then some []
        else (readToEnd readLine calls reading.rest).map fun data => cString reading.data ++ data

/-- The bytes of a text without its newlines, which is what a reader should return of it. -/
def withoutNewlines (text : List Byte) : List Byte :=
  text.filter fun byte => decide (byte ≠ newline)

/-- A reader returns the whole file but its newlines, in some number of calls. -/
def ReadsAll (readLine : Nat → List Byte → Option Reading) (content : List Byte) : Prop :=
  ∃ calls, readToEnd readLine calls content = some (withoutNewlines content)

/-- How many bytes of a line fit the buffer together with their terminator. -/
def room : Nat := maxBufferSize - 1

/-- The first line of a stream is its first chunk. -/
theorem get_line_chunk (stream : List Byte) :
    getLine maxBufferSize stream = firstChunk newline room stream := rfl

/-- A text in which no newline occurs is the same without its newlines. -/
theorem without_newlines_absent {text : List Byte} (absent : newline ∉ text) :
    withoutNewlines text = text := by
  rw [withoutNewlines, List.filter_eq_self]
  intro byte listed
  exact decide_eq_true fun same => absent (same ▸ listed)

/-- A chunk with a newline loses only that, any other one more byte than it has to. -/
theorem chunk_data {stream chunk more : List Byte}
    (chunked : Chunked newline room stream chunk more)
    (filled : chunk ≠ []) :
    (newline ∈ chunk → chunk.dropLast = withoutNewlines chunk) ∧
      (newline ∉ chunk → chunk.dropLast.length < (withoutNewlines chunk).length) := by
  have other (absent : newline ∉ chunk) :
      chunk.dropLast.length < (withoutNewlines chunk).length := by
    have positive := List.length_pos_iff.mpr filled
    rw [without_newlines_absent absent, List.length_dropLast]
    omega
  refine ⟨fun present => ?_, other⟩
  cases chunked with
  | line line more absent fits =>
    have whole := without_newlines_absent absent
    rw [withoutNewlines] at whole ⊢
    rw [List.dropLast_concat, List.filter_append, whole]
    simp
  | full piece more absent size => exact absurd present absent
  | last text absent short => exact absurd present absent

section Readers

variable (result : Nat → Int) {stream : List Byte}

/-- A reader returns the chunk that its `fgets` or `gzgets` has taken, without the last byte of
it, whether that is a newline or not. -/
theorem read_line_chunk (nonempty : stream ≠ []) (text : 0 ∉ stream) :
    ∃ n data, readLine result maxBufferSize stream =
        some ⟨n, data, stream.drop (firstChunk newline room stream).length⟩ ∧
      cString data = (firstChunk newline room stream).dropLast := by
  have chunked := first_chunked newline room stream
  have filled := chunked.nonempty (by decide) nonempty
  have bounded := chunked.bounded
  have whole := chunked.whole
  rw [readLine, if_neg nonempty, get_line_chunk]
  generalize stream.drop (firstChunk newline room stream).length = more at whole
  generalize firstChunk newline room stream = chunk at filled bounded whole
  have string : 0 ∉ chunk := fun present => text (whole ▸ List.mem_append_left _ present)
  have short : chunk.length < maxBufferSize := Nat.lt_of_le_of_lt bounded (by decide)
  have length : strnlen (chunk ++ [0]) maxBufferSize = chunk.length :=
    strnlen_terminated string short
  dsimp only
  rw [length, if_neg (fun zero => filled (List.eq_nil_of_length_eq_zero zero)), whole,
    List.drop_left]
  refine ⟨_, _, rfl, ?_⟩
  obtain rfl | ⟨front, last, rfl⟩ := List.eq_nil_or_concat chunk
  · exact absurd rfl filled
  · have frontString : 0 ∉ front := fun present => string (by simp [present])
    rw [List.concat_eq_append, List.dropLast_concat]
    have stored : (front ++ [last]).set ((front ++ [last]).length - 1) 0 = front ++ [0] := by
      simp
    rw [stored, cString_terminated front [] frontString]

/-- A call in front of the end of the file. -/
theorem read_to_end_chunk (nonempty : stream ≠ []) (text : 0 ∉ stream) (calls : Nat) :
    readToEnd (readLine result) (calls + 1) stream =
      (readToEnd (readLine result) calls
        (stream.drop (firstChunk newline room stream).length)).map fun data =>
          (firstChunk newline room stream).dropLast ++ data := by
  obtain ⟨n, data, returned, front⟩ := read_line_chunk result nonempty text
  rw [readToEnd, returned, Option.bind_some, if_neg nonempty, front]

/-- What is left of a text has no zero byte if the text has none. -/
theorem rest_text (text : 0 ∉ stream) (taken : Nat) : 0 ∉ stream.drop taken :=
  fun present => text (List.mem_of_mem_drop present)

/-- A file is its first chunk and what is left of it, with and without newlines. -/
theorem without_newlines_chunk (stream : List Byte) :
    withoutNewlines stream = withoutNewlines (firstChunk newline room stream) ++
      withoutNewlines (stream.drop (firstChunk newline room stream).length) := by
  have whole := (first_chunked newline room stream).whole
  conv_lhs => rw [whole]
  rw [withoutNewlines, List.filter_append]
  rfl

/-- The calls return at most the bytes that are no newlines. -/
theorem read_bounded {calls : Nat} {data : List Byte} (text : 0 ∉ stream)
    (returned : readToEnd (readLine result) calls stream = some data) :
    data.length ≤ (withoutNewlines stream).length := by
  induction calls generalizing stream data with
  | zero => cases returned
  | succ calls inductionHypothesis =>
    by_cases nonempty : stream = []
    · subst nonempty
      obtain rfl := Option.some.inj returned
      exact Nat.zero_le _
    · rw [read_to_end_chunk result nonempty text] at returned
      obtain ⟨rest, behind, rfl⟩ := Option.map_eq_some_iff.mp returned
      have chunked := first_chunked newline room stream
      have filled := chunked.nonempty (by decide) nonempty
      obtain ⟨exact, less⟩ := chunk_data chunked filled
      have bound := inductionHypothesis (rest_text text _) behind
      rw [without_newlines_chunk, List.length_append, List.length_append]
      by_cases present : newline ∈ firstChunk newline room stream
      · rw [exact present]
        omega
      · have fewer := less present
        omega

/-- A reader returns the whole file exactly if it is one of whole lines that fit the buffer. -/
theorem reads_all_iff (text : 0 ∉ stream) :
    ReadsAll (readLine result) stream ↔ Fitting newline room stream := by
  constructor
  · rintro ⟨calls, returned⟩
    induction calls generalizing stream with
    | zero => cases returned
    | succ calls inductionHypothesis =>
      by_cases nonempty : stream = []
      · subst nonempty
        decide
      · rw [read_to_end_chunk result nonempty text] at returned
        obtain ⟨rest, behind, together⟩ := Option.map_eq_some_iff.mp returned
        have chunked := first_chunked newline room stream
        have filled := chunked.nonempty (by decide) nonempty
        obtain ⟨exact, less⟩ := chunk_data chunked filled
        rw [without_newlines_chunk] at together
        rw [fitting_chunk_iff (by decide) chunked nonempty]
        have present : newline ∈ firstChunk newline room stream := by
          by_contra absent
          have fewer := less absent
          have bound := read_bounded result (rest_text text _) behind
          have lengths := congrArg List.length together
          rw [List.length_append, List.length_append] at lengths
          omega
        rw [exact present] at together
        obtain rfl := List.append_cancel_left together
        exact ⟨present, inductionHypothesis (rest_text text _) behind⟩
  · intro fitting
    induction size : stream.length using Nat.strong_induction_on generalizing stream with
    | _ measure inductionHypothesis =>
      by_cases nonempty : stream = []
      · subst nonempty
        exact ⟨1, rfl⟩
      · have chunked := first_chunked newline room stream
        have filled := chunked.nonempty (by decide) nonempty
        obtain ⟨present, further⟩ := (fitting_chunk_iff (by decide) chunked nonempty).mp fitting
        have shorter : (stream.drop (firstChunk newline room stream).length).length < measure := by
          have positive := List.length_pos_iff.mpr filled
          have inside := List.length_pos_iff.mpr nonempty
          rw [List.length_drop]
          omega
        obtain ⟨calls, behind⟩ := inductionHypothesis _ shorter (rest_text text _) further rfl
        refine ⟨calls + 1, ?_⟩
        rw [read_to_end_chunk result nonempty text, behind, Option.map_some,
          (chunk_data chunked filled).1 present, ← without_newlines_chunk]

end Readers

/-- Both readers return the whole file, its newlines apart, exactly if it ends with a newline,
unless it is empty, and every line has at most 32766 bytes. -/
theorem flat_files_read_iff (content : List Byte) (text : 0 ∉ content) :
    (ReadsAll fileReadLine content ↔ Fitting newline room content) ∧
      (ReadsAll zfileReadLine content ↔ Fitting newline room content) :=
  ⟨reads_all_iff _ text, reads_all_iff _ text⟩

/-- The law at work for a file of one short line with its newline, which both readers return
whole. -/
theorem flat_files_read_line :
    ReadsAll fileReadLine [97, newline] ∧ ReadsAll zfileReadLine [97, newline] := by
  obtain ⟨file, zfile⟩ := flat_files_read_iff [97, newline] (by decide)
  exact ⟨file.mpr (by decide), zfile.mpr (by decide)⟩

/-- A file of two bytes without newline: both readers return the first byte. -/
theorem last_byte_lost :
    readToEnd fileReadLine 2 [97, 98] = some [97] ∧
      readToEnd zfileReadLine 2 [97, 98] = some [97] ∧
      ¬ ReadsAll fileReadLine [97, 98] ∧ ¬ ReadsAll zfileReadLine [97, 98] := by
  have text : (0 : Byte) ∉ [97, 98] := by decide
  have unfit : ¬ Fitting newline room [97, 98] := by decide
  exact ⟨by decide, by decide, fun all => unfit ((reads_all_iff _ text).mp all),
    fun all => unfit ((reads_all_iff _ text).mp all)⟩

end Dragonfly.FlatFiles
