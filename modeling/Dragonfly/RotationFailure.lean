import Dragonfly.IoDispatch

/-!
# Output files whose rotation fails

`file_rotate` closes its stream before it opens the next one. Where `fopen` fails, the handle
is left without a stream, and `dragonfly_io_rotate` does not tell: the next write calls
`fputs`, the next rotation `fclose` on no stream. A `rename` that fails does no harm: the
stream appends to the old file.

A call that uses a missing stream has no result. What `rename`, `fopen` and `fputs` answer
comes with the call.
-/

namespace Dragonfly.RotationFailure

open IoDispatch

/-- A handle of an output: whether it has a stream, what the file under its path holds, and
what the files hold it was renamed to. -/
structure Output where
  ioType : HandleType
  fp : Bool
  file : List Byte
  rotated : List (List Byte)

/-- What the system answers in a rotation: `rename` and `fopen` succeed. -/
structure Rotating where
  renamed : Bool
  reopened : Bool

/-- What `fputs` returns for the line and for the newline; a failure is negative. -/
structure Writing where
  text : Int
  newline : Int

/-- A call of `dragonfly_io_write` or `dragonfly_io_rotate`, with the answers of the C library
in it. -/
inductive Call where
  | write (buffer : List Byte) (answers : Writing)
  | rotate (answers : Rotating)

/-- The call of `fputs`, which needs a stream; where there is none it has no result, being
undefined. -/
def fputs (output : Output) (text : List Byte) (n : Int) : Option Output :=
  if output.fp then some (if n < 0 then output else { output with file := output.file ++ text })
  else none

/-- The function `file_write_line`, which writes the string and a newline and returns the status
of the first. -/
def fileWriteLine (output : Output) (buffer : List Byte) (answers : Writing) :
    Option (Int × Output) :=
  (fputs output (cString buffer) answers.text).bind fun output =>
    (fputs output [newline] answers.newline).map fun output => (answers.text, output)

/-- The call of `fclose`, which needs a stream; where there is none it has no result, being
undefined. -/
def fclose (output : Output) : Option Output :=
  if output.fp then some { output with fp := false } else none

/-- The call of `rename` to the rotated name. If it fails, the file keeps its name and its
lines. -/
def rename (output : Output) (succeeds : Bool) : Output :=
  if succeeds then { output with file := [], rotated := output.rotated ++ [output.file] }
  else output

/-- The function `file_rotate`, which closes the stream, renames the file and opens the path
again, and returns an error if that fails. -/
def fileRotate (output : Output) (answers : Rotating) : Option (Int × Output) :=
  if output.ioType.code &&& dfOut = dfOut then
    (fclose output).map fun output =>
      let output := rename output answers.renamed
      if answers.reopened then (0, { output with fp := true }) else (-1, output)
  else some (-1, output)

/-- `dragonfly_io_write` to a file; any other handle is not written here. -/
def ioWrite (output : Output) (buffer : List Byte) (answers : Writing) : Option (Int × Output) :=
  if dragonflyIoWrite output.ioType = some .file then fileWriteLine output buffer answers
  else some (-1, output)

/-- The function `dragonfly_io_rotate`, which calls `file_rotate` for an output file and drops
its status. -/
def ioRotate (output : Output) (answers : Rotating) : Option Output :=
  if dragonflyIoRotate output.ioType = some .file then
    (fileRotate output answers).map Prod.snd
  else some output

/-- A call is sound: it uses no missing stream, and a write puts its line into the file through
an open stream or returns a negative value. -/
def Sound (output after : Output) : Call → Prop
  | .write buffer answers => ∃ n, ioWrite output buffer answers = some (n, after) ∧
      (n < 0 ∨ (output.fp = true ∧ output.file ++ cString buffer <+: after.file))
  | .rotate answers => ioRotate output answers = some after

/-- All calls are sound, one after the other, each from the state the one before it has left. -/
def Usable : Output → List Call → Prop
  | _, [] => True
  | output, call :: rest => ∃ after, Sound output after call ∧ Usable after rest

/-- A handle of an output file, with or without a stream, the lines of the file, and those that
were rotated away. -/
def outFile (fp : Bool) (file : List Byte) (rotated : List (List Byte)) : Output :=
  ⟨.outFile, fp, file, rotated⟩

/-! ## One call -/

section Calls

variable {file : List Byte} {rotated : List (List Byte)} {after : Output}

/-- What `fputs` leaves in the file: the text behind what was there, or nothing more where it
fails. -/
def put (file text : List Byte) (n : Int) : List Byte := if n < 0 then file else file ++ text

/-- The call of `fputs` to an open stream leaves the text in the file, unless it fails. -/
theorem fputs_open (text : List Byte) (n : Int) :
    fputs (outFile true file rotated) text n = some (outFile true (put file text n) rotated) := by
  have streaming : (outFile true file rotated).fp = true := rfl
  rw [fputs, if_pos streaming, put]
  split <;> rfl

/-- What was put into the file first stays at its front, whatever is put behind it. -/
theorem put_keeps (text : List Byte) (n : Int) : file <+: put file text n := by
  rw [put]
  split
  · exact List.prefix_refl file
  · exact List.prefix_append file text

/-- A write to an open stream is sound and leaves it open. -/
theorem write_sound_iff (buffer : List Byte) (answers : Writing) :
    Sound (outFile true file rotated) after (.write buffer answers) ↔
      after = outFile true
        (put (put file (cString buffer) answers.text) [newline] answers.newline) rotated := by
  have written : ioWrite (outFile true file rotated) buffer answers = some (answers.text,
      outFile true (put (put file (cString buffer) answers.text) [newline] answers.newline)
        rotated) := by
    have dispatched : dragonflyIoWrite (outFile true file rotated).ioType = some .file := rfl
    rw [ioWrite, if_pos dispatched, fileWriteLine, fputs_open, Option.bind_some, fputs_open,
      Option.map_some]
  simp only [Sound, written]
  constructor
  · rintro ⟨n, same, -⟩
    exact (Prod.mk.inj (Option.some.inj same)).2.symm
  · rintro rfl
    refine ⟨answers.text, rfl, ?_⟩
    by_cases failed : answers.text < 0
    · exact .inl failed
    · have line : put file (cString buffer) answers.text = file ++ cString buffer := if_neg failed
      right
      rw [line]
      exact ⟨rfl, put_keeps [newline] answers.newline⟩

/-- A rotation of an output file gets to the `fclose` of `file_rotate`. -/
theorem rotate_dispatched (fp : Bool) (answers : Rotating) :
    ioRotate (outFile fp file rotated) answers =
      ((fclose (outFile fp file rotated)).map fun output =>
        let output := rename output answers.renamed
        if answers.reopened then (0, { output with fp := true }) else (-1, output)).map
          Prod.snd := by
  have dispatched : dragonflyIoRotate (outFile fp file rotated).ioType = some .file := rfl
  have output : (outFile fp file rotated).ioType.code &&& dfOut = dfOut := by
    have code : HandleType.outFile.code &&& dfOut = dfOut := by decide
    exact code
  rw [ioRotate, if_pos dispatched, fileRotate, if_pos output]

/-- A rotation closes the stream, renames the file and opens the stream again if it can. -/
theorem rotate_sound_iff (answers : Rotating) :
    Sound (outFile true file rotated) after (.rotate answers) ↔
      after = { rename (outFile false file rotated) answers.renamed with
        fp := answers.reopened } := by
  obtain ⟨renamed, reopened⟩ := answers
  have turned : ioRotate (outFile true file rotated) ⟨renamed, reopened⟩ =
      some { rename (outFile false file rotated) renamed with fp := reopened } := by
    have closed : fclose (outFile true file rotated) = some (outFile false file rotated) := rfl
    rw [rotate_dispatched, closed, Option.map_some, Option.map_some]
    cases reopened with
    | true => rfl
    | false =>
      cases renamed
      all_goals rfl
  simp only [Sound, turned]
  constructor
  · exact fun same => (Option.some.inj same).symm
  · rintro rfl
    rfl

/-- Behind a sound call the handle is one of an output file again, with or without a stream. -/
theorem rotated_file (answers : Rotating) : ∃ held names,
    { rename (outFile false file rotated) answers.renamed with fp := answers.reopened } =
      outFile answers.reopened held names := by
  rw [rename]
  split
  · exact ⟨_, _, rfl⟩
  · exact ⟨_, _, rfl⟩

/-- Without a stream no call is sound, be it a write or a rotation. -/
theorem stranded_unsound (call : Call) : ¬ Sound (outFile false file rotated) after call := by
  cases call with
  | write buffer answers =>
    rintro ⟨n, written, -⟩
    cases written
  | rotate answers =>
    have closed : fclose (outFile false file rotated) = none := rfl
    rw [Sound, rotate_dispatched, closed]
    exact nofun

end Calls

/-! ## Sequences of calls -/

/-- No call follows a rotation that could not open the stream again. -/
def NoneFollows (calls : List Call) : Prop :=
  ∀ front renamed back, calls = front ++ .rotate ⟨renamed, false⟩ :: back → back = []

/-- The condition on a call and those behind it is one on this call, and the same condition on
the others. -/
theorem none_follows_cons (call : Call) (rest : List Call) :
    NoneFollows (call :: rest) ↔
      (∀ renamed, call = .rotate ⟨renamed, false⟩ → rest = []) ∧ NoneFollows rest := by
  constructor
  · intro none
    constructor
    · rintro renamed rfl
      exact none [] renamed rest rfl
    · rintro front renamed back rfl
      exact none (call :: front) renamed back rfl
  · rintro ⟨first, others⟩ front renamed back split
    cases front with
    | nil =>
      obtain ⟨same, rfl⟩ := List.cons.inj split
      exact first renamed same
    | cons other front =>
      obtain ⟨-, rfl⟩ := List.cons.inj split
      exact others front renamed back rfl

/-- The handle of an output file stays usable in a sequence of calls exactly where no call
follows a rotation whose `fopen` failed. -/
theorem usable_iff (file : List Byte) (rotated : List (List Byte)) (calls : List Call) :
    Usable (outFile true file rotated) calls ↔ NoneFollows calls := by
  induction calls generalizing file rotated with
  | nil => exact ⟨fun _ _ _ _ split => by simp at split, fun _ => trivial⟩
  | cons call rest inductionHypothesis =>
    rw [none_follows_cons, Usable]
    cases call with
    | write buffer answers =>
      simp only [write_sound_iff, exists_eq_left, inductionHypothesis]
      exact ⟨fun others => ⟨fun _ same => (by cases same), others⟩, fun both => both.2⟩
    | rotate answers =>
      obtain ⟨held, names, handle⟩ := @rotated_file file rotated answers
      simp only [rotate_sound_iff, exists_eq_left, handle]
      obtain ⟨renamed, reopened⟩ := answers
      cases reopened with
      | true =>
        rw [inductionHypothesis]
        exact ⟨fun others => ⟨fun _ same => (by cases same), others⟩, fun both => both.2⟩
      | false =>
        constructor
        · intro usable
          cases rest with
          | nil => exact ⟨fun _ _ => rfl, fun _ _ _ split => by simp at split⟩
          | cons next others =>
            obtain ⟨after, sound, -⟩ := usable
            exact absurd sound (stranded_unsound next)
        · rintro ⟨last, -⟩
          rw [last renamed rfl]
          trivial

/-- A rotation that renames the file but cannot open it again, and a line behind it. -/
theorem write_behind_failed_rotation :
    ((ioRotate (outFile true [] []) ⟨true, false⟩).bind fun output =>
        ioWrite output [97, 0] ⟨1, 1⟩).isNone ∧
      ¬ Usable (outFile true [] []) [.rotate ⟨true, false⟩, .write [97, 0] ⟨1, 1⟩] := by
  refine ⟨rfl, ?_⟩
  rintro ⟨after, turned, next, ⟨n, written, -⟩, -⟩
  cases turned
  cases written

end Dragonfly.RotationFailure
