import Dragonfly.Config
import Dragonfly.FileSystem

/-!
# Output files: `file_open`, `file_write_line` and `file_rotate`

The engine is the only one to write, rename or create the files of an output, so a
name stands for its file and a stream for the file under the name it was opened by.
`file_rotate` closes its stream before it renames. All calls succeed: in particular
a path `fopen` accepts is shorter than `PATH_MAX`, and what was written has reached
the file.

The broken-down time is that of `localtime`, which depends on the time zone. The
rotated name is the path, a dot, year, month and day, a dot, hour, minute and second,
each number as short as it is, and ends at the bound of the buffer.
-/

namespace Dragonfly.FileOutput

open Config

/-- The contents of the files under their names; a name that leads to no file has none. -/
abbrev Directory := Path → Option (List Byte)

/-- The modes `"w+"`, `"a+"` and `"a"` of `fopen`, of which the first one empties the file. -/
inductive Mode where
  | writeUpdate
  | appendUpdate
  | append
deriving DecidableEq

/-- `fopen`: the file is emptied in the first mode and created where it is missing. -/
def fopen (directory : Directory) (path : Path) : Mode → Directory
  | .writeUpdate => Function.update directory path (some [])
  | _ => Function.update directory path (some ((directory path).getD []))

/-- The call of `fputs` with the stream of a file: the string up to its terminator is put behind
what the file holds. -/
def fputs (buffer : List Byte) (directory : Directory) (path : Path) : Directory :=
  Function.update directory path (some ((directory path).getD [] ++ cString buffer))

/-- `rename`: an existing target is replaced, and a file is not renamed to itself. -/
def rename (directory : Directory) (source target : Path) : Directory :=
  if source = target then directory
  else Function.update (Function.update directory target (directory source)) source none

/-- The fields of `struct tm` that the engine reads: the date from the year on, and the time of
day. -/
structure Tm where
  year : Int
  mon : Int
  mday : Int
  hour : Int
  min : Int
  sec : Int
deriving DecidableEq

/-- A number as the conversion `%d` writes it: as short as it is, with a sign if it is negative. -/
def decimal (value : Int) : List Byte := bytesOf (toString value)

/-- What `file_rotate` puts behind the path: the text of the format `.%d%d%d.%d%d%d` for the
broken-down time, whose numbers are not filled up with zeros. -/
def stamp (tm : Tm) : List Byte :=
  46 :: (decimal (tm.year + 1900) ++ decimal (tm.mon + 1) ++ decimal tm.mday ++
    46 :: (decimal tm.hour ++ decimal tm.min ++ decimal tm.sec))

/-- `localtime` where the local time is UTC. The days are counted in eras of 400 years
that begin on the first of March. -/
def utc (now : Int) : Tm :=
  let day := (now / 86400 + 719468) % 146097
  let year := (day - day / 1460 + day / 36524 - day / 146096) / 365
  let yearDay := day - (365 * year + year / 4 - year / 100)
  let month := (5 * yearDay + 2) / 153
  { year := year + (now / 86400 + 719468) / 146097 * 400 + (if month < 10 then 0 else 1) - 1900
    mon := if month < 10 then month + 2 else month - 10
    mday := yearDay - (153 * month + 2) / 5 + 1
    hour := now % 86400 / 3600
    min := now % 3600 / 60
    sec := now % 60 }

/-- A `DF_HANDLE` of type `DF_OUT_FILE_TYPE` with its stream open, given by the path, which
`fopen` has accepted and which therefore has fewer than `PATH_MAX` bytes. -/
structure Handle where
  path : Path
  accepted : path.length < pathMax
deriving DecidableEq

/-- The path `file_open` makes of its argument: an absolute one as it is, any other
below the log directory. -/
def filePath (logdir path : List Byte) : List Byte :=
  if path.head? = some 47 then path.take pathMax
  else (logdir ++ 47 :: path).take (pathMax - 1)

/-- The last character of the path chooses the mode: `'<'` and `'>'` are cut off. -/
def outputMode (path : List Byte) : List Byte × Mode :=
  if path.getLast? = some 60 then (path.dropLast, .writeUpdate)
  else if path.getLast? = some 62 then (path.dropLast, .appendUpdate)
  else (path, .appendUpdate)

/-- `file_open` for `DF_OUT`. A path that is too long is not opened. -/
def fileOpen (logdir path : List Byte) (directory : Directory) : Option (Handle × Directory) :=
  let (path, mode) := outputMode (filePath logdir path)
  if accepted : path.length < pathMax then some (⟨path, accepted⟩, fopen directory path mode)
  else none

/-- The function `file_write_line`, which writes the string of the buffer and a newline behind
it. -/
def fileWriteLine (handle : Handle) (buffer : List Byte) (directory : Directory) : Directory :=
  fputs [newline] (fputs buffer directory handle.path) handle.path

/-- The name of the rotated file: the path with the time behind it, cut at the bound of the
buffer for names. -/
def rotatedName (path : Path) (tm : Tm) : Path := (path ++ stamp tm).take (pathMax - 1)

/-- The function `file_rotate`, which closes the stream, renames the file after the time, and
opens the path again for appending. -/
def fileRotate (handle : Handle) (tm : Tm) (directory : Directory) : Directory :=
  fopen (rename directory handle.path (rotatedName handle.path tm)) handle.path .append

/-- The rotated name in the morning of the first of January 2020. -/
example : rotatedName (bytesOf "/e.log") (utc 1577841071) = bytesOf "/e.log.202011.11111" := by
  decide

/-! ## The files after a call -/

/-- What a file holds, as its lines are read afterwards; a missing file holds nothing. -/
def contents (directory : Directory) (path : Path) : List Byte := (directory path).getD []

/-- A line is the C string of the buffer and a newline. -/
def line (buffer : List Byte) : List Byte := cString buffer ++ [newline]

/-- A file opened in an append mode keeps what it holds. -/
theorem fopen_append (directory : Directory) (path : Path) {mode : Mode}
    (keeps : mode ≠ .writeUpdate) :
    fopen directory path mode path = some (contents directory path) := by
  cases mode with
  | writeUpdate => exact absurd rfl keeps
  | appendUpdate => exact Function.update_self ..
  | append => exact Function.update_self ..

/-- Opening a file in any mode leaves the files under all other names alone. -/
theorem fopen_other (directory : Directory) {path other : Path} (mode : Mode)
    (different : other ≠ path) : fopen directory path mode other = directory other := by
  cases mode <;> exact Function.update_of_ne different ..

/-- A line that is written goes to the end of the file of the handle, behind all it has held. -/
@[simp] theorem file_write_line_own (handle : Handle) (buffer : List Byte)
    (directory : Directory) : fileWriteLine handle buffer directory handle.path =
      some (contents directory handle.path ++ line buffer) := by
  simp [fileWriteLine, fputs, contents, line, cString, newline]

/-- Writing a line leaves the files under all names but that of the handle alone. -/
theorem file_write_line_other (handle : Handle) (buffer : List Byte) (directory : Directory)
    {other : Path} (different : other ≠ handle.path) :
    fileWriteLine handle buffer directory other = directory other := by
  simp [fileWriteLine, fputs, different]

/-- Behind a rotation the file under the rotated name holds what the file of the handle held
before. -/
theorem file_rotate_target (handle : Handle) (tm : Tm) (directory : Directory)
    (different : rotatedName handle.path tm ≠ handle.path) :
    fileRotate handle tm directory (rotatedName handle.path tm) = directory handle.path := by
  rw [fileRotate, fopen_other _ _ different, rename, if_neg (Ne.symm different),
    Function.update_of_ne different, Function.update_self]

/-- Behind a rotation the file of the handle starts anew and holds nothing. -/
theorem file_rotate_own (handle : Handle) (tm : Tm) (directory : Directory)
    (different : rotatedName handle.path tm ≠ handle.path) :
    fileRotate handle tm directory handle.path = some [] := by
  have missing : rename directory handle.path (rotatedName handle.path tm) handle.path = none := by
    rw [rename, if_neg (Ne.symm different), Function.update_self]
  rw [fileRotate, fopen_append _ _ (by decide), contents, missing, Option.getD_none]

/-- A rotation leaves the files under all names but the two it is about alone. -/
theorem file_rotate_other (handle : Handle) (tm : Tm) (directory : Directory) {other : Path}
    (outside : other ≠ handle.path) (different : other ≠ rotatedName handle.path tm) :
    fileRotate handle tm directory other = directory other := by
  rw [fileRotate, fopen_other _ _ outside, rename]
  split
  · rfl
  · rw [Function.update_of_ne outside, Function.update_of_ne different]

/-- What of a stamp there is room for behind the path. -/
def cutStamp (handle : Handle) (tm : Tm) : List Byte :=
  (stamp tm).take (pathMax - 1 - handle.path.length)

/-- The rotated name is the path and what of the stamp there is room for. -/
theorem rotated_name_cut (handle : Handle) (tm : Tm) :
    rotatedName handle.path tm = handle.path ++ cutStamp handle tm := by
  have accepted := handle.accepted
  rw [rotatedName, List.take_append, List.take_of_length_le (by omega), cutStamp]

/-- Two rotations have the same name exactly when the cut stamps agree. -/
theorem rotated_name_eq_iff (handle : Handle) (tm other : Tm) :
    rotatedName handle.path tm = rotatedName handle.path other ↔
      cutStamp handle tm = cutStamp handle other := by
  rw [rotated_name_cut, rotated_name_cut]
  exact List.append_right_inj handle.path

/-- A rotation keeps the name of the file exactly when there is no room behind it. -/
theorem rotated_name_path_iff (handle : Handle) (tm : Tm) :
    rotatedName handle.path tm = handle.path ↔ ¬ handle.path.length < pathMax - 1 := by
  rw [rotated_name_cut, List.append_right_eq_self, cutStamp, List.take_eq_nil_iff]
  simp only [stamp, reduceCtorEq, or_false]
  omega

end Dragonfly.FileOutput
