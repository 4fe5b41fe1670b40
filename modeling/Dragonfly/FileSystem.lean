import Dragonfly.Libc
import Mathlib.Logic.Function.Basic
import Mathlib.Data.List.Infix
import Mathlib.Tactic.Common

/-!
# A directory of regular files and the system calls of the tail reader

Names lead to inodes and inodes to contents; a rename moves a name, and a
descriptor keeps the file it was opened on. A descriptor is the open file it
refers to, an inode and an offset: the engine never shares one.

Calls on these files do not fail, except that a name may be missing. `fstat` of
an open descriptor has no failing answer at all: after a failure the caller
would read a structure nobody filled in.
-/

namespace Dragonfly

/-- A file name with its directories, as a C string without its terminator. -/
abbrev Path := List Byte

/-- The number of a file, which stays the same when the file is renamed. -/
abbrev Inode := Nat

/-- A file system: the inodes that the names lead to, and the contents of the inodes. -/
structure FileSystem where
  names : Path → Option Inode
  files : Inode → List Byte

/-- An open file: which one, and where the next read starts. -/
structure OpenFile where
  inode : Inode
  offset : Nat
deriving DecidableEq

/-- The values `SEEK_SET` and `SEEK_END` of the third argument of `lseek`. -/
inductive Whence where
  | seekSet
  | seekEnd
deriving DecidableEq

/-- The fields of `struct stat` the engine reads: the size of the file and its inode. -/
structure Stat where
  size : Nat
  inode : Inode
deriving DecidableEq

/-- The answer of a `read` of one byte; the descriptor moves behind the byte. -/
inductive ReadAnswer where
  | byte (value : Byte) (file : OpenFile)
  | endOfFile
  | failed (errno : Errno)

/-- One system call with its continuation. The call of `lseek` has offset zero,
and the two calls of `fcntl` answer whether they succeeded: the status flags
change nothing on a regular file. -/
inductive FileOperation (Point Result : Type) where
  | time (resume : Int → Outcome Point Result)
  | openFile (path : Path) (resume : Option OpenFile → Outcome Point Result)
  | lseek (file : OpenFile) (whence : Whence) (resume : Option OpenFile → Outcome Point Result)
  | fcntl (file : OpenFile) (resume : Bool → Outcome Point Result)
  | read (file : OpenFile) (resume : ReadAnswer → Outcome Point Result)
  | fstat (file : OpenFile) (resume : Stat → Outcome Point Result)
  | stat (path : Path) (resume : Option Stat → Outcome Point Result)
  | close (file : OpenFile) (resume : Outcome Point Result)

/-- Continue in the caller: its point while the callee runs, and what it does
with the callee's result. -/
def Outcome.call {Point Result Outer Final : Type} (inside : Point → Outer)
    (returned : Result → Outcome Outer Final) : Outcome Point Result → Outcome Outer Final
  | .goto point => .goto (inside point)
  | .ret result => returned result
  | .exit => .exit

/-- An operation of a function that is called becomes one of its caller: what the callee returns
is given to the caller's continuation. -/
def FileOperation.call {Point Result Outer Final : Type} (inside : Point → Outer)
    (returned : Result → Outcome Outer Final) :
    FileOperation Point Result → FileOperation Outer Final
  | .time resume => .time fun now => (resume now).call inside returned
  | .openFile path resume => .openFile path fun file => (resume file).call inside returned
  | .lseek file whence resume =>
      .lseek file whence fun moved => (resume moved).call inside returned
  | .fcntl file resume => .fcntl file fun done => (resume done).call inside returned
  | .read file resume => .read file fun answer => (resume answer).call inside returned
  | .fstat file resume => .fstat file fun status => (resume status).call inside returned
  | .stat path resume => .stat path fun status => (resume status).call inside returned
  | .close file resume => .close file (resume.call inside returned)

/-- The descriptor behind the byte it stands at, where a read of that byte leaves it. -/
def OpenFile.advance (file : OpenFile) : OpenFile := { file with offset := file.offset + 1 }

namespace FileSystem

/-- What `fstat` and `stat` report of a file: the number of its bytes, and its inode. -/
def status (system : FileSystem) (inode : Inode) : Stat :=
  ⟨(system.files inode).length, inode⟩

/-- The answer to a read of one byte: the byte at the offset, or the end of the file where there
is none. -/
def readByte (system : FileSystem) (file : OpenFile) : ReadAnswer :=
  match (system.files file.inode)[file.offset]? with
  | some value => .byte value file.advance
  | none => .endOfFile

/-- Where a seek by zero leaves the descriptor: at the beginning or at the end of its file. -/
def seek (system : FileSystem) (file : OpenFile) : Whence → OpenFile
  | .seekSet => { file with offset := 0 }
  | .seekEnd => { file with offset := (system.files file.inode).length }

/-- Perform a system call of the engine when the clock shows `now`. None of these calls changes
the file system. -/
def perform {Point Result : Type} (system : FileSystem) (now : Int) :
    FileOperation Point Result → Outcome Point Result
  | .time resume => resume now
  | .openFile path resume => resume ((system.names path).map fun inode => ⟨inode, 0⟩)
  | .lseek file whence resume => resume (some (system.seek file whence))
  | .fcntl _ resume => resume true
  | .read file resume => resume (system.readByte file)
  | .fstat file resume => resume (system.status file.inode)
  | .stat path resume => resume ((system.names path).map system.status)
  | .close _ resume => resume

/-- An operation of a callee is performed alike inside its caller, and the outcome is the
callee's as the caller sees it. -/
@[simp] theorem perform_call {Point Result Outer Final : Type} (system : FileSystem) (now : Int)
    (operation : FileOperation Point Result) (inside : Point → Outer)
    (returned : Result → Outcome Outer Final) :
    system.perform now (operation.call inside returned) =
      (system.perform now operation).call inside returned := by
  cases operation <;> rfl

/-! ## What writers do -/

/-- Append bytes to a file, as another process does to one it logs to. -/
def append (system : FileSystem) (inode : Inode) (bytes : List Byte) : FileSystem :=
  { system with files := Function.update system.files inode (system.files inode ++ bytes) }

/-- Truncate a file to length zero. Descriptors that stand inside it keep their offsets. -/
def truncate (system : FileSystem) (inode : Inode) : FileSystem :=
  { system with files := Function.update system.files inode [] }

/-- Rename a file: the new name leads to it, and the old name leads nowhere. -/
def rename (system : FileSystem) (source target : Path) : FileSystem :=
  { system with
    names := Function.update (Function.update system.names target (system.names source))
      source none }

/-- Create an empty file under a name, which from then on leads to this file. -/
def create (system : FileSystem) (path : Path) (inode : Inode) : FileSystem where
  names := Function.update system.names path (some inode)
  files := Function.update system.files inode []

@[simp] theorem append_own (system : FileSystem) (inode : Inode) (bytes : List Byte) :
    (system.append inode bytes).files inode = system.files inode ++ bytes := by
  simp [append]

theorem append_other (system : FileSystem) {inode other : Inode} (bytes : List Byte)
    (different : other ≠ inode) : (system.append inode bytes).files other = system.files other := by
  simp [append, different]

@[simp] theorem append_names (system : FileSystem) (inode : Inode) (bytes : List Byte) :
    (system.append inode bytes).names = system.names := rfl

/-- An append only makes files grow: what a file held before is still there in front. -/
theorem append_grown (system : FileSystem) (inode : Inode) (bytes : List Byte) (other : Inode) :
    system.files other <+: (system.append inode bytes).files other := by
  by_cases same : other = inode
  · subst same
    rw [append_own]
    exact List.prefix_append _ _
  · rw [append_other system bytes same]

@[simp] theorem truncate_own (system : FileSystem) (inode : Inode) :
    (system.truncate inode).files inode = [] := by
  simp [truncate]

@[simp] theorem truncate_names (system : FileSystem) (inode : Inode) :
    (system.truncate inode).names = system.names := rfl

end FileSystem

end Dragonfly
