import Dragonfly.FileSystem

/-!
# Following a file: `tail_open`, `tail_next_line` and `tail_read_line`

A tail path may end in `<` or `>`, which says where reading starts; the
character is stripped for `open` only and stays in the path of the handle. The
reader takes one byte per `read`. At the end of the file it compares the size
with the one it remembers from an earlier end of the same call, and once five
seconds have passed it compares the inode with the one its path leads to.

Each function is given by its program points, with one system call at each.
The points carry the locals the function still needs; the line is what stands
in the buffer before the index `i`. Sleeping and logging are left out.
-/

namespace Dragonfly.Tail

/-- The constant `PATH_MAX`: the size of the buffers in which paths are built. -/
def pathMax : Nat := 4096

/-- The character `'<'` at the end of a path, which says that the file is read from its start. -/
def fromStart : Byte := 60

/-- The character `'>'` at the end of a path, which says that the file is read from its end. -/
def fromEnd : Byte := 62

/-- The constant `FIVE_SECONDS`: how long a file is left alone before the inode of its path is
compared. -/
def fiveSeconds : Int := 5

/-! ## Opening -/

/-- The name that `tail_open_nonblock_file` opens, without the character for the place, and
where it seeks to. -/
def openedAs (path : Path) : Path × Whence :=
  match (path.take pathMax).getLast? with
  | some last =>
      if last = fromStart then ((path.take pathMax).dropLast, .seekSet)
      else if last = fromEnd then ((path.take pathMax).dropLast, .seekEnd)
      else (path.take pathMax, .seekEnd)
  | none => ([], .seekEnd)

/-- The points of `tail_open_nonblock_file`: `open`, `lseek`, the two calls of
`fcntl`, and the `close` after a failure. -/
inductive OpenPoint where
  | openFile (path : Path)
  | lseek (file : OpenFile) (whence : Whence)
  | getFlags (file : OpenFile)
  | setFlags (file : OpenFile)
  | close (file : OpenFile)

/-- The function `tail_open_nonblock_file`: it opens the name, seeks and makes the descriptor
non-blocking. No descriptor stands for -1. -/
def tailOpenNonblockFile : OpenPoint → FileOperation OpenPoint (Option OpenFile)
  | .openFile path => .openFile (openedAs path).1 fun
      | none => .ret none
      | some file => .goto (.lseek file (openedAs path).2)
  | .lseek file whence => .lseek file whence fun
      | none => .goto (.close file)
      | some moved => .goto (.getFlags moved)
  | .getFlags file => .fcntl file fun done =>
      if done then .goto (.setFlags file) else .goto (.close file)
  | .setFlags file => .fcntl file fun done =>
      if done then .ret (some file) else .goto (.close file)
  | .close file => .close file (.ret none)

/-- The fields of `DF_HANDLE` a tail uses; its type is always `DF_IN_TAIL_TYPE`. -/
structure Handle where
  fd : Option OpenFile
  path : Path
deriving DecidableEq

/-- The path `tail_open` builds: relative names lie in the log directory. -/
def filePath (logdir path : Path) : Path :=
  if path.head? = some 47 then path.take pathMax else (logdir ++ 47 :: path).take (pathMax - 1)

/-- `tail_open` for reading, from the path it built. No handle stands for `NULL`. -/
def tailOpen (path : Path) (point : OpenPoint) : FileOperation OpenPoint (Option Handle) :=
  (tailOpenNonblockFile point).call id fun
    | none => .ret none
    | some file => .ret (some ⟨some file, path.take pathMax⟩)

/-! ## Reading -/

/-- The locals of `tail_next_line` that live across a system call. -/
structure Locals where
  lastReadTime : Int
  openFailures : Nat
  lastFileSize : Nat
  line : List Byte

/-- What `tail_next_line` returns, with the handle as it leaves it and the buffer
before the terminator. -/
structure Returned where
  handle : Handle
  n : Int
  data : List Byte
deriving DecidableEq

/-- The points of `tail_next_line`: the clock at the entry, the `open` at the top
of the loop, the `read`, and what follows the end of the file. -/
inductive TailPoint where
  | enter (handle : Handle)
  | reopen (path : Path) (locals : Locals) (point : OpenPoint)
  | read (path : Path) (file : OpenFile) (locals : Locals)
  | fstat (path : Path) (file : OpenFile) (locals : Locals)
  | lseek (path : Path) (file : OpenFile) (locals : Locals) (fdstat : Stat)
  | clock (path : Path) (file : OpenFile) (locals : Locals) (fdstat : Stat)
  | stat (path : Path) (file : OpenFile) (locals : Locals) (fdstat : Stat)
  | close (path : Path) (file : OpenFile) (locals : Locals)
  | moved (path : Path) (locals : Locals) (point : OpenPoint)

/-- The top of the loop of `tail_next_line`: the file is opened again where there is no
descriptor, and otherwise a byte is read. -/
def loopTop (handle : Handle) (locals : Locals) : TailPoint :=
  match handle.fd with
  | none => .reopen handle.path locals (.openFile handle.path)
  | some file => .read handle.path file locals

/-- The condition of the loop while no newline was read, and the return. -/
def loopEnd (len : Nat) (handle : Handle) (locals : Locals) : Outcome TailPoint Returned :=
  if locals.line.length < len then .goto (loopTop handle locals)
  else .ret ⟨handle, locals.line.length, locals.line⟩

/-- What follows a byte: a newline ends the line and the call, any other byte is stored in the
buffer. -/
def afterByte (len : Nat) (handle : Handle) (locals : Locals) (value : Byte) :
    Outcome TailPoint Returned :=
  if value = newline then .ret ⟨handle, locals.line.length, locals.line⟩
  else loopEnd len handle { locals with line := locals.line ++ [value] }

/-- The path with which a moved file is opened again: from its start. -/
def fileSpec (path : Path) : Path := (path ++ [fromStart]).take (pathMax - 1)

/-- The function `tail_next_line`, which reads byte by byte to the end of a line. At the end of
the file it looks for a truncation, and for another file under the path. -/
def tailNextLine (len : Nat) : TailPoint → FileOperation TailPoint Returned
  | .enter handle => .time fun now => .goto (loopTop handle ⟨now, 0, 0, []⟩)
  | .reopen path locals point =>
      (tailOpenNonblockFile point).call (.reopen path locals) fun
        | some file => .goto (.read path file locals)
        | none =>
            if locals.openFailures + 1 > 5 then .ret ⟨⟨none, path⟩, -1, []⟩
            else loopEnd len ⟨none, path⟩
              { locals with openFailures := locals.openFailures + 1 }
  | .read path file locals => .read file fun
      | .failed .eagain => loopEnd len ⟨some file, path⟩ locals
      | .failed _ => .ret ⟨⟨some file, path⟩, -1, []⟩
      | .endOfFile => .goto (.fstat path file locals)
      | .byte value after => afterByte len ⟨some after, path⟩ locals value
  | .fstat path file locals => .fstat file fun fdstat =>
      if fdstat.size < locals.lastFileSize then .goto (.lseek path file locals fdstat)
      else .goto (.clock path file { locals with lastFileSize := fdstat.size } fdstat)
  | .lseek path file locals fdstat => .lseek file .seekSet fun sought =>
      .goto (.clock path (sought.getD file)
        { locals with line := [], lastFileSize := fdstat.size } fdstat)
  | .clock path file locals fdstat => .time fun now =>
      if now - locals.lastReadTime ≥ fiveSeconds then
        .goto (.stat path file { locals with lastReadTime := now } fdstat)
      else loopEnd len ⟨some file, path⟩ locals
  | .stat path file locals fdstat => .stat path fun
      | none => .ret ⟨⟨some file, path⟩, -1, []⟩
      | some fdstat2 =>
          if fdstat.inode ≠ fdstat2.inode then .goto (.close path file locals)
          else loopEnd len ⟨some file, path⟩ locals
  | .close path file locals => .close file (.goto (.moved path locals (.openFile (fileSpec path))))
  | .moved path locals point =>
      (tailOpenNonblockFile point).call (.moved path locals) fun
        | none => .ret ⟨⟨none, path⟩, -1, []⟩
        | some file => loopEnd len ⟨some file, path⟩ { locals with line := [] }

/-- The function `tail_read_line`, which calls `tail_next_line` until the line is not empty. -/
def tailReadLine (len : Nat) (point : TailPoint) : FileOperation TailPoint Returned :=
  (tailNextLine len point).call id fun returned =>
    if returned.n = 0 then .goto (.enter returned.handle) else .ret returned

end Dragonfly.Tail
