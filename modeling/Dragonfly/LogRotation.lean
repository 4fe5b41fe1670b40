import Dragonfly.FileOutput
import Dragonfly.Transitions

/-!
# Lines over log rotations

A rotated log is a list of closed parts and a current part; a line goes to the
current part, and a rotation closes it. Whatever the order of lines and rotations,
the parts one after another are everything that was written.

A run of `file_write_line` and `file_rotate` on one handle keeps such a log in its
directory as long as the names of the rotated files differ from each other and from
the name of the file. They do exactly when the stamps differ in what there is room
for behind the path.
-/

namespace Dragonfly

universe u

/-- A log in parts: the closed ones in their order, and the current one to which is written. -/
structure PartedLog (Item : Type u) where
  closed : List (List Item)
  current : List Item

namespace PartedLog

variable {Item : Type u}

/-- Everything in the log, the closed parts first and the current part behind them. -/
def all (log : PartedLog Item) : List Item := log.closed.flatten ++ log.current

/-- Write items to the current part of the log, behind those it has. -/
def write (log : PartedLog Item) (items : List Item) : PartedLog Item :=
  ⟨log.closed, log.current ++ items⟩

/-- Close the current part of the log, and begin an empty one behind it. -/
def rotate (log : PartedLog Item) : PartedLog Item := ⟨log.closed ++ [log.current], []⟩

/-- What is written to the log is added at the end of everything in it. -/
theorem all_write (log : PartedLog Item) (items : List Item) :
    (log.write items).all = log.all ++ items := by
  rw [all, all, write, List.append_assoc]

/-- Closing a part of the log loses nothing of everything in it. -/
theorem all_rotate (log : PartedLog Item) : log.rotate.all = log.all := by
  simp [all, rotate]

end PartedLog

namespace FileOutput

/-- A call on the handle; a rotation comes with the reading of the clock. -/
inductive LogLabel where
  | writeLine (buffer : List Byte)
  | rotate (now : Int)
deriving DecidableEq

/-- The directory, what the file held when the handle was opened, the lines written
since, the readings of the clock at the rotations and the names they chose. -/
structure LogState where
  directory : Directory
  opened : List Byte
  lines : List (List Byte)
  times : List Int
  targets : List Path

/-- The runs of a handle: lines are written to its file, and the file is rotated at some time,
in any order. -/
def logSystem (localtime : Int → Tm) (handle : Handle) : System LogState LogLabel where
  start state := state.directory handle.path = some state.opened ∧ state.lines = [] ∧
    state.times = [] ∧ state.targets = []
  next
    | state, .writeLine buffer => some
        { state with
          directory := fileWriteLine handle buffer state.directory
          lines := state.lines ++ [line buffer] }
    | state, .rotate now => some
        { state with
          directory := fileRotate handle (localtime now) state.directory
          times := state.times ++ [now]
          targets := state.targets ++ [rotatedName handle.path (localtime now)] }

/-- The rotated files have names of their own, and the rotated files in the order of
rotation followed by the current file are what was there and all lines written. -/
structure Lossless (handle : Handle) (state : LogState) : Prop where
  names : (state.targets ++ [handle.path]).Nodup
  whole : state.targets.flatMap (contents state.directory) ++
    contents state.directory handle.path = state.opened ++ state.lines.flatten

/-- The stamps of the rotations differ in what there is room for behind the path, and
there is room. -/
def Distinguishable (localtime : Int → Tm) (handle : Handle) (times : List Int) : Prop :=
  (times.map fun now => cutStamp handle (localtime now)).Nodup ∧
    (times ≠ [] → handle.path.length < Config.pathMax - 1)

section Runs

variable {localtime : Int → Tm} {handle : Handle}

/-- The names of the rotated files are those of the times of the rotations, in their order. -/
theorem targets_of_times {state : LogState}
    (reached : (logSystem localtime handle).Reachable state) :
    state.targets = state.times.map fun now => rotatedName handle.path (localtime now) := by
  apply reached.invariant fun state =>
    state.targets = state.times.map fun now => rotatedName handle.path (localtime now)
  · rintro state ⟨_, _, times, targets⟩
    rw [times, targets, List.map_nil]
  · intro state label after held _ moved
    cases label with
    | writeLine buffer =>
      cases moved
      exact held
    | rotate now =>
      cases moved
      simp only [held, List.map_append, List.map_cons, List.map_nil]

/-- All names, that of the open file among them, differ exactly when the times of the rotations
are distinguishable by the names they make. -/
theorem names_distinct_iff (times : List Int) :
    ((times.map fun now => rotatedName handle.path (localtime now)) ++ [handle.path]).Nodup ↔
      Distinguishable localtime handle times := by
  have stamps : (times.map fun now => rotatedName handle.path (localtime now)).Nodup ↔
      (times.map fun now => cutStamp handle (localtime now)).Nodup := by
    rw [List.nodup_iff_pairwise_ne, List.nodup_iff_pairwise_ne, List.pairwise_map,
      List.pairwise_map]
    simp only [ne_eq, rotated_name_eq_iff]
  have outside : handle.path ∉ times.map (fun now => rotatedName handle.path (localtime now)) ↔
      (times ≠ [] → handle.path.length < Config.pathMax - 1) := by
    constructor
    · intro absent nonempty
      obtain ⟨now, listed⟩ := List.exists_mem_of_ne_nil times nonempty
      by_contra full
      apply absent
      exact List.mem_map.mpr ⟨now, listed, (rotated_name_path_iff handle _).mpr full⟩
    · intro room listed
      obtain ⟨now, member, same⟩ := List.mem_map.mp listed
      exact (rotated_name_path_iff handle _).mp same (room (List.ne_nil_of_mem member))
  rw [List.nodup_append, stamps, Distinguishable, ← outside]
  constructor
  · rintro ⟨distinct, _, apart⟩
    exact ⟨distinct, fun listed => apart _ listed _ List.mem_cons_self rfl⟩
  · rintro ⟨distinct, absent⟩
    refine ⟨distinct, List.pairwise_singleton _ _, ?_⟩
    intro name listed other single same
    obtain rfl := List.mem_singleton.mp single
    exact absent (same ▸ listed)

/-- The directory holds the parts of a log under the names of the rotated files and
under the name of the file. -/
structure Keeps (handle : Handle) (state : LogState) (log : PartedLog Byte) : Prop where
  closed : state.targets.map state.directory = log.closed.map some
  current : state.directory handle.path = some log.current
  all : log.all = state.opened ++ state.lines.flatten

/-- Where the files keep a log, a line that is written to the handle is written to the log. -/
theorem Keeps.written {state : LogState} {log : PartedLog Byte} (keeps : Keeps handle state log)
    (apart : handle.path ∉ state.targets) (buffer : List Byte) :
    Keeps handle
      { state with
        directory := fileWriteLine handle buffer state.directory
        lines := state.lines ++ [line buffer] }
      (log.write (line buffer)) := by
  constructor
  · have others : state.targets.map (fileWriteLine handle buffer state.directory) =
        state.targets.map state.directory := by
      apply List.map_congr_left
      intro target listed
      apply file_write_line_other
      intro same
      exact apart (same ▸ listed)
    exact others.trans keeps.closed
  · dsimp only
    rw [file_write_line_own, contents, keeps.current, Option.getD_some]
    rfl
  · rw [PartedLog.all_write, keeps.all, List.flatten_append, List.append_assoc]
    simp

/-- A rotation under a new name closes the current part. -/
theorem Keeps.rotated {state : LogState} {log : PartedLog Byte} (keeps : Keeps handle state log)
    {now : Int}
    (names : (state.targets ++ [rotatedName handle.path (localtime now)] ++ [handle.path]).Nodup) :
    Keeps handle
      { state with
        directory := fileRotate handle (localtime now) state.directory
        times := state.times ++ [now]
        targets := state.targets ++ [rotatedName handle.path (localtime now)] }
      log.rotate := by
  obtain ⟨earlier, _, apart⟩ := List.nodup_append.mp names
  obtain ⟨_, _, fresh⟩ := List.nodup_append.mp earlier
  have moved : rotatedName handle.path (localtime now) ≠ handle.path :=
    apart _ (List.mem_append_right _ List.mem_cons_self) _ List.mem_cons_self
  constructor
  · have others : state.targets.map (fileRotate handle (localtime now) state.directory) =
        state.targets.map state.directory := by
      apply List.map_congr_left
      intro target listed
      apply file_rotate_other
      · exact apart target (List.mem_append_left _ listed) _ List.mem_cons_self
      · exact fresh target listed _ List.mem_cons_self
    dsimp only
    rw [List.map_append, others, keeps.closed, List.map_singleton,
      file_rotate_target handle _ _ moved, keeps.current, PartedLog.rotate, List.map_append]
    rfl
  · exact file_rotate_own handle _ _ moved
  · rw [PartedLog.all_rotate]
    exact keeps.all

/-- While the names differ the directory keeps a log of all that was written. -/
theorem kept_run {state : LogState} (reached : (logSystem localtime handle).Reachable state)
    (names : (state.targets ++ [handle.path]).Nodup) : ∃ log, Keeps handle state log := by
  revert names
  apply reached.invariant fun state =>
    (state.targets ++ [handle.path]).Nodup → ∃ log, Keeps handle state log
  · rintro state ⟨stored, lines, _, targets⟩ _
    refine ⟨⟨[], state.opened⟩, ?_, stored, ?_⟩
    · rw [targets]
      rfl
    · rw [lines]
      simp [PartedLog.all]
  · intro state label after before _ moved names
    cases label with
    | writeLine buffer =>
      cases moved
      obtain ⟨log, keeps⟩ := before names
      have apart : handle.path ∉ state.targets := fun listed =>
        (List.nodup_append.mp names).2.2 _ listed _ List.mem_cons_self rfl
      exact ⟨_, keeps.written apart buffer⟩
    | rotate now =>
      cases moved
      have earlier : (state.targets ++ [handle.path]).Nodup := by
        apply List.Nodup.sublist _ names
        apply List.Sublist.append_right
        exact List.sublist_append_left _ _
      obtain ⟨log, keeps⟩ := before earlier
      exact ⟨_, keeps.rotated names⟩

/-- What the files hold, the rotated ones in their order and the open one behind them, is
everything in the log they keep. -/
theorem Keeps.whole {state : LogState} {log : PartedLog Byte} (keeps : Keeps handle state log) :
    state.targets.flatMap (contents state.directory) ++ contents state.directory handle.path =
      state.opened ++ state.lines.flatten := by
  have closed : state.targets.flatMap (contents state.directory) = log.closed.flatten := by
    have parts : state.targets.map (contents state.directory) =
        (state.targets.map state.directory).map fun part => part.getD [] := by
      rw [List.map_map]
      rfl
    rw [List.flatMap_def, parts, keeps.closed, List.map_map]
    exact congrArg List.flatten (List.map_id _)
  rw [closed, contents, keeps.current, ← keeps.all]
  rfl

/-- A run loses no line, and its rotated files have names of their own, exactly when
its rotations are distinguishable. -/
theorem rotation_lossless_iff {state : LogState}
    (reached : (logSystem localtime handle).Reachable state) :
    Lossless handle state ↔ Distinguishable localtime handle state.times := by
  rw [← names_distinct_iff, ← targets_of_times reached]
  constructor
  · intro lossless
    exact lossless.names
  · intro names
    obtain ⟨log, keeps⟩ := kept_run reached names
    exact ⟨names, keeps.whole⟩

end Runs

/-- The handle of the file `/e.log`, on which the examples run. -/
def exampleHandle : Handle := ⟨Config.bytesOf "/e.log", by decide⟩

/-- One line before and one line after a rotation, and a second rotation. -/
def twoRotations (first second : Int) : List LogLabel :=
  [.writeLine [97], .rotate first, .writeLine [98], .rotate second]

/-- The start of an example: the file of the handle is there and is empty. -/
def emptyLog : LogState where
  directory := Function.update (fun _ => none) exampleHandle.path (some [])
  opened := []
  lines := []
  times := []
  targets := []

/-- The run with two rotations takes place, whatever the two times are. -/
theorem two_rotations_reached (first second : Int) :
    ∃ state,
      (logSystem utc exampleHandle).follow (twoRotations first second) emptyLog = some state ∧
      (logSystem utc exampleHandle).Reachable state := by
  have begun : (logSystem utc exampleHandle).Reachable emptyLog := .initial ⟨rfl, rfl, rfl, rfl⟩
  obtain ⟨state, completed⟩ : ∃ state,
      (logSystem utc exampleHandle).follow (twoRotations first second) emptyLog = some state :=
    ⟨_, rfl⟩
  exact ⟨state, completed, System.Reachable.followed begun _ state completed⟩

/-- The law at work for two rotations one second apart: their names differ, and nothing of the
log is lost. -/
theorem rotation_lossless_next_second :
    ∃ state, (logSystem utc exampleHandle).follow (twoRotations 1577836800 1577836801) emptyLog =
        some state ∧
      (Lossless exampleHandle state ↔ Distinguishable utc exampleHandle state.times) := by
  obtain ⟨state, completed, reached⟩ := two_rotations_reached 1577836800 1577836801
  exact ⟨state, completed, rotation_lossless_iff reached⟩

/-- At 01:11:11 and at 11:01:11 of one day the name is the same, and the line rotated
first is gone. -/
theorem rotations_collide :
    ¬ ∀ localtime handle state, (logSystem localtime handle).Reachable state →
      state.times.Nodup → Lossless handle state := by
  intro claimed
  obtain ⟨state, completed, reached⟩ := two_rotations_reached 1577841071 1577876471
  cases completed
  have lossless := claimed utc exampleHandle _ reached (by decide)
  exact absurd lossless.whole (by decide)

end FileOutput

end Dragonfly
