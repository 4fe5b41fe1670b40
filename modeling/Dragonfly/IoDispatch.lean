import Dragonfly.Config

/-!
# The dispatch on a URI and on the type of a handle

`dragonfly_io_open` calls an opener of the module the scheme names, and passes what stands
behind the scheme. The opener chooses the type of the handle, and `dragonfly_io_read`,
`dragonfly_io_write` and `dragonfly_io_close` choose a module by that type. The functions
agree except where the offset of `ipfix` is that of `suricata`, where the scheme `syslog`
is given to the sockets, and where a handle for the output to a compressed file is neither
written nor closed by its module.

A string is given without its terminator.
-/

namespace Dragonfly.IoDispatch

open Config

/-- The constant `DF_IN`: the bit of a specification that asks for input. -/
def dfIn : Nat := 1

/-- The constant `DF_OUT`: the bit of a specification that asks for output. -/
def dfOut : Nat := 2

/-- The types of a handle, which an opener writes into it and by which all later calls choose a
module. -/
inductive HandleType where
  | outSyslog
  | inFile
  | outFile
  | clientIpc
  | serverIpc
  | inTail
  | inZfile
  | outZfile
  | inKafka
  | outKafka
  | cmdSuricata
  | ipfix
deriving DecidableEq

/-- The code of a type, as the header numbers it; the functions compare these numbers. -/
def HandleType.code : HandleType → Nat
  | .outSyslog => 0
  | .inFile => 1
  | .outFile => 2
  | .clientIpc => 3
  | .serverIpc => 4
  | .inTail => 5
  | .inZfile => 6
  | .outZfile => 7
  | .inKafka => 8
  | .outKafka => 9
  | .cmdSuricata => 10
  | .ipfix => 11

/-- The modules below `dragonfly-io`, one for each kind of source or sink. -/
inductive IoModule where
  | file
  | tail
  | ipc
  | zfile
  | kafka
  | ipfix
  | syslog
deriving DecidableEq

/-! ## The openers -/

/-- What an opener returns: a handle or `NULL`; or it ends the process. -/
inductive Opened where
  | handle (type : HandleType)
  | null
  | exit
deriving DecidableEq

/-- The specification of an open asks for a direction if the bit of that direction is set. -/
def asks (spec direction : Nat) : Bool := spec &&& direction = direction

/-- An opener with a type for each direction it knows. It returns `NULL` where a system call
or the allocation fails. -/
def openAs (inType outType : Option HandleType) (spec : Nat) (succeeds : Bool) : Opened :=
  let type := if asks spec dfIn then inType else if asks spec dfOut then outType else none
  match type with
  | some type => if succeeds then .handle type else .null
  | none => .null

/-- The opener `file_open`, which makes a handle of an input or of an output file. -/
def fileOpen : Nat → Bool → Opened := openAs (some .inFile) (some .outFile)

/-- The opener `tail_open`, which makes a handle of an input and knows no output. -/
def tailOpen : Nat → Bool → Opened := openAs (some .inTail) none

/-- The opener `ipc_open`: input makes it the server of a socket, and output its client. -/
def ipcOpen : Nat → Bool → Opened := openAs (some .serverIpc) (some .clientIpc)

/-- The opener `zfile_open`, which makes a handle of a compressed file for input or for output. -/
def zfileOpen : Nat → Bool → Opened := openAs (some .inZfile) (some .outZfile)

/-- The opener `kafka_open`, which is not written yet and returns a null pointer. -/
def kafkaOpen (_ : Nat) (_ : Bool) : Opened := .null

/-- The opener `ipfix_open`, which is not written yet and ends the process. -/
def ipfixOpen (_ : Nat) (_ : Bool) : Opened := .exit

/-- The opener `syslog_open`, which knows output only and returns a null pointer for anything
else. -/
def syslogOpen (spec : Nat) (succeeds : Bool) : Opened :=
  if asks spec dfOut ∧ succeeds then .handle .outSyslog else .null

/-- The opener of a module, by the specification and by whether the underlying open succeeds. -/
def IoModule.opener : IoModule → Nat → Bool → Opened
  | .file => fileOpen
  | .tail => tailOpen
  | .ipc => ipcOpen
  | .zfile => zfileOpen
  | .kafka => kafkaOpen
  | .ipfix => ipfixOpen
  | .syslog => syslogOpen

/-! ## The dispatch -/

/-- `strncmp` finds no difference in the first bytes of two strings. -/
def agree (left right : List Byte) (count : Nat) : Bool := left.take count = right.take count

/-- The string behind an offset; nothing is known of what lies behind the terminator. -/
def behind (uri : List Byte) (offset : Nat) : Option (List Byte) :=
  if offset ≤ uri.length then some (uri.drop offset) else none

/-- `dragonfly_io_open`: the module whose opener it calls and the string it passes. The
specification is passed as it is. -/
def dragonflyIoOpen (uri : List Byte) : Option (IoModule × Option (List Byte)) :=
  if agree (bytesOf "file://") uri 7 then some (.file, behind uri 7)
  else if agree (bytesOf "tail://") uri 7 then some (.tail, behind uri 7)
  else if agree (bytesOf "ipc://") uri 6 then some (.ipc, behind uri 6)
  else if agree (bytesOf "zfile://") uri 8 then some (.zfile, behind uri 8)
  else if agree (bytesOf "kafka://") uri 8 then some (.kafka, behind uri 8)
  else if agree (bytesOf "suricata://") uri 11 then some (.ipc, behind uri 11)
  else if agree (bytesOf "ipfix://") uri 8 then some (.ipfix, behind uri 11)
  else if agree (bytesOf "syslog://") uri 9 then some (.ipc, behind uri 9)
  else none

/-- The module that `dragonfly_io_write` calls for a type; for the other types the function
returns an error. -/
def dragonflyIoWrite (type : HandleType) : Option IoModule :=
  if type = .serverIpc ∨ type = .clientIpc then some .ipc
  else if type = .outFile then some .file
  else if type = .outKafka then some .kafka
  else if type = .outSyslog then some .syslog
  else none

/-- The module that `dragonfly_io_read` calls for a type; for the other types the function
returns an error. -/
def dragonflyIoRead (type : HandleType) : Option IoModule :=
  if type = .serverIpc ∨ type = .clientIpc then some .ipc
  else if type = .inTail then some .tail
  else if type = .inFile then some .file
  else if type = .inZfile then some .zfile
  else if type = .inKafka then some .kafka
  else if type = .ipfix then some .ipfix
  else none

/-- The module that `dragonfly_io_read_lines` calls for a type, which can only be that of the
sockets. -/
def dragonflyIoReadLines (type : HandleType) : Option IoModule :=
  if type = .serverIpc ∨ type = .clientIpc then some .ipc else none

/-- The module `dragonfly_io_close` calls. The handle is freed only where a branch does not
return. -/
def dragonflyIoClose (type : HandleType) : Option IoModule :=
  if type = .serverIpc ∨ type = .clientIpc then some .ipc
  else if type = .inTail then some .tail
  else if type = .inFile ∨ type = .outFile then some .file
  else if type = .inZfile then some .zfile
  else if type = .inKafka then some .kafka
  else if type = .ipfix then some .ipfix
  else none

/-- The module that `dragonfly_io_rotate` calls for a type; only output files are rotated. -/
def dragonflyIoRotate (type : HandleType) : Option IoModule :=
  if type = .outFile then some .file else none

/-! ## Schemes -/

/-- The schemes a URI may begin with, in the order in which they are tested. -/
inductive Scheme where
  | file
  | tail
  | ipc
  | zfile
  | kafka
  | suricata
  | ipfix
  | syslog
deriving DecidableEq

/-- A scheme as it stands in a URI, with the colon and the two slashes. -/
def Scheme.text : Scheme → List Byte
  | .file => bytesOf "file://"
  | .tail => bytesOf "tail://"
  | .ipc => bytesOf "ipc://"
  | .zfile => bytesOf "zfile://"
  | .kafka => bytesOf "kafka://"
  | .suricata => bytesOf "suricata://"
  | .ipfix => bytesOf "ipfix://"
  | .syslog => bytesOf "syslog://"

/-- The module a scheme names, which for `suricata` is that of the sockets. -/
def Scheme.ioModule : Scheme → IoModule
  | .file => .file
  | .tail => .tail
  | .ipc => .ipc
  | .zfile => .zfile
  | .kafka => .kafka
  | .suricata => .ipc
  | .ipfix => .ipfix
  | .syslog => .syslog

/-- A URI of a scheme: the text of the scheme with any remainder behind it. -/
def Scheme.uri (scheme : Scheme) (remainder : List Byte) : List Byte := scheme.text ++ remainder

/-- A call of `dragonfly_io_open` with this specification returns a handle of the type. -/
def Opens (uri : List Byte) (spec : Nat) (type : HandleType) : Prop :=
  ∃ called path, dragonflyIoOpen uri = some (called, path) ∧
    ∃ succeeds, called.opener spec succeeds = .handle type

/-- The remainder is passed to the module the scheme names, and that module serves and
releases the handles. -/
structure Coherent (scheme : Scheme) (remainder : List Byte) (spec : Nat) : Prop where
  passes : dragonflyIoOpen (scheme.uri remainder) = some (scheme.ioModule, some remainder)
  reads : spec = dfIn → ∀ type, Opens (scheme.uri remainder) spec type →
    dragonflyIoRead type = some scheme.ioModule ∧ dragonflyIoClose type = some scheme.ioModule
  writes : spec = dfOut → ∀ type, Opens (scheme.uri remainder) spec type →
    dragonflyIoWrite type = some scheme.ioModule ∧ dragonflyIoClose type = some scheme.ioModule

/-! ## Where the functions agree -/

/-- The module whose opener `dragonfly_io_open` calls for a scheme. For `syslog` it is the one
of the sockets. -/
def Scheme.called : Scheme → IoModule
  | .syslog => .ipc
  | scheme => scheme.ioModule

/-- The offset of what is passed to the opener. For `ipfix` it is the offset of `suricata`,
which is a longer scheme. -/
def Scheme.offset : Scheme → Nat
  | .ipfix => 11
  | scheme => scheme.text.length

/-- The first condition that holds is that of the scheme. -/
theorem open_calls (scheme : Scheme) (remainder : List Byte) :
    dragonflyIoOpen (scheme.uri remainder) =
      some (scheme.called, behind (scheme.uri remainder) scheme.offset) := by
  cases scheme
  all_goals
    simp [dragonflyIoOpen, agree, Scheme.uri, Scheme.text, Scheme.called, Scheme.offset,
      Scheme.ioModule, bytesOf]

/-- A handle that `dragonfly_io_open` returns for a URI comes from the opener that is called for
its scheme. -/
theorem opens_called {scheme : Scheme} {remainder : List Byte} {spec : Nat} {type : HandleType}
    (opens : Opens (scheme.uri remainder) spec type) :
    ∃ succeeds, scheme.called.opener spec succeeds = .handle type := by
  obtain ⟨called, path, call, opened⟩ := opens
  rw [open_calls] at call
  obtain ⟨rfl, -⟩ := Prod.mk.inj (Option.some.inj call)
  exact opened

/-- What stands behind the text of a scheme in a URI of this scheme is the remainder. -/
theorem behind_scheme (scheme : Scheme) (remainder : List Byte) :
    behind (scheme.uri remainder) scheme.text.length = some remainder := by
  have inside : scheme.text.length ≤ (scheme.uri remainder).length := by
    rw [Scheme.uri, List.length_append]
    exact Nat.le_add_right _ _
  rw [behind, if_pos inside, Scheme.uri, List.drop_left]

/-- The offset of `ipfix` is three too large: for no remainder does it stand there. -/
theorem ipfix_offset (remainder : List Byte) :
    behind (Scheme.ipfix.uri remainder) Scheme.ipfix.offset ≠ some remainder := by
  have length : (Scheme.ipfix.uri remainder).length = remainder.length + 8 := by
    rw [Scheme.uri, List.length_append, Nat.add_comm]
    rfl
  have offset : Scheme.ipfix.offset = 11 := rfl
  rw [behind, length, offset]
  intro passed
  split at passed
  · have same := congrArg List.length (Option.some.inj passed)
    rw [List.length_drop, length] at same
    omega
  · cases passed

/-- The type of the handles a module opens for input. -/
def IoModule.input : IoModule → Option HandleType
  | .file => some .inFile
  | .tail => some .inTail
  | .ipc => some .serverIpc
  | .zfile => some .inZfile
  | _ => none

/-- The type of the handles that the opener of a module makes for output, if it makes any. -/
def IoModule.output : IoModule → Option HandleType
  | .file => some .outFile
  | .ipc => some .clientIpc
  | .zfile => some .outZfile
  | .syslog => some .outSyslog
  | _ => none

section Handles

variable {called : IoModule} {succeeds : Bool} {type : HandleType}

/-- An opener returns a handle of the type for its direction. -/
theorem opened_type :
    (called.opener dfIn succeeds = .handle type → called.input = some type) ∧
      (called.opener dfOut succeeds = .handle type → called.output = some type) := by
  cases called
  all_goals
    cases succeeds
    all_goals
      simp [IoModule.opener, fileOpen, tailOpen, ipcOpen, zfileOpen, kafkaOpen, ipfixOpen,
        syslogOpen, openAs, asks, dfIn, dfOut, IoModule.input, IoModule.output]

/-- A handle for input is read and closed by its module. -/
theorem input_served (input : called.input = some type) :
    dragonflyIoRead type = some called ∧ dragonflyIoClose type = some called := by
  cases called
  all_goals cases input
  all_goals exact ⟨rfl, rfl⟩

/-- A handle for output is written by its module, unless that is a compressed file, and closed
by it, unless there is nothing to close. -/
theorem output_served (output : called.output = some type) (plain : called ≠ .zfile) :
    dragonflyIoWrite type = some called ∧
      (called ≠ .syslog → dragonflyIoClose type = some called) := by
  cases called
  all_goals cases output
  case zfile => exact absurd rfl plain
  case syslog => exact ⟨rfl, fun other => absurd rfl other⟩
  all_goals exact ⟨rfl, fun _ => rfl⟩

end Handles

/-- All schemes but `syslog` lead to the opener of the module they name. -/
theorem called_named {scheme : Scheme} (sockets : scheme ≠ .syslog) :
    scheme.called = scheme.ioModule := by
  cases scheme with
  | syslog => exact absurd rfl sockets
  | _ => rfl

/-- All schemes but `ipfix` pass to their opener exactly what stands behind them. -/
theorem offset_length {scheme : Scheme} (offset : scheme ≠ .ipfix) :
    scheme.offset = scheme.text.length := by
  cases scheme with
  | ipfix => exact absurd rfl offset
  | _ => rfl

/-- Only the scheme of its name leads to the compressed files, and to the system log. -/
theorem named_alone (scheme : Scheme) :
    (scheme.ioModule = .zfile → scheme = .zfile) ∧
      (scheme.ioModule = .syslog → scheme = .syslog) := by
  cases scheme
  all_goals exact ⟨by decide, by decide⟩

/-- The dispatch is coherent for all schemes but `ipfix` and `syslog`, and for `zfile` unless
it is opened for output. -/
theorem coherent_iff (scheme : Scheme) (remainder : List Byte) (spec : Nat) :
    Coherent scheme remainder spec ↔
      scheme ≠ .ipfix ∧ scheme ≠ .syslog ∧ ¬ (scheme = .zfile ∧ spec = dfOut) := by
  constructor
  · intro coherent
    have passed := coherent.passes
    rw [open_calls] at passed
    obtain ⟨called, path⟩ := Prod.mk.inj (Option.some.inj passed)
    refine ⟨?_, ?_, ?_⟩
    · rintro rfl
      exact ipfix_offset remainder path
    · rintro rfl
      cases called
    · rintro ⟨rfl, rfl⟩
      have written := coherent.writes rfl .outZfile ⟨.zfile, _, open_calls _ _, true, rfl⟩
      exact absurd written.1 (by decide)
  · rintro ⟨offset, sockets, compressed⟩
    have called := called_named sockets
    refine ⟨?_, ?_, ?_⟩
    · rw [open_calls, called, offset_length offset, behind_scheme]
    · rintro rfl type opens
      obtain ⟨succeeds, opened⟩ := opens_called opens
      rw [called] at opened
      exact input_served (opened_type.1 opened)
    · rintro rfl type opens
      obtain ⟨succeeds, opened⟩ := opens_called opens
      rw [called] at opened
      have plain : scheme.ioModule ≠ .zfile := fun zfile =>
        compressed ⟨(named_alone scheme).1 zfile, rfl⟩
      have other : scheme.ioModule ≠ .syslog := fun syslog =>
        sockets ((named_alone scheme).2 syslog)
      obtain ⟨written, closed⟩ := output_served (opened_type.2 opened) plain
      exact ⟨written, closed other⟩

/-- No string stands where the opener of `ipfix` looks for an empty remainder, for a longer one
it finds another string; the scheme `syslog` and output to a compressed file go astray as
well. -/
theorem dispatch_incoherent :
    dragonflyIoOpen (bytesOf "ipfix://") = some (.ipfix, none) ∧
      dragonflyIoOpen (bytesOf "ipfix://10.0.0.1") = some (.ipfix, some (bytesOf "0.0.1")) ∧
      dragonflyIoOpen (bytesOf "syslog://LOG_LOCAL0") = some (.ipc, some (bytesOf "LOG_LOCAL0")) ∧
      dragonflyIoWrite .outZfile = none ∧ dragonflyIoClose .outZfile = none ∧
      ¬ Coherent .ipfix (bytesOf "10.0.0.1") dfIn := by
  refine ⟨rfl, rfl, rfl, rfl, rfl, fun coherent => ?_⟩
  have passed : some (IoModule.ipfix, some (bytesOf "0.0.1")) =
      some (IoModule.ipfix, some (bytesOf "10.0.0.1")) := coherent.passes
  exact absurd passed (by decide)

end Dragonfly.IoDispatch
