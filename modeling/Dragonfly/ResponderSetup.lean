import Dragonfly.CommandSocket
import Dragonfly.Stages
import Mathlib.Data.Fintype.EquivFin

/-!
# Setting up the responders in each analyzer thread

The command socket belongs to the process, but each analyzer thread fills the table of
responders and sets up those of the configuration. The first setup of the Suricata responder
makes the socket and connects it. Another one finds the socket there and connects it again,
which fails, and a failed setup ends the process.
-/

namespace Dragonfly.ResponderSetup

open CommandSocket Config
open Stages (Activity)

/-- One operation of an analyzer thread during its setup: on the process-wide table of
responders, or on the command socket. -/
inductive Operation (Point Result : Type) where
  | storeTable (table : Responders) (resume : Outcome Point Result)
  | loadTable (resume : Responders → Outcome Point Result)
  | socket (operation : SocketOperation Point Result)

/-- The points of `lua_analyzer_thread` up to the `setup` of its script:
`responder_initialize`, and `responder_setup` of an entry of `g_responder_list`. The entries
behind it are to come. -/
inductive ThreadPoint where
  | fillTable
  | setup (tag param : List Byte) (rest : List (List Byte × List Byte))
  | inside (rest : List (List Byte × List Byte)) (point : InitializePoint)

/-- The loop over `g_responder_list`, whose entries have a tag and a parameter. -/
def setupRest : List (List Byte × List Byte) → Outcome ThreadPoint Unit
  | [] => .ret ()
  | (tag, param) :: rest => .goto (.setup tag param rest)

/-- What the loop does with the result of `responder_setup`: an error ends the process, and
otherwise the next responder is set up. -/
def setupReturned (rest : List (List Byte × List Byte)) (n : Int) : Outcome ThreadPoint Unit :=
  if n < 0 then .exit else setupRest rest

/-- The beginning of `lua_analyzer_thread` with these responders: it fills the table, and sets
up one after the other. -/
def luaAnalyzerThread (responders : List (List Byte × List Byte)) :
    ThreadPoint → Operation ThreadPoint Unit
  | .fillTable => .storeTable responderInitialize (setupRest responders)
  | .setup tag param rest => .loadTable fun table =>
      (responderSetup table tag (some param)).call (.inside rest) (setupReturned rest)
  | .inside rest point =>
      .socket ((initializeOperation point).call (.inside rest) (setupReturned rest))

/-- The process, its analyzer threads, and whether it has exited. -/
structure State (n : Nat) where
  process : Process
  threads : Fin n → Activity ThreadPoint Unit
  exited : Bool

/-- A step of one of the threads, with what the kernel answers to its operation. -/
structure Label (n : Nat) where
  thread : Fin n
  answers : Answers

section Runs

variable {n : Nat}

/-- Perform an operation of a thread: on the table, which all threads share, or on the command
socket. -/
def perform {Point Result : Type} (process : Process) (answers : Answers) :
    Operation Point Result → Option (Process × Outcome Point Result)
  | .storeTable table resume => some ({ process with responders := table }, resume)
  | .loadTable resume => some (process, resume process.responders)
  | .socket operation => process.perform answers operation

/-- Where a step leaves its thread, and whether it ends the process. -/
def State.settled (state : State n) (thread : Fin n) (process : Process)
    (outcome : Outcome ThreadPoint Unit) : State n where
  process := process
  threads := Function.update state.threads thread (.after outcome)
  exited := match outcome with
    | .exit => true
    | _ => false

/-- One step. No thread moves once the process has exited. -/
def next (responders : List (List Byte × List Byte)) (state : State n) (label : Label n) :
    Option (State n) :=
  match state.exited, state.threads label.thread with
  | false, .inside point =>
      (perform state.process label.answers (luaAnalyzerThread responders point)).map
        fun (process, outcome) => state.settled label.thread process outcome
  | _, _ => none

/-- The threads are started, and each of them is about to fill the table of the process. -/
def initial : State n where
  process := .initial
  threads _ := .inside .fillTable
  exited := false

/-- The runs of the analyzer threads of a process with these responders, in any interleaving. -/
def system (responders : List (List Byte × List Byte)) : System (State n) (Label n) where
  start state := state = initial
  next := next responders

/-- A thread is inside a setup, between the first and the last operation of `responder_setup`. -/
def InSetup : Activity ThreadPoint Unit → Prop
  | .inside (.inside _ _) => True
  | _ => False

instance : DecidablePred InSetup
  | .inside (.inside _ _) => .isTrue trivial
  | .inside .fillTable => .isFalse id
  | .inside (.setup _ _ _) => .isFalse id
  | .outside _ => .isFalse id
  | .ended => .isFalse id

/-- The command server is there, and setups are whole: no other thread moves within one. -/
def Whole (state : State n) (label : Label n) : Prop :=
  label.answers.failure = false ∧
    ∀ other, other ≠ label.thread → ¬ InSetup (state.threads other)

instance : ∀ (state : State n) (label : Label n), Decidable (Whole state label) :=
  fun state label => inferInstanceAs (Decidable (label.answers.failure = false ∧
    ∀ other, other ≠ label.thread → ¬ InSetup (state.threads other)))

/-- Nothing is left to do: the process has ended, or all threads are behind their setups. -/
def Finished (state : State n) : Prop :=
  state.exited = true ∨ ∀ thread, state.threads thread = .outside ()

/-- Every setup has succeeded, and the socket was connected once. -/
structure Succeeded (state : State n) : Prop where
  running : state.exited = false
  passed : ∀ thread, state.threads thread = .outside ()
  connected : ∃ incoming, state.process.connection = .connected incoming
  once : state.process.connects = 1

/-! ## One setup -/

/-- The socket is there and connected, and `connect` has succeeded on it once. -/
structure Linked (process : Process) : Prop where
  socket : ¬ process.socket < 0
  connected : ∃ incoming, process.connection = .connected incoming
  once : process.connects = 1

/-- Nobody has made the socket yet, so there was no `connect` either. -/
structure Fresh (process : Process) : Prop where
  socket : process.socket < 0
  never : process.connects = 0

/-- Where the first setup stands, and what it has made of the socket up to there. -/
inductive FirstSetup (process : Process) : InitializePoint → Prop where
  | enter (path : List Byte) (fresh : Fresh process) : FirstSetup process (.enter path)
  | create (path : List Byte) (fresh : Fresh process) : FirstSetup process (.create path)
  | created (path : List Byte) (fd : Int) (made : ¬ fd < 0)
      (unconnected : process.connection = .unconnected) (never : process.connects = 0) :
      FirstSetup process (.created path fd)
  | connect (path : List Byte) (made : ¬ process.socket < 0)
      (unconnected : process.connection = .unconnected) (never : process.connects = 0) :
      FirstSetup process (.connect path)
  | send (path : List Byte) (linked : Linked process) : FirstSetup process (.send path)
  | read (path : List Byte) (linked : Linked process) : FirstSetup process (.read path)
  | loadPath (path : List Byte) (linked : Linked process) : FirstSetup process (.loadPath path)
  | storePath (path : List Byte) (linked : Linked process) : FirstSetup process (.storePath path)

/-- A step of the first setup goes on with it, or returns zero on the connected socket. -/
theorem first_setup_step {process after : Process} {answers : Answers} {point : InitializePoint}
    {outcome : Outcome InitializePoint Int} (first : FirstSetup process point)
    (available : answers.failure = false)
    (moved : process.perform answers (initializeOperation point) = some (after, outcome)) :
    after.responders = process.responders ∧
      ((∃ following, outcome = .goto following ∧ FirstSetup after following) ∨
        (outcome = .ret 0 ∧ Linked after)) := by
  cases first with
  | enter path fresh =>
    simp only [initializeOperation, Process.perform, if_pos fresh.socket] at moved
    cases moved
    exact ⟨rfl, .inl ⟨_, rfl, .create path fresh⟩⟩
  | create path fresh =>
    simp only [initializeOperation, Process.perform, available] at moved
    cases moved
    exact ⟨rfl, .inl ⟨_, rfl, .created path _ (by omega) rfl fresh.never⟩⟩
  | created path fd made unconnected never =>
    simp only [initializeOperation, Process.perform, if_neg made] at moved
    cases moved
    exact ⟨rfl, .inl ⟨_, rfl, .connect path made unconnected never⟩⟩
  | connect path made unconnected never =>
    simp only [initializeOperation, Process.perform, unconnected, available] at moved
    cases moved
    exact ⟨rfl, .inl ⟨_, rfl, .send path ⟨made, ⟨[], rfl⟩, by simp [never]⟩⟩⟩
  | send path linked =>
    obtain ⟨incoming, connected⟩ := linked.connected
    simp only [initializeOperation, Process.perform, connected, available] at moved
    cases moved
    have sent : ¬ (versionMsg.length : Int) < 0 := by omega
    exact ⟨rfl, .inl ⟨_, if_neg sent, .read path ⟨linked.socket, ⟨_, rfl⟩, linked.once⟩⟩⟩
  | read path linked =>
    obtain ⟨incoming, connected⟩ := linked.connected
    simp only [initializeOperation, Process.perform, connected, available] at moved
    split at moved
    · cases moved
      have received : ¬ (answers.value : Int) < 0 := by omega
      exact ⟨rfl, .inl ⟨_, if_neg received,
        .loadPath path ⟨linked.socket, ⟨_, rfl⟩, linked.once⟩⟩⟩
    · cases moved
  | loadPath path linked =>
    simp only [initializeOperation, Process.perform] at moved
    cases moved
    refine ⟨rfl, ?_⟩
    by_cases unset : process.path = none
    · exact .inl ⟨_, if_pos unset, .storePath path linked⟩
    · exact .inr ⟨if_neg unset, linked⟩
  | storePath path linked =>
    simp only [initializeOperation, Process.perform] at moved
    cases moved
    exact ⟨rfl, .inr ⟨rfl, ⟨linked.socket, linked.connected, linked.once⟩⟩⟩

/-! ## All threads -/

section Invariant

variable (tag path : List Byte)

/-- A thread in front of its setup: it is about to fill the table, or to call `responder_setup`. -/
def Waiting (thread : Activity ThreadPoint Unit) : Prop :=
  thread = .inside .fillTable ∨ thread = .inside (.setup tag path [])

/-- Where the threads stand: one after the other has its setup; the first succeeds and the
second ends the process. -/
inductive Stands (state : State n) : Prop where
  | fresh (running : state.exited = false)
      (waiting : ∀ thread, Waiting tag path (state.threads thread))
      (process : Fresh state.process)
  | first (running : state.exited = false) (setter : Fin n) (point : InitializePoint)
      (place : state.threads setter = .inside (.inside [] point))
      (waiting : ∀ thread, thread ≠ setter → Waiting tag path (state.threads thread))
      (process : FirstSetup state.process point)
  | linked (running : state.exited = false) (setter : Fin n)
      (place : state.threads setter = .outside ())
      (waiting : ∀ thread, thread ≠ setter → Waiting tag path (state.threads thread))
      (process : Linked state.process)
  | again (running : state.exited = false) (setter second : Fin n) (different : second ≠ setter)
      (point : InitializePoint) (place : state.threads second = .inside (.inside [] point))
      (early : point = .enter path ∨ point = .connect path) (process : Linked state.process)
  | exited (gone : state.exited = true) (setter second : Fin n) (different : second ≠ setter)

/-- The invariant: where the threads stand, and that one behind `responder_initialize` finds
the table filled. -/
structure Holds (state : State n) : Prop where
  stands : Stands tag path state
  tabled : ∀ thread, state.threads thread ≠ .inside .fillTable →
    state.process.responders = responderInitialize

variable {tag path}

/-- A step of the runs is the operation of one thread, performed on the process, and the outcome
for this thread. -/
theorem next_parts {responders : List (List Byte × List Byte)} {state after : State n}
    {label : Label n} (moved : next responders state label = some after) :
    state.exited = false ∧ ∃ point process outcome,
      state.threads label.thread = .inside point ∧
        perform state.process label.answers (luaAnalyzerThread responders point) =
          some (process, outcome) ∧
        after = state.settled label.thread process outcome := by
  unfold next at moved
  split at moved
  · rename_i point running place
    obtain ⟨⟨process, outcome⟩, performed, settled⟩ := Option.map_eq_some_iff.mp moved
    exact ⟨running, point, process, outcome, place, performed, settled.symm⟩
  · cases moved

/-- A step of a waiting thread fills the table or begins the setup of the thread. -/
theorem waiting_step {state after : State n} {label : Label n}
    (named : strcasecmp tag suricataTag = 0)
    (waiting : Waiting tag path (state.threads label.thread))
    (tabled : state.threads label.thread ≠ .inside .fillTable →
      state.process.responders = responderInitialize)
    (moved : next [(tag, path)] state label = some after) :
    ∃ point, (point = .setup tag path [] ∨ point = .inside [] (.enter path)) ∧
      after = {
        process := { state.process with responders := responderInitialize }
        threads := Function.update state.threads label.thread (.inside point)
        exited := false } := by
  obtain ⟨_, point, process, outcome, place, performed, rfl⟩ := next_parts moved
  rcases waiting with start | setup
  · obtain rfl := Activity.inside.inj (place.symm.trans start)
    cases performed
    exact ⟨_, .inl rfl, rfl⟩
  · obtain rfl := Activity.inside.inj (place.symm.trans setup)
    have filled : state.process.responders = responderInitialize :=
      tabled (by rw [setup]; simp)
    have found : responderSetup state.process.responders tag (some path) =
        .goto (.enter path) := by
      rw [filled, responderSetup, if_pos ((finds_suricata_iff tag).mpr named)]
      rfl
    simp only [luaAnalyzerThread, perform, found] at performed
    cases performed
    refine ⟨_, .inr rfl, ?_⟩
    rw [← filled]
    rfl

/-- A step of a thread inside a setup is one of `suricata_initialize`. -/
theorem inside_parts {responders rest : List (List Byte × List Byte)} {state after : State n}
    {label : Label n} {point : InitializePoint}
    (place : state.threads label.thread = .inside (.inside rest point))
    (moved : next responders state label = some after) :
    ∃ process outcome,
      state.process.perform label.answers (initializeOperation point) = some (process, outcome) ∧
        after = state.settled label.thread process
          (outcome.call (.inside rest) (setupReturned rest)) := by
  obtain ⟨_, inner, process, outcome, here, performed, rfl⟩ := next_parts moved
  obtain rfl := Activity.inside.inj (here.symm.trans place)
  simp only [luaAnalyzerThread, perform, perform_call] at performed
  obtain ⟨⟨middle, inside⟩, ran, same⟩ := Option.map_eq_some_iff.mp performed
  cases same
  exact ⟨middle, inside, ran, rfl⟩

/-- A step of the first setup leads to its next place, or to its end with the socket connected. -/
theorem first_step {state after : State n} {label : Label n} {point : InitializePoint}
    (place : state.threads label.thread = .inside (.inside [] point))
    (first : FirstSetup state.process point) (available : label.answers.failure = false)
    (moved : next [(tag, path)] state label = some after) :
    after.exited = false ∧ after.process.responders = state.process.responders ∧
      ((∃ following, after.threads =
          Function.update state.threads label.thread (.inside (.inside [] following)) ∧
          FirstSetup after.process following) ∨
        (after.threads = Function.update state.threads label.thread (.outside ()) ∧
          Linked after.process)) := by
  obtain ⟨process, outcome, ran, rfl⟩ := inside_parts place moved
  obtain ⟨table, ⟨following, rfl, goes⟩ | ⟨rfl, linked⟩⟩ := first_setup_step first available ran
  · exact ⟨rfl, table, .inl ⟨following, rfl, goes⟩⟩
  · exact ⟨rfl, table, .inr ⟨rfl, linked⟩⟩

/-- A step of another setup: it finds the socket, and connecting it again ends the process. -/
theorem again_step {state after : State n} {label : Label n} {point : InitializePoint}
    (place : state.threads label.thread = .inside (.inside [] point))
    (early : point = .enter path ∨ point = .connect path) (linked : Linked state.process)
    (moved : next [(tag, path)] state label = some after) :
    after.process = state.process ∧
      ((point = .enter path ∧ after.exited = false ∧ after.threads =
          Function.update state.threads label.thread (.inside (.inside [] (.connect path)))) ∨
        after.exited = true) := by
  obtain ⟨process, outcome, ran, rfl⟩ := inside_parts place moved
  obtain ⟨incoming, connected⟩ := linked.connected
  rcases early with rfl | rfl
  · simp only [initializeOperation, Process.perform, if_neg linked.socket] at ran
    cases ran
    exact ⟨rfl, .inl ⟨rfl, rfl, rfl⟩⟩
  · simp only [initializeOperation, Process.perform, connected] at ran
    cases ran
    exact ⟨rfl, .inr rfl⟩

/-- When one of the waiting threads moves, all others keep waiting. -/
theorem waiting_kept {threads : Fin n → Activity ThreadPoint Unit} {mover thread : Fin n}
    {point : ThreadPoint} (waiting : Waiting tag path (threads thread))
    (begun : mover = thread → point = .setup tag path []) :
    Waiting tag path (Function.update threads mover (.inside point) thread) := by
  by_cases same : thread = mover
  · subst same
    rw [Function.update_self, begun rfl]
    exact .inr rfl
  · rwa [Function.update_of_ne same]

/-- A thread that is still in front of its setup has not returned. -/
theorem waiting_inside {thread : Activity ThreadPoint Unit} (waiting : Waiting tag path thread) :
    thread ≠ .outside () := by
  rcases waiting with rfl | rfl <;> simp

/-- A step within whole setups keeps the invariant: at most one thread is inside its setup, and
only the first one connects. -/
theorem step_holds {state after : State n} {label : Label n}
    (named : strcasecmp tag suricataTag = 0) (holds : Holds tag path state)
    (whole : Whole state label) (moved : next [(tag, path)] state label = some after) :
    Holds tag path after := by
  obtain ⟨available, others⟩ := whole
  have alone : ∀ setter point, state.threads setter = .inside (.inside [] point) →
      setter = label.thread := by
    intro setter point place
    by_contra different
    have within := others setter different
    rw [place] at within
    exact within trivial
  cases holds.stands with
  | fresh running waiting fresh =>
    obtain ⟨point, begun | begun, rfl⟩ :=
      waiting_step named (waiting label.thread) (holds.tabled label.thread) moved
    · exact ⟨.fresh rfl (fun thread => waiting_kept (waiting thread) fun _ => begun)
        ⟨fresh.socket, fresh.never⟩, fun _ _ => rfl⟩
    · refine ⟨.first rfl label.thread (.enter path) (by rw [begun]; simp) ?_
        (.enter path ⟨fresh.socket, fresh.never⟩), fun _ _ => rfl⟩
      exact fun thread different => waiting_kept (waiting thread) fun same =>
        absurd same.symm different
  | first running setter point place waiting first =>
    obtain rfl := alone setter point place
    have filled := holds.tabled label.thread (by rw [place]; simp)
    obtain ⟨stays, table, following⟩ := first_step place first available moved
    refine ⟨?_, fun _ _ => table.trans filled⟩
    rcases following with ⟨following, threads, goes⟩ | ⟨threads, linked⟩
    · refine .first stays label.thread following (by rw [threads]; simp) ?_ goes
      intro thread different
      rw [threads, Function.update_of_ne different]
      exact waiting thread different
    · refine .linked stays label.thread (by rw [threads]; simp) ?_ linked
      intro thread different
      rw [threads, Function.update_of_ne different]
      exact waiting thread different
  | linked running setter place waiting linked =>
    have different : label.thread ≠ setter := by
      rintro rfl
      obtain ⟨_, _, _, _, inside, _⟩ := next_parts moved
      rw [place] at inside
      cases inside
    obtain ⟨point, begun | begun, rfl⟩ :=
      waiting_step named (waiting label.thread different) (holds.tabled label.thread) moved
    · refine ⟨.linked rfl setter ?_ ?_ ⟨linked.socket, linked.connected, linked.once⟩,
        fun _ _ => rfl⟩
      · exact (Function.update_of_ne different.symm _ _).trans place
      · exact fun thread other => waiting_kept (waiting thread other) fun _ => begun
    · exact ⟨.again rfl setter label.thread different (.enter path) (by rw [begun]; simp)
        (.inl rfl) ⟨linked.socket, linked.connected, linked.once⟩, fun _ _ => rfl⟩
  | again running setter second different point place early linked =>
    obtain rfl := alone second point place
    have filled := holds.tabled label.thread (by rw [place]; simp)
    obtain ⟨process, following⟩ := @again_step n tag path _ _ label _ place early linked moved
    refine ⟨?_, fun _ _ => (congrArg Process.responders process).trans filled⟩
    rcases following with ⟨_, stays, threads⟩ | gone
    · exact .again stays setter label.thread different (.connect path) (by rw [threads]; simp)
        (.inr rfl) (process ▸ linked)
    · exact .exited gone setter label.thread different
  | exited gone =>
    obtain ⟨running, _⟩ := next_parts moved
    exact Bool.noConfusion (running.symm.trans gone)

/-- The invariant holds in every state of a run in which the setups are whole. -/
theorem run_holds {state : State n} (named : strcasecmp tag suricataTag = 0)
    (reached : (system [(tag, path)]).Reaches Whole state) : Holds tag path state := by
  refine reached.invariant (Holds tag path) ?_ fun _ _ _ holds whole moved =>
    step_holds named holds whole moved
  rintro _ rfl
  refine ⟨.fresh rfl (fun _ => .inl rfl) ⟨Int.negSucc_lt_zero 0, rfl⟩, fun thread moved => ?_⟩
  exact absurd rfl moved

end Invariant

/-- When all analyzers have set up the Suricata responder or the process has exited, every
setup has succeeded and the socket was connected once exactly if there is one analyzer. -/
theorem setups_succeed_iff {tag path : List Byte} {state : State n} (positive : 0 < n)
    (named : strcasecmp tag suricataTag = 0)
    (reached : (system [(tag, path)]).Reaches Whole state) (finished : Finished state) :
    Succeeded state ↔ n = 1 := by
  cases (run_holds named reached).stands with
  | fresh running waiting =>
    rcases finished with gone | passed
    · exact Bool.noConfusion (running.symm.trans gone)
    · exact absurd (passed ⟨0, positive⟩) (waiting_inside (waiting _))
  | first running setter point place =>
    rcases finished with gone | passed
    · exact Bool.noConfusion (running.symm.trans gone)
    · rw [passed setter] at place
      cases place
  | linked running setter place waiting linked =>
    rcases finished with gone | passed
    · exact Bool.noConfusion (running.symm.trans gone)
    · have alone : ∀ thread, thread = setter := by
        intro thread
        by_contra different
        exact waiting_inside (waiting thread different) (passed thread)
      have one : n = 1 := by
        have single : Fintype.card (Fin n) = 1 := Fintype.card_eq_one_iff.mpr ⟨setter, alone⟩
        rwa [Fintype.card_fin] at single
      exact iff_of_true ⟨running, passed, linked.connected, linked.once⟩ one
  | again running setter second different point place =>
    rcases finished with gone | passed
    · exact Bool.noConfusion (running.symm.trans gone)
    · rw [passed second] at place
      cases place
  | exited gone setter second different =>
    have several : n ≠ 1 := by
      rintro rfl
      exact different (Subsingleton.elim second setter)
    exact iff_of_false (fun succeeded => Bool.noConfusion (succeeded.running.symm.trans gone))
      several

end Runs

/-- The steps of the first analyzer, with a version reply of one byte. -/
def firstSetup {n : Nat} (thread : Fin n) : List (Label n) :=
  List.replicate 6 ⟨thread, false, 3, []⟩ ++
    ⟨thread, false, 0, [1]⟩ :: ⟨thread, false, 1, []⟩ :: List.replicate 2 ⟨thread, false, 0, []⟩

/-- The steps of another one, to the end of the process. -/
def secondSetup {n : Nat} (thread : Fin n) : List (Label n) :=
  List.replicate 4 ⟨thread, false, 0, []⟩

/-- The law at work for one analyzer: its setup succeeds. -/
theorem setups_succeed_single : ∃ state : State 1,
    Finished state ∧ (Succeeded state ↔ 1 = 1) := by
  obtain ⟨state, completed, passed⟩ : ∃ state : State 1,
      (system [(suricataTag, bytesOf "/run/s")]).follow (firstSetup 0) initial = some state ∧
        state.threads 0 = .outside () := ⟨_, rfl, rfl⟩
  have reached : (system [(suricataTag, bytesOf "/run/s")]).Reaches Whole state :=
    (System.Reaches.initial rfl).followed _ state (by decide) completed
  have finished : Finished state := .inr fun thread => by
    rwa [Subsingleton.elim thread 0]
  exact ⟨state, finished, setups_succeed_iff (by decide) (by decide) reached finished⟩

/-- With two analyzers the second setup finds the socket connected, fails, and ends the process. -/
theorem second_setup_fails : ¬ ∀ (n : Nat) (tag path : List Byte) (state : State n), 0 < n →
    strcasecmp tag suricataTag = 0 → (system [(tag, path)]).Reaches Whole state →
      Finished state → Succeeded state := by
  intro claimed
  obtain ⟨state, completed, gone⟩ : ∃ state : State 2,
      (system [(suricataTag, bytesOf "/run/s")]).follow (firstSetup 0 ++ secondSetup 1) initial =
        some state ∧ state.exited = true := ⟨_, rfl, rfl⟩
  have reached : (system [(suricataTag, bytesOf "/run/s")]).Reaches Whole state :=
    (System.Reaches.initial rfl).followed _ state (by decide) completed
  have succeeded := claimed 2 suricataTag _ state (by decide) (by decide) reached (.inl gone)
  exact Bool.noConfusion (succeeded.running.symm.trans gone)

end Dragonfly.ResponderSetup
