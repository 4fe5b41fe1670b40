import Dragonfly.CommandChannel

/-!
# A connection the peer has reset

`suricata_command` would reconnect if the result of a failed `send` were `ECONNRESET`, but
that result is -1, and the error number is in `errno`. So the process stays with its socket,
on which every later `send` fails as well. Nor would the call of `suricata_reconnect` help:
`suricata_initialize` only makes a socket when there is none, and a `connect` on one that
was connected before fails.

The model has a `send` on a lost connection return -1. The process does not ignore `SIGPIPE`,
the line that would is commented out, and `send` is called without `MSG_NOSIGNAL`; so outside
a program that ignores the signal itself, a `send` that finds the connection closed ends the
whole process. No command is sent again in that case either.
-/

namespace Dragonfly.ConnectionReset

open CommandSocket CommandChannel

/-- The command socket was connected, and the peer has reset the connection. -/
structure Lost (room : Nat) (state : State) : Prop where
  responders : state.process.responders = responderInitialize
  socket : 0 ≤ state.process.socket
  path : state.process.path ≠ none
  reset : state.process.connection = .reset
  plain : Plain room state.call

/-- The runs behind the reset: the connection is lost, and nothing was issued on it yet. -/
def system (room : Nat) : System State Label where
  start state := Lost room state ∧ state.results = []
  next := next room

/-- The server is there: it accepts new connections, and no call fails for another reason. -/
def Available (_ : State) : Label → Prop
  | .step answers => answers.failure = false
  | _ => True

instance : ∀ state label, Decidable (Available state label)
  | _, .event _ _ => .isTrue trivial
  | _, .step answers => inferInstanceAs (Decidable (answers.failure = false))
  | _, .reset => .isTrue trivial

section Runs

variable {room : Nat} {state after : State}

/-- On a connection the peer has reset there is nothing to send on, and nothing that could be
read. -/
theorem Lost.disconnected (lost : Lost room state) (incoming : List Byte) :
    state.process.connection ≠ .connected incoming := by
  intro connected
  rw [lost.reset] at connected
  cases connected

/-- A step of a call ends it with an error. -/
theorem step_fails {answers : Answers} (lost : Lost room state)
    (moved : next room state (.step answers) = some after) :
    after = { state with call := none, results := state.results ++ [⟨-1, []⟩] } := by
  have plain := lost.plain
  generalize place : state.call = call at plain
  cases plain with
  | idle => simp [next, place] at moved
  | send command =>
    rw [send_failed place (.inl lost.disconnected)] at moved
    exact (Option.some.inj moved).symm
  | read =>
    have unread : next room state (.step answers) =
        some { state with call := none, results := state.results ++ [⟨-1, []⟩] } := by
      simp [next, place, suricataCommand, Process.perform, lost.reset, State.continued]
    rw [unread] at moved
    exact (Option.some.inj moved).symm

/-- A step leaves the connection as it is, and every call that ends has failed. -/
theorem step_lost {label : Label} (lost : Lost room state)
    (failed : ∀ returned ∈ state.results, returned.n = -1)
    (moved : next room state label = some after) :
    Lost room after ∧ ∀ returned ∈ after.results, returned.n = -1 := by
  have longer : ∀ returned ∈ state.results ++ [⟨-1, []⟩], returned.n = -1 := by
    intro returned member
    rcases List.mem_append.mp member with earlier | last
    · exact failed returned earlier
    · rw [List.mem_singleton.mp last]
  cases label with
  | reset => simp [next, lost.reset] at moved
  | step answers =>
    obtain rfl := step_fails lost moved
    exact ⟨⟨lost.responders, lost.socket, lost.path, lost.reset, .idle⟩, longer⟩
  | event tag command =>
    cases place : state.call with
    | some point => simp [next, place] at moved
    | none =>
      simp only [next, place] at moved
      obtain rfl := Option.some.inj moved
      rw [responderEvent]
      split
      · exact ⟨⟨lost.responders, lost.socket, lost.path, lost.reset, .send command⟩, failed⟩
      · exact ⟨⟨lost.responders, lost.socket, lost.path, lost.reset, .idle⟩, longer⟩

/-- Once the peer has reset the connection, every command fails for good: each one that is
issued ends with its first step, in an error. -/
theorem commands_fail_behind_reset (reached : (system room).Reachable state) :
    (∀ returned ∈ state.results, returned.n = -1) ∧
      ∀ (tag command : List Byte) (answers : Answers), strcasecmp tag suricataTag = 0 →
        state.call = none →
          (system room).follow [.event tag command, .step answers] state =
            some { state with results := state.results ++ [⟨-1, []⟩] } := by
  have holds : Lost room state ∧ ∀ returned ∈ state.results, returned.n = -1 := by
    refine System.Reaches.invariant reached
      (fun state => Lost room state ∧ ∀ returned ∈ state.results, returned.n = -1) ?_ ?_
    · rintro state ⟨lost, empty⟩
      exact ⟨lost, by simp [empty]⟩
    · exact fun before label after holds _ moved => step_lost holds.1 holds.2 moved
  obtain ⟨lost, failed⟩ := holds
  refine ⟨failed, fun tag command answers named idle => ?_⟩
  have known : findsResponder state.process.responders tag = true := by
    rw [lost.responders]
    exact (finds_suricata_iff tag).mpr named
  have issued : (system room).next state (.event tag command) =
      some { state with call := some (.send command (room + 1)) } := by
    simp [system, next, idle, responderEvent, known, State.continued]
  have ended : (system room).next { state with call := some (.send command (room + 1)) }
      (.step answers) =
        some { state with call := none, results := state.results ++ [⟨-1, []⟩] } :=
    @send_failed room { state with call := some (.send command (room + 1)) } answers command rfl
      (.inl lost.disconnected)
  rw [System.follow, issued, Option.bind_some, System.follow, ended, Option.bind_some,
    System.follow, idle]

end Runs

/-- The responder was set up, and the peer has reset the connection. -/
def resetState : State :=
  { ready with process := { ready.process with connection := .reset } }

/-- The law at work for one command: it is issued behind the reset and returns an error. -/
theorem commands_fail_behind_reset_once : ∃ state : State, state.results = [⟨-1, []⟩] ∧
    ∀ returned ∈ state.results, returned.n = -1 := by
  obtain ⟨state, completed, results⟩ : ∃ state,
      (system 2047).follow [.event suricataTag [97], .step ⟨false, 0, []⟩] resetState =
        some state ∧ state.results = [⟨-1, []⟩] := ⟨_, rfl, rfl⟩
  have started : (system 2047).Reachable resetState :=
    System.Reaches.initial ⟨⟨rfl, by decide, by decide, rfl, .idle⟩, rfl⟩
  exact ⟨state, results,
    (commands_fail_behind_reset (System.Reachable.followed started _ state completed)).1⟩

/-- Even where the server accepts new connections and nothing else fails, the first command
behind the reset returns an error. -/
theorem reset_not_recovered : ¬ ∀ state, (system 2047).Reaches Available state →
    ∀ returned ∈ state.results, returned.n = 0 := by
  intro claimed
  obtain ⟨state, completed, results⟩ : ∃ state,
      (system 2047).follow [.event suricataTag [97], .step ⟨false, 0, []⟩] resetState =
        some state ∧ state.results = [⟨-1, []⟩] := ⟨_, rfl, rfl⟩
  have started : (system 2047).Reaches Available resetState :=
    System.Reaches.initial ⟨⟨rfl, by decide, by decide, rfl, .idle⟩, rfl⟩
  have reached := started.followed _ state (by decide) completed
  have succeeded := claimed state reached ⟨-1, []⟩ (by rw [results]; exact List.mem_cons_self)
  exact absurd succeeded (by decide)

end Dragonfly.ConnectionReset
