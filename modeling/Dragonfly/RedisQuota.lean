import Dragonfly.Transitions
import Mathlib.Data.List.Basic
import Mathlib.Logic.Function.Basic

/-!
# The quota of Redis connections

A Lua state, the number `lhiredis_connect` keeps in its registry, and the connections it
made. The number is stored under the calling thread, so a coroutine has its own, which is
zero to begin with. It grows with each connection and never shrinks: neither `close` nor the
collector changes it. So it is the number of open connections for as long as one thread makes
all of them and none of them goes away.
-/

namespace Dragonfly.RedisQuota

/-- The constant `MAX_REDIS_CONNECTIONS`: how many connections the quota of a state allows. -/
def maxRedisConnections : Nat := 3

/-- A context that `redisConnectUnix` or `redisConnect` has returned, with its error and the
text for it. -/
structure Context where
  err : Nat
  errstr : Option String

/-- A `luahiredis_Connection`: its context, a closed one, or none any more. -/
inductive Connection where
  | opened
  | closed
  | collected
deriving DecidableEq

/-- What `lhiredis_connect` returns: a refusal for the quota, an error of the connection, or a
new connection. -/
inductive Result where
  | exceeded (message : String) (code : Nat)
  | missing (message : String)
  | failed (message : String) (code : Nat)
  | connection (index : Nat)

/-- The entries of the registry under threads, and the connections in the order they were
made. -/
structure State where
  registry : Nat → Option Nat
  connections : List Connection

/-- How many of the connections that were made are open, which is what the quota is meant to
bound. -/
def State.opened (state : State) : Nat := state.connections.count .opened

/-- The function `push_error`, which returns the text of the error of a context and its code. -/
def pushError (context : Context) : Result :=
  .failed (context.errstr.getD "(lua-hiredis: no error message)") context.err

/-- `lhiredis_connect`, called by a thread; the attempt to connect gives a context or none. -/
def lhiredisConnect (state : State) (thread : Nat) (pContext : Option Context) : State × Result :=
  -- without an entry the value is nil, which is zero as a number
  let numConnections := (state.registry thread).getD 0
  if maxRedisConnections ≤ numConnections then
    (state, .exceeded "exceeded the number of allowable redis connections" 3)
  else
    match pContext with
    | none => (state, .missing "failed to create hiredis context")
    | some context =>
        if context.err ≠ 0 then (state, pushError context)
        else
          (⟨Function.update state.registry thread (some (numConnections + 1)),
            state.connections ++ [.opened]⟩, .connection state.connections.length)

/-- The function `lconn_close`, which is also the finaliser `lconn_gc`: an open connection is
closed, and nothing is counted down. -/
def lconnClose : Connection → Connection
  | .opened => .closed
  | other => other

/-- The registry behind `luaopen_hiredis`, where the thread that called it has the count zero. -/
def luaopenHiredis (thread : Nat) : State :=
  ⟨Function.update (fun _ => none) thread (some 0), []⟩

/-- A call of `connect`, a call of `close` for a connection, or its collection. -/
inductive Label where
  | connect (thread : Nat) (pContext : Option Context)
  | close (index : Nat)
  | collect (index : Nat)

/-- Change a connection. One that was collected is out of reach. -/
def change (state : State) (index : Nat) (changed : Connection → Connection) : Option State :=
  match state.connections[index]? with
  | none => none
  | some .collected => none
  | some connection =>
      some { state with connections := state.connections.set index (changed connection) }

/-- One call; the collector calls `lconn_gc` before the connection is gone. -/
def next (state : State) : Label → Option State
  | .connect thread pContext => some (lhiredisConnect state thread pContext).1
  | .close index => change state index lconnClose
  | .collect index => change state index fun _ => .collected

/-- The runs of the calls that threads of one Lua state make behind `luaopen_hiredis`. -/
def system (main : Nat) : System State Label where
  start state := state = luaopenHiredis main
  next := next

/-- A call of `lhiredis_connect` that is refused because the quota is used up. -/
def Refused (result : Result) : Prop := ∃ message code, result = .exceeded message code

/-- The quota is accurate: no more connections are open than are allowed, a call is refused
only when that many are open, and the registry counts them. -/
structure Accurate (state : State) : Prop where
  bounded : state.opened ≤ maxRedisConnections
  refused : ∀ thread pContext, Refused (lhiredisConnect state thread pContext).2 →
    state.opened = maxRedisConnections
  counted : ∀ thread count, state.registry thread = some count → count = state.opened

/-- The attempt to connect gave a context without an error. -/
def connects (pContext : Option Context) : Bool := pContext.any fun context => context.err = 0

/-- The thread that opened the library makes all connections, and none of them goes away
while it is open. -/
def Kept (main : Nat) (state : State) : Label → Prop
  | .connect thread pContext => connects pContext → thread = main
  | .close index => state.connections[index]? ≠ some .opened
  | .collect index => state.connections[index]? ≠ some .opened

/-! ## One call -/

/-- The state behind a new connection: the count of the thread has grown by one, and the
connection is open. -/
def made (state : State) (thread : Nat) : State :=
  ⟨Function.update state.registry thread (some ((state.registry thread).getD 0 + 1)),
    state.connections ++ [.opened]⟩

/-- A call of `connect` is refused for the quota, or fails, or makes a connection. -/
theorem connect_cases (state : State) (thread : Nat) (pContext : Option Context) :
    (maxRedisConnections ≤ (state.registry thread).getD 0 ∧
        (lhiredisConnect state thread pContext).1 = state) ∨
      ¬ Refused (lhiredisConnect state thread pContext).2 ∧
        (connects pContext = false ∧ (lhiredisConnect state thread pContext).1 = state ∨
          connects pContext = true ∧ (state.registry thread).getD 0 < maxRedisConnections ∧
            (lhiredisConnect state thread pContext).1 = made state thread) := by
  by_cases full : maxRedisConnections ≤ (state.registry thread).getD 0
  · have refused : lhiredisConnect state thread pContext = (state, _) := if_pos full
    exact .inl ⟨full, by rw [refused]⟩
  · have below : (state.registry thread).getD 0 < maxRedisConnections := Nat.lt_of_not_le full
    have attempted : lhiredisConnect state thread pContext = _ := if_neg full
    rw [attempted]
    right
    cases pContext with
    | none =>
      refine ⟨?_, .inl ⟨rfl, rfl⟩⟩
      rintro ⟨_, _, same⟩
      cases same
    | some context =>
      by_cases good : context.err = 0
      · refine ⟨?_, .inr ⟨by simp [connects, good], below, by simp [good, made]⟩⟩
        rintro ⟨_, _, same⟩
        simp [good] at same
      · refine ⟨?_, .inl ⟨by simp [connects, good], by simp [good]⟩⟩
        rintro ⟨_, _, same⟩
        simp [good, pushError] at same

/-- A refused call found the full number under its thread. -/
theorem refused_full {state : State} {thread : Nat} {pContext : Option Context}
    (refused : Refused (lhiredisConnect state thread pContext).2) :
    maxRedisConnections ≤ (state.registry thread).getD 0 := by
  rcases connect_cases state thread pContext with ⟨full, _⟩ | ⟨admitted, _⟩
  · exact full
  · exact absurd refused admitted

/-- Behind a new connection the number of its thread is one more, and other threads keep theirs. -/
theorem made_registry (state : State) (thread other : Nat) :
    (made state thread).registry other =
      if other = thread then some ((state.registry thread).getD 0 + 1)
      else state.registry other :=
  Function.update_apply _ _ _ _

/-- With a new connection there is one open connection more than before. -/
theorem made_opened (state : State) (thread : Nat) :
    (made state thread).opened = state.opened + 1 := by
  rw [State.opened, made, List.count_append, List.count_singleton_self, State.opened]

/-- The connections behind one that was opened are those behind one more. -/
theorem opened_set {connections : List Connection} {index : Nat} {before : Connection}
    (found : connections[index]? = some before) {after : Connection} (gone : after ≠ .opened) :
    (connections.set index after).count .opened + (if before = .opened then 1 else 0) =
      connections.count .opened := by
  induction connections generalizing index with
  | nil => simp at found
  | cons first rest inductionHypothesis =>
    cases index with
    | zero =>
      obtain rfl : first = before := by simpa using found
      simp [List.count_cons, gone]
    | succ index =>
      have behind := inductionHypothesis (by simpa using found)
      rw [List.set_cons_succ, List.count_cons, List.count_cons]
      omega

/-- A connection that is closed or collected is not open any more, and nothing else changes. -/
theorem change_cases {state after : State} {index : Nat} {changed : Connection → Connection}
    (gone : ∀ connection, changed connection ≠ .opened)
    (moved : change state index changed = some after) :
    after.registry = state.registry ∧
      (state.connections[index]? = some .opened ∧ after.opened + 1 = state.opened ∨
        state.connections[index]? ≠ some .opened ∧ after.opened = state.opened) := by
  rw [change] at moved
  cases found : state.connections[index]? with
  | none => simp [found] at moved
  | some before =>
    have counted := opened_set found (gone before)
    cases before with
    | collected => simp [found] at moved
    | opened =>
      obtain rfl : _ = after := by simpa [found] using moved
      exact ⟨rfl, .inl ⟨rfl, counted⟩⟩
    | closed =>
      obtain rfl : _ = after := by simpa [found] using moved
      exact ⟨rfl, .inr ⟨by simp, counted⟩⟩

/-! ## Runs -/

/-- The state where one thread made all connections and none of them is gone. -/
structure Exact (main : Nat) (state : State) : Prop where
  own : state.registry main = some state.opened
  others : ∀ thread, thread ≠ main → state.registry thread = none
  bounded : state.opened ≤ maxRedisConnections

/-- Where one thread has made all connections and none of them is gone, the quota is accurate:
it refuses only where so many are open. -/
theorem exact_accurate {main : Nat} {state : State} (exact : Exact main state) :
    Accurate state := by
  constructor
  · exact exact.bounded
  · intro thread pContext refused
    have full := refused_full refused
    by_cases same : thread = main
    · rw [same, exact.own] at full
      exact Nat.le_antisymm exact.bounded full
    · rw [exact.others thread same] at full
      exact absurd full (by decide)
  · intro thread count held
    by_cases same : thread = main
    · rw [same, exact.own] at held
      exact (Option.some.inj held).symm
    · rw [exact.others thread same] at held
      cases held

/-- Behind `luaopen_hiredis` no connection was made yet, so one thread has made them all and
none is gone. -/
theorem opened_exact (main : Nat) : Exact main (luaopenHiredis main) := by
  constructor
  · simp [luaopenHiredis, State.opened]
  · intro thread other
    simp [luaopenHiredis, other]
  · exact Nat.zero_le _

/-- The number behind a connection that this thread makes is right, and the one behind a
connection that another thread makes is not. -/
theorem made_exact {main thread : Nat} {state : State} (exact : Exact main state)
    (below : (state.registry thread).getD 0 < maxRedisConnections) :
    (thread = main → Exact main (made state thread)) ∧
      (thread ≠ main → ¬ Accurate (made state thread)) := by
  constructor
  · rintro rfl
    rw [exact.own] at below
    constructor
    · rw [made_opened, made_registry, if_pos rfl, exact.own]
      rfl
    · intro other apart
      rw [made_registry, if_neg apart, exact.others other apart]
    · rw [made_opened]
      exact below
  · intro other accurate
    have stays : (made state thread).registry main = some state.opened := by
      rw [made_registry, if_neg (Ne.symm other), exact.own]
    have counted := accurate.counted main _ stays
    rw [made_opened] at counted
    omega

/-- The number is right behind a connection that goes away closed, and not behind one that
goes away open. -/
theorem change_exact {main index : Nat} {state after : State}
    {changed : Connection → Connection} (exact : Exact main state)
    (gone : ∀ connection, changed connection ≠ .opened)
    (moved : change state index changed = some after) :
    (state.connections[index]? ≠ some .opened → Exact main after) ∧
      (¬ state.connections[index]? ≠ some .opened → ¬ Accurate after) := by
  obtain ⟨registry, ⟨opened, fewer⟩ | ⟨other, unchanged⟩⟩ := change_cases gone moved
  · refine ⟨fun closed => absurd opened closed, fun _ accurate => ?_⟩
    have counted := accurate.counted main _ (registry ▸ exact.own)
    omega
  · refine ⟨fun _ => ?_, fun still => absurd other still⟩
    constructor
    · rw [registry, unchanged, exact.own]
    · rw [registry]
      exact exact.others
    · rw [unchanged]
      exact exact.bounded

/-- A call keeps the number right where the guard admits it, and nowhere else. -/
theorem next_exact {main : Nat} {state after : State} {label : Label} (exact : Exact main state)
    (moved : next state label = some after) :
    (Kept main state label → Exact main after) ∧ (¬ Kept main state label → ¬ Accurate after) := by
  cases label with
  | connect thread pContext =>
    obtain rfl : _ = after := Option.some.inj moved
    rcases connect_cases state thread pContext with
      ⟨full, same⟩ | ⟨_, ⟨failed, same⟩ | ⟨connected, below, same⟩⟩
    · have own : thread = main := by
        by_contra other
        rw [exact.others thread other] at full
        exact absurd full (by decide)
      rw [same]
      exact ⟨fun _ => exact, fun broken => absurd (fun _ => own) broken⟩
    · have kept : Kept main state (.connect thread pContext) := fun connected => by
        rw [failed] at connected
        cases connected
      rw [same]
      exact ⟨fun _ => exact, fun broken => absurd kept broken⟩
    · obtain ⟨right, wrong⟩ := made_exact exact below
      rw [same]
      refine ⟨fun kept => right (kept connected), fun broken => wrong fun own => ?_⟩
      exact broken fun _ => own
  | close index =>
    have closed : ∀ connection, lconnClose connection ≠ .opened := by
      intro connection
      cases connection <;> decide
    exact change_exact exact closed moved
  | collect index => exact change_exact exact (fun _ => by decide) moved

/-- In a run that completes, the quota is accurate in every state exactly when the thread that
opened the library makes all connections and none of them goes away while it is open. -/
theorem quota_accurate_iff (main : Nat) (labels : List Label) (last : State)
    (completed : (system main).follow labels (luaopenHiredis main) = some last) :
    (system main).Along Accurate labels (luaopenHiredis main) ↔
      (system main).Admits (Kept main) labels (luaopenHiredis main) :=
  System.along_iff_admits (fun _ => exact_accurate)
    (fun _ _ _ exact admitted moved => (next_exact exact moved).1 admitted)
    (fun _ _ _ exact rejected moved => (next_exact exact moved).2 rejected)
    (opened_exact main) completed

/-- A context without an error, as a successful connection returns it. -/
def good : Option Context := some ⟨0, none⟩

instance (main : Nat) (state : State) (label : Label) : Decidable (Kept main state label) :=
  match label with
  | .connect thread pContext => inferInstanceAs (Decidable (connects pContext → thread = main))
  | .close index => inferInstanceAs (Decidable (state.connections[index]? ≠ some .opened))
  | .collect index => inferInstanceAs (Decidable (state.connections[index]? ≠ some .opened))

/-- Three connections of one thread, a fourth that is refused, and one of a coroutine that
fails. -/
theorem quota_accurate_filled : ∃ last,
    (system 0).follow [.connect 0 good, .connect 0 good, .connect 1 none, .connect 0 good,
      .connect 0 good] (luaopenHiredis 0) = some last ∧
    (system 0).Along Accurate [.connect 0 good, .connect 0 good, .connect 1 none,
      .connect 0 good, .connect 0 good] (luaopenHiredis 0) := by
  obtain ⟨last, completed⟩ : ∃ last,
      (system 0).follow [.connect 0 good, .connect 0 good, .connect 1 none, .connect 0 good,
        .connect 0 good] (luaopenHiredis 0) = some last := ⟨_, rfl⟩
  exact ⟨last, completed, (quota_accurate_iff 0 _ last completed).mpr (by decide)⟩

/-- Behind three connections that were closed the next one is refused, with none open; and
behind three of the thread that opened the library a coroutine makes a fourth. -/
theorem quota_drifts :
    (∃ state, (system 0).follow [.connect 0 good, .close 0, .connect 0 good, .collect 1,
        .connect 0 good, .close 2] (luaopenHiredis 0) = some state ∧
      Refused (lhiredisConnect state 0 good).2 ∧ state.opened = 0) ∧
      ∃ state, (system 0).follow [.connect 0 good, .connect 0 good, .connect 0 good,
        .connect 1 good] (luaopenHiredis 0) = some state ∧
          state.opened = maxRedisConnections + 1 :=
  ⟨⟨_, rfl, ⟨_, _, rfl⟩, rfl⟩, _, rfl, rfl⟩

end Dragonfly.RedisQuota
