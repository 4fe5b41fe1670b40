import Dragonfly.OutlierAnalyzer
import Dragonfly.StepEstimate
import Dragonfly.Transitions

/-!
# Runs of the outlier analyzer

Behind one value after the other the median under a key is the estimate that moves by steps,
so it stays near the values. The count is only stored together with a new median, so it is
the number of events for as long as no total is the median it meets.
-/

namespace Dragonfly.OutlierRuns

open DomainFeatures OutlierAnalyzer StepEstimate

/-! ## The median -/

/-- One call of `update_median` after the other for a key, with what they return. -/
def updates (stored : ℚ → ℚ) (fullKey : String) :
    List ℚ → Redis → Option (Redis × List Number)
  | [], redis => some (redis, [])
  | value :: rest, redis => do
      let (returned, redis) ← updateMedian stored fullKey (some value) redis
      let (redis, others) ← updates stored fullKey rest redis
      pure (redis, returned :: others)

/-- The hash behind these values: its median is their estimate. -/
structure Estimates (rate : ℚ) (seen : List ℚ) (hash : Hash) : Prop where
  median : hash.median = estimate rate seen
  learningRate : hash.learningRate = some rate

/-- The median behind a value is the value, or one step from the median it meets. -/
theorem updated_median {rate : ℚ} {hash : Hash} (rated : hash.learningRate = some rate)
    (value : ℚ) : (hash.updated id (some value)).median =
      some ((hash.median.map fun now => step rate now value).getD value) := by
  obtain ⟨current, median, learningRate, count⟩ := hash
  subst rated
  cases median with
  | none => simp [Hash.updated, differs]
  | some now =>
    by_cases same : value = now
    · simp [Hash.updated, differs, step, same]
    · by_cases below : now < value
      · simp [Hash.updated, differs, step, same, less, below, Number.plus]
      · simp [Hash.updated, differs, step, same, less, below, Number.plus, negative]

/-- A hash that is updated by a value keeps its rate. -/
theorem updated_rate (stored : ℚ → ℚ) (hash : Hash) (value : Number) :
    (hash.updated stored value).learningRate = hash.learningRate := by
  rw [Hash.updated]
  split
  · rfl
  · rfl

/-- If a hash holds the estimate behind some values, then behind one more value it holds the
estimate behind all of them. -/
theorem estimates_updated {rate : ℚ} {seen : List ℚ} {hash : Hash}
    (estimates : Estimates rate seen hash) (value : ℚ) :
    Estimates rate (seen ++ [value]) (hash.updated id (some value)) := by
  constructor
  · rw [updated_median estimates.learningRate, estimates.median, ← estimate_append]
  · rw [updated_rate, estimates.learningRate]

/-- All calls return, and leave the estimate of all values. -/
theorem updates_estimate {rate : ℚ} {fullKey : String} (values : List ℚ) {seen : List ℚ}
    {redis : Redis} {hash : Hash} (held : redis fullKey = some hash)
    (estimates : Estimates rate seen hash) :
    ∃ after returned left, updates id fullKey values redis = some (after, returned) ∧
      after fullKey = some left ∧ Estimates rate (seen ++ values) left := by
  induction values generalizing seen redis hash with
  | nil => exact ⟨redis, [], hash, rfl, held, by rwa [List.append_nil]⟩
  | cons value rest inductionHypothesis =>
    have called := update_median_updates id held (some value)
    obtain ⟨after, others, left, returned, found, behind⟩ := inductionHypothesis
      (Function.update_self fullKey _ redis) (estimates_updated estimates value)
    refine ⟨after, hash.median :: others, left, ?_, found, ?_⟩
    · simp [updates, called, returned]
    · rwa [List.append_assoc] at behind

/-- Behind `setup` both keys have a hash without values, whatever was there before. -/
theorem setup_unset (rate : ℚ) (redis : Redis) {fullKey : String}
    (key : fullKey = medianKey ∨ fullKey = deviationKey) :
    setup rate redis fullKey = some (unset rate) := by
  have apart : medianKey ≠ deviationKey := by decide
  rcases key with rfl | rfl
  · rw [setup, Function.update_of_ne apart, Function.update_self]
  · rw [setup, Function.update_self]

/-- Behind `setup` with a positive rate and any values, the first value is stored as the
median, and a later call leaves a median within one step of the values seen. Each call
returns the median that was stored before, which is not a number for the first. -/
theorem median_in_hull (rate : ℚ) (positive : 0 < rate) (redis : Redis) (fullKey : String)
    (key : fullKey = medianKey ∨ fullKey = deviationKey) (history : List ℚ) (value : ℚ) :
    ∃ before earlier held returned after left median,
      updates id fullKey history (setup rate redis) = some (before, earlier) ∧
      before fullKey = some held ∧
      updateMedian id fullKey (some value) before = some (returned, after) ∧
      after fullKey = some left ∧ left.median = some median ∧
      returned = held.median ∧ (history = [] → returned = none ∧ median = value) ∧
      InHull rate (history ++ [value]) median := by
  have start : Estimates rate [] (unset rate) := ⟨rfl, rfl⟩
  obtain ⟨before, earlier, held, returned, found, behind⟩ :=
    updates_estimate history (setup_unset rate redis key) start
  rw [List.nil_append] at behind
  obtain ⟨median, estimated, inside⟩ := estimate_in_hull positive.le history value
  have updated := estimates_updated behind value
  refine ⟨before, earlier, held, held.median, _, held.updated id (some value), median, returned,
    found, update_median_updates id found (some value), Function.update_self _ _ _,
    updated.median.trans estimated, rfl, ?_, inside⟩
  rintro rfl
  exact ⟨behind.median, (Option.some.inj estimated).symm⟩

/-- Behind 1 and 2 the median is within the rate of the script of them. -/
theorem median_in_hull_second : (0 : ℚ) < scriptRate ∧
    (medianKey = medianKey ∨ medianKey = deviationKey) ∧
    ∃ before earlier held returned after left median,
      updates id medianKey [1] (setup scriptRate fun _ => none) = some (before, earlier) ∧
      before medianKey = some held ∧
      updateMedian id medianKey (some 2) before = some (returned, after) ∧
      after medianKey = some left ∧ left.median = some median ∧
      returned = held.median ∧ InHull scriptRate [1, 2] median := by
  have positive : (0 : ℚ) < scriptRate := by simp [scriptRate]
  obtain ⟨before, earlier, held, returned, after, left, median, first, found, second, stored,
    current, same, _, inside⟩ :=
    median_in_hull scriptRate positive (fun _ => none) medianKey (.inl rfl) [1] 2
  exact ⟨positive, .inl rfl, before, earlier, held, returned, after, left, median, first, found,
    second, stored, current, same, inside⟩

/-! ## The count -/

section Count

variable (stored : ℚ → ℚ) (decode : List Byte → Option Eve)

/-- What Redis holds, how many flows were processed, and the count of the last report. -/
structure Progress where
  redis : Redis
  events : Nat
  reported : Option Nat

/-- One call of `loop` for a message. It counts the flows, and keeps the count that was reported
last. -/
def next (progress : Progress) (msg : List Byte) : Option Progress := do
  let (output, redis) ← loop stored decode msg progress.redis
  match output with
  | .message _ => pure { progress with redis := redis }
  | .event _ bytesMad => pure ⟨redis, progress.events + 1, some bytesMad.n⟩

/-- The runs of the calls of `loop` that come behind `setup`. -/
def system (rate : ℚ) : System Progress (List Byte) where
  start progress := ∃ redis, progress = ⟨setup rate redis, 0, none⟩
  next := next stored decode

/-- The count under the key of the median is the number of flows, and so is the last one that
was reported. -/
structure Counted (progress : Progress) : Prop where
  kept : ∃ hash, progress.redis medianKey = some hash ∧ hash.count = progress.events
  shown : ∀ n ∈ progress.reported, n = progress.events

/-- A message is no flow whose total is the median it meets. -/
def Fresh (progress : Progress) (msg : List Byte) : Prop :=
  ∀ eve ∈ decode msg, isFlow eve → ∀ flow ∈ eve.flow,
    ∀ hash ∈ progress.redis medianKey, differs (totalBytes flow) hash.median

/-- The hash of the deviations is there, and so is that of the median, with the right count. -/
structure Ready (progress : Progress) : Prop where
  counted : Counted progress
  deviation : (progress.redis deviationKey).isSome

variable {stored decode}

/-- The progress behind a flow: the hashes behind its total, one event more, and the count that
was reported. -/
def flowed (stored : ℚ → ℚ) (progress : Progress) (hash other : Hash) (flow : Flow) : Progress :=
  ⟨redisAfter stored progress.redis hash other (totalBytes flow), progress.events + 1,
    some (hash.updated stored (totalBytes flow)).count⟩

/-- A call for a flow processes its total and makes the progress of this flow. -/
theorem next_flow {progress : Progress} {msg : List Byte} {eve : Eve} {flow : Flow}
    {hash other : Hash} (decoded : decode msg = some eve) (flows : isFlow eve = true)
    (present : eve.flow = some flow) (median : progress.redis medianKey = some hash)
    (deviation : progress.redis deviationKey = some other) :
    next stored decode progress msg = some (flowed stored progress hash other flow) := by
  rw [next, loop_flow stored decoded flows present median deviation]
  rfl

/-- A call for a message that is no flow changes neither the hashes nor the counts. -/
theorem next_other {progress : Progress} {msg : List Byte} {eve : Eve}
    (decoded : decode msg = some eve) (apart : isFlow eve = false) :
    next stored decode progress msg = some progress := by
  rw [next, loop_other stored decoded apart]
  rfl

/-- A call that returns is one for a flow or one for another event. -/
theorem next_cases {progress after : Progress} {msg : List Byte} {hash other : Hash}
    (median : progress.redis medianKey = some hash)
    (deviation : progress.redis deviationKey = some other)
    (moved : next stored decode progress msg = some after) :
    ∃ eve, decode msg = some eve ∧
      ((isFlow eve = false ∧ after = progress) ∨
        isFlow eve = true ∧ ∃ flow, eve.flow = some flow ∧
          after = flowed stored progress hash other flow) := by
  cases decoded : decode msg with
  | none => simp [next, loop, decoded] at moved
  | some eve =>
    refine ⟨eve, rfl, ?_⟩
    cases flows : isFlow eve with
    | false =>
      rw [next_other decoded flows] at moved
      exact .inl ⟨rfl, (Option.some.inj moved).symm⟩
    | true =>
      cases present : eve.flow with
      | none => simp [next, loop, decoded, flows, present] at moved
      | some flow =>
        rw [next_flow decoded flows present median deviation] at moved
        exact .inr ⟨rfl, flow, rfl, (Option.some.inj moved).symm⟩

/-- A flow is fresh exactly when its total is not the median it meets. -/
theorem fresh_flow_iff {progress : Progress} {msg : List Byte} {eve : Eve} {flow : Flow}
    {hash : Hash} (decoded : decode msg = some eve) (flows : isFlow eve = true)
    (present : eve.flow = some flow) (median : progress.redis medianKey = some hash) :
    Fresh decode progress msg ↔ differs (totalBytes flow) hash.median = true := by
  constructor
  · exact fun fresh => fresh eve decoded flows flow present hash median
  · intro differ event listed _ counters held met found
    obtain rfl : eve = event := Option.some.inj (decoded.symm.trans listed)
    obtain rfl : flow = counters := Option.some.inj (present.symm.trans held)
    obtain rfl : hash = met := Option.some.inj (median.symm.trans found)
    exact differ

/-- A call keeps the count right where its message is fresh, and nowhere else. -/
theorem next_ready {progress after : Progress} {msg : List Byte} (ready : Ready progress)
    (moved : next stored decode progress msg = some after) :
    (Fresh decode progress msg → Ready after) ∧
      (¬ Fresh decode progress msg → ¬ Counted after) := by
  obtain ⟨hash, median, counted⟩ := ready.counted.kept
  obtain ⟨other, deviation⟩ := Option.isSome_iff_exists.mp ready.deviation
  obtain ⟨eve, decoded, ⟨apart, rfl⟩ | ⟨flows, flow, present, rfl⟩⟩ :=
    next_cases median deviation moved
  · refine ⟨fun _ => ready, fun stale => absurd ?_ stale⟩
    intro event listed flows
    obtain rfl : eve = event := Option.some.inj (decoded.symm.trans listed)
    rw [apart] at flows
    cases flows
  · have count := updated_count stored hash (totalBytes flow)
    have behind := redis_after_median stored progress.redis hash other (totalBytes flow)
    have fresh := fresh_flow_iff decoded flows present median
    constructor
    · intro admitted
      rw [if_pos (fresh.mp admitted), counted] at count
      have deviates := redis_after_deviation stored progress.redis hash other (totalBytes flow)
      refine ⟨⟨⟨_, behind, count⟩, ?_⟩, Option.isSome_of_eq_some deviates⟩
      rintro n ⟨rfl⟩
      exact count
    · intro stale right
      obtain ⟨left, found, same⟩ := right.kept
      obtain rfl : _ = left := Option.some.inj (behind.symm.trans found)
      rw [if_neg (stale ∘ fresh.mpr), counted] at count
      rw [count] at same
      exact absurd same (Nat.ne_of_lt (Nat.lt_succ_self _))

/-- In a run that completes, the count is the number of flows in every state, and the one each
flow reports, exactly when no total is the median it meets. -/
theorem sample_count_iff (stored : ℚ → ℚ) (decode : List Byte → Option Eve) (rate : ℚ)
    (redis : Redis) (messages : List (List Byte)) (last : Progress)
    (completed : (system stored decode rate).follow messages ⟨setup rate redis, 0, none⟩ =
      some last) :
    (system stored decode rate).Along Counted messages ⟨setup rate redis, 0, none⟩ ↔
      (system stored decode rate).Admits (Fresh decode) messages ⟨setup rate redis, 0, none⟩ := by
  have ready : Ready ⟨setup rate redis, 0, none⟩ := by
    refine ⟨⟨⟨unset rate, setup_unset rate redis (.inl rfl), rfl⟩, ?_⟩,
      Option.isSome_of_eq_some (setup_unset rate redis (.inr rfl))⟩
    rintro n ⟨⟩
  exact System.along_iff_admits (fun _ ready => ready.counted)
    (fun _ _ _ ready admitted moved => (next_ready ready moved).1 admitted)
    (fun _ _ _ ready rejected moved => (next_ready ready moved).2 rejected) ready completed

end Count

section Examples

/-- A message read as a flow of as many bytes as it has, which the examples decode. -/
def sized (msg : List Byte) : Option Eve :=
  some ⟨some "flow", some "TCP", some ⟨msg.length, 0⟩⟩

/-- The state behind `setup` with the rate of the script, where the examples begin. -/
def begun : Progress := ⟨setup scriptRate fun _ => none, 0, none⟩

/-- The total of a flow of one byte, in the form the script computes. -/
def oneByte : Number := totalBytes ⟨(1 : Nat), 0⟩

/-- The hash of the median behind the first flow, whose total is one byte. -/
def firstHash : Hash := (unset scriptRate).updated id oneByte

/-- The hash of the deviations behind the first flow, whose total is one byte. -/
def firstDeviation : Hash := (unset scriptRate).updated id (deviationOf (unset scriptRate) oneByte)

/-- The state behind the first flow, whose total is one byte. -/
def once : Progress := flowed id begun (unset scriptRate) (unset scriptRate) ⟨(1 : Nat), 0⟩

/-- Behind the first flow the hash of the median is the updated one. -/
theorem once_median : once.redis medianKey = some firstHash :=
  redis_after_median id begun.redis (unset scriptRate) (unset scriptRate) oneByte

/-- Behind `setup` the hash of the median has no values. -/
theorem begun_median : begun.redis medianKey = some (unset scriptRate) :=
  setup_unset scriptRate (fun _ => none) (.inl rfl)

/-- The first call, for a flow of one byte, leads to the state behind the first flow. -/
theorem begun_once : next id sized begun [7] = some once :=
  next_flow rfl rfl rfl begun_median (setup_unset scriptRate (fun _ => none) (.inr rfl))

/-- Another flow behind the first one leads to the progress this flow makes. -/
theorem two_flows (msg : List Byte) :
    (system id sized scriptRate).follow [[7], msg] begun =
      some (flowed id once firstHash firstDeviation ⟨msg.length, 0⟩) := by
  have deviation : once.redis deviationKey = some firstDeviation :=
    redis_after_deviation id begun.redis (unset scriptRate) (unset scriptRate) oneByte
  have second : next id sized once msg =
      some (flowed id once firstHash firstDeviation ⟨msg.length, 0⟩) :=
    next_flow rfl rfl rfl once_median deviation
  simp [System.follow, system, begun_once, second]

/-- Behind flows of one byte and of two the count is two. -/
theorem sample_count_two : ∃ last,
    (system id sized scriptRate).follow [[7], [7, 7]] begun = some last ∧
      (system id sized scriptRate).Along Counted [[7], [7, 7]] begun := by
  have completed := two_flows [7, 7]
  refine ⟨_, completed,
    (sample_count_iff id sized scriptRate (fun _ => none) [[7], [7, 7]] _ completed).mpr ?_⟩
  have larger : differs (totalBytes ⟨(2 : Nat), 0⟩) firstHash.median = true := by
    simp [firstHash, oneByte, Hash.updated, differs, totalBytes, unset]
  refine ⟨(fresh_flow_iff rfl rfl rfl begun_median).mpr rfl, fun after stepped => ?_⟩
  obtain rfl : once = after := Option.some.inj (begun_once.symm.trans stepped)
  exact ⟨(fresh_flow_iff rfl rfl rfl once_median).mpr larger, fun _ _ => trivial⟩

/-- Behind two flows of one byte each the count is one: the second total is the median it meets,
and is not counted. -/
theorem repeated_total_not_counted : ∃ last,
    (system id sized scriptRate).follow [[7], [7]] begun = some last ∧ last.events = 2 ∧
      last.reported = some 1 ∧ ∃ hash, last.redis medianKey = some hash ∧ hash.count = 1 := by
  have counted : (firstHash.updated id oneByte).count = 1 := by
    have same : differs oneByte firstHash.median = false := by
      simp [firstHash, oneByte, Hash.updated, differs, totalBytes, unset]
    rw [updated_count, same]
    rfl
  exact ⟨_, two_flows [7], rfl, congrArg some counted, _,
    redis_after_median id once.redis firstHash firstDeviation oneByte, counted⟩

end Examples

end Dragonfly.OutlierRuns
