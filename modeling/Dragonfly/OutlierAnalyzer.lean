import Dragonfly.DomainFeatures
import Mathlib.Algebra.Order.Group.Unbundled.Abs
import Mathlib.Logic.Function.Basic

/-!
# The outlier analyzer

`example-outlier.lua` keeps two estimates in Redis, one of the median of the bytes of a flow
and one of the median of their deviations from it. Redis returns a number as it was stored;
what is stored of a number is a parameter. Counts and everything Lua computes are exact, and
commands do not fail; a flow has finite counters, and with them a finite total. What
`cjson.decode` returns is given as far as the script reads it; no result stands for an error.
The number of packets, which is computed and not used, is left out.
-/

namespace Dragonfly.OutlierAnalyzer

open DomainFeatures

/-! ## Numbers -/

/-- `left ~= right`; what is not a number differs from everything, from itself as well. -/
def differs (left right : Number) : Bool :=
  match left, right with
  | some x, some y => x ≠ y
  | _, _ => true

/-- The comparison `left < right`, which does not hold of what is not a number. -/
def less (left right : Number) : Bool :=
  match left, right with
  | some x, some y => x < y
  | _, _ => false

/-- The number `-number`, which has no value where the number has none. -/
def negative (number : Number) : Number := number.map fun x => -x

/-- The function `math.abs`, which has no value where the number has none. -/
def absolute (number : Number) : Number := number.map fun x => |x|

/-! ## Redis -/

/-- The fields of a hash in Redis: the last value, the median, the rate and the count. -/
structure Hash where
  current : Number
  median : Number
  learningRate : Number
  count : Nat

/-- The hashes of Redis under their keys; a key that was never set has none. -/
abbrev Redis := String → Option Hash

/-- The key `mad_id .. ":median"`, under which the median of the totals is kept. -/
def medianKey : String := "tot_bytes_mad:median"

/-- The key `mad_id .. ":deviation"`, under which the median of the deviations is kept. -/
def deviationKey : String := "tot_bytes_mad:deviation"

/-- A hash without values, as `setup` leaves it: only the rate is there, and the count is zero. -/
def unset (learningRate : ℚ) : Hash := ⟨none, none, some learningRate, 0⟩

/-- The rate that `setup` of the script gives to both estimates. -/
def scriptRate : ℚ := 1 / 20

/-- The function `setup`, with any rate in place of the one of the script: both keys get a hash
without values. -/
def setup (learningRate : ℚ) (redis : Redis) : Redis :=
  Function.update (Function.update redis medianKey (some (unset learningRate))) deviationKey
    (some (unset learningRate))

section Script

variable (stored : ℚ → ℚ)

/-- The function `update_median`, which moves the median under a key towards a value and returns
the median it found there. Everything, the count too, is stored only where the value is not that
median. -/
def updateMedian (fullKey : String) (value : Number) (redis : Redis) :
    Option (Number × Redis) := do
  let values ← redis fullKey
  let newCount := values.count + 1
  if differs value values.median then
    let median :=
      if differs values.median values.median then value
      else values.median.plus
        (if less values.median value then values.learningRate else negative values.learningRate)
    pure (values.median, Function.update redis fullKey
      (some ⟨value.map stored, median.map stored, values.learningRate, newCount⟩))
  else pure (values.median, redis)

/-- The counters of a flow. Both are finite: events with a numeral beyond the range of a
double, which `cjson.decode` reads as an infinity, are left out. -/
structure Flow where
  bytesToclient : ℚ
  bytesToserver : ℚ

/-- An event; a field that is missing, or no string, differs from every string. -/
structure Eve where
  eventType : Option String
  proto : Option String
  flow : Option Flow

/-- The analytics that the script adds to an event, under the key `bytes_mad`. -/
structure BytesMad where
  since : ℚ
  n : Nat
  median : ℚ
  medianDeviation : ℚ
  deviation : ℚ
  multiple : ℚ
  source : String

/-- What is sent to the log: the message, or the event with the analytics. -/
inductive Output where
  | message (msg : List Byte)
  | event (eve : Eve) (bytesMad : BytesMad)

/-- The condition of `loop`: the event is a flow, and its protocol is TCP or UDP. -/
def isFlow (eve : Eve) : Bool :=
  eve.eventType = some "flow" ∧ (eve.proto = some "TCP" ∨ eve.proto = some "UDP")

/-- The local `total_bytes` of the script: the bytes in both directions, added up. -/
def totalBytes (flow : Flow) : Number := some (flow.bytesToclient + flow.bytesToserver)

/-- A number in the analytics: infinity and what is not a number are shown as `-1`. -/
def shown (number : Number) : ℚ := number.getD (-1)

variable (decode : List Byte → Option Eve)

/-- The function `loop` for a message: a flow is sent to the log with its analytics, and any
other event as it came. -/
def loop (msg : List Byte) (redis : Redis) : Option (Output × Redis) := do
  let eve ← decode msg
  if isFlow eve then
    let flow ← eve.flow
    let (lastMedian, redis) ← updateMedian stored medianKey (totalBytes flow) redis
    let absDeviation := absolute (lastMedian.plus (negative (totalBytes flow)))
    let (lastMedianDeviation, redis) ← updateMedian stored deviationKey absDeviation redis
    let multiple := absDeviation.over lastMedianDeviation
    let values ← redis medianKey
    pure (.event eve ⟨0, values.count, shown lastMedian, shown lastMedianDeviation,
      shown absDeviation, shown multiple, "example-outlier.lua"⟩, redis)
  else pure (.message msg, redis)

/-! ## The hash behind a call -/

/-- The hash behind a value: what `update_median` stores, or the hash as it was where the value
is its median. -/
def Hash.updated (hash : Hash) (value : Number) : Hash :=
  if differs value hash.median then
    ⟨value.map stored,
      (if differs hash.median hash.median then value
        else hash.median.plus
          (if less hash.median value then hash.learningRate
            else negative hash.learningRate)).map stored,
      hash.learningRate, hash.count + 1⟩
  else hash

/-- `update_median` returns the median it found and changes the hash under its key. -/
theorem update_median_updates {fullKey : String} {redis : Redis} {hash : Hash}
    (held : redis fullKey = some hash) (value : Number) :
    updateMedian stored fullKey value redis =
      some (hash.median, Function.update redis fullKey (some (hash.updated stored value))) := by
  rw [updateMedian, held]
  by_cases other : differs value hash.median = true
  · simp [Hash.updated, other]
  · have unchanged : Function.update redis fullKey (some hash) = redis := by
      rw [← held, Function.update_eq_self]
    simp [Hash.updated, other, unchanged]

/-- A value other than the median is counted, and only such a value. -/
theorem updated_count (hash : Hash) (value : Number) :
    (hash.updated stored value).count =
      if differs value hash.median then hash.count + 1 else hash.count := by
  rw [Hash.updated]
  split
  · rfl
  · rfl

/-! ## A call of `loop` -/

/-- The deviation of a total from the median it meets. -/
def deviationOf (hash : Hash) (total : Number) : Number :=
  absolute (hash.median.plus (negative total))

/-- The hashes behind the total of a flow: both medians were updated, that of the deviations by
the deviation of this total. -/
def redisAfter (redis : Redis) (hash other : Hash) (total : Number) : Redis :=
  Function.update (Function.update redis medianKey (some (hash.updated stored total)))
    deviationKey (some (other.updated stored (deviationOf hash total)))

/-- Behind a total the hash of the median is the one that was updated by this total. -/
theorem redis_after_median (redis : Redis) (hash other : Hash) (total : Number) :
    redisAfter stored redis hash other total medianKey = some (hash.updated stored total) := by
  have apart : medianKey ≠ deviationKey := by decide
  rw [redisAfter, Function.update_of_ne apart, Function.update_self]

/-- Behind a total the hash of the deviations is the one that was updated by the deviation of
this total. -/
theorem redis_after_deviation (redis : Redis) (hash other : Hash) (total : Number) :
    redisAfter stored redis hash other total deviationKey =
      some (other.updated stored (deviationOf hash total)) := by
  rw [redisAfter, Function.update_self]

/-- The analytics of a total: the medians it meets, and the count behind it. -/
def analyticsOf (hash other : Hash) (total : Number) : BytesMad where
  since := 0
  n := (hash.updated stored total).count
  median := shown hash.median
  medianDeviation := shown other.median
  deviation := shown (deviationOf hash total)
  multiple := shown ((deviationOf hash total).over other.median)
  source := "example-outlier.lua"

variable {decode}

/-- The result of `loop` for a flow whose two hashes are there: the event with its analytics,
and the updated hashes. -/
theorem loop_flow {msg : List Byte} {redis : Redis} {eve : Eve} {flow : Flow}
    {hash other : Hash} (decoded : decode msg = some eve) (flows : isFlow eve = true)
    (present : eve.flow = some flow) (median : redis medianKey = some hash)
    (deviation : redis deviationKey = some other) :
    loop stored decode msg redis = some
      (.event eve (analyticsOf stored hash other (totalBytes flow)),
        redisAfter stored redis hash other (totalBytes flow)) := by
  have apart : deviationKey ≠ medianKey := by decide
  have first := update_median_updates stored median (totalBytes flow)
  have kept : Function.update redis medianKey (some (hash.updated stored (totalBytes flow)))
      deviationKey = some other := by
    rw [Function.update_of_ne apart, deviation]
  have second := update_median_updates stored kept (deviationOf hash (totalBytes flow))
  have counted := redis_after_median stored redis hash other (totalBytes flow)
  simp only [loop, decoded, flows, present, first, Option.bind_eq_bind, Option.bind_some,
    if_true]
  rw [← deviationOf, second, Option.bind_some, ← redisAfter]
  dsimp only
  rw [counted]
  rfl

/-- The result of `loop` for any other event: the message is sent on as it is, and no hash
changes. -/
theorem loop_other {msg : List Byte} {eve : Eve} (decoded : decode msg = some eve)
    (other : isFlow eve = false) (redis : Redis) :
    loop stored decode msg redis = some (.message msg, redis) := by
  simp [loop, decoded, other]

end Script

end Dragonfly.OutlierAnalyzer
