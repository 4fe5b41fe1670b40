import Dragonfly.Config
import Dragonfly.DoubleRounding
import Dragonfly.Tallies

/-!
# The features of a domain

`transform` of the two domain scripts and the helpers of `feature.lua`. Hardly any variable
of these functions is local, so each function takes and returns the global variables it
uses; what a function returns comes with them. A global nobody has set yet has some value
here, except for the two percentages, where it makes a difference. No result stands for an
error: a missing table entry is used as a string.

A number is rational or has no value. What the scripts calculate with is a parameter, the
arithmetic of the Lua runtime: its operations may round as those of doubles do, or be exact,
and its logarithm is that of the C library. The order in which `pairs` goes through a table
belongs to the runtime as well, since a sum that is rounded depends on it. The counts of a
table are small integers, on which all arithmetics agree, so they are natural numbers. The
message about a domain without a top-level domain is left out.
-/

namespace Dragonfly.DomainFeatures

open Config DoubleRounding Tallies

/-- A number of Lua as the rational it is, or no value where it is an infinity or not a number. -/
abbrev Number := Option ℚ

/-- A count as a number of Lua: all counts are exact, because they are small integers. -/
def Number.ofCount (count : Nat) : Number := some count

/-- The number one for a condition that holds and zero for one that does not, as the scripts
write `cond and 1 or 0`. -/
def Number.flag (condition : Prop) [Decidable condition] : Number :=
  if condition then some 1 else some 0

/-- The exact sum `left + right`, which has no value where one of the two has none. -/
def Number.plus (left right : Number) : Number := left.bind fun x => right.map fun y => x + y

/-- The exact product `left * right`, which has no value where one of the two has none. -/
def Number.times (left right : Number) : Number := left.bind fun x => right.map fun y => x * y

/-- The exact quotient `left / right`, which has no value where the divisor is zero. -/
def Number.over (left right : Number) : Number :=
  left.bind fun x => right.bind fun y => if y = 0 then none else some (x / y)

/-- An arithmetic the scripts may run on: `+`, `*`, `/` and `math.log` of Lua numbers. -/
structure Arithmetic where
  plus : Number → Number → Number
  times : Number → Number → Number
  divide : Number → Number → Number
  log : Number → Number

/-- The arithmetic without rounding, for a given logarithm: every operation has the exact
result. -/
def exact (log : Number → Number) : Arithmetic := ⟨Number.plus, Number.times, Number.over, log⟩

/-- The arithmetic of doubles: every sum, product and quotient is the double nearest to the
exact one. The sign of a zero is left out, and a number too large for a double has no value. -/
def doubles (log : Number → Number) : Arithmetic where
  plus left right := (left.plus right).bind rounded
  times left right := (left.times right).bind rounded
  divide left right := (left.over right).bind rounded
  log := log

/-- The order in which `pairs` visits a table of counts, given its entries in the order their
keys were first stored: it visits each entry once. -/
structure Traversal where
  pairs : List (Byte × Nat) → List (Byte × Nat)
  permuted : ∀ table, (pairs table).Perm table

/-- The order in which the keys were first stored, which is one of the possible orders. -/
def Traversal.stored : Traversal := ⟨id, List.Perm.refl⟩

/-- What the Lua runtime decides about the features: its arithmetic and its traversals. -/
structure Runtime extends Arithmetic, Traversal

/-- A runtime that does not round and visits tables in a given order; it is the one in which
claims about exact numbers are stated. -/
def exactRuntime (log : Number → Number) (traversal : Traversal) : Runtime :=
  ⟨exact log, traversal⟩

/-- The runtime of the scripts, whose numbers are doubles; the logarithm of the C library and
the order of `pairs` are given. -/
def doubleRuntime (log : Number → Number) (traversal : Traversal) : Runtime :=
  ⟨doubles log, traversal⟩

/-- The byte of the character `"."`, which separates the labels of a domain. -/
def dot : Byte := 46

/-- What `csplit` returns: the table of the labels, under `parts`, and their number. -/
structure Splits where
  parts : List (List Byte)
  num : Nat
deriving Inhabited

/-- What `parse` returns: the top-level domain, the labels of second and third level, and the
last label. -/
structure Parts where
  tld : List Byte
  second : List Byte
  third : List Byte
  last : List Byte
deriving Inhabited, DecidableEq

/-- A table of `countAllChars`: the counts of the characters, and the entry `distinct`. -/
structure CountTable where
  chars : List (Byte × Nat)
  distinct : Option Nat
deriving Inhabited

/-- The global variables of `countAllChars`: the table it fills and returns, and the scratch
variables of its loop. -/
structure Counting where
  charCounts : CountTable
  numDistinctChars : Nat
  currChar : Byte
  currCount : Nat
deriving Inhabited

/-- The global variables of `shannonEntropy` and `metricEntropy`: the length and the sum, and
what a round of the loop works with. -/
structure Entropy where
  strLength : Nat
  entropy : Number
  fraction : Number
  entContrib : Number
deriving Inhabited

/-- The global variables of `parse`: the parts it has found, the number of labels of the
top-level domain, and the table it returns. -/
structure Parsing where
  tld : List Byte
  second : List Byte
  third : List Byte
  last : List Byte
  tldlength : Nat
  retval : Parts
deriving Inhabited

/-- All global variables: `result` is that of `csplit` and `total` that of `countDigits`;
`transform` has set the others. -/
structure Globals where
  result : Splits
  counting : Counting
  total : Nat
  entropy : Entropy
  parsing : Parsing
  lowerdomain : List Byte
  splits : Splits
  splitdomain : List (List Byte)
  numparts : Nat
  parts : Parts
  newrow : List Number
  fullCharCounts : CountTable
  distinctChars : Nat
  digitCount : Nat
  numDashes : Nat
  length : Nat
  percentDistinct : Option Number
  percentDigits : Option Number
deriving Inhabited

/-! ## Splitting -/

/-- The matches of `gmatch` for a run of characters other than the separator. A run is
followed by the empty match at the separator, or at the end. -/
def gmatch (sep : Byte) : List Byte → List Byte → List (List Byte)
  | run, [] => (if run = [] then [] else [run]) ++ [[]]
  | run, byte :: rest =>
      if byte = sep then (if run = [] then [] else [run]) ++ [] :: gmatch sep [] rest
      else gmatch sep (run ++ [byte]) rest

/-- A round of the loop of `csplit`, which changes the table `ret` and the index `n`: a word is
stored unless the place is taken, and an empty word moves the index on. -/
def csplitStep (locals : List (List Byte) × Nat) (w : List Byte) : List (List Byte) × Nat :=
  (if locals.2 ≤ locals.1.length then locals.1 else locals.1 ++ [w],
    if w = [] then locals.2 + 1 else locals.2)

/-- The function `csplit`. What it returns is also its global `result`, a table of the labels
with their number. -/
def csplit (str : List Byte) (sep : Byte) : Splits :=
  let (ret, n) := (gmatch sep [] str).foldl csplitStep ([], 1)
  ⟨ret, n - 1⟩

/-! ## Counting -/

/-- A round of the loop of `countAllChars`: the count of the character is raised, or it is a new
one and has the count one. -/
def countStep (globals : Counting) (currChar : Byte) : Counting :=
  let globals := { globals with currChar := currChar, currCount := 0 }
  let globals :=
    match globals.charCounts.chars.lookup globals.currChar with
    | some count => { globals with currCount := count + 1 }
    | none => { globals with numDistinctChars := globals.numDistinctChars + 1, currCount := 1 }
  { globals with charCounts :=
      { globals.charCounts with
        chars := store globals.currChar globals.currCount globals.charCounts.chars } }

/-- The function `countAllChars`, which fills and returns its global table. Both calls of a
script therefore return the same table. -/
def countAllChars (s : List Byte) (globals : Counting) : Counting :=
  let globals := { globals with charCounts := ⟨[], none⟩, numDistinctChars := 0 }
  let globals := s.foldl countStep globals
  { globals with charCounts :=
    { globals.charCounts with distinct := some globals.numDistinctChars } }

/-- The function `countChar`, which looks up a character; one that is not in the table has the
count zero. -/
def countChar (countTable : CountTable) (charToCount : Byte) : Nat :=
  (countTable.chars.lookup charToCount).getD 0

/-- The digits `countDigits` looks up. Its loop goes from `1` to `9` and leaves the zero out. -/
def countedDigits : List Byte := [49, 50, 51, 52, 53, 54, 55, 56, 57]

/-- A round of the loop of `countDigits`, which adds the count of a digit that is in the table. -/
def digitStep (countTable : CountTable) (total : Nat) (digit : Byte) : Nat :=
  match countTable.chars.lookup digit with
  | some count => total + count
  | none => total

/-- The function `countDigits`, which returns its global `total`, the counts of the nine digits
added up. -/
def countDigits (countTable : CountTable) : Nat := countedDigits.foldl (digitStep countTable) 0

/-! ## Entropy -/

section Entropy

variable (runtime : Runtime)

/-- A round of the loop of `shannonEntropy`, for an entry of the table other than
`distinct`. -/
def entropyStep (globals : Entropy) (entry : Byte × Nat) : Entropy :=
  let globals := { globals with
    fraction := runtime.divide (.ofCount entry.2) (.ofCount globals.strLength) }
  let globals := { globals with
    entContrib := runtime.times globals.fraction
      (runtime.divide (runtime.log globals.fraction) (runtime.log (.ofCount 2))) }
  { globals with entropy := runtime.plus globals.entropy globals.entContrib }

/-- The function `shannonEntropy`: the contributions of the characters added up in the order of
`pairs`, starting at zero, and the sign of the sum changed. -/
def shannonEntropy (origString : List Byte) (charCounts : CountTable) (globals : Entropy) :
    Entropy × Number :=
  let globals := { globals with strLength := origString.length, entropy := .ofCount 0 }
  let globals := (runtime.pairs charCounts.chars).foldl (entropyStep runtime) globals
  (globals, runtime.times globals.entropy (some (-1)))

/-- The function `metricEntropy`: the Shannon entropy divided by the length of the string,
whatever this length is. -/
def metricEntropy (origString : List Byte) (charCounts : CountTable) (globals : Entropy) :
    Entropy × Number :=
  let globals := { globals with strLength := origString.length }
  let (globals, shannon) := shannonEntropy runtime origString charCounts globals
  (globals, runtime.divide shannon (.ofCount globals.strLength))

end Entropy

/-! ## The parts of a domain -/

/-- The entry of a table at an index, which starts at one. -/
def luaIndex {Value : Type} (table : List Value) (index : Nat) : Option Value :=
  if index = 0 then none else table[index - 1]?

/-- The text `"arpa"`, the top-level domain of reverse names. -/
def arpa : List Byte := bytesOf "arpa"

/-- The text `"in-addr"`, the label in front of `"arpa"` in reverse names of IPv4 addresses. -/
def inAddr : List Byte := bytesOf "in-addr"

/-- The function `parse`, which returns its global `retval`. A name of one label and a reverse
name have no parts but the last label. -/
def parse (splitdomain : List (List Byte)) (numparts : Nat) (globals : Parsing) :
    Option Parsing := do
  let globals := { globals with tld := [], second := [], third := [], last := [] }
  let globals ←
    if 2 ≤ numparts ∧ ¬ (2 < numparts ∧ luaIndex splitdomain numparts = some arpa ∧
        luaIndex splitdomain (numparts - 1) = some inAddr) then do
      let globals := { globals with tldlength := 1 }
      let top ← luaIndex splitdomain numparts
      let next ← luaIndex splitdomain (numparts - 1)
      let globals :=
        if 2 < numparts ∧ top.length = 2 ∧ next.length ≤ 3 then
          { globals with tldlength := 2, tld := next ++ dot :: top }
        else { globals with tld := top }
      let second ← luaIndex splitdomain (numparts - globals.tldlength)
      let globals := { globals with second := second }
      if globals.tldlength + 1 < numparts then do
        let third ← luaIndex splitdomain (numparts - (globals.tldlength + 1))
        pure { globals with third := third }
      else pure globals
    else pure globals
  let last ← luaIndex splitdomain numparts
  pure { globals with retval := ⟨globals.tld, globals.second, globals.third, last⟩ }

/-! ## The row -/

/-- The entries of the row about the labels, the first fourteen. -/
def labelEntries (lowerdomain : List Byte) (numparts : Nat) (parts : Parts) : List Number :=
  [.ofCount numparts,
    .ofCount parts.tld.length,
    .ofCount parts.second.length,
    .ofCount parts.third.length,
    .flag (0 < parts.third.length),
    .flag ((3 < numparts ∧ parts.tld.length ≤ 3) ∨ 4 < numparts),
    .flag (parts.tld.length < 3),
    .flag (bytesOf ".edu" <:+: lowerdomain),
    .flag (bytesOf ".gov" <:+: lowerdomain ∨ bytesOf ".govt" <:+: lowerdomain ∨
      bytesOf ".gouv" <:+: lowerdomain),
    .flag (parts.tld = bytesOf "com"),
    .flag (parts.tld = bytesOf "net"),
    .flag (parts.tld = bytesOf "org"),
    .flag (parts.tld = bytesOf "info"),
    .flag (parts.tld = bytesOf "biz")]

/-- The entries of the row about the characters, from the fifteenth on, without the last one,
which is the entropy. -/
def countEntries (distinctChars digitCount numDashes : Nat) (parts : Parts)
    (percentDistinct percentDigits : Option Number) : List Number :=
  [.ofCount distinctChars,
    .ofCount digitCount,
    .flag (0 < digitCount),
    .ofCount numDashes,
    .flag (0 < numDashes),
    .ofCount parts.last.length,
    percentDistinct.getD (.ofCount 0),
    percentDigits.getD (.ofCount 0)]

/-- The byte of the character `"-"`, which one of the entries of the row counts. -/
def dash : Byte := 45

/-- The percentages, which are only set for a second-level label that is not empty. -/
def setPercentages (runtime : Runtime) (globals : Globals) : Globals :=
  if 0 < globals.parts.second.length then
    { globals with
      percentDistinct :=
        some (runtime.divide (.ofCount globals.distinctChars) (.ofCount globals.parts.second.length))
      percentDigits :=
        some (runtime.divide (.ofCount globals.digitCount) (.ofCount globals.parts.second.length)) }
  else globals

/-- The function `transform` of the two domain scripts: it splits and parses the domain, counts
the characters of the domain and of its second-level label, and returns the row with the global
variables as they are then. -/
def transform (runtime : Runtime) (input : List Byte) (globals : Globals) :
    Option (Globals × List Number) := do
  let globals := { globals with lowerdomain := input }
  let globals := { globals with result := csplit globals.lowerdomain dot }
  let globals := { globals with splits := globals.result }
  let globals := { globals with
    splitdomain := globals.splits.parts, numparts := globals.splits.num }
  let parsing ← parse globals.splitdomain globals.numparts globals.parsing
  let globals := { globals with parsing := parsing, parts := parsing.retval }
  let globals := { globals with
    newrow := labelEntries globals.lowerdomain globals.numparts globals.parts }
  -- both calls fill the global `charCounts`, which is what the first assignment sets as well
  let globals := { globals with counting := countAllChars globals.parts.second globals.counting }
  let globals := { globals with counting := countAllChars globals.lowerdomain globals.counting }
  let globals := { globals with fullCharCounts := globals.counting.charCounts }
  let distinctChars ← globals.counting.charCounts.distinct
  let globals := { globals with distinctChars := distinctChars }
  let globals := { globals with total := countDigits globals.counting.charCounts }
  let globals := { globals with digitCount := globals.total }
  let globals := { globals with
    numDashes := countChar globals.counting.charCounts dash, length := 1 }
  let globals := setPercentages runtime globals
  let globals := { globals with
    newrow := globals.newrow ++ countEntries globals.distinctChars globals.digitCount
      globals.numDashes globals.parts globals.percentDistinct globals.percentDigits }
  let (entropy, metric) :=
    metricEntropy runtime globals.lowerdomain globals.fullCharCounts globals.entropy
  let globals := { globals with entropy := entropy, newrow := globals.newrow ++ [metric] }
  pure (globals, globals.newrow)

end Dragonfly.DomainFeatures
