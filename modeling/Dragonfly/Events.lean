import Dragonfly.Config

/-!
# The calls a script makes: `analyze_event` and `output_event`

A call finds its destination by scanning a list for a tag, ignoring case, and
sends a message to the queue found there. Lua and the message encoder are a
parameter: which values are strings, how values are packed and what is unpacked.
A call may also raise an error, or run past the end of a list, which is
undefined.
-/

namespace Dragonfly.Events

open Config

/-- What the engine uses of Lua and of `mp_pack` and `mp_unpack`. Only strings and
numbers have a string; unpacking may raise an error. -/
structure Lua (Value : Type) where
  toString : Value → Option (List Byte)
  toInteger : Value → Int
  pack : List Value → List Byte
  unpack : List Byte → Option (List Value)

/-- An error raised in the calling script: one with a text, or one about an argument of the
call. -/
inductive LuaError where
  | message (text : String)
  | badArgument (index : Nat)

/-- How a call from a script ends: it returns, it raises an error in the script, or it does what
the language leaves undefined. -/
inductive Call (Result : Type) where
  | returned (result : Result)
  | raised (error : LuaError)
  | undefined

/-- What a scan finds. A scan past the list, or a comparison with a missing tag, is
undefined. -/
inductive Search where
  | found (index : Nat)
  | absent
  | undefined
deriving DecidableEq

/-- The scan for a tag. The first tag of a row ends the scan when it is missing, the
second is compared. -/
def search (name : List Byte) :
    Nat → List (Option (List Byte) × Option (List Byte)) → Search
  | _, [] => .undefined
  | _, (none, _) :: _ => .absent
  | _, (some _, none) :: _ => .undefined
  | index, (some _, some tag) :: rest =>
      if strcasecmp name tag = 0 then .found index else search name (index + 1) rest

/-- A message on its way to a queue; nothing is sent for an unknown tag. -/
abbrev Sending := Option (Option Queue × List Byte)

section Calls

variable {Value : Type} (lua : Lua Value) (configuration : Configuration)

/-- `analyze_event`: the packed arguments go to the queue of the analyzer. -/
def analyzeEvent (arguments : List Value) : Call Sending :=
  match arguments with
  | [name, _] =>
      match lua.toString name with
      | none => .raised (.badArgument 1)
      | some text =>
          match search text 0 (configuration.analyzers.map fun analyzer =>
              (analyzer.tag, analyzer.tag)) with
          | .found index =>
              .returned (some ((configuration.analyzers[index]?).bind AnalyzerConfig.queue,
                lua.pack arguments))
          | .absent => .returned none
          | .undefined => .undefined
  | _ => .raised (.message "expecting exactly 2 arguments")

/-- `output_event`: the string goes to the queue of the output; a value that is no
string is sent as nothing. The internal outputs are passed over. -/
def outputEvent (arguments : List Value) : Call Sending :=
  match arguments with
  | [name, message] =>
      match lua.toString name with
      | none => .raised (.badArgument 1)
      | some text =>
          match search text 2 ((configuration.outputs.drop 2).map fun output =>
              (output.tag, output.tag)) with
          | .found index =>
              .returned (some ((configuration.outputs[index]?).bind OutputConfig.queue,
                (lua.toString message).getD []))
          | .absent => .returned none
          | .undefined => .undefined
  | _ => .raised (.message "expecting exactly 2 arguments")

end Calls

/-- A scan finds the first row whose tag is the name. -/
theorem search_found {name : List Byte} {rows : List (Option (List Byte) × Option (List Byte))}
    (start : Nat) {position : Nat} {guard tag : List Byte}
    (earlier : ∀ before, before < position → ∃ listed other,
      rows[before]? = some (some listed, some other) ∧ strcasecmp name other ≠ 0)
    (here : rows[position]? = some (some guard, some tag)) (named : strcasecmp name tag = 0) :
    search name start rows = .found (start + position) := by
  induction position generalizing rows start with
  | zero =>
    cases rows with
    | nil => simp at here
    | cons row rest =>
      obtain rfl : row = (some guard, some tag) := by simpa using here
      rw [search, if_pos named, Nat.add_zero]
  | succ position inductionHypothesis =>
    cases rows with
    | nil => simp at here
    | cons row rest =>
      obtain ⟨listed, other, first, different⟩ := earlier 0 (Nat.succ_pos _)
      obtain rfl : row = (some listed, some other) := by simpa using first
      have rest := inductionHypothesis (start + 1)
        (fun before inside => by
          simpa using earlier (before + 1) (Nat.succ_lt_succ inside))
        (by simpa using here)
      rw [search, if_neg different, rest]
      congr 1
      omega

/-- What a scan finds is a row whose tag is the name. -/
theorem search_sound {name : List Byte} {rows : List (Option (List Byte) × Option (List Byte))}
    {start index : Nat} (found : search name start rows = .found index) :
    ∃ position guard tag, index = start + position ∧
      rows[position]? = some (some guard, some tag) ∧ strcasecmp name tag = 0 := by
  induction rows generalizing start with
  | nil => cases found
  | cons row rest inductionHypothesis =>
    obtain ⟨_ | guard, _ | tag⟩ := row
    · cases found
    · cases found
    · cases found
    · rw [search] at found
      split at found
      · rename_i named
        cases found
        exact ⟨0, guard, tag, rfl, rfl, named⟩
      · obtain ⟨position, listed, other, numbered, stored, named⟩ := inductionHypothesis found
        exact ⟨position + 1, listed, other, by omega, stored, named⟩

/-- The tag of the analyzer at a position of `g_analyzer_list`, where there is one. -/
def analyzerTag (configuration : Configuration) (position : Nat) : Option (List Byte) :=
  (configuration.analyzers[position]?).bind AnalyzerConfig.tag

/-- The queue that the thread of the analyzer at a position reads in `lua_analyzer_loop`. -/
def analyzerQueue (configuration : Configuration) (position : Nat) : Option Queue :=
  (configuration.analyzers[position]?).bind AnalyzerConfig.queue

/-- No two analyzers have the same tag when the case of letters is ignored, as the search for a
tag ignores it. -/
def DifferentTags (configuration : Configuration) : Prop :=
  ∀ first second left right, first ≠ second → analyzerTag configuration first = some left →
    analyzerTag configuration second = some right → strcasecmp left right ≠ 0

/-- Only the places of the list need to be compared. -/
instance (configuration : Configuration) : Decidable (DifferentTags configuration) :=
  decidable_of_iff
    (∀ first, first < configuration.analyzers.length → ∀ second,
      second < configuration.analyzers.length → first ≠ second →
        ∀ left ∈ analyzerTag configuration first, ∀ right ∈ analyzerTag configuration second,
          strcasecmp left right ≠ 0) <| by
    constructor
    · intro compared first second left right apart here there
      have inside (position : Nat) (tag : List Byte)
          (tagged : analyzerTag configuration position = some tag) :
          position < configuration.analyzers.length := by
        obtain ⟨_, stored, _⟩ := Option.bind_eq_some_iff.mp tagged
        exact (List.getElem?_eq_some_iff.mp stored).1
      exact compared first (inside first left here) second (inside second right there) apart left
        here right there
    · intro different first _ second _ apart left here right there
      exact different first second left right apart here there

/-- Two tags that `strcasecmp` finds equal to one name are equal to each other, so one name
never leads to two different tags. -/
theorem strcasecmp_joined {name left right : List Byte} (toLeft : strcasecmp name left = 0)
    (toRight : strcasecmp name right = 0) : strcasecmp left right = 0 := by
  rw [strcasecmp_zero_iff] at toLeft toRight ⊢
  exact toLeft.symm.trans toRight

/-- An analyzer with a tag is one of those counted. -/
theorem tagged_inside {configuration : Configuration} {count : Nat}
    (started : Started configuration count) {position : Nat} {tag : List Byte}
    (tagged : analyzerTag configuration position = some tag) : position < count := by
  by_contra outside
  have length := started.length
  rw [analyzerTag] at tagged
  by_cases listed : position < maxAnalyzerStreams
  · rw [started.vacant position (Nat.le_of_not_lt outside) listed] at tagged
    cases tagged
  · rw [List.getElem?_eq_none (by omega)] at tagged
    cases tagged

/-- The queue of a counted analyzer is the one made for it. -/
theorem analyzer_queue_own {configuration : Configuration} {count : Nat}
    (started : Started configuration count) {position : Nat} (inside : position < count) :
    analyzerQueue configuration position = some (.analyzer position) := by
  obtain ⟨analyzer, _, stored, _, queue⟩ := started.configured position inside
  rw [analyzerQueue, stored]
  exact queue

end Dragonfly.Events
