import Dragonfly.JsonAccepting
import Dragonfly.JsonWriting

/-!
# Decoded values that are encoded again

A decoded value is a string, a number, a boolean, `null` or a table of such values: an array has
them from index 1 on, an object under different strings. It can be encoded exactly if its numbers
are finite, and then the encoding means the value with its numbers rounded to the digits that are
written; integers with no more digits come back as they were. The strings are no longer than the
text they were decoded from, and the encoder has room for those of a text below 2^27 bytes.
-/

namespace Dragonfly.Json

open FloatingPoint JsonGrammar LuaValues Numerals

/-! ## Decoded values -/

/-- The encoder can count the room for a string: six bytes for each of its own, and the two
quotes, are no more than an `int` holds. -/
def Roomy (text : List Byte) : Prop := text.length * 6 + 2 ≤ intMax

/-- A value that is no table, a string being one the encoder has room for. -/
inductive Plain : Value → Prop
  | string (text : List Byte) (roomy : Roomy text) : Plain (.string text)
  | number (value : Double) : Plain (.number value)
  | boolean (value : Bool) : Plain (.boolean value)
  | null : Plain .null

/-- The table that has these values under these strings, as the decoder makes one of an object. -/
def named (pairs : List (List Byte × Value)) : Entries :=
  pairs.map fun pair => (.string pair.1, pair.2)

/-- The values the decoder makes, with so many tables inside each other. -/
def Parsed : Nat → Value → Prop
  | 0, value => Plain value
  | room + 1, value =>
      Plain value ∨
      (∃ values, value = .table (numbered 1 values) ∧ values.length ≤ intMax ∧
        ∀ element ∈ values, Parsed room element) ∨
      ∃ pairs, value = .table (named pairs) ∧ (pairs.map Prod.fst).Nodup ∧
        ∀ pair ∈ pairs, Roomy pair.1 ∧ Parsed room pair.2

/-- A value that is no table is one with any room. -/
theorem Plain.parsed {value : Value} (plain : Plain value) (room : Nat) : Parsed room value := by
  cases room with
  | zero => exact plain
  | succ room => exact .inl plain

/-- A decoded value is not nil: `null` is decoded to the null pointer. -/
theorem parsed_present {room : Nat} {value : Value} (parsed : Parsed room value) :
    value.isNil = false := by
  have plain (plain : Plain value) : value.isNil = false := by
    cases plain <;> rfl
  cases room with
  | zero => exact plain parsed
  | succ room =>
    obtain found | ⟨values, rfl, _⟩ | ⟨pairs, rfl, _⟩ := parsed
    · exact plain found
    · rfl
    · rfl

/-- A string names an entry of an object exactly if it is its key. -/
theorem named_any (pairs : List (List Byte × Value)) (key : List Byte) :
    ((named pairs).any fun entry => sameKey (.string key) entry.1) = true ↔
      key ∈ pairs.map Prod.fst := by
  simp only [named, List.any_map, List.any_eq_true, Function.comp_apply, sameKey, beq_iff_eq,
    List.mem_map]
  constructor
  · rintro ⟨pair, listed, rfl⟩
    exact ⟨pair, listed, rfl⟩
  · rintro ⟨pair, listed, rfl⟩
    exact ⟨pair, listed, rfl⟩

/-- A value under a new string is put behind the others. -/
theorem named_fresh {pairs : List (List Byte × Value)} {key : List Byte} {value : Value}
    (present : value.isNil = false) (fresh : key ∉ pairs.map Prod.fst) :
    rawSet (named pairs) (.string key) value = named (pairs ++ [(key, value)]) := by
  rw [rawSet, present, if_neg Bool.false_ne_true, if_neg (by rwa [named_any]), named, named,
    List.map_append]
  rfl

/-- A value stored under a string is put behind the others or in the place of one. -/
theorem named_stored {pairs : List (List Byte × Value)} (different : (pairs.map Prod.fst).Nodup)
    (key : List Byte) {value : Value} (present : value.isNil = false) :
    ∃ stored, rawSet (named pairs) (.string key) value = named stored ∧
      (stored.map Prod.fst).Nodup ∧ ∀ pair ∈ stored, pair ∈ pairs ∨ pair = (key, value) := by
  by_cases there : key ∈ pairs.map Prod.fst
  · refine ⟨pairs.map fun pair => if key = pair.1 then (pair.1, value) else pair, ?_, ?_, ?_⟩
    · rw [rawSet, present, if_neg Bool.false_ne_true, if_pos ((named_any pairs key).mpr there),
        named, named, List.map_map, List.map_map]
      apply List.map_congr_left
      intro pair _
      simp only [Function.comp_apply, sameKey, beq_iff_eq]
      split <;> rfl
    · have same : (pairs.map fun pair => if key = pair.1 then (pair.1, value) else pair).map
          Prod.fst = pairs.map Prod.fst := by
        rw [List.map_map]
        apply List.map_congr_left
        intro pair _
        rw [Function.comp_apply]
        split <;> rfl
      rw [same]
      exact different
    · intro pair listed
      obtain ⟨old, among, rfl⟩ := List.mem_map.mp listed
      split
      · rename_i same
        rw [same]
        exact .inr rfl
      · exact .inl among
  · refine ⟨pairs ++ [(key, value)], named_fresh present there, ?_, ?_⟩
    · rw [List.map_append, List.nodup_append]
      refine ⟨different, List.nodup_singleton _, ?_⟩
      rintro left listed right last rfl
      obtain rfl : left = key := List.mem_singleton.mp last
      exact there listed
    · intro pair listed
      obtain among | last := List.mem_append.mp listed
      · exact .inl among
      · rw [List.mem_singleton.mp last]
        exact .inr rfl

/-- The pairs of an object have different keys in its table. -/
theorem object_named (pairs : List (List Byte × Value)) {holds : List Byte × Value → Prop}
    (each : ∀ pair ∈ pairs, pair.2.isNil = false ∧ holds pair) :
    ∃ stored, objectTable pairs = named stored ∧ (stored.map Prod.fst).Nodup ∧
      ∀ pair ∈ stored, holds pair := by
  induction pairs using List.reverseRecOn with
  | nil => exact ⟨[], rfl, .nil, fun pair listed => (List.not_mem_nil listed).elim⟩
  | append_singleton pairs pair inductionHypothesis =>
    obtain ⟨before, same, different, all⟩ :=
      inductionHypothesis fun other listed => each other (List.mem_append_left _ listed)
    obtain ⟨present, here⟩ := each pair (List.mem_append_right _ List.mem_cons_self)
    obtain ⟨stored, after, apart, origin⟩ := named_stored different pair.1 present
    refine ⟨stored, ?_, apart, fun other listed => ?_⟩
    · rw [objectTable, List.foldl_append] at *
      rw [same]
      exact after
    · obtain old | new := origin other listed
      · exact all other old
      · rw [new]
        exact here

/-- If a string has room, so has every string that is no longer. -/
theorem Roomy.shorter {text other : List Byte} (roomy : Roomy text)
    (shorter : other.length ≤ text.length) : Roomy other := by
  rw [Roomy] at roomy ⊢
  omega

/-- The pairs of an object whose values are those the decoder makes. -/
theorem members_parsed {room : Nat} {inner : List Byte} {pairs : List (List Byte × Value)}
    (each : ∀ text value, Roomy text → Spells lenient room text value → Parsed room value)
    (short : Roomy inner)
    (content : (Blanks inner ∧ pairs = []) ∨ Members lenient (Spells lenient room) inner pairs) :
    ∃ stored, objectTable pairs = named stored ∧ (stored.map Prod.fst).Nodup ∧
      ∀ pair ∈ stored, Roomy pair.1 ∧ Parsed room pair.2 := by
  apply object_named
  intro pair listed
  obtain ⟨_, rfl⟩ | members := content
  · cases listed
  · obtain ⟨name, inside, within, spelled⟩ := members.each pair listed
    exact ⟨(spells_present spelled).1, short.shorter name,
      each inside pair.2 (short.shorter within) spelled⟩

/-- A value the dialect spells is one the decoder makes. -/
theorem spells_parsed {room : Nat} {text : List Byte} {value : Value}
    (spelled : Spells lenient room text value) (short : Roomy text) : Parsed room value := by
  have plain {text : List Byte} {value : Value} (scalar : Scalar lenient text value)
      (short : Roomy text) : Plain value := by
    cases scalar with
    | string characters =>
      have inside := characters.length_le
      refine .string _ (short.shorter ?_)
      rw [List.length_append, List.length_cons]
      omega
    | _ => constructor
  induction room generalizing text value with
  | zero => exact plain spelled short
  | succ room inductionHypothesis =>
    obtain scalar | ⟨inner, values, rfl, rfl, content⟩ | ⟨inner, pairs, rfl, rfl, content⟩ :=
      spelled
    · exact .inl (plain scalar short)
    · have within : inner.length ≤ (91 :: (inner ++ [93])).length := by
        rw [List.length_cons, List.length_append]
        omega
      have fits := short.shorter within
      have bounded : inner.length ≤ intMax := by
        rw [Roomy] at fits
        omega
      refine .inr (.inl ⟨values, rfl, ?_, ?_⟩)
      · obtain ⟨_, rfl⟩ | elements := content
        · exact Nat.zero_le _
        · have processes := spells_processes (intMax + 1) (by decide) room
          have count := processes.count (elements.imp fun text value inside spelled =>
            ⟨by omega, spelled⟩)
          omega
      · intro element listed
        obtain ⟨_, rfl⟩ | elements := content
        · cases listed
        · obtain ⟨text, inside, spelled⟩ := elements.each element listed
          exact inductionHypothesis spelled (fits.shorter inside)
    · have within : inner.length ≤ (123 :: (inner ++ [125])).length := by
        rw [List.length_cons, List.length_append]
        omega
      obtain ⟨stored, same, different, all⟩ := members_parsed
        (fun text value short spelled => inductionHypothesis spelled short) (short.shorter within)
        content
      exact .inr (.inr ⟨stored, by rw [same], different, all⟩)

/-- The text behind its blanks starts with a brace, as that of an object does. -/
def startsObject (data : List Byte) : Bool :=
  ((cString data).dropWhile isWhitespace).head? == some 123

/-- What is decoded is spelled by the text up to its first zero byte, with blanks on both sides
of it. -/
theorem decoded_spelled {data : List Byte} {value : Value} (short : data.length < 2147483648)
    (decoded : jsonDecode data = .ok value) :
    ∃ front text back, cString data = front ++ (text ++ back) ∧ Blanks front ∧
      Spells lenient decodeMaxDepth text value := by
  have clean : Clean (cString data) := fun byte listed zero =>
    zero_not_mem_cString data (zero ▸ listed)
  have inside : (cString data).length ≤ data.length := (List.takeWhile_prefix _).length_le
  have read : jsonDecodeText (cString data) = .ok value := by
    rw [jsonDecode] at decoded
    split at decoded
    · cases decoded
    · exact decoded
  have document := document_taken clean (by omega) read
  generalize cString data = found at document
  cases document with
  | mk before spelled _ => exact ⟨_, _, _, rfl, before, spelled⟩

/-- The index of a place in an array is the key that `lua_array_length` takes for this place. -/
theorem array_key_index {position : Nat} (positive : 1 ≤ position) (short : position ≤ intMax) :
    arrayKey (index position) = some position := by
  have bounded : ((position : Nat) : Int).natAbs < 9007199254740992 := by
    rw [intMax] at short
    omega
  have integer : (nearest 11 52 (position : Int)).integral = some (position : Int) :=
    integral_nearest (by decide) (by decide) (by decide) bounded
  rw [index, arrayKey]
  · simp only [integer]
    rw [if_pos (by omega), Int.toNat_natCast]
  · intro infinite
    rw [infinite] at integer
    cases integer

/-- The loop over the keys passes one that is in range. -/
theorem array_loop_cons {entry : Value × Value} {entries : Entries} {key highest items : Nat}
    (found : arrayKey entry.1 = some key) (short : key ≤ intMax) :
    luaArrayLoop (entry :: entries) highest items =
      luaArrayLoop entries (max highest key) (items + 1) := by
  rw [luaArrayLoop, found]
  exact if_neg (Nat.not_lt.mpr short)

/-- The loop over the keys of values finds the last one. -/
theorem array_loop_numbered (values : List Value) {before : Nat}
    (short : before + values.length ≤ intMax) :
    luaArrayLoop (numbered (before + 1) values) before before =
      .ok (some (before + values.length, before + values.length)) := by
  induction values generalizing before with
  | nil => rfl
  | cons value values inductionHypothesis =>
    rw [List.length_cons] at short
    have key := array_key_index (Nat.succ_le_succ (Nat.zero_le before))
      (by omega : before + 1 ≤ intMax)
    have highest : max before (before + 1) = before + 1 := by omega
    have later := inductionHypothesis (by omega : before + 1 + values.length ≤ intMax)
    have sum : before + 1 + values.length = before + (values.length + 1) := by omega
    rw [sum] at later
    rw [numbered, array_loop_cons key (by omega), highest, later, List.length_cons]

/-- A table with values under the first indices has their number as its length when it is
encoded. -/
theorem array_length_numbered {values : List Value} (short : values.length ≤ intMax) :
    luaArrayLength (numbered 1 values) = .ok (some values.length) := by
  have loop := array_loop_numbered values (by omega : 0 + values.length ≤ intMax)
  rw [Nat.zero_add, Nat.zero_add] at loop
  rw [luaArrayLength, loop, ok_bind]
  dsimp only
  rw [if_neg]
  rw [sparseRatio]
  omega

/-- A table with values under strings has no length when it is encoded, unless it is empty,
where the length is zero. -/
theorem array_length_named (pairs : List (List Byte × Value)) :
    (pairs = [] ∧ luaArrayLength (named pairs) = .ok (some 0)) ∨
      luaArrayLength (named pairs) = .ok none := by
  cases pairs with
  | nil => exact .inl ⟨rfl, rfl⟩
  | cons pair pairs => exact .inr rfl

/-- The value that stands at a place of an array is found under the index of that place. -/
theorem raw_get_numbered {values : List Value} {first before : Nat}
    (inside : before < values.length) (short : first + values.length ≤ 9007199254740992) :
    rawGet (numbered first values) (index (first + before)) = values[before] := by
  induction values generalizing first before with
  | nil => cases inside
  | cons value values inductionHypothesis =>
    rw [List.length_cons] at inside short
    cases before with
    | zero =>
      have same : sameKey (index (first + 0)) (index first) = true :=
        (same_index_iff (by omega) (by omega)).mpr rfl
      rw [numbered, raw_get_cons, if_pos same, List.getElem_cons_zero]
    | succ before =>
      have other : ¬ sameKey (index (first + (before + 1))) (index first) = true := by
        rw [same_index_iff (by omega) (by omega)]
        omega
      have later := inductionHypothesis (by omega : before < values.length)
        (by omega : first + 1 + values.length ≤ 9007199254740992)
      have position : first + 1 + before = first + (before + 1) := by omega
      rw [position] at later
      rw [numbered, raw_get_cons, if_neg other, later, List.getElem_cons_succ]

/-- The values of an array, looked up under the indices from one to its length, are the values
it was made of. -/
theorem numbered_values {values : List Value} (short : values.length ≤ intMax) :
    (List.range values.length).map
      (fun before => rawGet (numbered 1 values) (index (before + 1))) = values := by
  apply List.ext_getElem (by simp)
  intro position inside there
  rw [intMax] at short
  rw [List.getElem_map, List.getElem_range, Nat.add_comm]
  exact raw_get_numbered there (by omega)

/-! ## Encoding -/

/-- All numbers in a value are finite, as far down as its tables are nested. -/
def AllFinite : Nat → Value → Prop
  | _, .number value => ∃ negative exponent fraction, value = .finite negative exponent fraction
  | room + 1, .table entries => ∀ entry ∈ entries, AllFinite room entry.2
  | _, _ => True

/-- A value with its numbers rounded to the digits that are written. -/
def settled : Nat → Value → Value
  | _, .number value => .number (writtenNumber value)
  | room + 1, .table entries =>
      .table (entries.map fun entry => (entry.1, settled room entry.2))
  | _, value => value

/-- The error `cjson.encode` raises for a number that is infinite or no number at all. -/
def NotFinite (error : EncodeError) : Prop :=
  ∃ number, error = .cannotSerialise (.number number) "must not be NaN or Inf"

/-- A step that succeeds exactly if something holds, and fails because of a number. -/
def Outcome {Result : Type} (good : Prop) (outcome : Except EncodeError Result) : Prop :=
  (good ∧ ∃ result, outcome = .ok result) ∨
    (¬ good ∧ ∃ error, outcome = .error error ∧ NotFinite error)

/-- What is made of the result of a step succeeds and fails where the step does. -/
theorem Outcome.map {First Second : Type} {good : Prop} {first : Except EncodeError First}
    (outcome : Outcome good first) (next : First → Second) :
    Outcome good (first >>= fun found => Except.ok (next found)) := by
  obtain ⟨holds, result, rfl⟩ | ⟨fails, error, rfl, reason⟩ := outcome
  · exact .inl ⟨holds, next result, rfl⟩
  · exact .inr ⟨fails, error, rfl, reason⟩

/-- A loop over items succeeds exactly if each of them does, and otherwise fails with the error
of one of them. -/
theorem traverse_outcome {Item Result : Type} {good : Item → Prop} {items : List Item}
    {step : Item → Except EncodeError Result}
    (each : ∀ item ∈ items, Outcome (good item) (step item)) :
    Outcome (∀ item ∈ items, good item) (items.mapM step) := by
  induction items with
  | nil => exact .inl ⟨fun item listed => (List.not_mem_nil listed).elim, [], rfl⟩
  | cons item items inductionHypothesis =>
    have later := inductionHypothesis fun other listed => each other (List.mem_cons_of_mem _ listed)
    rw [List.mapM_cons]
    obtain ⟨holds, result, same⟩ | ⟨fails, error, same, reason⟩ := each item List.mem_cons_self
    · rw [same, ok_bind]
      obtain ⟨others, results, rest⟩ | ⟨fails, error, rest, reason⟩ := later
      · rw [rest]
        exact .inl ⟨List.forall_mem_cons.mpr ⟨holds, others⟩, result :: results, rfl⟩
      · rw [rest]
        exact .inr ⟨fun all => fails (List.forall_mem_cons.mp all).2, error, rfl, reason⟩
    · rw [same]
      exact .inr ⟨fun all => fails (List.forall_mem_cons.mp all).1, error, rfl, reason⟩

/-- A string with room is encoded as its characters between quotes, without an error. -/
theorem append_string_roomy {text : List Byte} (roomy : Roomy text) :
    jsonAppendString text = .ok (quoted text) := if_neg (Nat.not_lt.mpr roomy)

/-- A value that is no table is encoded unless it is a number that is not finite. -/
theorem plain_outcome {value : Value} (plain : Plain value) (room : Nat) :
    Outcome (AllFinite room value) (jsonAppendData room value) := by
  have good {good : Prop} {outcome : Except EncodeError (List Byte)} (holds : good)
      (text : List Byte) (same : outcome = .ok text) : Outcome good outcome :=
    .inl ⟨holds, text, same⟩
  cases plain with
  | string text roomy => cases room <;> exact good trivial _ (append_string_roomy roomy)
  | boolean value => cases room <;> cases value <;> exact good trivial _ rfl
  | null => cases room <;> exact good trivial _ rfl
  | number value =>
    have data : jsonAppendData room (.number value) = jsonAppendNumber value := by
      cases room <;> rfl
    have finite : AllFinite room (.number value) =
        ∃ negative exponent fraction, value = .finite negative exponent fraction := by
      cases room <;> rfl
    rw [data, finite]
    cases value with
    | nan =>
      refine .inr ⟨?_, _, rfl, .nan, rfl⟩
      rintro ⟨_, _, _, same⟩
      cases same
    | infinity negative =>
      refine .inr ⟨?_, _, rfl, .infinity negative, rfl⟩
      rintro ⟨_, _, _, same⟩
      cases same
    | finite negative exponent fraction => exact good ⟨_, _, _, rfl⟩ _ rfl

/-- The elements of an array hold where their entries do. -/
theorem numbered_all {holds : Value → Prop} (first : Nat) (values : List Value) :
    (∀ entry ∈ numbered first values, holds entry.2) ↔ ∀ value ∈ values, holds value := by
  induction values generalizing first with
  | nil =>
    constructor
    · intro _ value listed
      cases listed
    · intro _ entry listed
      cases listed
  | cons value values inductionHypothesis =>
    rw [numbered, List.forall_mem_cons, List.forall_mem_cons, inductionHypothesis]

/-- A table with values under strings is encoded exactly if each of its values is, provided the
strings have room. -/
theorem object_outcome {append : Value → Except EncodeError (List Byte)} {good : Value → Prop}
    {pairs : List (List Byte × Value)}
    (each : ∀ pair ∈ pairs, Roomy pair.1 ∧ Outcome (good pair.2) (append pair.2)) :
    Outcome (∀ entry ∈ named pairs, good entry.2) (jsonAppendObject append (named pairs)) := by
  apply Outcome.map
  apply traverse_outcome
  intro entry listed
  obtain ⟨pair, among, rfl⟩ := List.mem_map.mp listed
  obtain ⟨roomy, outcome⟩ := each pair among
  have key : jsonAppendKey (.string pair.1) = .ok (quoted pair.1 ++ Config.bytesOf ":") := by
    rw [jsonAppendKey, append_string_roomy roomy]
    rfl
  dsimp only
  rw [key]
  exact outcome.map fun text => quoted pair.1 ++ Config.bytesOf ":" ++ text

/-- A table with values under indices is encoded exactly if each of its values is. -/
theorem array_outcome {append : Value → Except EncodeError (List Byte)} {good : Value → Prop}
    {values : List Value} (short : values.length ≤ intMax)
    (each : ∀ value ∈ values, Outcome (good value) (append value)) :
    Outcome (∀ entry ∈ numbered 1 values, good entry.2)
      (jsonAppendArray append (numbered 1 values) values.length) := by
  have all := traverse_outcome each
  have same : (List.range values.length).mapM
      (fun before => append (rawGet (numbered 1 values) (index (before + 1)))) =
      values.mapM append := by
    conv_rhs => rw [← numbered_values short, List.mapM_map]
    rfl
  rw [numbered_all]
  apply Outcome.map
  rw [same]
  exact all

/-- A decoded value is encoded exactly if its numbers are finite. -/
theorem parsed_outcome {room : Nat} {value : Value} (parsed : Parsed room value) :
    Outcome (AllFinite room value) (jsonAppendData room value) := by
  induction room generalizing value with
  | zero => exact plain_outcome parsed 0
  | succ room inductionHypothesis =>
    obtain plain | ⟨values, rfl, short, all⟩ | ⟨pairs, rfl, different, all⟩ := parsed
    · exact plain_outcome plain (room + 1)
    · have array := array_outcome short fun element listed =>
        inductionHypothesis (all element listed)
      have length := array_length_numbered short
      rw [jsonAppendData, jsonAppendTable, length, ok_bind]
      cases values with
      | nil =>
        have none : ∀ pair ∈ ([] : List (List Byte × Value)),
            Roomy pair.1 ∧ Outcome (AllFinite room pair.2) (jsonAppendData room pair.2) :=
          fun pair listed => (List.not_mem_nil listed).elim
        exact object_outcome none
      | cons value values => exact array
    · have object := object_outcome fun pair listed =>
        ⟨(all pair listed).1, inductionHypothesis (all pair listed).2⟩
      rw [jsonAppendData, jsonAppendTable]
      obtain ⟨rfl, length⟩ | length := array_length_named pairs
      · rw [length, ok_bind]
        exact object
      · rw [length, ok_bind]
        exact object

/-! ## What the encoding means -/

/-- Rounding the numbers of a value to the digits that are written does not make it nil. -/
theorem settled_present {value : Value} (present : value.isNil = false) (room : Nat) :
    (settled room value).isNil = false := by
  cases value with
  | nil => cases present
  | string text => cases room <;> rfl
  | number value => cases room <;> rfl
  | boolean value => cases room <;> rfl
  | null => cases room <;> rfl
  | table entries => cases room <;> rfl
  | other identity => cases room <;> rfl

/-- The values of an array can be changed in place. -/
theorem numbered_map (change : Value → Value) (first : Nat) (values : List Value) :
    (numbered first values).map (fun entry => (entry.1, change entry.2)) =
      numbered first (values.map change) := by
  induction values generalizing first with
  | nil => rfl
  | cons value values inductionHypothesis =>
    rw [numbered, List.map_cons, inductionHypothesis, List.map_cons, numbered]

/-- Pairs with different keys are all kept when they are stored one after the other. -/
theorem object_distinct {pairs : List (List Byte × Value)} (different : (pairs.map Prod.fst).Nodup)
    (present : ∀ pair ∈ pairs, pair.2.isNil = false) : objectTable pairs = named pairs := by
  induction pairs using List.reverseRecOn with
  | nil => rfl
  | append_singleton pairs pair inductionHypothesis =>
    rw [List.map_append, List.nodup_append] at different
    obtain ⟨before, _, apart⟩ := different
    have same := inductionHypothesis before fun other listed =>
      present other (List.mem_append_left _ listed)
    have fresh : pair.1 ∉ pairs.map Prod.fst := fun listed =>
      apart pair.1 listed pair.1 List.mem_cons_self rfl
    rw [objectTable] at same
    rw [objectTable, List.foldl_append, same]
    exact named_fresh (present pair (List.mem_append_right _ List.mem_cons_self)) fresh

/-- The encoding of a value that is no table means it with its number rounded. -/
theorem plain_written {value : Value} (plain : Plain value) (room : Nat) :
    written room value = settled room value := by
  cases plain <;> cases room <;> rfl

/-- The encoding of an object means the object with its values rounded. -/
theorem named_written {change rounded : Value → Value} {pairs : List (List Byte × Value)}
    (different : (pairs.map Prod.fst).Nodup)
    (each : ∀ pair ∈ pairs, change pair.2 = rounded pair.2 ∧ (rounded pair.2).isNil = false) :
    objectTable ((named pairs).map fun entry => (writtenKey entry.1, change entry.2)) =
      (named pairs).map fun entry => (entry.1, rounded entry.2) := by
  have texts : ((named pairs).map fun entry => (writtenKey entry.1, change entry.2)) =
      pairs.map fun pair => (pair.1, rounded pair.2) := by
    rw [named, List.map_map]
    apply List.map_congr_left
    intro pair listed
    rw [← (each pair listed).1]
    rfl
  have keys : (pairs.map fun pair => (pair.1, rounded pair.2)).map Prod.fst =
      pairs.map Prod.fst := by
    rw [List.map_map]
    rfl
  have present : ∀ pair ∈ pairs.map fun pair => (pair.1, rounded pair.2),
      pair.2.isNil = false := by
    intro pair listed
    obtain ⟨old, among, rfl⟩ := List.mem_map.mp listed
    exact (each old among).2
  rw [texts, object_distinct (by rwa [keys]) present, named, named, List.map_map, List.map_map]
  rfl

/-- The encoding of a decoded value means this value with its numbers rounded to the digits that
are written. -/
theorem parsed_written {room : Nat} {value : Value} (parsed : Parsed room value) :
    written room value = settled room value := by
  induction room generalizing value with
  | zero => exact plain_written parsed 0
  | succ room inductionHypothesis =>
    obtain plain | ⟨values, rfl, short, all⟩ | ⟨pairs, rfl, different, all⟩ := parsed
    · exact plain_written plain (room + 1)
    · have length := array_length_numbered short
      cases values with
      | nil => rfl
      | cons value values =>
        have values_written : (List.range (values.length + 1)).map (fun before =>
            written room (rawGet (numbered 1 (value :: values)) (index (before + 1)))) =
            (value :: values).map (settled room) := by
          have same := congrArg (List.map (written room)) (numbered_values short)
          rw [List.map_map] at same
          refine same.trans (List.map_congr_left fun element listed => ?_)
          exact inductionHypothesis (all element listed)
        rw [List.length_cons] at length
        rw [written, length, settled, numbered_map]
        exact congrArg (fun found => Value.table (numbered 1 found)) values_written
    · have object := named_written different fun pair listed =>
        ⟨inductionHypothesis (all pair listed).2,
          settled_present (parsed_present (all pair listed).2) room⟩
      rw [written, settled, ← object]
      obtain ⟨_, length⟩ | length := array_length_named pairs
      · rw [length]
      · rw [length]

/-- What is decoded is one of the values of this module. -/
theorem decoded_parsed {data : List Byte} {value : Value} (short : data.length < 134217728)
    (decoded : jsonDecode data = .ok value) : Parsed decodeMaxDepth value := by
  obtain ⟨front, text, back, shape, _, spelled⟩ := decoded_spelled (by omega) decoded
  have inside : (cString data).length ≤ data.length := (List.takeWhile_prefix _).length_le
  rw [shape, List.length_append, List.length_append] at inside
  exact spells_parsed spelled (by rw [Roomy, intMax]; omega)

/-- A decoded value with finite numbers is encoded, as a JSON text that means the value with its
numbers rounded to the digits that are written; another one is refused for a number. The buffer of
the encoder has room for what is written, which is at most six times the data. -/
theorem reencoded {data : List Byte} {value : Value} (short : data.length < 134217728)
    (decoded : jsonDecode data = .ok value) :
    (AllFinite encodeMaxDepth value → ∃ text, jsonEncode value = .ok text ∧
        Document standard encodeMaxDepth text (settled encodeMaxDepth value)) ∧
      (¬ AllFinite encodeMaxDepth value → ∃ error, jsonEncode value = .error error ∧
        NotFinite error) := by
  have parsed : Parsed encodeMaxDepth value := decoded_parsed short decoded
  obtain ⟨finite, text, encoded⟩ | ⟨infinite, error, failed, reason⟩ := parsed_outcome parsed
  · refine ⟨fun _ => ⟨text, encoded, ?_⟩, fun infinite => absurd finite infinite⟩
    rw [← parsed_written parsed]
    exact json_written encoded
  · exact ⟨fun finite => absurd finite infinite, fun _ => ⟨error, failed, reason⟩⟩

/-- An array with an infinite number cannot be encoded: it ends with the error about such
numbers. -/
theorem reencoded_infinite : ∃ error,
    jsonEncode (.table (numbered 1 [.number (.infinity false)])) = .error error ∧
      NotFinite error := by
  have decoded : jsonDecode [91, 105, 110, 102, 93] =
      .ok (.table (numbered 1 [.number (.infinity false)])) := rfl
  apply (reencoded (by decide) decoded).2
  intro finite
  obtain ⟨_, _, _, same⟩ := finite _ List.mem_cons_self
  cases same

/-! ## Integers -/

/-- The numbers of a value are integers with no more digits than are written. -/
def Exact : Nat → Value → Prop
  | _, .number value =>
      ∃ integer, value.integral = some integer ∧ integer.natAbs < 10 ^ encodeNumberPrecision
  | room + 1, .table entries => ∀ entry ∈ entries, Exact room entry.2
  | _, _ => True

/-- An integer with no more digits than are written is written as it is, and so is read back
unchanged. -/
theorem written_integer {value : Double} {integer : Int} (integral : value.integral = some integer)
    (short : integer.natAbs < 10 ^ encodeNumberPrecision) : writtenNumber value = value := by
  cases value with
  | nan => cases integral
  | infinity negative => cases integral
  | finite negative exponent fraction => exact number_integer integral short

/-- Rounding leaves a value as it is whose numbers are integers with no more digits than are
written. -/
theorem settled_exact {room : Nat} {value : Value} (exact : Exact room value) :
    settled room value = value := by
  have number {value : Double} (found : ∃ integer, value.integral = some integer ∧
      integer.natAbs < 10 ^ encodeNumberPrecision) :
      Value.number (writtenNumber value) = .number value := by
    obtain ⟨integer, integral, short⟩ := found
    rw [written_integer integral short]
  induction room generalizing value with
  | zero =>
    cases value with
    | number value => exact number exact
    | _ => rfl
  | succ room inductionHypothesis =>
    cases value with
    | number value => exact number exact
    | table entries =>
      have same : entries.map (fun entry => (entry.1, settled room entry.2)) = entries.map id :=
        List.map_congr_left fun entry listed =>
          Prod.ext rfl (inductionHypothesis (exact entry listed))
      rw [settled, same, List.map_id]
    | _ => rfl

/-- A value whose numbers are integers of that many digits has finite numbers. -/
theorem exact_finite {room : Nat} {value : Value} (exact : Exact room value) :
    AllFinite room value := by
  have number {value : Double} (found : ∃ integer, value.integral = some integer ∧
      integer.natAbs < 10 ^ encodeNumberPrecision) :
      ∃ negative exponent fraction, value = .finite negative exponent fraction := by
    obtain ⟨integer, integral, _⟩ := found
    cases value with
    | nan => cases integral
    | infinity negative => cases integral
    | finite negative exponent fraction => exact ⟨negative, exponent, fraction, rfl⟩
  induction room generalizing value with
  | zero =>
    cases value with
    | number value => exact number exact
    | _ => trivial
  | succ room inductionHypothesis =>
    cases value with
    | number value => exact number exact
    | table entries => exact fun entry listed => inductionHypothesis (exact entry listed)
    | _ => trivial

/-- A decoded value with such numbers is encoded as a JSON text that means it, and is decoded again
to what it was. -/
theorem exact_round_trip {data : List Byte} {value : Value} (short : data.length < 134217728)
    (decoded : jsonDecode data = .ok value) (exact : Exact encodeMaxDepth value) :
    ∃ text, jsonEncode value = .ok text ∧ Document standard encodeMaxDepth text value ∧
      (text.length < 2147483648 → jsonDecode text = .ok value) := by
  have parsed : Parsed encodeMaxDepth value := decoded_parsed short decoded
  obtain ⟨_, text, encoded⟩ | ⟨infinite, _⟩ := parsed_outcome parsed
  · have document := json_written encoded
    rw [parsed_written parsed, settled_exact exact] at document
    refine ⟨text, encoded, document, fun bounded => ?_⟩
    rw [decode_clean (document_clean document)]
    exact document_read (document_lenient document) bounded
  · exact absurd (exact_finite exact) infinite

/-- An array with a number and a line break in a string. -/
theorem exact_round_trip_line : ∃ text,
    jsonEncode (.table (numbered 1 [index 7, .string [10]])) = .ok text ∧
      Document standard encodeMaxDepth text (.table (numbered 1 [index 7, .string [10]])) ∧
      (text.length < 2147483648 →
        jsonDecode text = .ok (.table (numbered 1 [index 7, .string [10]]))) := by
  have decoded : jsonDecode [91, 55, 44, 34, 10, 34, 93] =
      .ok (.table (numbered 1 [index 7, .string [10]])) := rfl
  have seven : (nearest 11 52 ((7 : Nat) : Int)).integral = some ((7 : Nat) : Int) :=
    integral_nearest (by decide) (by decide) (by decide) (by decide)
  have exact : Exact encodeMaxDepth (.table (numbered 1 [index 7, .string [10]])) := by
    intro entry listed
    rcases List.mem_pair.mp listed with rfl | rfl
    · exact ⟨7, seven, by decide⟩
    · trivial
  exact exact_round_trip (by decide) decoded exact

end Dragonfly.Json
