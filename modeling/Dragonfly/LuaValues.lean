import Dragonfly.FloatingPoint
import Dragonfly.Libc

/-!
# Lua values

A number is a datum of double precision; Lua has one that is no number. A table is the list
of its entries. Encoders go through it from the front, so for them the list is the order in
which `lua_next` visits the entries; decoders put a new entry behind the others, so what they
return has its entries in the order of insertion. Tables have no identity here: a key that is a
table equals no other key, as one that was just made does. What has no fields, no bytes and
no value a script could compute with, such as a function, has a name only; the null pointer
stands apart, since `null` is decoded to it.
-/

namespace Dragonfly.LuaValues

open FloatingPoint

/-! ## Errors -/

section Errors

variable {Error First Second : Type}

/-- Behind a computation that has a result, the next one goes on with that result. -/
@[simp] theorem ok_bind (first : First) (next : First → Except Error Second) :
    (Except.ok first >>= next) = next first := rfl

/-- An error ends a computation: what would have followed does not take place. -/
@[simp] theorem error_bind (error : Error) (next : First → Except Error Second) :
    (Except.error error >>= next) = Except.error error := rfl

/-- Two computations in sequence have a result exactly if the first one has a result and the
second, behind it, has this one. -/
theorem bind_ok_iff {first : Except Error First} {next : First → Except Error Second}
    {result : Second} :
    (first >>= next) = .ok result ↔ ∃ middle, first = .ok middle ∧ next middle = .ok result := by
  cases first with
  | error failure => simp
  | ok middle => simp

/-- A changed result comes from one that was there before the change. -/
theorem map_ok_iff {first : Except Error First} {change : First → Second} {result : Second} :
    first.map change = .ok result ↔ ∃ found, first = .ok found ∧ change found = result := by
  cases first with
  | error failure => simp [Except.map]
  | ok found => simp [Except.map]

/-- A loop over items has results exactly when each item has the result that stands at its
place. -/
theorem traverse_ok_iff {map : First → Except Error Second} {items : List First}
    {results : List Second} :
    items.mapM map = .ok results ↔
      List.Forall₂ (fun item result => map item = .ok result) items results := by
  induction items generalizing results with
  | nil =>
    constructor
    · intro mapped
      cases mapped
      exact .nil
    · intro each
      cases each
      rfl
  | cons item items inductionHypothesis =>
    rw [List.mapM_cons]
    constructor
    · intro mapped
      obtain ⟨result, here, later⟩ := bind_ok_iff.mp mapped
      obtain ⟨others, behind, last⟩ := bind_ok_iff.mp later
      cases last
      exact .cons here (inductionHypothesis.mp behind)
    · intro each
      cases each with
      | cons here others =>
        rw [here, ok_bind, inductionHypothesis.mpr others]
        rfl

end Errors

/-! ## Values -/

/-- A Lua value. The entries of a table that is encoded stand in the order of `lua_next`, those
of a table that was decoded in the order in which they were inserted. -/
inductive Value where
  | nil
  | boolean (value : Bool)
  | number (value : Double)
  | string (bytes : List Byte)
  | table (entries : List (Value × Value))
  | null
  | other (identity : Nat)

/-- The entries of a table, each of which is a key with its value. -/
abbrev Entries := List (Value × Value)

/-- A value that is `nil`: a key that has it as its value has no entry in a table. -/
def Value.isNil : Value → Bool
  | .nil => true
  | _ => false

/-- Two keys that name the same entry of a table: equal ones, where the two zeros are equal. A
table as a key is equal to no other. -/
def sameKey : Value → Value → Bool
  | .boolean left, .boolean right => left == right
  | .number left, .number right => left.plain == right.plain
  | .string left, .string right => left == right
  | .null, .null => true
  | .other left, .other right => left == right
  | _, _ => false

/-- The function `lua_rawget`: the value of the first entry with this key, and nil where there
is none. -/
def rawGet (entries : Entries) (key : Value) : Value :=
  ((entries.find? fun entry => sameKey key entry.1).map Prod.snd).getD .nil

/-- `lua_rawset` under a key that is neither `nil` nor no number. -/
def rawSet (entries : Entries) (key value : Value) : Entries :=
  if value.isNil then entries.filter fun entry => !sameKey key entry.1
  else if entries.any fun entry => sameKey key entry.1 then
    entries.map fun entry => if sameKey key entry.1 then (entry.1, value) else entry
  else entries ++ [(key, value)]

/-- The index of a place in an array, as a number of Lua. -/
def index (position : Nat) : Value := .number (nearest 11 52 position)

/-- The entries of a table that has these values under consecutive indices, from a first one on. -/
def numbered : Nat → List Value → Entries
  | _, [] => []
  | first, value :: rest => (index first, value) :: numbered (first + 1) rest

/-- A value that can be a key: everything but nil and what is not a number. -/
inductive KeyAllowed : Value → Prop
  | boolean (value : Bool) : KeyAllowed (.boolean value)
  | number {value : Double} (number : value ≠ .nan) : KeyAllowed (.number value)
  | string (bytes : List Byte) : KeyAllowed (.string bytes)
  | table (entries : Entries) : KeyAllowed (.table entries)
  | null : KeyAllowed .null
  | other (identity : Nat) : KeyAllowed (.other identity)

/-- A value that can be a key is not `nil`, so it names an entry. -/
theorem KeyAllowed.named {key : Value} (allowed : KeyAllowed key) : key.isNil = false := by
  cases allowed <;> rfl

/-- A value as Lua makes it: the keys of a table are allowed and different, no entry is `nil`,
and the same holds inside. -/
inductive WellFormed : Value → Prop
  | nil : WellFormed .nil
  | boolean (value : Bool) : WellFormed (.boolean value)
  | number (value : Double) : WellFormed (.number value)
  | string (bytes : List Byte) : WellFormed (.string bytes)
  | null : WellFormed .null
  | other (identity : Nat) : WellFormed (.other identity)
  | table {entries : Entries}
      (different : (entries.map Prod.fst).Pairwise fun left right => sameKey left right = false)
      (allowed : ∀ entry ∈ entries, KeyAllowed entry.1)
      (present : ∀ entry ∈ entries, entry.2.isNil = false)
      (keys : ∀ entry ∈ entries, WellFormed entry.1)
      (values : ∀ entry ∈ entries, WellFormed entry.2) : WellFormed (.table entries)

/-! ## Keys -/

/-- A number whose zero was given no sign stays as it is when this is done again. -/
theorem plain_plain (number : Double) : number.plain.plain = number.plain := by
  cases number with
  | nan => rfl
  | infinity negative => rfl
  | finite negative exponent fraction =>
    rw [Datum.plain, Datum.plain, Bool.and_assoc, Bool.and_self]

/-- The datum nearest to a small integer has no sign if it is zero. -/
theorem plain_nearest {number : Int} (short : number.natAbs < 9007199254740992) :
    (nearest 11 52 number).plain = nearest 11 52 number :=
  (nearest_integral (by decide) (by decide)
    (integral_nearest (by decide) (by decide) (by decide) short)).symm

/-- The indices of two places are the same key exactly where the places are the same, up to the
precision of numbers. -/
theorem same_index_iff {left right : Nat} (leftShort : left < 9007199254740992)
    (rightShort : right < 9007199254740992) :
    sameKey (index left) (index right) = true ↔ left = right := by
  rw [index, index, sameKey, beq_iff_eq, plain_nearest (by omega), plain_nearest (by omega)]
  constructor
  · intro same
    have leftInteger : (nearest 11 52 (left : Int)).integral = some (left : Int) :=
      integral_nearest (by decide) (by decide) (by decide) (by omega)
    have rightInteger : (nearest 11 52 (right : Int)).integral = some (right : Int) :=
      integral_nearest (by decide) (by decide) (by decide) (by omega)
    rw [same, rightInteger, Option.some.injEq, Int.natCast_inj] at leftInteger
    exact leftInteger.symm
  · rintro rfl
    rfl

/-- If one key names the entry of another, then that one names the entry of the first. -/
theorem same_key_comm (left right : Value) : sameKey left right = sameKey right left := by
  cases left <;> cases right <;> simp [sameKey, eq_comm]

/-- Two keys that name the entry of a third one name the same entry. -/
theorem same_key_joined {left right key : Value} (first : sameKey left key = true)
    (second : sameKey right key = true) : sameKey left right = true := by
  cases key <;> cases left <;> cases right <;> simp_all [sameKey]

/-- What is found under a key is nil or the value of an entry. -/
theorem raw_get_cases (entries : Entries) (key : Value) :
    rawGet entries key = .nil ∨ ∃ entry ∈ entries, rawGet entries key = entry.2 := by
  rw [rawGet]
  cases found : entries.find? fun entry => sameKey key entry.1 with
  | none => exact .inl rfl
  | some entry => exact .inr ⟨entry, List.mem_of_find?_eq_some found, rfl⟩

/-- What is found among entries is the value of the first one under the key. -/
theorem raw_get_cons (entry : Value × Value) (entries : Entries) (key : Value) :
    rawGet (entry :: entries) key = if sameKey key entry.1 then entry.2 else rawGet entries key := by
  rw [rawGet, rawGet, List.find?_cons]
  cases sameKey key entry.1 <;> rfl

/-- An entry under a new key is put behind the others, if it is not `nil`. -/
theorem raw_set_fresh {entries : Entries} {key : Value} (value : Value)
    (fresh : ∀ entry ∈ entries, sameKey key entry.1 = false) :
    rawSet entries key value = entries ++ [(key, value)].filter fun entry => !entry.2.isNil := by
  rw [rawSet]
  cases absent : value.isNil with
  | true =>
    have kept : entries.filter (fun entry => !sameKey key entry.1) = entries :=
      List.filter_eq_self.mpr fun entry listed => by rw [fresh entry listed]; rfl
    simp [absent, kept]
  | false =>
    have missing : (entries.any fun entry => sameKey key entry.1) = false := by
      rw [List.any_eq_false]
      intro entry listed
      simp [fresh entry listed]
    simp [absent, missing]

/-- What holds of each entry of a well-formed table: its key can be a key, its value is not nil,
and both are well formed. -/
structure EntryFormed (entry : Value × Value) : Prop where
  allowed : KeyAllowed entry.1
  present : entry.2.isNil = false
  key : WellFormed entry.1
  value : WellFormed entry.2

/-- A table is well formed when its keys differ and its entries are. -/
theorem table_formed_iff {entries : Entries} :
    WellFormed (.table entries) ↔
      ((entries.map Prod.fst).Pairwise fun left right => sameKey left right = false) ∧
        ∀ entry ∈ entries, EntryFormed entry := by
  constructor
  · intro formed
    cases formed with
    | table different allowed present keys values =>
      exact ⟨different, fun entry listed => ⟨allowed entry listed, present entry listed,
        keys entry listed, values entry listed⟩⟩
  · rintro ⟨different, formed⟩
    exact .table different (fun entry listed => (formed entry listed).allowed)
      (fun entry listed => (formed entry listed).present)
      (fun entry listed => (formed entry listed).key)
      fun entry listed => (formed entry listed).value

end Dragonfly.LuaValues
