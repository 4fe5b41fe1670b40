import Dragonfly.MessagePackDelivery
import Dragonfly.Traversals

/-!
# Data behind a queue

Data are booleans, numbers, strings, and tables of data nested no deeper than the encoder
goes. Data arrive as they were, up to the order of the entries of a table, which Lua does not
promise, and the sign of zero. An array is unpacked with its elements under the same indices.
-/

namespace Dragonfly.MessagePack

open FloatingPoint LuaValues Traversals

/-- Data with room for so many tables inside each other. -/
def Data : Nat → Value → Prop
  | room + 1, .table entries => ∀ entry ∈ entries, Data room entry.1 ∧ Data room entry.2
  | 0, .table _ => False
  | _, .null => False
  | _, .other _ => False
  | _, .nil => True
  | _, .boolean _ => True
  | _, .number _ => True
  | _, .string _ => True

/-- Values that differ in the order of the entries of tables and the signs of zeros only. -/
inductive Same : Value → Value → Prop
  | same (value : Value) : Same value value
  | number {left right : Double} (plain : left.plain = right.plain) :
      Same (.number left) (.number right)
  | table {left middle right : Entries} (order : left.Perm middle)
      (keys : List.Forall₂ (fun before after => Same before.1 after.1) middle right)
      (values : List.Forall₂ (fun before after => Same before.2 after.2) middle right) :
      Same (.table left) (.table right)

/-- A value that is the same as another one is nil exactly if that one is. -/
theorem Same.is_nil {left right : Value} (same : Same left right) : right.isNil = left.isNil := by
  cases same <;> rfl

/-! ## Arrays -/

/-- A key with an index is the number of the index, up to the sign of zero. -/
theorem array_index_some {key : Value} {position : Nat} (found : arrayIndex key = some position) :
    0 < position ∧ position < 2147483648 ∧
      ∃ number, key = .number number ∧ nearest 11 52 position = number.plain := by
  cases key with
  | number number =>
    rw [arrayIndex] at found
    cases whole : number.integral with
    | none => rw [whole] at found; cases found
    | some integer =>
      simp only [whole] at found
      split at found
      · rename_i inside
        obtain rfl := Option.some.inj found
        have natural : ((integer.toNat : Nat) : Int) = integer := Int.toNat_of_nonneg (by omega)
        refine ⟨by omega, by omega, number, rfl, ?_⟩
        rw [natural]
        exact nearest_integral (by decide) (by decide) whole
      · cases found
  | _ => cases found

/-- A key that counts as an index of an array names the entry of this index. -/
theorem index_names {key : Value} {position : Nat} (found : arrayIndex key = some position) :
    sameKey (index position) key = true := by
  obtain ⟨_, short, number, rfl, near⟩ := array_index_some found
  rw [index, sameKey, beq_iff_eq, plain_nearest (by omega), near]

/-- Two keys that count as the same index of an array name the same entry. -/
theorem one_index {left right : Value} {position : Nat} (first : arrayIndex left = some position)
    (second : arrayIndex right = some position) : sameKey left right = true := by
  obtain ⟨_, _, leftNumber, rfl, leftNear⟩ := array_index_some first
  obtain ⟨_, _, rightNumber, rfl, rightNear⟩ := array_index_some second
  rw [sameKey, beq_iff_eq, ← leftNear, rightNear]

/-- An array has an entry for each index up to the number of its entries, which is an `int`. -/
theorem array_entry {entries : Entries}
    (different : (entries.map Prod.fst).Pairwise fun left right => sameKey left right = false)
    (array : tableIsAnArray entries = true) {position : Nat} (from1 : 0 < position)
    (upTo : position ≤ entries.length) :
    ∃ entry ∈ entries, arrayIndex entry.1 = some position := by
  rw [tableIsAnArray] at array
  cases found : entries.mapM fun entry => arrayIndex entry.1 with
  | none =>
    simp only [found] at array
    cases array
  | some indices =>
    simp only [found, beq_iff_eq] at array
    have related := traverse_some_iff.mp found
    have size := related.length_eq
    have apart : indices.Nodup :=
      related_pairwise (fun first second named same => by
        subst same
        rw [one_index first second] at named
        cases named) related (List.pairwise_map.mp different)
    have positive : ∀ index ∈ indices, 0 < index := fun index listed => by
      obtain ⟨entry, _, here⟩ := related_origin related listed
      exact (array_index_some here).1
    rw [size] at array upTo
    exact related_origin related (all_positions apart positive array from1 upTo)

/-- The entry of a table under an index, as it stands in the list. -/
def entryAt (entries : Entries) (before : Nat) : Value × Value :=
  (entries.find? fun entry => sameKey (index (before + 1)) entry.1).getD (.nil, .nil)

/-- The entries of an array in the order of their indices. -/
def inOrder (entries : Entries) : Entries := (List.range entries.length).map (entryAt entries)

/-- The values of the entries in the order of their indices are the elements of the array. -/
theorem in_order_values (entries : Entries) :
    (inOrder entries).map Prod.snd = elements entries := by
  rw [inOrder, elements, List.map_map]
  apply List.map_congr_left
  intro before _
  rw [Function.comp_apply, entryAt, rawGet]
  cases entries.find? fun entry => sameKey (index (before + 1)) entry.1 <;> rfl

section Arrays

variable {entries : Entries}
  (different : (entries.map Prod.fst).Pairwise fun left right => sameKey left right = false)
  (array : tableIsAnArray entries = true)

include different array

/-- The entry under an index of an array has a key that names it. -/
theorem entry_at_listed {before : Nat} (inside : before < entries.length) :
    entryAt entries before ∈ entries ∧
      sameKey (index (before + 1)) (entryAt entries before).1 = true := by
  obtain ⟨entry, listed, found⟩ := array_entry different array (Nat.succ_pos before) inside
  have names := index_names found
  rw [entryAt]
  cases search : entries.find? fun entry => sameKey (index (before + 1)) entry.1 with
  | none =>
    rw [List.find?_eq_none] at search
    exact absurd names (search entry listed)
  | some stored =>
    exact ⟨List.mem_of_find?_eq_some search, by simpa using List.find?_some search⟩

/-- An array has fewer entries than an `int` counts, because its indices are counted in one. -/
theorem array_short : entries.length < 2147483648 := by
  by_contra long
  obtain ⟨entry, _, found⟩ := array_entry different array (Nat.lt_of_lt_of_le (by decide)
    (Nat.le_of_not_lt long)) (Nat.le_refl _)
  exact long (array_index_some found).2.1

/-- The entries in the order of their indices are the entries. -/
theorem in_order_perm : entries.Perm (inOrder entries) := by
  have short := array_short different array
  have apart : (inOrder entries).Nodup := by
    refine List.Nodup.map_on ?_ List.nodup_range
    intro left leftInside right rightInside same
    have leftInside := List.mem_range.mp leftInside
    have rightInside := List.mem_range.mp rightInside
    have first := (entry_at_listed different array leftInside).2
    rw [same] at first
    have joined := same_key_joined first (entry_at_listed different array rightInside).2
    have position := (same_index_iff (by omega) (by omega)).mp joined
    omega
  have inside : inOrder entries ⊆ entries := by
    intro entry listed
    obtain ⟨before, within, rfl⟩ := List.mem_map.mp listed
    exact (entry_at_listed different array (List.mem_range.mp within)).1
  have size : (inOrder entries).length = entries.length := by
    rw [inOrder, List.length_map, List.length_range]
  exact ((List.subperm_of_subset apart inside).perm_of_length_le (Nat.le_of_eq size.symm)).symm

end Arrays

/-! ## Values -/

/-- A key that names the entry of an index is the number of the index, up to the sign of zero. -/
theorem index_same {position : Nat} {key : Value} (names : sameKey (index position) key = true) :
    Same key (index position) := by
  cases key with
  | number number => exact .number (beq_iff_eq.mp names).symm
  | _ => cases names

/-- Entries whose values are the same as others, and whose keys are those of indices, are the
same as the others under these indices. -/
theorem numbered_same {entries : Entries} {received : List Value} (first : Nat)
    (keys : ∀ (before : Nat) (inside : before < entries.length),
      Same entries[before].1 (index (first + before)))
    (values : List.Forall₂ Same (entries.map Prod.snd) received) :
    List.Forall₂ (fun before after : Value × Value => Same before.1 after.1) entries
        (numbered first received) ∧
      List.Forall₂ (fun before after : Value × Value => Same before.2 after.2) entries
        (numbered first received) := by
  induction entries generalizing received first with
  | nil =>
    cases values
    exact ⟨.nil, .nil⟩
  | cons entry entries inductionHypothesis =>
    cases values with
    | cons here others =>
      obtain ⟨laterKeys, laterValues⟩ := inductionHypothesis (first + 1)
        (fun before inside => by
          have shifted := keys (before + 1) (Nat.succ_lt_succ inside)
          rwa [List.getElem_cons_succ, Nat.add_comm before, ← Nat.add_assoc] at shifted) others
      exact ⟨.cons (keys 0 (Nat.succ_pos _)) laterKeys, .cons here laterValues⟩

/-- Nothing is lost of entries that are related to entries that are there. -/
theorem present_related {before after : Entries}
    (values : List.Forall₂ (fun left right : Value × Value => Same left.2 right.2) before after)
    (there : ∀ entry ∈ before, entry.2.isNil = false) : present after = after := by
  rw [present, List.filter_eq_self]
  intro entry listed
  obtain ⟨origin, stands, same⟩ := related_origin values listed
  rw [same.is_nil, there origin stands]
  rfl

/-- An array of data arrives as it was: under each index the element that was there, or one that
is the same. -/
theorem array_received {room : Nat} {entries : Entries}
    (different : (entries.map Prod.fst).Pairwise fun left right => sameKey left right = false)
    (there : ∀ entry ∈ entries, entry.2.isNil = false) (array : tableIsAnArray entries = true)
    (each : ∀ entry ∈ entries, ∃ received, receive room entry.2 = some received ∧
      Same entry.2 received) :
    ∃ received, receive (room + 1) (.table entries) = some received ∧
      Same (.table entries) received := by
  have order := in_order_perm different array
  have elementwise : ∀ value ∈ elements entries, ∃ received,
      receive room value = some received ∧ Same value received := by
    rw [← in_order_values]
    intro value listed
    obtain ⟨entry, stands, rfl⟩ := List.mem_map.mp listed
    exact each entry (order.mem_iff.mpr stands)
  obtain ⟨received, arrive, same⟩ := traverse_related elementwise
  rw [← in_order_values] at same
  have keys : ∀ (before : Nat) (inside : before < (inOrder entries).length),
      Same (inOrder entries)[before].1 (index (1 + before)) := by
    intro before inside
    rw [order.length_eq.symm] at inside
    simp only [inOrder, List.getElem_map, List.getElem_range]
    rw [Nat.add_comm]
    exact index_same (entry_at_listed different array inside).2
  obtain ⟨keySame, valueSame⟩ := numbered_same 1 keys same
  have whole := present_related valueSame fun entry listed =>
    there entry (order.mem_iff.mpr listed)
  refine ⟨.table (numbered 1 received), ?_, .table order keySame valueSame⟩
  rw [receive, if_pos array, arrive, Option.map_some, whole]

/-- A table of data that is no array arrives as it was. -/
theorem map_received {room : Nat} {entries : Entries}
    (allowed : ∀ entry ∈ entries, KeyAllowed entry.1)
    (there : ∀ entry ∈ entries, entry.2.isNil = false) (map : tableIsAnArray entries = false)
    (keys : ∀ entry ∈ entries, ∃ received, receive room entry.1 = some received ∧
      Same entry.1 received)
    (values : ∀ entry ∈ entries, ∃ received, receive room entry.2 = some received ∧
      Same entry.2 received) :
    ∃ received, receive (room + 1) (.table entries) = some received ∧
      Same (.table entries) received := by
  have pairwise : ∀ entry ∈ entries, ∃ received,
      receivedEntry (receive room) entry = some received ∧
        (Same entry.1 received.1 ∧ Same entry.2 received.2) := by
    intro entry listed
    obtain ⟨key, keyArrives, keySame⟩ := keys entry listed
    obtain ⟨value, valueArrives, valueSame⟩ := values entry listed
    have named : key.isNil = false := by
      rw [keySame.is_nil, (allowed entry listed).named]
    refine ⟨(key, value), ?_, keySame, valueSame⟩
    simp [receivedEntry, keyArrives, valueArrives, named]
  obtain ⟨received, arrive, same⟩ := traverse_related pairwise
  have keySame := same.imp fun _ _ both => both.1
  have valueSame := same.imp fun _ _ both => both.2
  have whole := present_related valueSame there
  refine ⟨.table received, ?_, .table (.refl entries) keySame valueSame⟩
  rw [receive, if_neg (by rw [map]; exact Bool.false_ne_true), arrive, Option.map_some, whole]

/-- Data arrive as they were, by induction on how deep they are nested. -/
theorem data_received {room : Nat} {value : Value} (wellFormed : WellFormed value)
    (data : Data room value) :
    ∃ received, receive room value = some received ∧ Same value received := by
  induction room generalizing value with
  | zero =>
    cases value with
    | number number => exact ⟨_, rfl, .number (received_number_plain number).symm⟩
    | table entries => exact data.elim
    | null => exact data.elim
    | other identity => exact data.elim
    | _ => exact ⟨_, rfl, .same _⟩
  | succ room inductionHypothesis =>
    cases value with
    | number number => exact ⟨_, rfl, .number (received_number_plain number).symm⟩
    | null => exact data.elim
    | other identity => exact data.elim
    | table entries =>
      cases wellFormed with
      | table different allowed there keys values =>
        have keysArrive := fun entry listed =>
          inductionHypothesis (keys entry listed) (data entry listed).1
        have valuesArrive := fun entry listed =>
          inductionHypothesis (values entry listed) (data entry listed).2
        cases kind : tableIsAnArray entries with
        | true => exact array_received different there kind valuesArrive
        | false => exact map_received allowed there kind keysArrive valuesArrive
    | _ => exact ⟨_, rfl, .same _⟩

/-- Data that are packed by one thread are unpacked by another as they were. -/
theorem data_survives {values : List Value} {message : List Byte}
    (wellFormed : ∀ value ∈ values, WellFormed value)
    (data : ∀ value ∈ values, Data maxNesting value) (packed : mpPack values = some message)
    (short : message.length < 2147483648) :
    ∃ received, mpUnpack message = .ok received ∧ List.Forall₂ Same values received := by
  obtain ⟨received, arrive, same⟩ := traverse_related fun value listed =>
    data_received (wellFormed value listed) (data value listed)
  obtain ⟨_, few, rfl⟩ := mp_pack_some packed
  exact ⟨received, by rw [unpack_encodings wellFormed few short, arrive, unpacked], same⟩

/-- The law at work for a tag and a table of one entry, as `analyze_event` would pack them. -/
theorem data_survives_table :
    ∃ received, mpUnpack [0xa1, 0x61, 0x81, 0xa1, 0x63, 0xc3] = .ok received ∧
      List.Forall₂ Same [.string [0x61], .table [(.string [0x63], .boolean true)]] received :=
  data_survives
    (fun value listed => by
      obtain rfl | last := List.mem_cons.mp listed
      · exact .string _
      · rw [List.mem_singleton.mp last]
        refine table_formed_iff.mpr ⟨List.pairwise_singleton _ _, fun entry among => ?_⟩
        rw [List.mem_singleton.mp among]
        exact ⟨.string _, rfl, .string _, .boolean _⟩)
    (fun value listed => by
      obtain rfl | last := List.mem_cons.mp listed
      · exact trivial
      · rw [List.mem_singleton.mp last]
        intro entry among
        rw [List.mem_singleton.mp among]
        exact ⟨trivial, trivial⟩)
    rfl (by decide)

end Dragonfly.MessagePack
