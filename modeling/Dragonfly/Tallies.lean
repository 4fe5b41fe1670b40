import Mathlib.Data.List.Dedup
import Mathlib.Algebra.BigOperators.Group.List.Basic
import Mathlib.Algebra.GroupWithZero.Nat
import Mathlib.Data.List.Count
import Mathlib.Data.Finset.Card

/-!
# Tallies

A table keeps its entries in the order their keys were first stored. A tally is a table
that was filled by recording items one after the other: each recorded item has an entry,
which counts it, and every other key has none. So a tally has as many entries as there are
different items.
-/

namespace Dragonfly.Tallies

universe u v

variable {Key : Type u} {Value : Type v} [DecidableEq Key]

/-- Store a value under a key: in the place of the key, or behind all others. -/
def store (key : Key) (value : Value) : List (Key × Value) → List (Key × Value)
  | [] => [(key, value)]
  | entry :: rest =>
      if entry.1 = key then (key, value) :: rest else entry :: store key value rest

/-- A value that was stored under a key is found under this key. -/
theorem lookup_store_self (key : Key) (value : Value) (table : List (Key × Value)) :
    (store key value table).lookup key = some value := by
  induction table with
  | nil => simp [store]
  | cons entry rest inductionHypothesis =>
    obtain ⟨stored, held⟩ := entry
    by_cases same : stored = key
    · simp [store, same]
    · have missed : (key == stored) = false := beq_eq_false_iff_ne.mpr (Ne.symm same)
      simp [store, same, List.lookup_cons, missed, inductionHypothesis]

/-- Storing a value under one key leaves the values of all other keys as they were. -/
theorem lookup_store_other {key other : Key} (value : Value) (table : List (Key × Value))
    (differs : other ≠ key) : (store key value table).lookup other = table.lookup other := by
  have missed : (other == key) = false := beq_eq_false_iff_ne.mpr differs
  induction table with
  | nil => simp [store, differs]
  | cons entry rest inductionHypothesis =>
    obtain ⟨stored, held⟩ := entry
    by_cases same : stored = key
    · simp [store, same, List.lookup_cons, missed]
    · simp [store, same, List.lookup_cons, inductionHypothesis]

/-- The keys of a table are those that are found in it. -/
theorem mem_keys_iff (key : Key) (table : List (Key × Value)) :
    key ∈ table.map Prod.fst ↔ (table.lookup key).isSome = true := by
  induction table with
  | nil => simp
  | cons entry rest inductionHypothesis =>
    obtain ⟨stored, held⟩ := entry
    by_cases same : key = stored
    · simp [same]
    · have missed : (key == stored) = false := beq_eq_false_iff_ne.mpr same
      rw [List.map_cons, List.mem_cons, List.lookup_cons, missed, ← inductionHypothesis]
      exact or_iff_right same

/-- A stored key is new at the end, or in the place it had. -/
theorem keys_store (key : Key) (value : Value) (table : List (Key × Value)) :
    (store key value table).map Prod.fst =
      if key ∈ table.map Prod.fst then table.map Prod.fst else table.map Prod.fst ++ [key] := by
  induction table with
  | nil => simp [store]
  | cons entry rest inductionHypothesis =>
    by_cases same : entry.1 = key
    · simp [store, same]
    · have moved : key ∈ (entry :: rest).map Prod.fst ↔ key ∈ rest.map Prod.fst := by
        rw [List.map_cons, List.mem_cons]
        exact or_iff_right (Ne.symm same)
      rw [store, if_neg same, List.map_cons, inductionHypothesis]
      by_cases stored : key ∈ rest.map Prod.fst
      · rw [if_pos stored, if_pos (moved.mpr stored), List.map_cons]
      · rw [if_neg stored, if_neg (fun member => stored (moved.mp member)), List.map_cons,
          List.cons_append]

/-- Record one item in a table: its count is raised by one, or it gets the count one as a new
entry. -/
def record (table : List (Key × Nat)) (item : Key) : List (Key × Nat) :=
  store item ((table.lookup item).getD 0 + 1) table

/-- The table counts these items: each of them has one entry with the number of times it occurs,
and nothing else has one. -/
structure Counts (items : List Key) (table : List (Key × Nat)) : Prop where
  counted : ∀ key, table.lookup key = if key ∈ items then some (items.count key) else none
  distinct : (table.map Prod.fst).Nodup

/-- The empty table counts a list of no items. -/
theorem counts_nil : Counts ([] : List Key) [] :=
  ⟨fun _ => by simp, by simp⟩

/-- Recording an item in a table that counts some items makes it count that item as well. -/
theorem Counts.record {items : List Key} {table : List (Key × Nat)} (counts : Counts items table)
    (item : Key) : Counts (items ++ [item]) (record table item) := by
  constructor
  · intro key
    by_cases same : key = item
    · subst same
      rw [Tallies.record, lookup_store_self, counts.counted]
      by_cases known : key ∈ items
      · simp [known]
      · simp [known, List.count_eq_zero.mpr known]
    · rw [Tallies.record, lookup_store_other _ _ same, counts.counted]
      simp [same, List.count_append, Ne.symm same]
  · rw [Tallies.record, keys_store]
    by_cases known : item ∈ table.map Prod.fst
    · rw [if_pos known]
      exact counts.distinct
    · rw [if_neg known]
      exact counts.distinct.append (List.nodup_singleton item)
        (List.disjoint_singleton.mpr known)

/-- A table that counts some items has one entry for each different item among them. -/
theorem Counts.size {items : List Key} {table : List (Key × Nat)} (counts : Counts items table) :
    table.length = items.dedup.length := by
  have keys : ∀ key, key ∈ table.map Prod.fst ↔ key ∈ items.dedup := by
    intro key
    rw [mem_keys_iff, counts.counted, List.mem_dedup]
    by_cases known : key ∈ items <;> simp [known]
  have permuted : (table.map Prod.fst).Perm items.dedup :=
    (List.perm_ext_iff_of_nodup counts.distinct (List.nodup_dedup items)).mpr keys
  rw [← permuted.length_eq, List.length_map]

/-- The count found under a key is the number of times it occurs among the items, and zero for a
key without an entry. -/
theorem Counts.found {items : List Key} {table : List (Key × Nat)} (counts : Counts items table)
    (key : Key) : (table.lookup key).getD 0 = items.count key := by
  rw [counts.counted]
  by_cases known : key ∈ items
  · simp [known]
  · simp [known, List.count_eq_zero.mpr known]

/-- The counts of different keys add up to the number of items among them. -/
theorem sum_counts (items keys : List Key) (distinct : keys.Nodup) :
    (keys.map items.count).sum = items.countP fun item => decide (item ∈ keys) := by
  induction keys with
  | nil => simp
  | cons key rest inductionHypothesis =>
    obtain ⟨fresh, remaining⟩ := List.nodup_cons.mp distinct
    rw [List.map_cons, List.sum_cons, inductionHypothesis remaining]
    clear inductionHypothesis
    induction items with
    | nil => simp
    | cons item others split =>
      rw [List.count_cons, List.countP_cons, List.countP_cons, ← split]
      by_cases same : item = key
      · subst same
        simp [fresh]
        omega
      · simp [same]
        omega

/-- An entry of a table with different keys is the one that is found. -/
theorem lookup_entry {table : List (Key × Value)} (distinct : (table.map Prod.fst).Nodup)
    {entry : Key × Value} (listed : entry ∈ table) : table.lookup entry.1 = some entry.2 := by
  induction table with
  | nil => cases listed
  | cons first rest inductionHypothesis =>
    obtain ⟨fresh, remaining⟩ := List.nodup_cons.mp distinct
    rcases List.mem_cons.mp listed with rfl | behind
    · rw [List.lookup_cons, beq_self_eq_true]
    · have differs : entry.1 ≠ first.1 := by
        intro same
        exact fresh (same ▸ List.mem_map_of_mem behind)
      have missed : (entry.1 == first.1) = false := beq_eq_false_iff_ne.mpr differs
      rw [List.lookup_cons, missed]
      exact inductionHypothesis remaining behind

/-- An entry of a tally is an item with its number. -/
theorem Counts.entry {items : List Key} {table : List (Key × Nat)} (counts : Counts items table)
    {entry : Key × Nat} (listed : entry ∈ table) :
    entry.1 ∈ items ∧ entry.2 = items.count entry.1 := by
  have found := lookup_entry counts.distinct listed
  rw [counts.counted] at found
  by_cases known : entry.1 ∈ items
  · rw [if_pos known] at found
    exact ⟨known, (Option.some.inj found).symm⟩
  · rw [if_neg known] at found
    cases found

/-- The numbers of a tally add up to the number of items. -/
theorem Counts.total {items : List Key} {table : List (Key × Nat)} (counts : Counts items table) :
    (table.map Prod.snd).sum = items.length := by
  have numbers : table.map Prod.snd = (table.map Prod.fst).map items.count := by
    rw [List.map_map]
    exact List.map_congr_left fun entry listed => (counts.entry listed).2
  have keys : ∀ item ∈ items, decide (item ∈ table.map Prod.fst) = true := by
    intro item listed
    rw [decide_eq_true_iff, mem_keys_iff, counts.counted, if_pos listed]
    rfl
  rw [numbers, sum_counts _ _ counts.distinct]
  exact List.countP_eq_length.mpr keys

/-! ## Renamed keys -/

section Renamed

universe w

variable {Other : Type w} [DecidableEq Other] {rename : Key → Other} {known : Set Key}

/-- A table whose entries stand under other keys, with the same values in the same order. -/
def renamed (rename : Key → Other) (table : List (Key × Value)) : List (Other × Value) :=
  table.map (Prod.map rename id)

/-- A renamed key is found under its new name, where no two known keys get one name. -/
theorem lookup_renamed (injective : Set.InjOn rename known) {table : List (Key × Value)}
    (listed : ∀ entry ∈ table, entry.1 ∈ known) {key : Key} (member : key ∈ known) :
    (renamed rename table).lookup (rename key) = table.lookup key := by
  induction table with
  | nil => rfl
  | cons entry rest inductionHypothesis =>
    obtain ⟨first, others⟩ := List.forall_mem_cons.mp listed
    have same : (rename key == rename entry.1) = (key == entry.1) := by
      rw [Bool.eq_iff_iff, beq_iff_eq, beq_iff_eq]
      exact injective.eq_iff member first
    rw [renamed, List.map_cons, List.lookup_cons, List.lookup_cons, Prod.map_fst, same,
      ← renamed, inductionHypothesis others]
    rfl

/-- Storing under the new name is storing under the old one. -/
theorem store_renamed (injective : Set.InjOn rename known) {table : List (Key × Value)}
    (listed : ∀ entry ∈ table, entry.1 ∈ known) {key : Key} (member : key ∈ known)
    (value : Value) :
    store (rename key) value (renamed rename table) = renamed rename (store key value table) := by
  induction table with
  | nil => rfl
  | cons entry rest inductionHypothesis =>
    obtain ⟨first, others⟩ := List.forall_mem_cons.mp listed
    have stored := inductionHypothesis others
    have apart := injective.eq_iff first member
    rw [renamed, List.map_cons, store, store, Prod.map_fst, ← renamed, stored]
    by_cases same : entry.1 = key
    · rw [if_pos same, if_pos (apart.mpr same)]
      rfl
    · rw [if_neg same, if_neg (same ∘ apart.mp)]
      rfl

/-- The keys of a table where a known key was stored are known. -/
theorem store_known {table : List (Key × Value)} (listed : ∀ entry ∈ table, entry.1 ∈ known)
    {key : Key} (member : key ∈ known) (value : Value) :
    ∀ entry ∈ store key value table, entry.1 ∈ known := by
  induction table with
  | nil => simpa [store] using member
  | cons first rest inductionHypothesis =>
    obtain ⟨head, others⟩ := List.forall_mem_cons.mp listed
    rw [store]
    split
    · exact List.forall_mem_cons.mpr ⟨member, others⟩
    · exact List.forall_mem_cons.mpr ⟨head, inductionHypothesis others⟩

/-- Recording renamed items fills the renamed table, if the renaming keeps the keys apart. -/
theorem tally_renamed (injective : Set.InjOn rename known) {items : List Key}
    (members : ∀ item ∈ items, item ∈ known) {table : List (Key × Nat)}
    (listed : ∀ entry ∈ table, entry.1 ∈ known) :
    (items.map rename).foldl record (renamed rename table) =
      renamed rename (items.foldl record table) := by
  induction items generalizing table with
  | nil => rfl
  | cons item rest inductionHypothesis =>
    obtain ⟨member, others⟩ := List.forall_mem_cons.mp members
    have recorded : record (renamed rename table) (rename item) =
        renamed rename (record table item) := by
      rw [record, record, lookup_renamed injective listed member,
        store_renamed injective listed member]
    rw [List.map_cons, List.foldl_cons, List.foldl_cons, recorded]
    exact inductionHypothesis others (store_known listed member _)

/-- A renaming leaves as many different items as before exactly when no two of the items get one
name. -/
theorem distinct_renamed_iff (rename : Key → Other) (items : List Key) :
    (items.map rename).dedup.length = items.dedup.length ↔
      Set.InjOn rename {item | item ∈ items} := by
  have image : (items.map rename).toFinset = items.toFinset.image rename := by
    ext name
    simp
  rw [← List.card_toFinset, ← List.card_toFinset, image, Finset.card_image_iff,
    List.coe_toFinset]

end Renamed

end Dragonfly.Tallies
