import Dragonfly.Transitions
import Mathlib.Data.List.Infix

/-!
# A first-in first-out channel fed by several senders

The channel keeps everything ever accepted, what still waits, and what has been
delivered. Delivered items followed by waiting ones are the accepted ones, in
the accepted order, after every run; this is the whole content of being first
in, first out. Items carry the sender that put them, so the order within one
sender can be read off the accepted list.

A merge of prefixes is an order-preserving interleaving of initial parts of the
senders' sequences. It is stated by naming the sender of each item, which fixes
multiplicities: equal items of two senders are still two items.
-/

namespace Dragonfly

universe u v

/-- The states of a channel: what was ever accepted, what of it still waits, and what was
delivered. -/
structure Fifo (Item : Type u) where
  accepted : List Item
  waiting : List Item
  delivered : List Item

namespace Fifo

variable {Item : Type u}

/-- Put one item at the back, or take the one at the front. -/
inductive Action (Item : Type u) where
  | put (item : Item)
  | take

/-- The actions on a channel: an item is accepted and waits behind the others, or the first
waiting item is delivered. Taking from an empty channel is impossible. -/
def act (channel : Fifo Item) : Action Item → Option (Fifo Item)
  | .put item => some
      { channel with
        accepted := channel.accepted ++ [item]
        waiting := channel.waiting ++ [item] }
  | .take =>
      match channel.waiting with
      | [] => none
      | item :: rest => some
          { channel with waiting := rest, delivered := channel.delivered ++ [item] }

/-- The runs of a channel, which starts empty and on which items are put and taken in any order. -/
def system (Item : Type u) : System (Fifo Item) (Action Item) where
  start channel := channel = ⟨[], [], []⟩
  next := act

/-- Nothing is lost, repeated or reordered: what was delivered followed by what
waits is what was accepted. -/
theorem conserved {channel : Fifo Item} (reached : (system Item).Reachable channel) :
    channel.delivered ++ channel.waiting = channel.accepted := by
  refine reached.invariant (fun channel => channel.delivered ++ channel.waiting = channel.accepted)
    ?_ ?_
  · rintro channel rfl
    rfl
  · rintro before action after exact _ moved
    cases action with
    | put item =>
      have same := Option.some.inj moved
      subst same
      simp only [← exact, List.append_assoc]
    | take =>
      cases front : before.waiting with
      | nil => simp [system, act, front] at moved
      | cons item rest =>
        have same : { before with waiting := rest, delivered := before.delivered ++ [item] } =
            after := by simpa [system, act, front] using moved
        subst same
        simpa [front] using exact

/-- The delivered items are an initial part of the accepted ones. -/
theorem delivered_initial {channel : Fifo Item} (reached : (system Item).Reachable channel) :
    channel.delivered <+: channel.accepted :=
  ⟨channel.waiting, conserved reached⟩

end Fifo

section Merging

variable {Sender : Type u} {Item : Type v} [DecidableEq Sender]

/-- The items of one sender in a list of tagged items, in the order in which they stand there. -/
def itemsOf (sender : Sender) (tagged : List (Sender × Item)) : List Item :=
  (tagged.filter (fun entry => decide (entry.1 = sender))).map Prod.snd

@[simp] theorem items_of_nil (sender : Sender) :
    itemsOf sender ([] : List (Sender × Item)) = [] := rfl

@[simp] theorem items_of_append (sender : Sender) (first second : List (Sender × Item)) :
    itemsOf sender (first ++ second) = itemsOf sender first ++ itemsOf sender second := by
  simp [itemsOf]

@[simp] theorem items_of_own (sender : Sender) (item : Item) :
    itemsOf sender [(sender, item)] = [item] := by
  simp [itemsOf]

theorem items_of_other {sender other : Sender} (item : Item) (different : other ≠ sender) :
    itemsOf sender [(other, item)] = [] := by
  simp [itemsOf, different]

/-- An initial part of an interleaving has initial parts of each sender's items. -/
theorem items_of_initial {first whole : List (Sender × Item)} (initial : first <+: whole)
    (sender : Sender) : itemsOf sender first <+: itemsOf sender whole := by
  obtain ⟨rest, rfl⟩ := initial
  exact ⟨itemsOf sender rest, (items_of_append sender first rest).symm⟩

/-- A tagged item of a list is one of the items of the sender it is tagged with. -/
theorem mem_items_of {tagged : List (Sender × Item)} {entry : Sender × Item}
    (listed : entry ∈ tagged) : entry.2 ∈ itemsOf entry.1 tagged :=
  List.mem_map.mpr ⟨entry, List.mem_filter.mpr ⟨listed, by simp⟩, rfl⟩

/-- The items are an order-preserving interleaving of initial parts of the
senders' sequences. -/
def MergesPrefixes (sequences : Sender → List Item) (items : List Item) : Prop :=
  ∃ tagged : List (Sender × Item), tagged.map Prod.snd = items ∧
    ∀ sender, itemsOf sender tagged <+: sequences sender

/-- The items are an order-preserving interleaving of the whole sequences. -/
def Merges (sequences : Sender → List Item) (items : List Item) : Prop :=
  ∃ tagged : List (Sender × Item), tagged.map Prod.snd = items ∧
    ∀ sender, itemsOf sender tagged = sequences sender

/-- A merge of prefixes contains only items of the sequences. -/
theorem MergesPrefixes.member {sequences : Sender → List Item} {items : List Item}
    (merged : MergesPrefixes sequences items) {item : Item} (present : item ∈ items) :
    ∃ sender, item ∈ sequences sender := by
  obtain ⟨tagged, rfl, initial⟩ := merged
  obtain ⟨entry, listed, rfl⟩ := List.mem_map.mp present
  exact ⟨entry.1, (initial entry.1).subset (mem_items_of listed)⟩

/-- What a channel delivered first merges initial parts of the sequences its
senders were working through. -/
theorem Fifo.merges_prefixes {channel : Fifo (Sender × Item)}
    (reached : (Fifo.system (Sender × Item)).Reachable channel)
    {sequences : Sender → List Item}
    (accepted : ∀ sender, itemsOf sender channel.accepted <+: sequences sender)
    {first : List (Sender × Item)} (initial : first <+: channel.delivered) :
    MergesPrefixes sequences (first.map Prod.snd) := by
  refine ⟨first, rfl, fun sender => ?_⟩
  exact (items_of_initial (initial.trans (Fifo.delivered_initial reached)) sender).trans
    (accepted sender)

end Merging

end Dragonfly
