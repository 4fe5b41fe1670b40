import Mathlib.Data.List.TakeDrop
import Mathlib.Data.List.Infix
import Mathlib.Data.Nat.Basic
import Mathlib.Tactic.Common

/-!
# Lines of a text, and a splitter with a bounded buffer

The lines of a text are what its separators terminate; the rest is the line
still being written. Both are total functions of the text, and the text is
recovered from them.

A splitter reads the text item by item into a buffer. A separator empties the
buffer, reporting its content unless it is empty; a full buffer is reported and
emptied without a separator. Each report carries the number of items consumed
when it was made. On lines shorter than the buffer the reports are the nonempty
lines; longer lines are cut, and the reports are whole lines exactly when every
long line is a multiple of the buffer.
-/

namespace Dragonfly

universe u
variable {Item : Type u} [DecidableEq Item]

/-! ## Lines -/

/-- The terminated lines, and the line no separator has ended yet. -/
structure Lines (Item : Type u) where
  complete : List (List Item)
  rest : List Item

/-- A separator ends the line; any other item extends it. -/
def Lines.push (separator : Item) (lines : Lines Item) (item : Item) : Lines Item :=
  if item = separator then ⟨lines.complete ++ [lines.rest], []⟩
  else ⟨lines.complete, lines.rest ++ [item]⟩

/-- The lines of a text: those that a separator terminates, and what stands behind the last one. -/
def linesOf (separator : Item) (text : List Item) : Lines Item :=
  text.foldl (Lines.push separator) ⟨[], []⟩

/-- Every line, terminated or not, is shorter than the bound. -/
def Lines.Short (bound : Nat) (lines : Lines Item) : Prop :=
  (∀ line ∈ lines.complete, line.length < bound) ∧ lines.rest.length < bound

instance (bound : Nat) (lines : Lines Item) : Decidable (lines.Short bound) :=
  inferInstanceAs (Decidable
    ((∀ line ∈ lines.complete, line.length < bound) ∧ lines.rest.length < bound))

@[simp] theorem lines_of_nil (separator : Item) : linesOf separator [] = ⟨[], []⟩ := rfl

theorem lines_of_snoc (separator : Item) (text : List Item) (item : Item) :
    linesOf separator (text ++ [item]) = (linesOf separator text).push separator item := by
  simp [linesOf]

/-- A separator at the end of a text completes the line in front of it and begins an empty one. -/
@[simp] theorem lines_of_separator (separator : Item) (text : List Item) :
    linesOf separator (text ++ [separator]) =
      ⟨(linesOf separator text).complete ++ [(linesOf separator text).rest], []⟩ := by
  simp [lines_of_snoc, Lines.push]

/-- Any other item at the end of a text extends the unterminated line and completes nothing. -/
theorem lines_of_other (separator : Item) (text : List Item) {item : Item}
    (other : item ≠ separator) :
    linesOf separator (text ++ [item]) =
      ⟨(linesOf separator text).complete, (linesOf separator text).rest ++ [item]⟩ := by
  simp [lines_of_snoc, Lines.push, other]

/-- The text is its terminated lines followed by the unterminated one. -/
theorem lines_exact (separator : Item) (text : List Item) :
    (linesOf separator text).complete.flatMap (fun line => line ++ [separator]) ++
      (linesOf separator text).rest = text := by
  induction text using List.reverseRecOn with
  | nil => rfl
  | append_singleton text item inductionHypothesis =>
    by_cases same : item = separator
    · subst same
      simp only [lines_of_separator, List.flatMap_append, List.flatMap_singleton,
        List.append_nil, ← List.append_assoc, inductionHypothesis]
    · rw [lines_of_other separator text same]
      simp only [← List.append_assoc, inductionHypothesis]

/-- No line of a text contains the separator, and neither does the unterminated rest. -/
theorem lines_separated (separator : Item) (text : List Item) :
    (∀ line ∈ (linesOf separator text).complete, separator ∉ line) ∧
      separator ∉ (linesOf separator text).rest := by
  induction text using List.reverseRecOn with
  | nil => simp
  | append_singleton text item inductionHypothesis =>
    obtain ⟨complete, rest⟩ := inductionHypothesis
    by_cases same : item = separator
    · subst same
      rw [lines_of_separator]
      constructor
      · intro line listed
        rcases List.mem_append.mp listed with earlier | last
        · exact complete line earlier
        · exact List.mem_singleton.mp last ▸ rest
      · exact List.not_mem_nil
    · rw [lines_of_other separator text same]
      constructor
      · exact complete
      · intro present
        rcases List.mem_append.mp present with earlier | last
        · exact rest earlier
        · exact same (List.mem_singleton.mp last).symm

/-- A text without any separator is one unterminated line. -/
theorem lines_of_unterminated {separator : Item} {text : List Item}
    (absent : separator ∉ text) : linesOf separator text = ⟨[], text⟩ := by
  induction text using List.reverseRecOn with
  | nil => rfl
  | append_singleton text item inductionHypothesis =>
    have other : item ≠ separator := by
      rintro rfl
      exact absent (List.mem_append_right _ List.mem_cons_self)
    rw [lines_of_other separator text other,
      inductionHypothesis (fun present => absent (List.mem_append_left _ present))]

/-- More text adds terminated lines behind those already there, which stay as they are. -/
theorem complete_initial (separator : Item) {first whole : List Item} (initial : first <+: whole) :
    (linesOf separator first).complete <+: (linesOf separator whole).complete := by
  obtain ⟨more, rfl⟩ := initial
  induction more using List.reverseRecOn with
  | nil => rw [List.append_nil]
  | append_singleton more item inductionHypothesis =>
    rw [← List.append_assoc]
    by_cases same : item = separator
    · subst same
      rw [lines_of_separator]
      exact inductionHypothesis.trans (List.prefix_append _ _)
    · rw [lines_of_other separator _ same]
      exact inductionHypothesis

/-- An initial part of a text with short lines has short lines. -/
theorem Lines.Short.initial {separator : Item} {bound : Nat} {first whole : List Item}
    (short : (linesOf separator whole).Short bound) (initial : first <+: whole) :
    (linesOf separator first).Short bound := by
  obtain ⟨more, rfl⟩ := initial
  induction more using List.reverseRecOn with
  | nil => rwa [List.append_nil] at short
  | append_singleton more item inductionHypothesis =>
    apply inductionHypothesis
    rw [← List.append_assoc] at short
    by_cases same : item = separator
    · subst same
      rw [lines_of_separator] at short
      constructor
      · exact fun line listed => short.1 line (List.mem_append_left _ listed)
      · exact short.1 _ (List.mem_append_right _ List.mem_cons_self)
    · rw [lines_of_other separator _ same] at short
      constructor
      · exact short.1
      · have longer : ((linesOf separator (first ++ more)).rest ++ [item]).length < bound := short.2
        rw [List.length_append] at longer
        exact Nat.lt_of_le_of_lt (Nat.le_add_right _ _) longer

/-! ## The splitter -/

/-- A report: how many items had been consumed, and the content of the buffer. -/
structure Piece (Item : Type u) where
  position : Nat
  items : List Item
deriving DecidableEq

/-- How many items were consumed, what was reported, and the buffer. -/
structure Split (Item : Type u) where
  consumed : Nat
  pieces : List (Piece Item)
  pending : List Item

/-- Consume one item with a buffer of the given capacity. -/
def Split.feed (separator : Item) (capacity : Nat) (split : Split Item) (item : Item) :
    Split Item :=
  if item = separator then
    if split.pending = [] then ⟨split.consumed + 1, split.pieces, []⟩
    else ⟨split.consumed + 1, split.pieces ++ [⟨split.consumed + 1, split.pending⟩], []⟩
  else if split.pending.length + 1 < capacity then
    ⟨split.consumed + 1, split.pieces, split.pending ++ [item]⟩
  else
    ⟨split.consumed + 1, split.pieces ++ [⟨split.consumed + 1, split.pending ++ [item]⟩], []⟩

/-- Split a text: feed its items to the splitter, one after the other, from the beginning. -/
def splitOf (separator : Item) (capacity : Nat) (text : List Item) : Split Item :=
  text.foldl (Split.feed separator capacity) ⟨0, [], []⟩

variable {separator : Item} {capacity : Nat}

@[simp] theorem split_of_nil : splitOf separator capacity [] = ⟨0, [], []⟩ := rfl

theorem split_of_snoc (text : List Item) (item : Item) :
    splitOf separator capacity (text ++ [item]) =
      (splitOf separator capacity text).feed separator capacity item := by
  simp [splitOf]

/-- A separator behind an empty buffer reports nothing; an empty line is passed over. -/
theorem feed_empty {split : Split Item} (empty : split.pending = []) :
    split.feed separator capacity separator = ⟨split.consumed + 1, split.pieces, []⟩ := by
  simp [Split.feed, empty]

/-- A separator behind a buffer that is not empty reports it as a line and empties it. -/
theorem feed_line {split : Split Item} (nonempty : split.pending ≠ []) :
    split.feed separator capacity separator =
      ⟨split.consumed + 1, split.pieces ++ [⟨split.consumed + 1, split.pending⟩], []⟩ := by
  simp [Split.feed, nonempty]

/-- An item that leaves room in the buffer is put behind those already there. -/
theorem feed_item {split : Split Item} {item : Item} (other : item ≠ separator)
    (room : split.pending.length + 1 < capacity) :
    split.feed separator capacity item =
      ⟨split.consumed + 1, split.pieces, split.pending ++ [item]⟩ := by
  simp [Split.feed, other, room]

/-- An item that fills the buffer has the whole buffer reported, although the line goes on. -/
theorem feed_full {split : Split Item} {item : Item} (other : item ≠ separator)
    (full : ¬ split.pending.length + 1 < capacity) :
    split.feed separator capacity item =
      ⟨split.consumed + 1, split.pieces ++ [⟨split.consumed + 1, split.pending ++ [item]⟩],
        []⟩ := by
  simp [Split.feed, other, full]

/-- Feeding an item counts it and only adds reports: those already made stay as they are. -/
theorem feed_extends (split : Split Item) (item : Item) :
    (split.feed separator capacity item).consumed = split.consumed + 1 ∧
      split.pieces <+: (split.feed separator capacity item).pieces := by
  unfold Split.feed
  split_ifs
  · exact ⟨rfl, List.prefix_rfl⟩
  · exact ⟨rfl, List.prefix_append _ _⟩
  · exact ⟨rfl, List.prefix_rfl⟩
  · exact ⟨rfl, List.prefix_append _ _⟩

/-- The splitter consumes the whole text, one item after the other. -/
@[simp] theorem split_consumed (text : List Item) :
    (splitOf separator capacity text).consumed = text.length := by
  induction text using List.reverseRecOn with
  | nil => rfl
  | append_singleton text item inductionHypothesis =>
    rw [split_of_snoc, (feed_extends _ item).1, inductionHypothesis, List.length_append,
      List.length_singleton]

/-- On short lines the reports are the nonempty terminated lines, and the buffer
holds the unterminated one. -/
theorem split_short {text : List Item} (short : (linesOf separator text).Short capacity) :
    (splitOf separator capacity text).pieces.map Piece.items =
        (linesOf separator text).complete.filter (fun line => decide (line ≠ [])) ∧
      (splitOf separator capacity text).pending = (linesOf separator text).rest := by
  induction text using List.reverseRecOn with
  | nil => exact ⟨rfl, rfl⟩
  | append_singleton text item inductionHypothesis =>
    obtain ⟨reported, buffered⟩ := inductionHypothesis (short.initial (List.prefix_append _ _))
    rw [split_of_snoc]
    by_cases same : item = separator
    · subst same
      rw [lines_of_separator, List.filter_append, ← reported, ← buffered]
      by_cases empty : (splitOf item capacity text).pending = []
      · simp [feed_empty empty, empty]
      · simp [feed_line empty, empty]
    · rw [lines_of_other separator text same] at short ⊢
      have room : (splitOf separator capacity text).pending.length + 1 < capacity := by
        have bound := short.2
        rwa [List.length_append, List.length_singleton, ← buffered] at bound
      rw [feed_item same room]
      exact ⟨reported, by rw [buffered]⟩

/-- No report has filled the buffer exactly if all lines are shorter than it. -/
theorem short_iff_pieces (positive : 0 < capacity) (text : List Item) :
    (linesOf separator text).Short capacity ↔
      ∀ piece ∈ (splitOf separator capacity text).pieces, piece.items.length < capacity := by
  constructor
  · intro short piece listed
    have line : piece.items ∈ (linesOf separator text).complete.filter
        fun line => decide (line ≠ []) := (split_short short).1 ▸ List.mem_map_of_mem listed
    exact short.1 _ (List.mem_of_mem_filter line)
  · intro all
    induction text using List.reverseRecOn with
    | nil => exact ⟨by simp, positive⟩
    | append_singleton text item inductionHypothesis =>
      rw [split_of_snoc] at all
      have earlier := (@feed_extends _ _ separator capacity (splitOf separator capacity text) item).2
      have short := inductionHypothesis fun piece listed => all piece (earlier.subset listed)
      have buffered := (split_short short).2
      by_cases same : item = separator
      · subst same
        rw [lines_of_separator]
        constructor
        · intro line listed
          rcases List.mem_append.mp listed with complete | last
          · exact short.1 line complete
          · rw [List.mem_singleton.mp last]
            exact short.2
        · exact positive
      · rw [lines_of_other separator text same]
        refine ⟨short.1, ?_⟩
        rw [List.length_append, List.length_singleton, ← buffered]
        by_contra full
        rw [feed_full same full] at all
        have filled := all _ (List.mem_append_right _ List.mem_cons_self)
        rw [List.length_append, List.length_singleton] at filled
        exact full filled

/-- The buffered items have caused no report: without them the split ends with
an empty buffer and the same reports. -/
theorem split_before_pending (text : List Item) :
    (splitOf separator capacity text).pending.length ≤ text.length ∧
      splitOf separator capacity
          (text.take (text.length - (splitOf separator capacity text).pending.length)) =
        ⟨text.length - (splitOf separator capacity text).pending.length,
          (splitOf separator capacity text).pieces, []⟩ := by
  induction text using List.reverseRecOn with
  | nil => simp
  | append_singleton text item inductionHypothesis =>
    have counted : (splitOf separator capacity (text ++ [item])).consumed = text.length + 1 := by
      simp
    by_cases empty : (splitOf separator capacity (text ++ [item])).pending = []
    · rw [empty, List.length_nil, Nat.sub_zero, List.take_length, List.length_append,
        List.length_singleton, ← counted]
      constructor
      · exact Nat.zero_le _
      · exact congrArg (Split.mk _ _) empty
    · obtain ⟨within, before⟩ := inductionHypothesis
      have buffered : splitOf separator capacity (text ++ [item]) =
          ⟨text.length + 1, (splitOf separator capacity text).pieces,
            (splitOf separator capacity text).pending ++ [item]⟩ := by
        rw [split_of_snoc] at empty ⊢
        by_cases same : item = separator
        · subst same
          by_cases none : (splitOf item capacity text).pending = []
          · exact absurd (by rw [feed_empty none]) empty
          · exact absurd (by rw [feed_line none]) empty
        · by_cases room : (splitOf separator capacity text).pending.length + 1 < capacity
          · rw [feed_item same room, split_consumed]
          · exact absurd (by rw [feed_full same room]) empty
      have shift : text.length + 1 - ((splitOf separator capacity text).pending.length + 1) =
          text.length - (splitOf separator capacity text).pending.length := by omega
      rw [buffered]
      simp only [List.length_append, List.length_singleton, shift]
      constructor
      · omega
      · rw [List.take_append_of_le_length (by omega)]
        exact before

/-! ## Whole lines -/

/-- The report is a line of the text: it is terminated where it was reported, and
it begins at the start of the text or behind a separator. -/
def WholeLine (separator : Item) (text : List Item) (piece : Piece Item) : Prop :=
  ∃ before after, text = before ++ piece.items ++ separator :: after ∧
    (before = [] ∨ ∃ earlier, before = earlier ++ [separator]) ∧
    separator ∉ piece.items ∧ piece.position = before.length + piece.items.length + 1

omit [DecidableEq Item] in
/-- A line of a text is a line of every longer text. -/
theorem WholeLine.extend {text : List Item} {piece : Piece Item}
    (whole : WholeLine separator text piece) (more : List Item) :
    WholeLine separator (text ++ more) piece := by
  obtain ⟨before, after, rfl, starts, inside, position⟩ := whole
  exact ⟨before, after ++ more, by simp, starts, inside, position⟩

omit [DecidableEq Item] in
/-- A line of a longer text that ends within the text is a line of it. -/
theorem WholeLine.restrict {text more : List Item} {piece : Piece Item}
    (whole : WholeLine separator (text ++ more) piece) (within : piece.position ≤ text.length) :
    WholeLine separator text piece := by
  obtain ⟨before, after, exact, starts, inside, position⟩ := whole
  have regrouped : text ++ more = (before ++ piece.items ++ [separator]) ++ after := by
    rw [exact]
    simp
  have shorter : (before ++ piece.items ++ [separator]).length ≤ text.length := by
    simp only [List.length_append, List.length_singleton]
    omega
  have initial : before ++ piece.items ++ [separator] <+: text :=
    List.prefix_of_prefix_length_le (regrouped ▸ List.prefix_append _ _)
      (List.prefix_append text more) shorter
  obtain ⟨remaining, rebuilt⟩ := initial
  exact ⟨before, remaining, by rw [← rebuilt]; simp, starts, inside, position⟩

/-- The buffer holds the end of the unterminated line: as many whole buffers as
fit were reported before it. -/
theorem pending_exact (positive : 0 < capacity) (text : List Item) :
    (splitOf separator capacity text).pending =
      (linesOf separator text).rest.drop
        ((linesOf separator text).rest.length / capacity * capacity) := by
  induction text using List.reverseRecOn with
  | nil => simp
  | append_singleton text item inductionHypothesis =>
    rw [split_of_snoc]
    by_cases same : item = separator
    · subst same
      rw [lines_of_separator]
      by_cases empty : (splitOf item capacity text).pending = []
      · simp [feed_empty empty]
      · simp [feed_line empty]
    · rw [lines_of_other separator text same]
      generalize (linesOf separator text).rest = rest at inductionHypothesis
      have size : (splitOf separator capacity text).pending.length = rest.length % capacity := by
        rw [inductionHypothesis, List.length_drop]
        have divided := Nat.div_add_mod' rest.length capacity
        omega
      have fits : rest.length / capacity * capacity ≤ rest.length := Nat.div_mul_le_self _ _
      by_cases room : (splitOf separator capacity text).pending.length + 1 < capacity
      · have quotient : (rest.length + 1) / capacity = rest.length / capacity := by
          rw [Nat.succ_div]
          have notMultiple : ¬ capacity ∣ rest.length + 1 := by
            intro multiple
            have zero := Nat.mod_eq_zero_of_dvd multiple
            rw [Nat.add_mod, ← size, Nat.mod_eq_of_lt (by omega : 1 < capacity),
              Nat.mod_eq_of_lt room] at zero
            omega
          rw [if_neg notMultiple, Nat.add_zero]
        rw [feed_item same room, List.length_append, List.length_singleton, quotient,
          List.drop_append_of_le_length fits, inductionHypothesis]
      · have last : rest.length % capacity + 1 = capacity := by
          have bound := Nat.mod_lt rest.length positive
          omega
        have multiple : (rest.length + 1) / capacity * capacity = rest.length + 1 := by
          apply Nat.div_mul_cancel
          rw [← Nat.div_add_mod rest.length capacity, Nat.add_assoc, last]
          exact Nat.dvd_add (Nat.dvd_mul_right _ _) (Nat.dvd_refl _)
        rw [feed_full same room, List.length_append, List.length_singleton, multiple]
        simp

/-- The buffer is shorter than its capacity between two items. -/
theorem pending_length (positive : 0 < capacity) (text : List Item) :
    (splitOf separator capacity text).pending.length =
      (linesOf separator text).rest.length % capacity := by
  rw [pending_exact positive, List.length_drop]
  have divided := Nat.div_add_mod' (linesOf separator text).rest.length capacity
  omega

/-- No report is longer than the buffer, be it a whole line or a part of one. -/
theorem piece_bounded (positive : 0 < capacity) (text : List Item) :
    ∀ piece ∈ (splitOf separator capacity text).pieces, piece.items.length ≤ capacity := by
  induction text using List.reverseRecOn with
  | nil => simp
  | append_singleton text item inductionHypothesis =>
    have bound : (splitOf separator capacity text).pending.length < capacity := by
      rw [pending_length positive]
      exact Nat.mod_lt _ positive
    have added (last : Piece Item) (fits : last.items.length ≤ capacity) :
        ∀ piece ∈ (splitOf separator capacity text).pieces ++ [last],
          piece.items.length ≤ capacity := by
      intro piece listed
      rcases List.mem_append.mp listed with earlier | new
      · exact inductionHypothesis piece earlier
      · exact List.mem_singleton.mp new ▸ fits
    rw [split_of_snoc]
    unfold Split.feed
    split_ifs with same empty room
    · exact inductionHypothesis
    · exact added _ (Nat.le_of_lt bound)
    · exact inductionHypothesis
    · apply added
      rw [List.length_append, List.length_singleton]
      omega

omit [DecidableEq Item] in
/-- The text before the unterminated line ends with a separator, if there is any. -/
theorem lines_start (separator : Item) (lines : List (List Item)) :
    lines.flatMap (fun line => line ++ [separator]) = [] ∨
      ∃ earlier, lines.flatMap (fun line => line ++ [separator]) = earlier ++ [separator] := by
  induction lines using List.reverseRecOn with
  | nil => exact .inl rfl
  | append_singleton lines last _ =>
    exact .inr ⟨lines.flatMap (fun line => line ++ [separator]) ++ last, by simp⟩

/-- A nonempty part of a line that does not begin the line is no whole line. -/
theorem not_whole_line {text cut last : List Item} (nonempty : cut ≠ [])
    (rest : (linesOf separator text).rest = cut ++ last) :
    ¬ WholeLine separator (text ++ [separator]) ⟨text.length + 1, last⟩ := by
  rintro ⟨before, after, exact, starts, inside, position⟩
  have lengths := congrArg List.length exact
  simp only [List.length_append, List.length_cons, List.length_nil] at lengths position
  have vacant : after = [] := List.eq_nil_of_length_eq_zero (by omega)
  subst vacant
  have head : text = before ++ last := List.append_inj_left' exact rfl
  have parts : (linesOf separator text).complete.flatMap (fun line => line ++ [separator]) ++ cut =
      before := by
    have rebuilt := lines_exact separator text
    rw [rest, ← List.append_assoc] at rebuilt
    exact List.append_cancel_right (rebuilt.trans head)
  have separated : separator ∉ cut := by
    intro present
    have inRest : separator ∈ (linesOf separator text).rest := rest ▸ List.mem_append_left _ present
    exact (lines_separated separator text).2 inRest
  rcases starts with none | ⟨earlier, ends⟩
  · exact nonempty (List.append_eq_nil_iff.mp (parts.trans none)).2
  · rcases List.eq_nil_or_concat cut with none | ⟨first, item, rfl⟩
    · exact nonempty none
    · have same : item = separator := by
        rw [ends, List.concat_eq_append, ← List.append_assoc] at parts
        exact List.singleton_inj.mp (List.append_inj_right' parts rfl)
      exact separated (by simp [same])

/-- A report was made when no more items had been consumed than there are. -/
theorem piece_position (text : List Item) :
    ∀ piece ∈ (splitOf separator capacity text).pieces, piece.position ≤ text.length := by
  induction text using List.reverseRecOn with
  | nil => simp
  | append_singleton text item inductionHypothesis =>
    have earlier : ∀ piece ∈ (splitOf separator capacity text).pieces,
        piece.position ≤ (text ++ [item]).length := by
      intro piece listed
      rw [List.length_append]
      exact Nat.le_add_right_of_le (inductionHypothesis piece listed)
    have added (items : List Item) : ∀ piece ∈ (splitOf separator capacity text).pieces ++
        [⟨(splitOf separator capacity text).consumed + 1, items⟩],
          piece.position ≤ (text ++ [item]).length := by
      intro piece listed
      rcases List.mem_append.mp listed with old | new
      · exact earlier piece old
      · rw [List.mem_singleton.mp new]
        simp
    rw [split_of_snoc]
    unfold Split.feed
    split_ifs
    · exact earlier
    · exact added _
    · exact earlier
    · exact added _

/-- Apart from those that fill the buffer, all reports are whole lines of the text, at their
places. -/
def WholeLinesOnly (separator : Item) (capacity : Nat) (text : List Item)
    (pieces : List (Piece Item)) : Prop :=
  ∀ piece ∈ pieces, piece.items.length ≠ capacity → WholeLine separator text piece

omit [DecidableEq Item] in
/-- One more report has to be a whole line unless it is a full buffer. -/
theorem whole_lines_only_snoc (text : List Item) (pieces : List (Piece Item)) (last : Piece Item) :
    WholeLinesOnly separator capacity text (pieces ++ [last]) ↔
      WholeLinesOnly separator capacity text pieces ∧
        (last.items.length ≠ capacity → WholeLine separator text last) := by
  constructor
  · intro whole
    constructor
    · exact fun piece listed => whole piece (List.mem_append_left _ listed)
    · exact whole last (List.mem_append_right _ List.mem_cons_self)
  · rintro ⟨earlier, new⟩ piece listed
    rcases List.mem_append.mp listed with old | added
    · exact earlier piece old
    · exact List.mem_singleton.mp added ▸ new

/-- Whether the reports made so far are whole lines does not depend on what
follows. -/
theorem whole_lines_only_extend (text more : List Item) :
    WholeLinesOnly separator capacity (text ++ more) (splitOf separator capacity text).pieces ↔
      WholeLinesOnly separator capacity text (splitOf separator capacity text).pieces := by
  constructor
  · intro whole piece listed notFull
    exact (whole piece listed notFull).restrict (piece_position text piece listed)
  · intro whole piece listed notFull
    exact (whole piece listed notFull).extend more

/-- What a separator ends is a whole line exactly when the line is shorter than the buffer, and a
full buffer when its length is a multiple of the capacity. -/
theorem pending_whole_iff (positive : 0 < capacity) {text : List Item}
    (nonempty : (splitOf separator capacity text).pending ≠ []) :
    ((splitOf separator capacity text).pending.length ≠ capacity →
        WholeLine separator (text ++ [separator])
          ⟨text.length + 1, (splitOf separator capacity text).pending⟩) ↔
      (linesOf separator text).rest.length < capacity ∨
        capacity ∣ (linesOf separator text).rest.length := by
  have size : (splitOf separator capacity text).pending.length =
      (linesOf separator text).rest.length % capacity := pending_length positive text
  have buffered : (splitOf separator capacity text).pending = (linesOf separator text).rest.drop
      ((linesOf separator text).rest.length / capacity * capacity) := pending_exact positive text
  have positiveSize := List.length_pos_iff.mpr nonempty
  have bounded := Nat.mod_lt (linesOf separator text).rest.length positive
  have notFull : (splitOf separator capacity text).pending.length ≠ capacity := by omega
  by_cases short : (linesOf separator text).rest.length < capacity
  · rw [Nat.div_eq_of_lt short, Nat.zero_mul, List.drop_zero] at buffered
    simp only [short, true_or, iff_true]
    intro _
    refine ⟨(linesOf separator text).complete.flatMap (fun line => line ++ [separator]), [], ?_,
      lines_start separator _, ?_, ?_⟩
    · rw [buffered, lines_exact]
    · rw [buffered]
      exact (lines_separated separator text).2
    · rw [buffered, ← List.length_append, lines_exact]
  · have indivisible : ¬ capacity ∣ (linesOf separator text).rest.length := by
      intro multiple
      rw [Nat.mod_eq_zero_of_dvd multiple] at size
      omega
    simp only [short, indivisible, or_false, iff_false]
    intro whole
    have divided := List.take_append_drop
      ((linesOf separator text).rest.length / capacity * capacity) (linesOf separator text).rest
    rw [← buffered] at divided
    refine not_whole_line ?_ divided.symm (whole notFull)
    intro none
    have lengths := congrArg List.length divided
    rw [none, List.nil_append] at lengths
    omega

/-- Apart from full buffers, every report is a whole line exactly when every
terminated line is shorter than the buffer or a multiple of it. -/
theorem whole_lines_iff (positive : 0 < capacity) (text : List Item) :
    WholeLinesOnly separator capacity text (splitOf separator capacity text).pieces ↔
      ∀ line ∈ (linesOf separator text).complete,
        line.length < capacity ∨ capacity ∣ line.length := by
  induction text using List.reverseRecOn with
  | nil => simp [WholeLinesOnly]
  | append_singleton text item inductionHypothesis =>
    have size : (splitOf separator capacity text).pending.length =
        (linesOf separator text).rest.length % capacity := pending_length positive text
    have earlier : WholeLinesOnly separator capacity (text ++ [item])
          (splitOf separator capacity text).pieces ↔
        ∀ line ∈ (linesOf separator text).complete,
          line.length < capacity ∨ capacity ∣ line.length :=
      (whole_lines_only_extend text [item]).trans inductionHypothesis
    rw [split_of_snoc]
    by_cases same : item = separator
    · subst same
      rw [lines_of_separator]
      simp only [List.mem_append, List.mem_singleton, or_imp, forall_and, forall_eq]
      by_cases empty : (splitOf item capacity text).pending = []
      · have multiple : capacity ∣ (linesOf item text).rest.length := by
          rw [empty] at size
          exact Nat.dvd_of_mod_eq_zero size.symm
        rw [feed_empty empty, earlier]
        simp only [multiple, or_true, and_true]
      · rw [feed_line empty, whole_lines_only_snoc, earlier, split_consumed]
        exact and_congr_right fun _ => pending_whole_iff positive empty
    · rw [lines_of_other separator text same]
      by_cases room : (splitOf separator capacity text).pending.length + 1 < capacity
      · rw [feed_item same room]
        exact earlier
      · rw [feed_full same room, whole_lines_only_snoc, earlier]
        have full : (splitOf separator capacity text).pending.length + 1 = capacity := by
          have bounded := Nat.mod_lt (linesOf separator text).rest.length positive
          omega
        simp [full]

end Dragonfly
