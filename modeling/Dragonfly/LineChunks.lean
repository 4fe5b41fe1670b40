import Dragonfly.LineSplitter

/-!
# A text cut into chunks

A reader with a bounded buffer takes a text from its front: up to the first separator and
with it, and no more items than fit. So a chunk is a line with its separator, or a full
buffer of items of one line, or what is left of the text.

A chunk begins at the start of a line, or a multiple of the bound behind it. All chunks end
with a separator exactly where the text does and every line fits with its separator.
-/

namespace Dragonfly

universe u
variable {Item : Type u} [DecidableEq Item]

/-- The first chunk of a text: the items up to the first separator and with it, but no more than
the bound. -/
def firstChunk (separator : Item) (bound : Nat) (text : List Item) : List Item :=
  (text.take bound).take ((text.take bound).findIdx (fun item => item == separator) + 1)

/-- What a chunk is, with the text and what it leaves of it. -/
inductive Chunked (separator : Item) (bound : Nat) : List Item → List Item → List Item → Prop where
  | line (line more : List Item) (unbroken : separator ∉ line) (fits : line.length < bound) :
      Chunked separator bound (line ++ separator :: more) (line ++ [separator]) more
  | full (piece more : List Item) (unbroken : separator ∉ piece) (size : piece.length = bound) :
      Chunked separator bound (piece ++ more) piece more
  | last (text : List Item) (unbroken : separator ∉ text) (short : text.length < bound) :
      Chunked separator bound text text []

/-- A suffix of the text at which a chunk begins. -/
inductive Cut (separator : Item) (bound : Nat) (text : List Item) : List Item → Prop where
  | start : Cut separator bound text text
  | next (back : List Item) (cut : Cut separator bound text back) (nonempty : back ≠ []) :
      Cut separator bound text (back.drop (firstChunk separator bound back).length)

variable {separator : Item} {bound : Nat}

/-- The index of the first separator of a text is the length of its first line. -/
theorem find_separator {line : List Item} (unbroken : separator ∉ line) (more : List Item) :
    (line ++ separator :: more).findIdx (fun item => item == separator) = line.length := by
  have absent : line.findIdx (fun item => item == separator) = line.length := by
    rw [List.findIdx_eq_length]
    intro item listed
    simpa using fun same : item = separator => unbroken (same ▸ listed)
  rw [List.findIdx_append, absent, if_neg (Nat.lt_irrefl _), List.findIdx_cons]
  simp

/-- Where there is no separator, the index that is found is the number of the items. -/
theorem find_none {items : List Item} (unbroken : separator ∉ items) :
    items.findIdx (fun item => item == separator) = items.length := by
  rw [List.findIdx_eq_length]
  intro item listed
  simpa using fun same : item = separator => unbroken (same ▸ listed)

/-- The first chunk of a text, with what stands behind it, is one that the relation of chunks
allows. -/
theorem first_chunked (separator : Item) (bound : Nat) (text : List Item) :
    Chunked separator bound text (firstChunk separator bound text)
      (text.drop (firstChunk separator bound text).length) := by
  by_cases present : separator ∈ text.take bound
  · obtain ⟨line, behind, front, unbroken⟩ := List.eq_append_cons_of_mem present
    have fits : line.length < bound := by
      have size := congrArg List.length front
      rw [List.length_append, List.length_cons, List.length_take] at size
      omega
    have chunk : firstChunk separator bound text = line ++ [separator] := by
      rw [firstChunk, front, find_separator unbroken, List.take_append]
      simp
    obtain ⟨more, whole⟩ : ∃ more, text = line ++ [separator] ++ more := by
      refine ⟨behind ++ text.drop bound, ?_⟩
      have halves := List.take_append_drop bound text
      rw [front] at halves
      simpa using halves.symm
    rw [chunk, whole, List.drop_left, List.append_assoc]
    exact .line line more unbroken fits
  · have chunk : firstChunk separator bound text = text.take bound := by
      rw [firstChunk, find_none present, List.take_of_length_le (Nat.le_succ _)]
    rw [chunk]
    by_cases long : bound ≤ text.length
    · have size : (text.take bound).length = bound := List.length_take_of_le long
      have full := Chunked.full (text.take bound) (text.drop bound) present size
      rw [List.take_append_drop] at full
      rwa [size]
    · have whole : text.take bound = text := List.take_of_length_le (Nat.le_of_not_le long)
      rw [whole] at present
      rw [whole, List.drop_length]
      exact .last text present (Nat.lt_of_not_le long)

omit [DecidableEq Item] in
/-- A chunk is the front of its text, and what stands behind it is the rest. -/
theorem Chunked.whole {text chunk more : List Item}
    (chunked : Chunked separator bound text chunk more) : text = chunk ++ more := by
  cases chunked with
  | line line more => simp
  | full piece more => rfl
  | last text => simp

omit [DecidableEq Item] in
/-- A chunk is not empty, unless the text it is taken from is. -/
theorem Chunked.nonempty {text chunk more : List Item} (positive : 0 < bound)
    (chunked : Chunked separator bound text chunk more) (nonempty : text ≠ []) : chunk ≠ [] := by
  cases chunked with
  | line line more => simp
  | full piece more unbroken size =>
    rintro rfl
    exact Nat.ne_of_lt positive size
  | last text => exact nonempty

omit [DecidableEq Item] in
/-- A chunk has no more items than the bound, be it a line or a part of one. -/
theorem Chunked.bounded {text chunk more : List Item}
    (chunked : Chunked separator bound text chunk more) : chunk.length ≤ bound := by
  cases chunked with
  | line line more unbroken fits =>
    rw [List.length_append, List.length_singleton]
    exact fits
  | full piece more unbroken size => exact Nat.le_of_eq size
  | last text unbroken short => exact Nat.le_of_lt short

/-! ## Where a chunk begins -/

/-- The lines of a text whose first line is terminated: that line, and the lines of what stands
behind its separator. -/
theorem lines_of_line {line : List Item} (unbroken : separator ∉ line) (more : List Item) :
    linesOf separator (line ++ separator :: more) =
      ⟨line :: (linesOf separator more).complete, (linesOf separator more).rest⟩ := by
  induction more using List.reverseRecOn with
  | nil =>
    rw [lines_of_separator, lines_of_unterminated unbroken]
    rfl
  | append_singleton more item inductionHypothesis =>
    rw [← List.cons_append, ← List.append_assoc]
    by_cases same : item = separator
    · subst same
      rw [lines_of_separator, lines_of_separator, inductionHypothesis]
      rfl
    · rw [lines_of_other separator _ same, lines_of_other separator more same,
        inductionHypothesis]

/-- Items without separator belong to the first line of what follows them, or leave the whole
unterminated. -/
theorem lines_of_piece {piece : List Item} (unbroken : separator ∉ piece) (more : List Item) :
    (∃ line behind, more = line ++ separator :: behind ∧ separator ∉ line ∧
        linesOf separator (piece ++ more) =
          ⟨(piece ++ line) :: (linesOf separator behind).complete,
            (linesOf separator behind).rest⟩) ∨
      (separator ∉ more ∧ linesOf separator (piece ++ more) = ⟨[], piece ++ more⟩) := by
  by_cases present : separator ∈ more
  · obtain ⟨line, behind, rfl, absent⟩ := List.eq_append_cons_of_mem present
    have first : separator ∉ piece ++ line := by
      rw [List.mem_append, not_or]
      exact ⟨unbroken, absent⟩
    refine .inl ⟨line, behind, rfl, absent, ?_⟩
    rw [← List.append_assoc, lines_of_line first]
  · have whole : separator ∉ piece ++ more := by
      rw [List.mem_append, not_or]
      exact ⟨unbroken, present⟩
    exact .inr ⟨present, lines_of_unterminated whole⟩

/-- Behind items without separator the unterminated line is longer by them, or the same. -/
theorem rest_of_piece {piece : List Item} (unbroken : separator ∉ piece) (more : List Item) :
    (linesOf separator (piece ++ more)).rest = (linesOf separator more).rest ∨
      (linesOf separator (piece ++ more)).rest = piece ++ (linesOf separator more).rest := by
  rcases lines_of_piece unbroken more with ⟨line, behind, rfl, absent, lines⟩ | ⟨absent, lines⟩
  · left
    rw [lines, lines_of_line absent]
  · right
    rw [lines, lines_of_unterminated absent]

/-- Behind a whole chunk the unterminated line is as long as without it, up to the bound. -/
theorem rest_behind_chunk {text chunk more : List Item}
    (chunked : Chunked separator bound text chunk more) (further : more ≠ []) (back : List Item) :
    (linesOf separator (chunk ++ back)).rest.length % bound =
      (linesOf separator back).rest.length % bound := by
  cases chunked with
  | line line more unbroken fits =>
    rw [List.append_assoc, List.singleton_append, lines_of_line unbroken]
  | full piece more unbroken size =>
    rcases rest_of_piece unbroken back with same | longer
    · rw [same]
    · rw [longer, List.length_append, size, Nat.add_mod_left]
  | last text => exact absurd rfl further

/-- A proper front of a chunk is a line that is not finished and not full. -/
theorem rest_inside_chunk {text chunk more front : List Item}
    (chunked : Chunked separator bound text chunk more) (initial : front <+: chunk)
    (proper : front.length < chunk.length) :
    (linesOf separator front).rest.length = front.length ∧ front.length < bound := by
  have unbroken : separator ∉ front := by
    intro present
    cases chunked with
    | line line more unbroken fits =>
      rw [List.length_append, List.length_singleton] at proper
      have within : front <+: line :=
        List.prefix_of_prefix_length_le initial (List.prefix_append line [separator])
          (Nat.le_of_lt_succ proper)
      exact unbroken (within.subset present)
    | full piece more unbroken size => exact unbroken (initial.subset present)
    | last text unbroken short => exact unbroken (initial.subset present)
  rw [lines_of_unterminated unbroken]
  exact ⟨rfl, Nat.lt_of_lt_of_le proper chunked.bounded⟩

/-- What is left of a text is a suffix of it. -/
theorem Cut.suffix {text back : List Item} (cut : Cut separator bound text back) :
    back <:+ text := by
  induction cut with
  | start => exact List.suffix_refl text
  | next back cut nonempty inductionHypothesis =>
    exact (List.drop_suffix _ _).trans inductionHypothesis

/-- Cutting goes on behind the first chunk, and nowhere else. -/
theorem cut_behind_iff {text back : List Item} (nonempty : text ≠ []) :
    Cut separator bound text back ↔
      back = text ∨
        Cut separator bound (text.drop (firstChunk separator bound text).length) back := by
  constructor
  · intro cut
    induction cut with
    | start => exact .inl rfl
    | next back cut further inductionHypothesis =>
      right
      rcases inductionHypothesis with rfl | behind
      · exact .start
      · exact .next back behind further
  · rintro (rfl | cut)
    · exact .start
    · induction cut with
      | start => exact .next text .start nonempty
      | next back cut further inductionHypothesis => exact .next back inductionHypothesis further

/-- Before the end of the text a chunk begins where a line does, or a multiple of the bound
behind the start of one. The induction is on what stands in front, one chunk after the
other. -/
theorem cut_iff (positive : 0 < bound) (front : List Item) {back : List Item}
    (further : back ≠ []) :
    Cut separator bound (front ++ back) back ↔
      (linesOf separator front).rest.length % bound = 0 := by
  induction size : front.length using Nat.strong_induction_on generalizing front with
  | _ measure inductionHypothesis =>
    by_cases empty : front = []
    · subst empty
      exact ⟨fun _ => rfl, fun _ => .start⟩
    · have nonempty : front ++ back ≠ [] := by simp [further]
      have other : back ≠ front ++ back := by
        intro same
        exact empty (List.self_eq_append_left.mp same)
      have chunked := first_chunked separator bound (front ++ back)
      rw [cut_behind_iff nonempty, or_iff_right other]
      generalize (front ++ back).drop (firstChunk separator bound (front ++ back)).length = more
        at chunked ⊢
      generalize firstChunk separator bound (front ++ back) = chunk at chunked
      have whole := chunked.whole
      by_cases inside : chunk.length ≤ front.length
      · obtain ⟨rest, split⟩ := List.prefix_of_prefix_length_le ⟨more, whole.symm⟩
          (List.prefix_append front back) inside
        rw [← split, List.append_assoc] at whole
        obtain rfl := List.append_cancel_left whole
        have shorter : rest.length < measure := by
          have lengths := congrArg List.length split
          have positiveSize := List.length_pos_iff.mpr (chunked.nonempty positive nonempty)
          rw [List.length_append] at lengths
          omega
        rw [inductionHypothesis rest.length shorter rest rfl, ← split,
          rest_behind_chunk chunked (by simp [further])]
      · have proper := Nat.lt_of_not_le inside
        have initial : front <+: chunk := List.prefix_of_prefix_length_le
          (List.prefix_append front back) ⟨more, whole.symm⟩ (Nat.le_of_lt proper)
        obtain ⟨rest, short⟩ := rest_inside_chunk chunked initial proper
        have positiveSize := List.length_pos_iff.mpr empty
        rw [rest, Nat.mod_eq_of_lt short]
        constructor
        · intro cut
          have longer := cut.suffix.length_le
          have lengths := congrArg List.length whole
          rw [List.length_append, List.length_append] at lengths
          omega
        · intro zero
          omega

/-! ## Texts of whole lines -/

/-- The text ends with a separator, unless it is empty, and each line fits with its own. -/
structure Fitting (separator : Item) (bound : Nat) (text : List Item) : Prop where
  terminated : (linesOf separator text).rest = []
  fits : ∀ line ∈ (linesOf separator text).complete, line.length < bound

instance (separator : Item) (bound : Nat) (text : List Item) :
    Decidable (Fitting separator bound text) :=
  decidable_of_iff ((linesOf separator text).rest = [] ∧
      ∀ line ∈ (linesOf separator text).complete, line.length < bound)
    ⟨fun both => ⟨both.1, both.2⟩, fun fitting => ⟨fitting.terminated, fitting.fits⟩⟩

/-- A line that fits does not matter to the rest of the text. -/
theorem fitting_line {line : List Item} (unbroken : separator ∉ line) (fits : line.length < bound)
    (more : List Item) :
    Fitting separator bound (line ++ separator :: more) ↔ Fitting separator bound more := by
  have lines := lines_of_line unbroken more
  constructor
  · rintro ⟨terminated, all⟩
    rw [lines] at terminated all
    exact ⟨terminated, fun other listed => all other (List.mem_cons_of_mem _ listed)⟩
  · rintro ⟨terminated, all⟩
    constructor
    · rw [lines]
      exact terminated
    · rw [lines]
      intro other listed
      rcases List.mem_cons.mp listed with rfl | behind
      · exact fits
      · exact all other behind

/-- A text whose first items fill the buffer without a separator is none. -/
theorem not_fitting_full (positive : 0 < bound) {piece : List Item} (unbroken : separator ∉ piece)
    (size : piece.length = bound) (more : List Item) :
    ¬ Fitting separator bound (piece ++ more) := by
  rintro ⟨terminated, fits⟩
  rcases lines_of_piece unbroken more with ⟨line, behind, -, -, lines⟩ | ⟨-, lines⟩
  · rw [lines] at fits
    have short := fits (piece ++ line) List.mem_cons_self
    rw [List.length_append] at short
    omega
  · rw [lines] at terminated
    have none : piece = [] := (List.append_eq_nil_iff.mp terminated).1
    rw [none] at size
    exact Nat.ne_of_lt positive size

/-- A text consists of lines that fit exactly if its first chunk ends with a separator, and what
this chunk leaves consists of such lines. -/
theorem fitting_chunk_iff (positive : 0 < bound) {text chunk more : List Item}
    (chunked : Chunked separator bound text chunk more) (nonempty : text ≠ []) :
    Fitting separator bound text ↔ separator ∈ chunk ∧ Fitting separator bound more := by
  cases chunked with
  | line line more unbroken fits =>
    rw [fitting_line unbroken fits]
    exact ⟨fun fitting => ⟨by simp, fitting⟩, fun both => both.2⟩
  | full piece more unbroken size =>
    exact ⟨fun fitting => absurd fitting (not_fitting_full positive unbroken size more),
      fun both => absurd both.1 unbroken⟩
  | last text unbroken short =>
    constructor
    · rintro ⟨terminated, -⟩
      rw [lines_of_unterminated unbroken] at terminated
      exact absurd terminated nonempty
    · exact fun both => absurd both.1 unbroken

end Dragonfly
