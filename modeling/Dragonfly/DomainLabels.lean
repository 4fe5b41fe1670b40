import Dragonfly.DomainRows

/-!
# The labels of a domain

What `csplit` and `parse` make of a domain. The labels are the one way to write the domain
as strings without dots, joined with dots. For a domain of two labels or more that is no
reverse name, `parse` reads off its end: the top-level domain, the label in front of it, and
the one in front of that. Every index it looks up is one of the table.
-/

namespace Dragonfly.DomainLabels

open DomainFeatures DomainRows Fields

/-! ## Joining and splitting -/

/-- The labels of a domain, joined with dots as the domain has them. -/
def join (labels : List (List Byte)) : List Byte := [dot].intercalate labels

/-- Strings without dots that are joined to a text; a text is joined of at least one. -/
structure Joined (labels : List (List Byte)) (text : List Byte) : Prop where
  nonempty : labels ≠ []
  undotted : ∀ label ∈ labels, dot ∉ label
  joined : join labels = text

/-- Splitting a text at its dots gives the one list of strings without dots that, joined with
dots, is the text. -/
theorem joined_iff (labels : List (List Byte)) (text : List Byte) :
    Joined labels text ↔ labels = text.splitOn dot := by
  constructor
  · rintro ⟨nonempty, undotted, rfl⟩
    exact (List.splitOn_intercalate dot undotted nonempty).symm
  · rintro rfl
    exact ⟨List.splitOn_ne_nil _ _, fun _ => field_undivided, List.intercalate_splitOn dot⟩

/-- `csplit` counts one part more than there are dots, and its parts are the one list of
strings without dots that are joined to its argument. -/
theorem csplit_exact (s : List Byte) :
    (csplit s dot).num = s.count dot + 1 ∧
      (csplit s dot).parts.length = (csplit s dot).num ∧
      ∀ labels, Joined labels s ↔ labels = (csplit s dot).parts := by
  rw [csplit_splits]
  exact ⟨field_count dot s, rfl, fun labels => joined_iff labels s⟩

/-! ## The end of a domain -/

/-- A part is the text, or stands behind a dot at its end. -/
def Ends (part text : List Byte) : Prop := text = part ∨ ∃ front, text = front ++ dot :: part

/-- The labels at the end of a list stand at the end of the joined text, behind a dot if there
are others in front of them. -/
theorem join_ends (front back : List (List Byte)) (nonempty : back ≠ []) :
    Ends (join back) (join (front ++ back)) := by
  induction front with
  | nil => exact .inl rfl
  | cons label rest inductionHypothesis =>
    have others : rest ++ back ≠ [] := by simp [nonempty]
    have first : join (label :: rest ++ back) = label ++ dot :: join (rest ++ back) := by
      simp [join, List.intercalate_cons_of_ne_nil others]
    right
    rcases inductionHypothesis with whole | ⟨before, behind⟩
    · exact ⟨label, by rw [first, whole]⟩
    · exact ⟨label ++ dot :: before, by rw [first, behind, List.append_assoc, List.cons_append]⟩

/-- The first of the labels, which are counted from the end, stand at the end of the domain when
they are joined in its order. -/
theorem labels_end {domain : List Byte} {back front : List (List Byte)} (nonempty : back ≠ [])
    (split : labels domain = back ++ front) : Ends (join back.reverse) domain := by
  have whole : join (front.reverse ++ back.reverse) = domain := by
    rw [← List.reverse_append, ← split, labels, List.reverse_reverse]
    exact List.intercalate_splitOn dot
  have ends := join_ends front.reverse back.reverse (by simp [nonempty])
  rwa [whole] at ends

/-- A label of a domain contains no dot, because the domain was split at every dot. -/
theorem label_undotted {domain label : List Byte} (listed : label ∈ labels domain) :
    dot ∉ label :=
  field_undivided (List.mem_reverse.mp listed)

/-- A reverse name: more than two labels, the last of them `in-addr` and `arpa`. -/
def Reverse (splits : Splits) : Prop :=
  2 < splits.num ∧ luaIndex splits.parts splits.num = some arpa ∧
    luaIndex splits.parts (splits.num - 1) = some inAddr

/-- What `csplit` returns, by the labels with the last one first. -/
def splitsOf (labels : List (List Byte)) : Splits := ⟨labels.reverse, labels.length⟩

/-- The labels of a domain are the ones that are found by running `csplit` on it. -/
theorem csplit_labels (domain : List Byte) : csplit domain dot = splitsOf (labels domain) := by
  rw [csplit_splits, splitsOf, labels, List.reverse_reverse, List.length_reverse]

/-- The entry of the table with the number of labels for its index is the last label. -/
theorem label_last (top : List Byte) (others : List (List Byte)) :
    luaIndex (splitsOf (top :: others)).parts (splitsOf (top :: others)).num = some top :=
  @index_from_end _ (top :: others) 0 (by simp)

/-- The entry in front of the last one is the label that stands in front of the last one. -/
theorem label_next (top next : List Byte) (others : List (List Byte)) :
    luaIndex (splitsOf (top :: next :: others)).parts
      ((splitsOf (top :: next :: others)).num - 1) = some next :=
  @index_from_end _ (top :: next :: others) 1 (by simp)

/-- The last two of more than two labels are `in-addr` and `arpa` in a reverse name. -/
theorem reverse_iff (top next third : List Byte) (rest : List (List Byte)) :
    Reverse (splitsOf (top :: next :: third :: rest)) ↔ top = arpa ∧ next = inAddr := by
  have more : 2 < (splitsOf (top :: next :: third :: rest)).num := by simp [splitsOf]
  rw [Reverse, label_last, label_next]
  simp [more]

/-- The parts are read off the end of a domain with this many labels. The top-level domain
has one or two labels. -/
structure ReadsOff (domain : List Byte) (num : Nat) (parts : Parts) : Prop where
  top : parts.tld.count dot = 0 ∨ (parts.tld.count dot = 1 ∧ 2 < num)
  second : Ends (parts.second ++ dot :: parts.tld) domain
  third : if parts.tld.count dot + 2 < num
    then Ends (parts.third ++ dot :: (parts.second ++ dot :: parts.tld)) domain
    else parts.third = []

/-- `parse` reads off the end of a domain that is no reverse name. -/
theorem parts_read_off {domain : List Byte} (several : 2 ≤ (labels domain).length)
    (direct : ¬ Reverse (splitsOf (labels domain))) :
    ReadsOff domain (labels domain).length (domainParts domain) := by
  rw [domainParts]
  have single {label : List Byte} (listed : label ∈ labels domain) : label.count dot = 0 :=
    List.count_eq_zero.mpr (label_undotted listed)
  have ends {back front : List (List Byte)} (nonempty : back ≠ [])
      (split : labels domain = back ++ front) := labels_end nonempty split
  generalize whole : labels domain = all at several direct single ends
  fun_cases partsOf all with
  | case1 => simp at several
  | case2 label => simp at several
  | case3 top second =>
    have alone : top.count dot = 0 := single (by simp)
    have last := ends (by simp) (List.append_nil _).symm
    exact ⟨.inl alone, by simpa [join] using last, by simp [alone]⟩
  | case4 top next third rest reverse => exact absurd ((reverse_iff _ _ _ _).mpr reverse) direct
  | case5 top next third rest forward compound =>
    have both : (next ++ dot :: top).count dot = 1 := by
      rw [List.count_append, List.count_cons_self, @single next (by simp),
        @single top (by simp)]
    refine ⟨.inr ⟨both, by simp⟩, ?_, ?_⟩
    · have last := @ends [top, next, third] rest (by simp) rfl
      simpa [join] using last
    · cases rest with
      | nil => simp [both]
      | cons fourth others =>
        have last := @ends [top, next, third, fourth] others (by simp) rfl
        rw [both, if_pos (by simp)]
        simpa [join] using last
  | case6 top next third rest forward simple =>
    have alone : top.count dot = 0 := single (by simp)
    refine ⟨.inl alone, ?_, ?_⟩
    · have last := @ends [top, next] (third :: rest) (by simp) rfl
      simpa [join] using last
    · have last := @ends [top, next, third] rest (by simp) rfl
      rw [alone, if_pos (by simp)]
      simpa [join] using last

/-! ## The lookups of `parse` -/

section Lookups

variable (splitdomain : List (List Byte)) (numparts : Nat)

/-- What the first condition of `parse` looks up: the last label, and where it is `"arpa"` the
one in front of it. -/
def reverseIndices : List Nat :=
  if 2 < numparts then
    numparts :: if luaIndex splitdomain numparts = some arpa then [numparts - 1] else []
  else []

/-- Whether the last label has two characters, as the top-level domains of countries do. -/
def shortTop : Bool := (luaIndex splitdomain numparts).any fun label => label.length = 2

/-- Whether the label in front of the last one has three characters at most. -/
def shortNext : Bool := (luaIndex splitdomain (numparts - 1)).any fun label => label.length ≤ 3

/-- The local `tldlength` of `parse`: the number of labels that make up the top-level domain. -/
def tldLength : Nat :=
  if 2 < numparts ∧ shortTop splitdomain numparts ∧ shortNext splitdomain numparts then 2 else 1

/-- What is looked up for the top-level domain: first by the condition, then by the branch. -/
def tldIndices : List Nat :=
  (if 2 < numparts then
    numparts :: if shortTop splitdomain numparts then [numparts - 1] else []
  else []) ++
    if tldLength splitdomain numparts = 2 then [numparts - 1, numparts] else [numparts]

/-- What `parse` looks up for the labels of second and third level, in front of the top-level
domain. -/
def frontIndices : List Nat :=
  (numparts - tldLength splitdomain numparts) ::
    if tldLength splitdomain numparts + 1 < numparts then
      [numparts - (tldLength splitdomain numparts + 1)]
    else []

/-- All indices that `parse` looks up in its table, in the order of its code. -/
def parseIndices : List Nat :=
  (if 2 ≤ numparts then
    reverseIndices splitdomain numparts ++
      if 2 < numparts ∧ luaIndex splitdomain numparts = some arpa ∧
          luaIndex splitdomain (numparts - 1) = some inAddr then []
      else tldIndices splitdomain numparts ++ frontIndices splitdomain numparts
  else []) ++ [numparts]

/-- The top-level domain leaves a label in front of it. -/
theorem tld_length_cases : tldLength splitdomain numparts = 1 ∨
    (tldLength splitdomain numparts = 2 ∧ 2 < numparts) := by
  rw [tldLength]
  split
  · rename_i compound
    exact .inr ⟨rfl, compound.1⟩
  · exact .inl rfl

/-- What is looked up for a reverse name is one of the last two. -/
theorem reverse_index_inside {index : Nat} (listed : index ∈ reverseIndices splitdomain numparts) :
    0 < index ∧ index ≤ numparts := by
  rw [reverseIndices] at listed
  split at listed
  · rcases List.mem_cons.mp listed with rfl | listed
    · omega
    · split at listed
      · obtain rfl := List.mem_singleton.mp listed
        omega
      · cases listed
  · cases listed

/-- Every index that is looked up for the top-level domain is one of the table. -/
theorem tld_index_inside (several : 2 ≤ numparts) {index : Nat}
    (listed : index ∈ tldIndices splitdomain numparts) : 0 < index ∧ index ≤ numparts := by
  have lastTwo : index = numparts ∨ index = numparts - 1 := by
    rw [tldIndices, List.mem_append] at listed
    rcases listed with condition | branch
    · split at condition
      · rcases List.mem_cons.mp condition with last | condition
        · exact .inl last
        · split at condition
          · exact .inr (List.mem_singleton.mp condition)
          · cases condition
      · cases condition
    · split at branch
      · simpa [or_comm] using branch
      · exact .inl (List.mem_singleton.mp branch)
  omega

/-- What is looked up in front of the top-level domain stands behind the first label, or is
it: the length of the top-level domain leaves room for it. -/
theorem front_index_inside (several : 2 ≤ numparts) {index : Nat}
    (listed : index ∈ frontIndices splitdomain numparts) : 0 < index ∧ index ≤ numparts := by
  have length := tld_length_cases splitdomain numparts
  rw [frontIndices] at listed
  rcases List.mem_cons.mp listed with rfl | listed
  · omega
  · split at listed
    · obtain rfl := List.mem_singleton.mp listed
      omega
    · cases listed

/-- Every index that `parse` looks up is one of the table, provided the table has an entry at
all. -/
theorem parse_indices_inside (positive : 0 < numparts) {index : Nat}
    (listed : index ∈ parseIndices splitdomain numparts) : 0 < index ∧ index ≤ numparts := by
  rw [parseIndices, List.mem_append] at listed
  rcases listed with listed | last
  · split at listed
    · rename_i several
      rcases List.mem_append.mp listed with first | listed
      · exact reverse_index_inside splitdomain numparts first
      · split at listed
        · cases listed
        · rcases List.mem_append.mp listed with top | front
          · exact tld_index_inside splitdomain numparts several top
          · exact front_index_inside splitdomain numparts several front
    · cases listed
  · obtain rfl := List.mem_singleton.mp last
    exact ⟨positive, Nat.le_refl _⟩

end Lookups

/-- An index that lies between one and the length of a table has an entry. -/
theorem index_present {Value : Type} (table : List Value) {index : Nat} (positive : 0 < index)
    (inside : index ≤ table.length) : (luaIndex table index).isSome := by
  rw [luaIndex, if_neg (Nat.ne_of_gt positive), List.getElem?_eq_getElem (by omega)]
  rfl

/-- `parse` reads the parts of a domain of two labels or more off its end, unless it is a
reverse name. It looks up entries of the table only, for any domain, and `transform` returns. -/
theorem parse_reads_suffix (domain : List Byte) (globals : Parsing) :
    (∃ after,
      parse (csplit domain dot).parts (csplit domain dot).num globals = some after ∧
        (2 ≤ (csplit domain dot).num → ¬ Reverse (csplit domain dot) →
          ReadsOff domain (csplit domain dot).num after.retval)) ∧
      (∀ index ∈ parseIndices (csplit domain dot).parts (csplit domain dot).num,
        (luaIndex (csplit domain dot).parts index).isSome) ∧
      ∀ runtime globals, (transform runtime domain globals).isSome := by
  have parts : (csplit domain dot).parts = (labels domain).reverse := by
    rw [csplit_labels]
    rfl
  have count : (csplit domain dot).num = (labels domain).length := by
    rw [csplit_labels]
    rfl
  refine ⟨?_, ?_, ?_⟩
  · obtain ⟨after, parsed, picked⟩ := Option.map_eq_some_iff.mp
      (parse_picks (labels domain) globals (labels_nonempty domain))
    rw [← parts, ← count] at parsed
    refine ⟨after, parsed, fun several direct => ?_⟩
    rw [count] at several ⊢
    rw [csplit_labels] at direct
    rw [picked]
    exact parts_read_off several direct
  · intro index listed
    have positive : 0 < (csplit domain dot).num := by
      rw [count]
      exact List.length_pos_of_ne_nil (labels_nonempty domain)
    obtain ⟨behind, inside⟩ := parse_indices_inside _ _ positive listed
    exact index_present _ behind (by rwa [parts, List.length_reverse, ← count])
  · intro runtime globals
    obtain ⟨after, returned, -⟩ := transform_row runtime domain globals
    rw [returned]
    rfl

end Dragonfly.DomainLabels
