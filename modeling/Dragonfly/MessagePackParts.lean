import Dragonfly.MessagePackInput

/-!
# Messages in parts

A message is unpacked value by value, so unpacking two messages one behind the other is
unpacking each, and a script that asks for a few values at a time, `cmsgpack.unpack_one` or
`cmsgpack.unpack_limit`, gets those of `cmsgpack.unpack`. What is unpacked at once stays on
the stack, so the one message, or the whole of it, may find no free slot where its parts do;
nothing else makes a difference. A packed message that is cut off is unpacked only where it
was cut between two values.
-/

namespace Dragonfly.MessagePack

open BigEndian FloatingPoint LuaValues

/-! ## The loop over the values -/

/-- A round of the loop of `mp_unpack_full`: it decodes one value, and goes on with one slot and
one value of the limit less. -/
theorem unpack_loop_step (free limit : Nat) {bytes : List Byte} (some : bytes ≠ []) :
    unpackLoop free (limit + 1) bytes = (mpDecodeToLuaType free bytes >>= fun taken =>
      (unpackLoop (free - 1) limit taken.2).map fun others => (taken.1 :: others.1, others.2)) := by
  rw [unpackLoop]
  · apply bind_congr
    intro taken
    obtain ⟨value, rest⟩ := taken
    cases others : unpackLoop (free - 1) limit rest <;> simp only [others] <;> rfl
  · exact some

/-- Without bytes the loop returns no values, whatever its limit and its slots are. -/
theorem unpack_loop_nil (free limit : Nat) : unpackLoop free limit [] = .ok ([], []) := by
  cases limit <;> rfl

/-- A limit that is not below the number of bytes does not show. -/
theorem unpack_loop_limits (free : Nat) {limit : Nat} (limit' : Nat) {bytes : List Byte}
    (enough : bytes.length ≤ limit) (enough' : bytes.length ≤ limit') :
    unpackLoop free limit bytes = unpackLoop free limit' bytes := by
  induction limit generalizing free limit' bytes with
  | zero =>
    obtain rfl := List.length_eq_zero_iff.mp (Nat.le_zero.mp enough)
    rw [unpack_loop_nil, unpack_loop_nil]
  | succ limit inductionHypothesis =>
    cases bytes with
    | nil => rw [unpack_loop_nil, unpack_loop_nil]
    | cons first bytes =>
      rw [List.length_cons] at enough enough'
      obtain ⟨limit', rfl⟩ : ∃ less, limit' = less + 1 := ⟨limit' - 1, by omega⟩
      rw [unpack_loop_step _ _ (List.cons_ne_nil _ _),
        unpack_loop_step _ _ (List.cons_ne_nil _ _)]
      cases decoded : mpDecodeToLuaType free (first :: bytes) with
      | error failure => rfl
      | ok taken =>
        have fewer := decode_takes decoded
        rw [List.length_cons] at fewer
        rw [ok_bind, ok_bind, inductionHypothesis (free - 1) limit' (by omega) (by omega)]

/-- With fewer free slots the loop does the same, or finds no free slot. -/
theorem unpack_loop_narrower {free free' : Nat} (more : free ≤ free') (limit : Nat) :
    Narrower (unpackLoop free limit) (unpackLoop free' limit) := by
  induction limit generalizing free free' with
  | zero =>
    intro bytes
    left
    cases bytes <;> rfl
  | succ limit inductionHypothesis =>
    intro bytes
    by_cases some : bytes = []
    · subst some
      exact .inl rfl
    · have fewer : free - 1 ≤ free' - 1 := Nat.sub_le_sub_right more 1
      have others (value : Value) : Narrower
          (fun bytes => (unpackLoop (free - 1) limit bytes).map fun others =>
            (value :: others.1, others.2))
          fun bytes => (unpackLoop (free' - 1) limit bytes).map fun others =>
            (value :: others.1, others.2) := by
        intro bytes
        rcases inductionHypothesis fewer bytes with same | ⟨function, full⟩
        · exact .inl (by simp only [same])
        · exact .inr ⟨function, by simp only [full]; rfl⟩
      rw [unpack_loop_step _ _ some, unpack_loop_step _ _ some]
      exact narrower_closed.bind (decode_narrower more) others bytes

/-! ## All values -/

/-- The values of a message, with so many free slots. -/
def allValues (free : Nat) (message : List Byte) : Except Failure (List Value) :=
  (unpackLoop free message.length message).map Prod.fst

/-- A message has its first value and those of the rest. -/
theorem all_values_step (free : Nat) {message : List Byte} (some : message ≠ []) :
    allValues free message = (mpDecodeToLuaType free message >>= fun taken =>
      (allValues (free - 1) taken.2).map fun others => taken.1 :: others) := by
  obtain ⟨less, length⟩ : ∃ less, message.length = less + 1 :=
    Nat.exists_eq_succ_of_ne_zero (mt List.length_eq_zero_iff.mp some)
  rw [allValues, length, unpack_loop_step free less some]
  cases decoded : mpDecodeToLuaType free message with
  | error failure => rfl
  | ok taken =>
    have fewer := decode_takes decoded
    rw [ok_bind, ok_bind, allValues, unpack_loop_limits _ less (le_refl _) (by omega)]
    cases unpackLoop (free - 1) less taken.2 <;> rfl

/-- A message that is not too long is unpacked to its values, with the slots that its arguments
leave. -/
theorem unpack_all (further : Nat) {message : List Byte} (short : message.length < 2147483648) :
    mpUnpackBehind further message =
      (allValues (maxCStack - (further + 1)) message).mapError .failure := by
  have inside : ¬ ((message.length : Int) < 0) := by omega
  rw [mpUnpackBehind, mpUnpackFull, allValues,
    unpack_loop_limits _ intMax (le_refl _) (by rw [intMax]; omega)]
  simp only [lt_self_iff_false, or_self, if_false, inside, and_self, if_true, Int.toNat_zero,
    List.drop_zero]
  cases unpackLoop (maxCStack - (further + 1)) intMax message <;> rfl

/-- The values of two messages are those of the first, and those of the second with the slots
that are left. -/
theorem all_values_append {free : Nat} {first second : List Byte} {values : List Value}
    (whole : allValues free first = .ok values) :
    allValues free (first ++ second) =
      (allValues (free - values.length) second).map fun others => values ++ others := by
  induction length : first.length using Nat.strong_induction_on
    generalizing free first values with
  | _ size inductionHypothesis =>
    by_cases some : first = []
    · subst some
      cases whole
      rw [List.nil_append, List.length_nil, Nat.sub_zero]
      cases allValues free second <;> rfl
    · rw [all_values_step free some] at whole
      obtain ⟨⟨value, rest⟩, decoded, later⟩ := bind_ok_iff.mp whole
      have fewer := decode_takes decoded
      obtain ⟨front, split, follows⟩ := decode_follows (le_refl free) _ _ _ decoded
      have both : first ++ second = front ++ (rest ++ second) := by
        rw [split, List.append_assoc]
      cases behind : allValues (free - 1) rest with
      | error failure =>
        simp only [behind] at later
        cases later
      | ok others =>
        simp only [behind] at later
        cases later
        have continued := inductionHypothesis rest.length (by omega) behind rfl
        have again : mpDecodeToLuaType free (first ++ second) = .ok (value, rest ++ second) := by
          have taken := follows (rest ++ second)
          rwa [← both] at taken
        have slots : free - (value :: others).length = free - 1 - others.length := by
          rw [List.length_cons]
          omega
        rw [all_values_step free (List.append_ne_nil_of_left_ne_nil some second), again, ok_bind,
          continued, slots]
        cases allValues (free - 1 - others.length) second <;> rfl

/-- With fewer free slots a message has the same values, or there is no free slot. -/
theorem all_values_narrower {free free' : Nat} (more : free ≤ free') (message : List Byte) :
    allValues free message = allValues free' message ∨
      ∃ function, allValues free message = .error (.overflow function) := by
  rcases unpack_loop_narrower more message.length message with same | ⟨function, full⟩
  · exact .inl (by rw [allValues, allValues, same])
  · exact .inr ⟨function, by rw [allValues, full]; rfl⟩

/-- Unpacking two messages one behind the other is unpacking the first, and then the second
with the values of the first on the stack as further arguments. These make no difference, or
they leave no free slot for the second. -/
theorem unpack_append {first second : List Byte} {values : List Value}
    (short : (first ++ second).length < 2147483648) (whole : mpUnpack first = .ok values) :
    mpUnpack (first ++ second) =
        (mpUnpackBehind values.length second).map (fun others => values ++ others) ∧
      (mpUnpackBehind values.length second = mpUnpack second ∨
        ∃ function,
          mpUnpackBehind values.length second = .error (.failure (.overflow function))) := by
  have lengths : (first ++ second).length = first.length + second.length := List.length_append
  rw [mpUnpack, unpack_all 0 (by omega)] at whole
  rw [mpUnpack, mpUnpack, unpack_all 0 short, unpack_all _ (by omega), unpack_all 0 (by omega)]
  constructor
  · cases there : allValues (maxCStack - (0 + 1)) first with
    | error failure =>
      rw [there] at whole
      cases whole
    | ok found =>
      rw [there] at whole
      cases whole
      have slots : maxCStack - (0 + 1) - values.length = maxCStack - (values.length + 1) := by
        omega
      rw [all_values_append there, slots]
      cases allValues (maxCStack - (values.length + 1)) second <;> rfl
  · have more : maxCStack - (values.length + 1) ≤ maxCStack - (0 + 1) :=
      Nat.sub_le_sub_left (by omega) maxCStack
    rcases all_values_narrower more second with same | ⟨function, full⟩
    · exact .inl (by rw [same])
    · exact .inr ⟨function, by rw [full]; rfl⟩

/-- The law at work for a message of two values in front of a message of one. -/
theorem unpack_append_two :
    mpUnpack ([0x01, 0xc3] ++ [0x02]) = .ok [pushedInteger 1, .boolean true, pushedInteger 2] :=
  have short : ([0x01, 0xc3] ++ [0x02] : List Byte).length < 2147483648 := by decide
  have first : mpUnpack [0x01, 0xc3] = .ok [pushedInteger 1, .boolean true] := rfl
  (unpack_append short first).1

/-! ## A few values at a time -/

/-- A front of packed values has values only where it ends between two of them, whatever slots
are free. -/
theorem cut_values {values received : List Value} {front back : List Byte} {free : Nat}
    (wellFormed : ∀ value ∈ values, WellFormed value)
    (roomy : values.length + 2 * maxNesting ≤ free)
    (split : values.flatMap (mpEncodeLuaType maxNesting) = front ++ back)
    (short : (front ++ back).length < 4294967296) (found : allValues free front = .ok received) :
    ∃ count, front = (values.take count).flatMap (mpEncodeLuaType maxNesting) ∧
      (values.take count).mapM (receive maxNesting) = some received := by
  induction values generalizing front received free with
  | nil =>
    obtain ⟨rfl, rfl⟩ := List.append_eq_nil_iff.mp split.symm
    cases found
    exact ⟨0, rfl, rfl⟩
  | cons value values inductionHypothesis =>
    rw [List.length_cons] at roomy
    by_cases some : front = []
    · subst some
      cases found
      exact ⟨0, rfl, rfl⟩
    · rw [all_values_step free some] at found
      obtain ⟨⟨arrived, rest⟩, decoded, later⟩ := bind_ok_iff.mp found
      rw [List.flatMap_cons] at split
      have lengths := congrArg List.length split
      have sizes : (front ++ back).length = front.length + back.length := List.length_append
      simp only [List.length_append] at lengths
      -- the first value of the front is the first one that was packed
      have whole := decode_encode maxNesting free (wellFormed value List.mem_cons_self)
        (by omega) (by omega) (values.flatMap (mpEncodeLuaType maxNesting))
      obtain ⟨taken, rfl, follows⟩ := decode_follows (le_refl free) _ _ _ decoded
      have again := follows (rest ++ back)
      rw [← List.append_assoc, ← split, whole] at again
      cases there : receive maxNesting value with
      | none =>
        rw [there] at again
        cases again
      | some result =>
        rw [there] at again
        simp only [delivered, Except.ok.injEq, Prod.mk.injEq] at again
        obtain ⟨rfl, behind⟩ := again
        rw [behind, ← List.append_assoc, List.append_left_inj, List.append_left_inj] at split
        cases others : allValues (free - 1) rest with
        | error failure =>
          simp only [others] at later
          cases later
        | ok remaining =>
          simp only [others] at later
          cases later
          have shorter : (rest ++ back).length < 4294967296 := by
            simp only [List.length_append] at short ⊢
            omega
          have slots : values.length + 2 * maxNesting ≤ free - 1 := by omega
          obtain ⟨count, ends, all⟩ := inductionHypothesis
            (fun other listed => wellFormed other (List.mem_cons_of_mem _ listed)) slots behind
            shorter others
          refine ⟨count + 1, ?_, ?_⟩
          · rw [List.take_succ_cons, List.flatMap_cons, split, ends]
          · rw [List.take_succ_cons, List.mapM_cons, there, all]
            rfl

/-- What is left of a packed message that was cut off is unpacked exactly where it ends between
two values, to what is received of those in front. -/
theorem cut_unpacks_iff {values received : List Value} {message front back : List Byte}
    (wellFormed : ∀ value ∈ values, WellFormed value) (packed : mpPack values = some message)
    (short : message.length < 2147483648) (split : message = front ++ back) :
    mpUnpack front = .ok received ↔
      ∃ count, front = (values.take count).flatMap (mpEncodeLuaType maxNesting) ∧
        (values.take count).mapM (receive maxNesting) = some received := by
  obtain ⟨_, few, rfl⟩ := mp_pack_some packed
  have sizes : (front ++ back).length < 2147483648 := by rw [← split]; exact short
  rw [List.length_append] at sizes
  have roomy : values.length + 2 * maxNesting ≤ maxCStack - (0 + 1) := Nat.le_sub_one_of_lt few
  rw [mpUnpack, unpack_all 0 (by omega)]
  constructor
  · intro found
    have there : allValues (maxCStack - (0 + 1)) front = .ok received := by
      cases there : allValues (maxCStack - (0 + 1)) front with
      | error failure => rw [there] at found; cases found
      | ok values => rw [there] at found; cases found; rfl
    exact cut_values wellFormed roomy split (by rw [List.length_append]; omega) there
  · rintro ⟨count, rfl, all⟩
    have fewer : (values.take count).length + 2 * maxNesting ≤ maxCStack - (0 + 1) := by
      have taken := List.length_take_le' count values
      omega
    have loop := unpack_loop_pack
      (fun value listed => wellFormed value (List.mem_of_mem_take listed))
      (by omega) fewer (count_within _ (values.take count) (encode_nonempty maxNesting))
    rw [allValues, loop, all]
    rfl

/-- A number and a string, cut off behind the number. -/
theorem cut_unpacks_between :
    mpUnpack [0x01] = .ok [index 1] ↔
      ∃ count, [0x01] =
          ([index 1, .string [0x61, 0x62]].take count).flatMap (mpEncodeLuaType maxNesting) ∧
        ([index 1, .string [0x61, 0x62]].take count).mapM (receive maxNesting) =
          some [index 1] :=
  have packed : mpPack [index 1, .string [0x61, 0x62]] = some [0x01, 0xa2, 0x61, 0x62] := rfl
  have split : [0x01, 0xa2, 0x61, 0x62] = ([0x01] : List Byte) ++ [0xa2, 0x61, 0x62] := rfl
  cut_unpacks_iff
    (fun value listed => by
      obtain rfl | last := List.mem_cons.mp listed
      · exact .number _
      · rw [List.mem_singleton.mp last]
        exact .string _)
    packed (by decide) split

end Dragonfly.MessagePack
