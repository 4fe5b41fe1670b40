import Dragonfly.MessagePackDelivery

/-!
# What `mp_unpack` does with any bytes

Two decoders can be related in ways that are kept when they run one behind another, so the
decoder of values keeps them as well. Decoding a value looks at no byte behind those it takes,
and with more free slots returns the same; with fewer free slots it does the same, or finds no
free slot. So a value that is cut off anywhere is not decoded as another one, and a message
may be unpacked value by value.
-/

namespace Dragonfly.MessagePack

open BigEndian FloatingPoint LuaValues

/-- A decoder takes something from the front of the bytes and returns it with the bytes that are
left, or fails. -/
abbrev Decoder (Result : Type) := List Byte → Except Failure (Result × List Byte)

/-- Taking bytes from the front succeeds exactly if the bytes split into that many and what is
left. -/
theorem consume_ok_iff {count : Nat} {bytes front rest : List Byte} :
    consume count bytes = .ok (front, rest) ↔ bytes = front ++ rest ∧ front.length = count := by
  constructor
  · intro taken
    rw [consume] at taken
    split at taken
    · cases taken
    · rename_i enough
      cases taken
      exact ⟨(List.take_append_drop count bytes).symm, List.length_take_of_le (by omega)⟩
  · rintro ⟨rfl, exact⟩
    exact consume_front exact rest

/-- The decoder that takes the first byte, which says what follows. -/
def takeFirst : Decoder Byte
  | [] => .error .missingBytes
  | first :: bytes => .ok (first, bytes)

/-! ## Relations between decoders -/

/-- A relation between decoders that holds between equal ones that take bytes, fail or take
none, is kept when decoders run one behind another, and holds of a decoder that finds no free
slot whatever the other does. -/
structure Closed (Related : ∀ {Result : Type}, Decoder Result → Decoder Result → Prop) : Prop where
  first : Related takeFirst takeFirst
  consume (count : Nat) : Related (consume count) (consume count)
  result {Result : Type} (result : Result) :
    Related (fun bytes => .ok (result, bytes)) fun bytes => .ok (result, bytes)
  failure {Result : Type} (failure : Failure) :
    Related (fun _ => .error failure : Decoder Result) fun _ => .error failure
  overflow {Result : Type} (function : Overflow) (decode : Decoder Result) :
    Related (fun _ => .error (.overflow function)) decode
  bind {First Second : Type} {decode decode' : Decoder First}
    {next next' : First → Decoder Second} (begins : Related decode decode')
    (goes : ∀ middle, Related (next middle) (next' middle)) :
    Related (fun bytes => decode bytes >>= fun taken => next taken.1 taken.2)
      fun bytes => decode' bytes >>= fun taken => next' taken.1 taken.2

section Related

variable {Related : ∀ {Result : Type}, Decoder Result → Decoder Result → Prop}
  {decode decode' decodeKey decodeKey' : Decoder Value}

/-- If two loops are related, so are the decoders that return the tables these loops have
filled. -/
theorem Closed.table (closed : Closed Related) {loop loop' : Decoder Entries}
    (related : Related loop loop') :
    Related (fun bytes => decodedTable (loop bytes)) fun bytes => decodedTable (loop' bytes) := by
  have returned : ∀ loop : Decoder Entries, (fun bytes => decodedTable (loop bytes)) =
      fun bytes => loop bytes >>= fun taken => .ok (.table taken.1, taken.2) := by
    intro loop
    funext bytes
    cases loop bytes <;> rfl
  rw [returned, returned]
  exact closed.bind related fun entries => closed.result (Value.table entries)

/-- If what follows is related for each table, it is related behind the storing of a value,
which takes no bytes and may fail. -/
theorem Closed.stored (closed : Closed Related) {Result : Type}
    (stored : Except Failure Entries) {next next' : Entries → Decoder Result}
    (goes : ∀ entries, Related (next entries) (next' entries)) :
    Related (fun bytes => stored >>= fun entries => next entries bytes)
      fun bytes => stored >>= fun entries => next' entries bytes := by
  cases stored with
  | error failure => exact closed.failure failure
  | ok entries => exact goes entries

/-- If two decoders are related, so are the loops that fill an array with what they decode. -/
theorem Closed.array (closed : Closed Related) (related : Related decode decode')
    (left position : Nat) (entries : Entries) :
    Related (mpDecodeToLuaArray decode left position entries)
      (mpDecodeToLuaArray decode' left position entries) := by
  induction left generalizing position entries with
  | zero => exact closed.result entries
  | succ left inductionHypothesis =>
    exact closed.bind related fun value =>
      closed.stored (setTable entries (index position) value)
        fun stored => inductionHypothesis (position + 1) stored

/-- If two decoders of keys and two of values are related, so are the loops that fill a map with
them. -/
theorem Closed.hash (closed : Closed Related) (related : Related decode decode')
    (relatedKey : Related decodeKey decodeKey') (left : Nat) (entries : Entries) :
    Related (mpDecodeToLuaHash decode decodeKey left entries)
      (mpDecodeToLuaHash decode' decodeKey' left entries) := by
  induction left generalizing entries with
  | zero => exact closed.result entries
  | succ left inductionHypothesis =>
    exact closed.bind relatedKey fun key => closed.bind related fun value =>
      closed.stored (setTable entries key value) fun stored => inductionHypothesis stored

/-- A value behind its first byte, with at least as many slots above it. -/
theorem Closed.behind (closed : Closed Related) {free free' : Nat} (more : free ≤ free')
    (related : Related decode decode') (relatedKey : Related decodeKey decodeKey') (first : Byte) :
    Related (mpDecodeBehind decode decodeKey free first)
      (mpDecodeBehind decode' decodeKey' free' first) := by
  have array (size : Nat) :
      Related (decodedArray decode free size) (decodedArray decode' free' size) := by
    unfold decodedArray
    by_cases none : free = 0
    · simp only [if_pos none]
      exact closed.overflow _ _
    · have some : free' ≠ 0 := by omega
      simp only [if_neg none, if_neg some]
      exact closed.table (closed.array related size 1 [])
  have hash (size : Nat) := closed.table (closed.hash related relatedKey size [])
  unfold mpDecodeBehind
  cases format first with
  | unsigned width =>
    exact closed.bind (closed.consume width) fun field =>
      closed.result (pushedInteger (pushedUnsigned field))
  | integer width =>
    exact closed.bind (closed.consume width) fun field =>
      closed.result (pushedInteger (signed field))
  | nil => exact closed.result Value.nil
  | boolean value => exact closed.result (Value.boolean value)
  | float =>
    exact closed.bind (closed.consume 4) fun field =>
      closed.result (Value.number (widen (ofBits 8 23 (ofBytes field))))
  | double =>
    exact closed.bind (closed.consume 8) fun field =>
      closed.result (Value.number (ofBits 11 52 (ofBytes field)))
  | raw width =>
    exact closed.bind (closed.consume width) fun field =>
      closed.bind (closed.consume (ofBytes field)) fun text => closed.result (Value.string text)
  | array width => exact closed.bind (closed.consume width) fun field => array (ofBytes field)
  | hash width => exact closed.bind (closed.consume width) fun field => hash (ofBytes field)
  | positiveFixnum => exact closed.result (pushedInteger first.toNat)
  | negativeFixnum => exact closed.result (pushedInteger (signed [first]))
  | fixRaw =>
    exact closed.bind (closed.consume (first.toNat % 32)) fun text =>
      closed.result (Value.string text)
  | fixArray => exact array (first.toNat % 16)
  | fixMap => exact hash (first.toNat % 16)
  | unknown => exact closed.failure .badFormat

/-- A value is decoded from its first byte and the others. -/
theorem decode_takes_first (free : Nat) : mpDecodeToLuaType (free + 1) = fun bytes =>
    takeFirst bytes >>= fun taken =>
      mpDecodeBehind (mpDecodeToLuaType (free - 1)) (mpDecodeToLuaType free) free taken.1
        taken.2 := by
  funext bytes
  cases bytes with
  | nil => cases free <;> rfl
  | cons first bytes => exact decode_first free first bytes

/-- The decoder of values is related to the one with at least as many free slots, for every
relation of this kind. -/
theorem Closed.value (closed : Closed Related) {free free' : Nat} (more : free ≤ free') :
    Related (mpDecodeToLuaType free) (mpDecodeToLuaType free') := by
  induction free using Nat.strong_induction_on generalizing free' with
  | _ free inductionHypothesis =>
    cases free with
    | zero =>
      have full : mpDecodeToLuaType 0 = fun bytes => takeFirst bytes >>= fun _ =>
          .error (.overflow .returnValues) := by
        funext bytes
        cases bytes <;> rfl
      cases free' with
      | zero =>
        rw [full]
        exact closed.bind closed.first fun _ => closed.failure _
      | succ free' =>
        rw [full, decode_takes_first]
        exact closed.bind closed.first fun _ => closed.overflow _ _
    | succ free =>
      obtain ⟨free', rfl⟩ : ∃ less, free' = less + 1 := ⟨free' - 1, by omega⟩
      rw [decode_takes_first, decode_takes_first]
      refine closed.bind closed.first fun first => closed.behind (by omega) ?_ ?_ first
      · exact inductionHypothesis (free - 1) (by omega) (by omega)
      · exact inductionHypothesis free (by omega) (by omega)

end Related

/-! ## Decoding takes a front of the bytes -/

/-- Where a decoder returns, the bytes it was given begin with those it took, and another one
returns the same for these, whatever follows. -/
def Follows {Result : Type} (decode decode' : Decoder Result) : Prop :=
  ∀ bytes result rest, decode bytes = .ok (result, rest) →
    ∃ taken, bytes = taken ++ rest ∧ ∀ later, decode' (taken ++ later) = .ok (result, later)

/-- Looking at no byte behind those that are taken, and doing the same with more free slots, is
kept when decoders run one behind another. -/
theorem follows_closed : Closed Follows where
  first := by
    intro bytes first rest taken
    cases bytes with
    | nil => cases taken
    | cons byte bytes =>
      cases taken
      exact ⟨[first], rfl, fun later => rfl⟩
  consume count := by
    intro bytes front rest taken
    obtain ⟨rfl, exact⟩ := consume_ok_iff.mp taken
    exact ⟨front, rfl, consume_front exact⟩
  result result := by
    intro bytes returned rest here
    cases here
    exact ⟨[], rfl, fun later => rfl⟩
  failure failure := by
    intro bytes result rest returned
    cases returned
  overflow function decode := by
    intro bytes result rest returned
    cases returned
  bind begins goes := by
    intro bytes result rest returned
    obtain ⟨⟨middle, left⟩, here, there⟩ := bind_ok_iff.mp returned
    obtain ⟨front, rfl, frontFollows⟩ := begins _ _ _ here
    obtain ⟨back, rfl, backFollows⟩ := goes middle _ _ _ there
    refine ⟨front ++ back, (List.append_assoc front back rest).symm, fun later => ?_⟩
    simp only [List.append_assoc, frontFollows, ok_bind]
    exact backFollows later

/-- With more free slots a value that is decoded is decoded as the same, whatever follows. -/
theorem decode_follows {free free' : Nat} (more : free ≤ free') :
    Follows (mpDecodeToLuaType free) (mpDecodeToLuaType free') :=
  follows_closed.value more

/-- Decoding a value takes at least one byte, so what is left is shorter. -/
theorem decode_takes {free : Nat} {bytes rest : List Byte} {value : Value}
    (returned : mpDecodeToLuaType free bytes = .ok (value, rest)) :
    rest.length < bytes.length := by
  cases bytes with
  | nil => cases free <;> cases returned
  | cons first bytes =>
    cases free with
    | zero => cases returned
    | succ free =>
      rw [decode_first] at returned
      have behind := follows_closed.behind (le_refl free) (decode_follows (le_refl (free - 1)))
        (decode_follows (le_refl free)) first
      obtain ⟨taken, rfl, _⟩ := behind _ _ _ returned
      rw [List.length_cons, List.length_append]
      omega

/-! ## Decoding with fewer free slots -/

/-- A decoder does the same as another one, or finds no free slot. -/
def Narrower {Result : Type} (decode decode' : Decoder Result) : Prop :=
  ∀ bytes, decode bytes = decode' bytes ∨ ∃ function, decode bytes = .error (.overflow function)

/-- Doing the same or finding no free slot is kept when decoders run one behind another. -/
theorem narrower_closed : Closed Narrower where
  first _ := .inl rfl
  consume _ _ := .inl rfl
  result _ _ := .inl rfl
  failure _ _ := .inl rfl
  overflow function _ _ := .inr ⟨function, rfl⟩
  bind {_ _ decode _ _ _} begins goes bytes := by
    rcases begins bytes with same | ⟨function, full⟩
    · simp only [← same]
      cases decode bytes with
      | error failure => exact .inl rfl
      | ok taken => exact goes taken.1 taken.2
    · simp only [full]
      exact .inr ⟨function, rfl⟩

/-- With fewer free slots a value is decoded as the same, or there is no free slot. -/
theorem decode_narrower {free free' : Nat} (more : free ≤ free') :
    Narrower (mpDecodeToLuaType free) (mpDecodeToLuaType free') :=
  narrower_closed.value more

end Dragonfly.MessagePack
