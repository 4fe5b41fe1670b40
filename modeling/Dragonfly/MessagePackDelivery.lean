import Dragonfly.MessagePack

/-!
# What a packed value is when it is unpacked

A value that is no data arrives as nil, and so does a table inside 16 others. A table loses
the entries whose values arrive as nil. A number that is a 64-bit integer arrives without the
sign of zero, any other as it is. Unpacking fails exactly when a key arrives as nil: there is
no other value a script could pass that the receiver cannot unpack. What `mp_pack` has packed
nests so little, and is so few values, that unpacking does not run out of stack slots.
-/

namespace Dragonfly.MessagePack

open BigEndian FloatingPoint LuaValues

/-! ## Delivery -/

/-- The number that arrives behind the queue for one that is packed: an integer of 64 bits
arrives without the sign of zero, any other number as it is. -/
def receivedNumber (number : Double) : Double :=
  match int64Equivalent number with
  | some whole => nearest 11 52 whole
  | none => number

/-- The elements of a table that is an array, in the order of their indices. -/
def elements (entries : Entries) : List Value :=
  (List.range entries.length).map fun before => rawGet entries (index (before + 1))

/-- The entries that are there: those that are not `nil`. -/
def present (entries : Entries) : Entries := entries.filter fun entry => !entry.2.isNil

/-- What is left of an entry in front of others is what is left of it alone, in front of what is
left of the others. -/
theorem present_cons (entry : Value × Value) (entries : Entries) :
    present (entry :: entries) = present [entry] ++ present entries := by
  rw [present, present, present, ← List.filter_append, List.singleton_append]

/-- A key and a value behind the queue; there is no entry under `nil`. -/
def receivedEntry (receive : Value → Option Value) (entry : Value × Value) :
    Option (Value × Value) := do
  let key ← receive entry.1
  let value ← receive entry.2
  if key.isNil then none else some (key, value)

/-- A value behind the queue, or none where it cannot be unpacked. -/
def receive : Nat → Value → Option Value
  | _, .boolean value => some (.boolean value)
  | _, .number value => some (.number (receivedNumber value))
  | _, .string bytes => some (.string bytes)
  | room + 1, .table entries =>
      if tableIsAnArray entries then
        ((elements entries).mapM (receive room)).map fun values =>
          .table (present (numbered 1 values))
      else
        (entries.mapM (receivedEntry (receive room))).map fun entries => .table (present entries)
  | 0, .table _ => some .nil
  | _, .nil => some .nil
  | _, .null => some .nil
  | _, .other _ => some .nil

/-- How decoding ends where a value is received, and where it is not. -/
def delivered {Result : Type} (received : Option Result) (rest : List Byte) :
    Except Failure (Result × List Byte) :=
  match received with
  | some result => .ok (result, rest)
  | none => .error .nilIndex

/-! ## Scalars -/

/-- A value takes one of the free slots, and is decoded behind its first byte with those above
it. -/
theorem decode_first (free : Nat) (first : Byte) (bytes : List Byte) :
    mpDecodeToLuaType (free + 1) (first :: bytes) =
      mpDecodeBehind (mpDecodeToLuaType (free - 1)) (mpDecodeToLuaType free) free first bytes := by
  cases free with
  | zero => rfl
  | succ free => rfl

/-- The bytes that are taken from in front of others are the front, if they are as many as it
has. -/
theorem consume_front {count : Nat} {front : List Byte} (exact : front.length = count)
    (rest : List Byte) : consume count (front ++ rest) = .ok (front, rest) := by
  subst exact
  rw [consume, if_neg (by rw [List.length_append]; omega), List.take_left, List.drop_left]

/-- A number below 128 is the single byte with this value, which says that it is such a number. -/
theorem format_fixnum (number : Nat) (small : number < 128) :
    format (UInt8.ofNat number) = .positiveFixnum ∧ (UInt8.ofNat number).toNat = number := by
  have all : ∀ byte : Fin 128, format (UInt8.ofNat byte) = .positiveFixnum ∧
      (UInt8.ofNat byte).toNat = byte := by decide
  exact all ⟨number, small⟩

/-- A negative number above -33 is a single byte, whose low five bits are the number in two's
complement. -/
theorem format_negative (number : Nat) (small : number < 32) :
    format (UInt8.ofNat (224 + number)) = .negativeFixnum ∧
      signed [UInt8.ofNat (224 + number)] = (number : Int) - 32 := by
  have all : ∀ byte : Fin 32, format (UInt8.ofNat (224 + byte.val)) = .negativeFixnum ∧
      signed [UInt8.ofNat (224 + byte.val)] = (byte.val : Int) - 32 := by decide
  exact all ⟨number, small⟩

/-- A number that is not negative is decoded from its bytes. -/
theorem decode_unsigned {first : Byte} {width number : Nat} (kind : format first = .unsigned width)
    (fits : number < 256 ^ width) (positive : width = 8 → 2 * number < 256 ^ width) (free : Nat)
    (rest : List Byte) : mpDecodeToLuaType (free + 1) (first :: toBytes width number ++ rest) =
      .ok (pushedInteger number, rest) := by
  have pushed : pushedUnsigned (toBytes width number) = number := by
    rw [pushedUnsigned, signed, to_bytes_length, of_to_bytes_fitting fits]
    split
    · rename_i long
      rw [if_pos (positive long)]
    · rfl
  have taken := consume_front (to_bytes_length width number) rest
  rw [List.cons_append, decode_first, mpDecodeBehind, kind]
  simp only [taken]
  exact congrArg (fun whole => Except.ok (pushedInteger whole, rest)) pushed

/-- A number is decoded from the bytes of its two's complement. -/
theorem decode_integer {first : Byte} {width : Nat} {number : Int}
    (kind : format first = .integer width) (lower : -(256 ^ width : Nat) ≤ 2 * number)
    (upper : 2 * number < (256 ^ width : Nat)) (free : Nat) (rest : List Byte) :
    mpDecodeToLuaType (free + 1) (first :: toBytes width (complement width number) ++ rest) =
      .ok (pushedInteger number, rest) := by
  have taken := consume_front (to_bytes_length width (complement width number)) rest
  rw [List.cons_append, decode_first, mpDecodeBehind, kind]
  simp only [taken]
  exact congrArg (fun whole => Except.ok (pushedInteger whole, rest))
    (signed_complement lower upper)

/-- An integer that is not negative is decoded from its encoding. -/
theorem decode_natural {number : Nat} (upper : number < 9223372036854775808) (free : Nat)
    (rest : List Byte) :
    mpDecodeToLuaType (free + 1) (mpEncodeInt number ++ rest) =
      .ok (pushedInteger number, rest) := by
  rw [mpEncodeInt, if_pos (Int.natCast_nonneg number), Int.toNat_natCast]
  split_ifs
  · obtain ⟨kind, value⟩ := format_fixnum number (by omega)
    have single : toBytes 1 number = [UInt8.ofNat number] := by
      rw [toBytes, toBytes, Nat.pow_zero, Nat.div_one, Nat.mod_eq_of_lt (by omega)]
    rw [single, List.singleton_append, decode_first, mpDecodeBehind, kind]
    simp only [value]
  · exact decode_unsigned rfl (by omega) (by omega) free rest
  · exact decode_unsigned rfl (by omega) (by omega) free rest
  · exact decode_unsigned rfl (by omega) (by omega) free rest
  · exact decode_unsigned rfl (by omega) (by omega) free rest

/-- A negative integer of 64 bits is decoded from its encoding, and what stands behind the
encoding is left. -/
theorem decode_negative {number : Int} (negative : number < 0)
    (lower : -9223372036854775808 ≤ number) (free : Nat) (rest : List Byte) :
    mpDecodeToLuaType (free + 1) (mpEncodeInt number ++ rest) =
      .ok (pushedInteger number, rest) := by
  rw [mpEncodeInt, if_neg (Int.not_le.mpr negative)]
  split_ifs
  · obtain ⟨above, position⟩ : ∃ above : Nat, number = (above : Int) - 32 :=
      ⟨(number + 32).toNat, by omega⟩
    obtain ⟨kind, value⟩ := format_negative above (by omega)
    have single : toBytes 1 (complement 1 number) = [UInt8.ofNat (224 + above)] := by
      have wrapped : complement 1 number = 224 + above := by
        rw [complement]
        omega
      rw [toBytes, toBytes, wrapped, Nat.pow_zero, Nat.div_one, Nat.mod_eq_of_lt (by omega)]
    rw [single, List.singleton_append, decode_first, mpDecodeBehind, kind]
    simp only [value, position]
  · exact decode_integer rfl (by omega) (by omega) free rest
  · exact decode_integer rfl (by omega) (by omega) free rest
  · exact decode_integer rfl (by omega) (by omega) free rest
  · exact decode_integer rfl (by omega) (by omega) free rest

/-- A number is decoded from its encoding as the number that is to arrive for it. -/
theorem decode_number (number : Double) (free : Nat) (rest : List Byte) :
    mpDecodeToLuaType (free + 1) (mpEncodeLuaNumber number ++ rest) =
      .ok (.number (receivedNumber number), rest) := by
  rw [mpEncodeLuaNumber, receivedNumber]
  cases whole : int64Equivalent number with
  | some integer =>
    obtain ⟨_, inside⟩ := Option.filter_eq_some_iff.mp whole
    obtain ⟨lower, upper⟩ := of_decide_eq_true inside
    rcases lt_or_ge integer 0 with negative | natural
    · exact decode_negative negative lower free rest
    · obtain ⟨magnitude, rfl⟩ := Int.eq_ofNat_of_zero_le natural
      exact decode_natural (by omega) free rest
  | none =>
    simp only [mpEncodeDouble]
    cases narrowed : narrow number with
    | some single =>
      have bits : single.toBits < 256 ^ 4 := to_bits_lt (by decide) single
      have read : widen (ofBits 8 23 (ofBytes (toBytes 4 single.toBits))) = number := by
        rw [of_to_bytes_fitting bits, of_to_bits (by decide), widen_narrow narrowed]
      have taken := consume_front (to_bytes_length 4 single.toBits) rest
      have kind : format 0xca = .float := rfl
      simp only [List.cons_append, decode_first, mpDecodeBehind, kind, taken]
      exact congrArg (fun datum => Except.ok (Value.number datum, rest)) read
    | none =>
      have bits : number.toBits < 256 ^ 8 := to_bits_lt (by decide) number
      have read : ofBits 11 52 (ofBytes (toBytes 8 number.toBits)) = number := by
        rw [of_to_bytes_fitting bits, of_to_bits (by decide)]
      have taken := consume_front (to_bytes_length 8 number.toBits) rest
      have kind : format 0xcb = .double := rfl
      simp only [List.cons_append, decode_first, mpDecodeBehind, kind, taken]
      exact congrArg (fun datum => Except.ok (Value.number datum, rest)) read

/-! ## Sizes -/

/-- A header of a size that fits into the longest one: a single byte for a small size, otherwise
one of the first bytes and the size. -/
theorem sized_header_cases (fixed fixedSizes : Nat) (sizes : List (Nat × Byte))
    (largest : Nat × Byte) {size : Nat} (short : size < 256 ^ largest.1) :
    (size < fixedSizes ∧
        sizedHeader fixed fixedSizes sizes largest size = [UInt8.ofNat (fixed + size)]) ∨
      ∃ width first, (width, first) ∈ sizes ++ [largest] ∧ size < 256 ^ width ∧
        sizedHeader fixed fixedSizes sizes largest size = first :: toBytes width size := by
  by_cases small : size < fixedSizes
  · exact .inl ⟨small, by rw [sizedHeader, if_pos small]⟩
  · right
    rw [sizedHeader, if_neg small]
    cases found : sizes.find? (fun entry => decide (size < 256 ^ entry.1)) with
    | some entry =>
      have listed := List.mem_of_find?_eq_some found
      have fits : size < 256 ^ entry.1 := by simpa using List.find?_some found
      exact ⟨entry.1, entry.2, List.mem_append_left _ listed, fits, rfl⟩
    | none =>
      exact ⟨largest.1, largest.2, List.mem_append_right _ List.mem_cons_self, short, rfl⟩

/-- A string of less than 2^32 bytes is decoded from its encoding unchanged. -/
theorem decode_bytes {bytes : List Byte} (short : bytes.length < 4294967296) (free : Nat)
    (rest : List Byte) :
    mpDecodeToLuaType (free + 1) (mpEncodeBytes bytes ++ rest) = .ok (.string bytes, rest) := by
  have text := consume_front (rfl : bytes.length = bytes.length) rest
  rcases sized_header_cases 0xa0 32 [(1, 0xd9), (2, 0xda)] (4, 0xdb) short with
    ⟨small, header⟩ | ⟨width, first, listed, fits, header⟩
  · have kinds : ∀ size : Fin 32, format (UInt8.ofNat (0xa0 + size.val)) = .fixRaw ∧
        (UInt8.ofNat (0xa0 + size.val)).toNat % 32 = size := by decide
    obtain ⟨kind, size⟩ := kinds ⟨bytes.length, small⟩
    rw [mpEncodeBytes, header, List.append_assoc, List.singleton_append, decode_first,
      mpDecodeBehind, kind]
    simp only [size, text, ok_bind]
  · have kind : format first = .raw width := by
      simp only [List.cons_append, List.nil_append, List.mem_cons, List.not_mem_nil, or_false,
        Prod.mk.injEq] at listed
      rcases listed with ⟨rfl, rfl⟩ | ⟨rfl, rfl⟩ | ⟨rfl, rfl⟩ <;> rfl
    have field := consume_front (to_bytes_length width bytes.length) (bytes ++ rest)
    rw [mpEncodeBytes, header, List.append_assoc, List.cons_append, decode_first,
      mpDecodeBehind, kind]
    simp only [field, ok_bind, of_to_bytes_fitting fits, text]

/-- Behind the header of an array its elements are decoded. -/
theorem decode_array_header {size : Nat} (short : size < 4294967296) (free : Nat)
    (rest : List Byte) :
    mpDecodeToLuaType (free + 1) (mpEncodeArray size ++ rest) =
      decodedArray (mpDecodeToLuaType (free - 1)) free size rest := by
  rcases sized_header_cases 0x90 16 [(2, 0xdc)] (4, 0xdd) short with
    ⟨small, header⟩ | ⟨width, first, listed, fits, header⟩
  · have kinds : ∀ size : Fin 16, format (UInt8.ofNat (0x90 + size.val)) = .fixArray ∧
        (UInt8.ofNat (0x90 + size.val)).toNat % 16 = size := by decide
    obtain ⟨kind, same⟩ := kinds ⟨size, small⟩
    rw [mpEncodeArray, header, List.singleton_append, decode_first, mpDecodeBehind, kind]
    simp only [same]
  · have kind : format first = .array width := by
      simp only [List.cons_append, List.nil_append, List.mem_cons, List.not_mem_nil, or_false,
        Prod.mk.injEq] at listed
      rcases listed with ⟨rfl, rfl⟩ | ⟨rfl, rfl⟩ <;> rfl
    have field := consume_front (to_bytes_length width size) rest
    rw [mpEncodeArray, header, List.cons_append, decode_first, mpDecodeBehind, kind]
    simp only [field, ok_bind, of_to_bytes_fitting fits]

/-- Behind the header of a map its keys and values are decoded. -/
theorem decode_map_header {size : Nat} (short : size < 4294967296) (free : Nat)
    (rest : List Byte) :
    mpDecodeToLuaType (free + 1) (mpEncodeMap size ++ rest) =
      decodedTable (mpDecodeToLuaHash (mpDecodeToLuaType (free - 1)) (mpDecodeToLuaType free)
        size [] rest) := by
  rcases sized_header_cases 0x80 16 [(2, 0xde)] (4, 0xdf) short with
    ⟨small, header⟩ | ⟨width, first, listed, fits, header⟩
  · have kinds : ∀ size : Fin 16, format (UInt8.ofNat (0x80 + size.val)) = .fixMap ∧
        (UInt8.ofNat (0x80 + size.val)).toNat % 16 = size := by decide
    obtain ⟨kind, same⟩ := kinds ⟨size, small⟩
    rw [mpEncodeMap, header, List.singleton_append, decode_first, mpDecodeBehind, kind]
    simp only [same]
  · have kind : format first = .hash width := by
      simp only [List.cons_append, List.nil_append, List.mem_cons, List.not_mem_nil, or_false,
        Prod.mk.injEq] at listed
      rcases listed with ⟨rfl, rfl⟩ | ⟨rfl, rfl⟩ <;> rfl
    have field := consume_front (to_bytes_length width size) rest
    rw [mpEncodeMap, header, List.cons_append, decode_first, mpDecodeBehind, kind]
    simp only [field, ok_bind, of_to_bytes_fitting fits]

/-! ## Containers -/

/-- Storing under a key that can be one never fails: `lua_settable` does what `lua_rawset` does. -/
theorem set_table_allowed {key : Value} (allowed : KeyAllowed key) (entries : Entries)
    (value : Value) : setTable entries key value = .ok (rawSet entries key value) := by
  cases allowed with
  | number number =>
    rename_i datum
    cases datum with
    | nan => exact absurd rfl number
    | infinity negative => rfl
    | finite negative exponent fraction => rfl
  | _ => rfl

/-- A value is decoded from its encoding, whatever follows, as what is received. -/
def Delivers (decode : List Byte → Except Failure (Value × List Byte))
    (encode : Value → List Byte) (receive : Value → Option Value) (value : Value) : Prop :=
  ∀ rest, decode (encode value ++ rest) = delivered (receive value) rest

section Containers

variable {decode decodeKey : List Byte → Except Failure (Value × List Byte)}
  {encode : Value → List Byte} {receive : Value → Option Value}

/-- The loop over an array stores what is received of its elements. -/
theorem decode_elements {values : List Value}
    (each : ∀ value ∈ values, Delivers decode encode receive value) (position : Nat)
    (entries : Entries) (short : position + values.length ≤ 9007199254740992)
    (fresh : ∀ later, position ≤ later → later < 9007199254740992 →
      ∀ entry ∈ entries, sameKey (index later) entry.1 = false) (rest : List Byte) :
    mpDecodeToLuaArray decode values.length position entries (values.flatMap encode ++ rest) =
      delivered ((values.mapM receive).map fun received =>
        entries ++ present (numbered position received)) rest := by
  induction values generalizing position entries with
  | nil => simp [mpDecodeToLuaArray, delivered, numbered, present]
  | cons value values inductionHypothesis =>
    have here := each value List.mem_cons_self (values.flatMap encode ++ rest)
    rw [List.length_cons] at short
    rw [List.length_cons, mpDecodeToLuaArray, List.flatMap_cons, List.append_assoc, here,
      List.mapM_cons]
    cases received : receive value with
    | none => rfl
    | some value =>
      have stored : setTable entries (index position) value =
          .ok (entries ++ present [(index position, value)]) := by
        have key : KeyAllowed (index position) := .number (nearest_number position)
        have unused := fresh position (Nat.le_refl _) (by omega)
        rw [set_table_allowed key, raw_set_fresh value unused, present]
      have further : ∀ later, position + 1 ≤ later → later < 9007199254740992 →
          ∀ entry ∈ entries ++ present [(index position, value)],
            sameKey (index later) entry.1 = false := by
        intro later behind bounded entry listed
        rcases List.mem_append.mp listed with before | added
        · exact fresh later (by omega) bounded entry before
        · obtain rfl := List.mem_singleton.mp (List.mem_of_mem_filter added)
          rw [Bool.eq_false_iff, Ne, same_index_iff bounded (by omega)]
          omega
      have others := inductionHypothesis
        (fun other listed => each other (List.mem_cons_of_mem _ listed)) (position + 1)
        (entries ++ present [(index position, value)]) (by omega) further
      simp only [delivered, ok_bind, stored, others]
      cases values.mapM receive with
      | none => rfl
      | some received =>
        have split := present_cons (index position, value) (numbered (position + 1) received)
        simp [numbered, split]

/-- The loop over a map stores what is received of its keys and values, which are different keys
if they are different where they come from. -/
theorem decode_entries (entries : Entries) {pairs : Entries}
    (keys : ∀ entry ∈ pairs, Delivers decodeKey encode receive entry.1)
    (values : ∀ entry ∈ pairs, Delivers decode encode receive entry.2)
    (allowed : ∀ entry ∈ pairs, ∀ key, receive entry.1 = some key → key.isNil = false →
      KeyAllowed key)
    (different : pairs.Pairwise fun before after => ∀ left right, receive before.1 = some left →
      receive after.1 = some right → sameKey right left = false)
    (fresh : ∀ entry ∈ pairs, ∀ key, receive entry.1 = some key →
      ∀ stored ∈ entries, sameKey key stored.1 = false) (rest : List Byte) :
    mpDecodeToLuaHash decode decodeKey pairs.length entries
        ((pairs.flatMap fun entry => encode entry.1 ++ encode entry.2) ++ rest) =
      delivered ((pairs.mapM (receivedEntry receive)).map fun received =>
        entries ++ present received) rest := by
  induction pairs generalizing entries with
  | nil => simp [mpDecodeToLuaHash, delivered, present]
  | cons pair pairs inductionHypothesis =>
    obtain ⟨apart, laterDifferent⟩ := List.pairwise_cons.mp different
    have first := keys pair List.mem_cons_self
      (encode pair.2 ++ ((pairs.flatMap fun entry => encode entry.1 ++ encode entry.2) ++ rest))
    have second := values pair List.mem_cons_self
      ((pairs.flatMap fun entry => encode entry.1 ++ encode entry.2) ++ rest)
    rw [List.length_cons, mpDecodeToLuaHash, List.flatMap_cons, List.append_assoc,
      List.append_assoc, first, List.mapM_cons, receivedEntry]
    cases key : receive pair.1 with
    | none => rfl
    | some name =>
      simp only [delivered, ok_bind, second]
      cases value : receive pair.2 with
      | none => rfl
      | some content =>
        cases missing : name.isNil with
        | true =>
          obtain rfl : name = .nil := by
            cases name <;> first | rfl | cases missing
          rfl
        | false =>
          have here := fresh pair List.mem_cons_self name key
          have stored : setTable entries name content =
              .ok (entries ++ present [(name, content)]) := by
            rw [set_table_allowed (allowed pair List.mem_cons_self name key missing),
              raw_set_fresh content here, present]
          have further : ∀ entry ∈ pairs, ∀ later, receive entry.1 = some later →
              ∀ stored ∈ entries ++ present [(name, content)],
                sameKey later stored.1 = false := by
            intro entry listed later received stored inside
            rcases List.mem_append.mp inside with before | added
            · exact fresh entry (List.mem_cons_of_mem _ listed) later received stored before
            · obtain rfl := List.mem_singleton.mp (List.mem_of_mem_filter added)
              exact apart entry listed name later key received
          have others := inductionHypothesis (entries ++ present [(name, content)])
            (fun other listed => keys other (List.mem_cons_of_mem _ listed))
            (fun other listed => values other (List.mem_cons_of_mem _ listed))
            (fun other listed => allowed other (List.mem_cons_of_mem _ listed))
            laterDifferent further
          simp only [delivered, ok_bind, stored, others]
          cases pairs.mapM (receivedEntry receive) with
          | none => simp
          | some received =>
            have split := present_cons (name, content) received
            simp [missing, split]

end Containers

/-! ## Values -/

/-- Only zero loses something behind the queue, namely its sign; every other number arrives as
it was. -/
theorem received_number_plain (number : Double) :
    (receivedNumber number).plain = number.plain := by
  rw [receivedNumber]
  cases whole : int64Equivalent number with
  | none => rfl
  | some integer =>
    have integral := (Option.filter_eq_some_iff.mp whole).1
    simp only [nearest_integral (by decide) (by decide) integral, plain_plain]

/-- A number arrives as a number, never as what is not a number. -/
theorem received_number_number {number : Double} (valid : number ≠ .nan) :
    receivedNumber number ≠ .nan := by
  rw [receivedNumber]
  split
  · exact nearest_number _
  · exact valid

/-- A table arrives as a table, or as nil where it is nested too deep. -/
theorem received_table {room : Nat} {entries : Entries} {received : Value}
    (arrives : receive room (.table entries) = some received) :
    received = .nil ∨ ∃ stored, received = .table stored := by
  cases room with
  | zero => exact .inl (Option.some.inj arrives).symm
  | succ room =>
    rw [receive] at arrives
    split at arrives
    · obtain ⟨values, _, rfl⟩ := Option.map_eq_some_iff.mp arrives
      exact .inr ⟨_, rfl⟩
    · obtain ⟨pairs, _, rfl⟩ := Option.map_eq_some_iff.mp arrives
      exact .inr ⟨_, rfl⟩

/-- What arrives of a key, unless it is nil, can be a key. -/
theorem received_key_allowed {room : Nat} {key received : Value} (allowed : KeyAllowed key)
    (arrives : receive room key = some received) (here : received.isNil = false) :
    KeyAllowed received := by
  cases allowed with
  | boolean value =>
    cases room <;> cases arrives <;> exact .boolean value
  | number valid =>
    cases room <;> cases arrives <;> exact .number (received_number_number valid)
  | string bytes =>
    cases room <;> cases arrives <;> exact .string bytes
  | table entries =>
    rcases received_table arrives with rfl | ⟨stored, rfl⟩
    · cases here
    · exact .table stored
  | null =>
    cases room <;> cases arrives <;> cases here
  | other identity =>
    cases room <;> cases arrives <;> cases here

/-- A key that arrives as one that has a name has that name itself. -/
theorem received_same_key {room : Nat} {key received other : Value}
    (arrives : receive room key = some received) (same : sameKey other received = true) :
    sameKey other key = true := by
  cases key with
  | number number =>
    cases room <;> cases arrives <;> cases other <;>
      simp_all [sameKey, received_number_plain]
  | table entries =>
    rcases received_table arrives with rfl | ⟨stored, rfl⟩
    · cases other <;> cases same
    · cases other <;> cases same
  | null => cases room <;> cases arrives <;> cases other <;> cases same
  | other identity => cases room <;> cases arrives <;> cases other <;> cases same
  | nil => cases room <;> cases arrives <;> cases other <;> cases same
  | _ => cases room <;> cases arrives <;> exact same

/-- Keys that name different entries arrive as keys that name different entries. -/
theorem received_keys_different {room : Nat} {before after left right : Value}
    (different : sameKey before after = false) (first : receive room before = some left)
    (second : receive room after = some right) : sameKey right left = false := by
  by_contra same
  have reached := received_same_key first (Bool.not_eq_false _ ▸ same)
  rw [same_key_comm] at reached
  rw [received_same_key second reached] at different
  cases different

/-- A header has at least one byte, the one that says what follows. -/
theorem sized_header_nonempty (fixed fixedSizes size : Nat) (sizes : List (Nat × Byte))
    (largest : Nat × Byte) : 0 < (sizedHeader fixed fixedSizes sizes largest size).length := by
  rw [sizedHeader]
  split
  · exact Nat.one_pos
  · split <;> exact Nat.succ_pos _

/-- The encoding of a value has at least one byte, however deep the value is nested. -/
theorem encode_nonempty (room : Nat) (value : Value) :
    0 < (mpEncodeLuaType room value).length := by
  have number (value : Double) : 0 < (mpEncodeLuaNumber value).length := by
    rw [mpEncodeLuaNumber]
    split
    · rw [mpEncodeInt]
      split_ifs <;> simp
    · rw [mpEncodeDouble]
      split <;> simp
  cases value with
  | number value => cases room <;> exact number value
  | string bytes =>
    have header := sized_header_nonempty 0xa0 32 bytes.length [(1, 0xd9), (2, 0xda)] (4, 0xdb)
    cases room <;> simp only [mpEncodeLuaType, mpEncodeBytes, List.length_append] <;> omega
  | table entries =>
    cases room with
    | zero => exact Nat.one_pos
    | succ room =>
      rw [mpEncodeLuaType, mpEncodeLuaTable]
      split
      · rw [mpEncodeLuaTableAsArray, List.length_append]
        exact Nat.add_pos_left (sized_header_nonempty ..) _
      · rw [mpEncodeLuaTableAsMap, List.length_append]
        exact Nat.add_pos_left (sized_header_nonempty ..) _
  | _ => cases room <;> exact Nat.one_pos

/-- The encoding of one of several items is no longer than all the encodings together. -/
theorem length_within {Item : Type} {items : List Item} {item : Item} (encode : Item → List Byte)
    (listed : item ∈ items) : (encode item).length ≤ (items.flatMap encode).length := by
  obtain ⟨before, after, rfl⟩ := List.append_of_mem listed
  simp only [List.flatMap_append, List.flatMap_cons, List.length_append]
  omega

/-- There are no more encodings than bytes in them, because none of them is empty. -/
theorem count_within {Item : Type} (encode : Item → List Byte) (items : List Item)
    (nonempty : ∀ item, 0 < (encode item).length) :
    items.length ≤ (items.flatMap encode).length := by
  induction items with
  | nil => exact Nat.le_refl _
  | cons item items inductionHypothesis =>
    have here := nonempty item
    rw [List.flatMap_cons, List.length_append, List.length_cons]
    omega

/-- The elements of a table are well-formed if the values of its entries are. -/
theorem elements_well_formed {entries : Entries} (values : ∀ entry ∈ entries, WellFormed entry.2) :
    ∀ value ∈ elements entries, WellFormed value := by
  intro value listed
  obtain ⟨before, _, rfl⟩ := List.mem_map.mp listed
  rcases raw_get_cases entries (index (before + 1)) with missing | ⟨entry, stored, found⟩
  · rw [missing]
    exact .nil
  · rw [found]
    exact values entry stored

/-- An array delivers if its elements do, above it and their index. -/
theorem array_delivers {room free : Nat} {entries : Entries}
    (array : tableIsAnArray entries = true)
    (each : ∀ value ∈ elements entries,
      Delivers (mpDecodeToLuaType free) (mpEncodeLuaType room) (receive room) value)
    (short : entries.length < 4294967296) :
    Delivers (mpDecodeToLuaType (free + 2)) (mpEncodeLuaType (room + 1)) (receive (room + 1))
      (.table entries) := by
  intro rest
  have size : (elements entries).length = entries.length := by
    rw [elements, List.length_map, List.length_range]
  have encoded : (List.range entries.length).flatMap (fun before =>
      mpEncodeLuaType room (rawGet entries (index (before + 1)))) =
        (elements entries).flatMap (mpEncodeLuaType room) := by
    rw [elements, List.flatMap_map]
  have decoded := decode_elements each 1 [] (by omega)
    (fun _ _ _ entry listed => absurd listed List.not_mem_nil) rest
  rw [size] at decoded
  rw [mpEncodeLuaType, mpEncodeLuaTable, if_pos array, mpEncodeLuaTableAsArray, List.append_assoc,
    encoded, decode_array_header short, decodedArray, if_neg (Nat.succ_ne_zero free),
    Nat.add_sub_cancel, decoded, receive, if_pos array]
  cases (elements entries).mapM (receive room) with
  | none => rfl
  | some values => rfl

/-- A table that is no array delivers if its keys do, above it, and its values, above it and
their key. -/
theorem map_delivers {room free : Nat} {entries : Entries}
    (map : tableIsAnArray entries = false)
    (different : (entries.map Prod.fst).Pairwise fun left right => sameKey left right = false)
    (allowed : ∀ entry ∈ entries, KeyAllowed entry.1)
    (keys : ∀ entry ∈ entries,
      Delivers (mpDecodeToLuaType (free + 1)) (mpEncodeLuaType room) (receive room) entry.1)
    (values : ∀ entry ∈ entries,
      Delivers (mpDecodeToLuaType free) (mpEncodeLuaType room) (receive room) entry.2)
    (short : entries.length < 4294967296) :
    Delivers (mpDecodeToLuaType (free + 2)) (mpEncodeLuaType (room + 1)) (receive (room + 1))
      (.table entries) := by
  intro rest
  have apart : entries.Pairwise fun before after => ∀ left right,
      receive room before.1 = some left → receive room after.1 = some right →
        sameKey right left = false :=
    (List.pairwise_map.mp different).imp fun named left right first second =>
      received_keys_different named first second
  have decoded := decode_entries [] keys values
    (fun entry listed key arrives here => received_key_allowed (allowed entry listed) arrives here)
    apart (fun _ _ _ _ stored listed => absurd listed List.not_mem_nil) rest
  have isMap : ¬ tableIsAnArray entries = true := by rw [map]; exact Bool.false_ne_true
  rw [mpEncodeLuaType, mpEncodeLuaTable, if_neg isMap, mpEncodeLuaTableAsMap, List.append_assoc,
    decode_map_header short, Nat.add_sub_cancel, decoded, receive, if_neg isMap]
  cases entries.mapM (receivedEntry (receive room)) with
  | none => rfl
  | some pairs => rfl

/-- A value that arrives as nil is decoded from the single byte of nil. -/
theorem null_delivers {room free : Nat} {value : Value}
    (encoded : mpEncodeLuaType room value = mpEncodeLuaNull)
    (arrives : receive room value = some .nil) :
    Delivers (mpDecodeToLuaType (free + 1)) (mpEncodeLuaType room) (receive room) value := by
  intro rest
  rw [encoded, arrives]
  exact decode_first free 0xc0 rest

/-- A value that is no table delivers what is to arrive for it, with one slot free. -/
theorem scalar_delivers (room free : Nat) {value : Value}
    (scalar : ∀ entries, value ≠ .table entries)
    (short : (mpEncodeLuaType room value).length < 4294967296) :
    Delivers (mpDecodeToLuaType (free + 1)) (mpEncodeLuaType room) (receive room) value := by
  cases value with
  | number number =>
    intro rest
    have decoded := decode_number number free rest
    cases room <;> exact decoded
  | string bytes =>
    intro rest
    have inside : bytes.length < 4294967296 := by
      refine Nat.lt_of_le_of_lt ?_ short
      cases room <;> simp only [mpEncodeLuaType, mpEncodeBytes, List.length_append] <;> omega
    have decoded := decode_bytes inside free rest
    cases room <;> exact decoded
  | boolean value =>
    intro rest
    cases room <;> cases value <;> exact decode_first free _ rest
  | table entries => exact absurd rfl (scalar entries)
  | _ => cases room <;> exact null_delivers rfl rfl

/-- A value is decoded from its encoding as what is received of it, if two slots are free for
each table around what is in it, and one for that. -/
theorem decode_encode (room free : Nat) {value : Value} (wellFormed : WellFormed value)
    (enough : 2 * room < free) (short : (mpEncodeLuaType room value).length < 4294967296) :
    Delivers (mpDecodeToLuaType free) (mpEncodeLuaType room) (receive room) value := by
  induction room generalizing value free with
  | zero =>
    obtain ⟨free, rfl⟩ := Nat.exists_eq_succ_of_ne_zero (Nat.ne_of_gt enough)
    by_cases scalar : ∀ entries, value ≠ .table entries
    · exact scalar_delivers 0 free scalar short
    · obtain ⟨entries, rfl⟩ := not_forall_not.mp scalar
      exact null_delivers rfl rfl
  | succ room inductionHypothesis =>
    obtain ⟨free, rfl⟩ : ∃ less, free = less + 2 := ⟨free - 2, by omega⟩
    by_cases scalar : ∀ entries, value ≠ .table entries
    · exact scalar_delivers (room + 1) (free + 1) scalar short
    · obtain ⟨entries, rfl⟩ := not_forall_not.mp scalar
      cases wellFormed with
      | table different allowed there keys values =>
        rw [mpEncodeLuaType, mpEncodeLuaTable] at short
        cases kind : tableIsAnArray entries with
        | true =>
          rw [if_pos kind, mpEncodeLuaTableAsArray, List.length_append] at short
          have count := count_within _ (List.range entries.length)
            (fun before => encode_nonempty room (rawGet entries (index (before + 1))))
          rw [List.length_range] at count
          refine array_delivers kind (fun value listed => ?_) (by omega)
          have inside : (mpEncodeLuaType room value).length ≤
              ((List.range entries.length).flatMap fun before =>
                mpEncodeLuaType room (rawGet entries (index (before + 1)))).length := by
            have among := length_within (mpEncodeLuaType room) listed
            rwa [elements, List.flatMap_map] at among
          exact inductionHypothesis free (elements_well_formed values value listed) (by omega)
            (by omega)
        | false =>
          rw [if_neg (by rw [kind]; exact Bool.false_ne_true), mpEncodeLuaTableAsMap,
            List.length_append] at short
          have count := count_within (fun entry : Value × Value =>
            mpEncodeLuaType room entry.1 ++ mpEncodeLuaType room entry.2) entries fun entry => by
              have first := encode_nonempty room entry.1
              rw [List.length_append]
              omega
          have inside : ∀ entry ∈ entries, (mpEncodeLuaType room entry.1).length +
              (mpEncodeLuaType room entry.2).length ≤ (entries.flatMap fun entry =>
                mpEncodeLuaType room entry.1 ++ mpEncodeLuaType room entry.2).length := by
            intro entry listed
            have among := length_within (fun entry : Value × Value =>
              mpEncodeLuaType room entry.1 ++ mpEncodeLuaType room entry.2) listed
            rwa [List.length_append] at among
          refine map_delivers kind different allowed (fun entry listed => ?_)
            (fun entry listed => ?_) (by omega)
          · have among := inside entry listed
            exact inductionHypothesis (free + 1) (keys entry listed) (by omega) (by omega)
          · have among := inside entry listed
            exact inductionHypothesis free (values entry listed) (by omega) (by omega)

/-! ## Messages -/

/-- How unpacking ends where all values are received, and where one is not. -/
def unpacked (received : Option (List Value)) : Except UnpackError (List Value) :=
  match received with
  | some values => .ok values
  | none => .error (.failure .nilIndex)

/-- The loop of `mp_unpack_full` decodes the values of a message, if so many slots are free. -/
theorem unpack_loop_pack {values : List Value} (wellFormed : ∀ value ∈ values, WellFormed value)
    (short : (values.flatMap (mpEncodeLuaType maxNesting)).length < 4294967296) {free limit : Nat}
    (roomy : values.length + 2 * maxNesting ≤ free) (enough : values.length ≤ limit) :
    unpackLoop free limit (values.flatMap (mpEncodeLuaType maxNesting)) =
      delivered (values.mapM (receive maxNesting)) [] := by
  induction values generalizing free limit with
  | nil => rw [List.flatMap_nil, unpackLoop, List.mapM_nil]; rfl
  | cons value values inductionHypothesis =>
    obtain ⟨limit, rfl⟩ := Nat.exists_eq_add_of_lt (Nat.lt_of_lt_of_le (Nat.succ_pos _) enough)
    rw [List.length_cons] at enough roomy
    rw [List.flatMap_cons, List.length_append] at short
    have nonempty := encode_nonempty maxNesting value
    have first := decode_encode maxNesting free (wellFormed value List.mem_cons_self)
      (by omega) (by omega) (values.flatMap (mpEncodeLuaType maxNesting))
    have fewer : values.length ≤ limit := by omega
    have left : values.length + 2 * maxNesting ≤ free - 1 := by omega
    have others := inductionHypothesis
      (fun other listed => wellFormed other (List.mem_cons_of_mem _ listed)) (by omega) left fewer
    have some : mpEncodeLuaType maxNesting value ++
        values.flatMap (mpEncodeLuaType maxNesting) ≠ [] := by
      intro empty
      have lengths := congrArg List.length empty
      rw [List.length_append, List.length_nil] at lengths
      omega
    rw [List.flatMap_cons, Nat.zero_add, unpackLoop, first, List.mapM_cons]
    · cases receive maxNesting value with
      | none => rfl
      | some arrived =>
        simp only [delivered, ok_bind, others]
        cases values.mapM (receive maxNesting) with
        | none => rfl
        | some arrived => rfl
    · exact some

/-- A packed message is the encodings of its values, of which there are some, but not so many
that unpacking them runs out of slots. -/
theorem mp_pack_some {values : List Value} {message : List Byte}
    (packed : mpPack values = some message) :
    values ≠ [] ∧ values.length + 2 * maxNesting < maxCStack ∧
      values.flatMap (mpEncodeLuaType maxNesting) = message := by
  simp only [mpPack] at packed
  split at packed
  · cases packed
  · rename_i several
    split at packed
    · cases packed
      have inside : values.length + 2 * maxNesting < maxCStack := by
        rw [maxCStack] at several ⊢
        rw [maxNesting]
        omega
      refine ⟨fun none => several (.inl ?_), inside, rfl⟩
      rw [none]
      rfl
    · cases packed

/-- Encodings one behind the other are unpacked to what is received of each, if they are not
too many. -/
theorem unpack_encodings {values : List Value} (wellFormed : ∀ value ∈ values, WellFormed value)
    (few : values.length + 2 * maxNesting < maxCStack)
    (short : (values.flatMap (mpEncodeLuaType maxNesting)).length < 2147483648) :
    mpUnpack (values.flatMap (mpEncodeLuaType maxNesting)) =
      unpacked (values.mapM (receive maxNesting)) := by
  have count := count_within _ values (encode_nonempty maxNesting)
  have within : values.length ≤ intMax := by
    rw [intMax]
    omega
  have loop := unpack_loop_pack wellFormed (by omega)
    (Nat.le_sub_one_of_lt few : _ ≤ maxCStack - 1) within
  have inside : ¬ (((values.flatMap (mpEncodeLuaType maxNesting)).length : Int) < 0) := by omega
  rw [mpUnpack, mpUnpackBehind, mpUnpackFull]
  simp only [lt_self_iff_false, or_self, if_false, inside, and_self, if_true, Int.toNat_zero,
    List.drop_zero, Nat.zero_add, loop]
  cases values.mapM (receive maxNesting) with
  | none => rfl
  | some arrived => rfl

/-- Unpacking a message of packed values returns what is received of each, or fails because one
is not received. -/
theorem unpack_packed {values : List Value} {message : List Byte}
    (wellFormed : ∀ value ∈ values, WellFormed value) (packed : mpPack values = some message)
    (short : message.length < 2147483648) :
    mpUnpack message = unpacked (values.mapM (receive maxNesting)) := by
  obtain ⟨_, few, rfl⟩ := mp_pack_some packed
  exact unpack_encodings wellFormed few short

/-- A table with a null pointer and a function in it arrives without their entries. -/
theorem unpack_packed_table :
    mpUnpack [0xa1, 0x61, 0x83, 0xa1, 0x62, 0xc0, 0xa1, 0x63, 0xc3, 0xa1, 0x64, 0xc0] =
      unpacked ([.string [0x61], .table [(.string [0x62], .null), (.string [0x63], .boolean true),
        (.string [0x64], .other 3)]].mapM (receive maxNesting)) :=
  unpack_packed
    (fun value listed => by
      obtain rfl | last := List.mem_cons.mp listed
      · exact .string _
      · rw [List.mem_singleton.mp last]
        refine table_formed_iff.mpr ⟨by decide, fun entry among => ?_⟩
        simp only [List.mem_cons, List.not_mem_nil, or_false] at among
        obtain rfl | rfl | rfl := among
        · exact ⟨.string _, rfl, .string _, .null⟩
        · exact ⟨.string _, rfl, .string _, .boolean _⟩
        · exact ⟨.string _, rfl, .string _, .other _⟩)
    rfl (by decide)

end Dragonfly.MessagePack
