import GraphicsEngine.Snapshot.Section

/-! Readers and encodings are inverse to each other. A reader accepts a value exactly where the
bytes begin with the encoding of it, and leaves what stands behind; so no value has two encodings,
and no encoding is the beginning of another.
-/

namespace GraphicsEngine.Snapshot

namespace Reader

/-- The reader takes the encodings of the allowed values off the front of the bytes, and nothing
else.
-/
def Inverts {α : Type} (reader : Reader α) (encode : α → Bytes) (allowed : α → Prop)
    : Prop :=
  ∀ {bytes rest : Bytes} {value : α},
    reader.run bytes = .ok value rest ↔ allowed value ∧ bytes = encode value ++ rest

-----------------------------------------------------------------------------------------
-- Plain values
-----------------------------------------------------------------------------------------

/-- A reader that takes nothing gives its value and leaves all bytes, by definition. -/
theorem pure_run_ok_iff {α : Type} {given value : α} {bytes rest : Bytes}
    : (pure given : Reader α).run bytes = .ok value rest ↔ given = value ∧ bytes = rest := by
  simp only [EStateM.run, pure, EStateM.pure, EStateM.Result.ok.injEq]

/-- A reader that refuses gives no value, by definition. -/
theorem throw_run_ne_ok {α : Type} {failure : Error} {value : α} {bytes rest : Bytes}
    : (throw failure : Reader α).run bytes ≠ .ok value rest := by
  intro accepted
  cases accepted

/-- A number is read where its bytes stand, since bytes and number determine each other. -/
theorem number_run_ok_iff {width value : Nat} {bytes rest : Bytes}
    : (number width).run bytes = .ok value rest
      ↔ value < LittleEndian.span width ∧ bytes = LittleEndian.bytes width value ++ rest := by
  simp only [number, bind_run_ok_iff, take_run_ok_iff, pure_run_ok_iff]
  constructor
  · intro holds
    obtain ⟨chunk, middle, ⟨rfl, rfl⟩, rfl, rfl⟩ := holds
    exact ⟨LittleEndian.value_lt chunk, by rw [LittleEndian.bytes_value]⟩
  · intro holds
    obtain ⟨small, rfl⟩ := holds
    exact ⟨_, rest, ⟨rfl, LittleEndian.length_bytes width value⟩,
      by rw [LittleEndian.value_bytes, Nat.mod_eq_of_lt small], rfl⟩

/-- A value is read as the number that stands for it, where the numbers of a width and the values
stand for each other.
-/
theorem number_map_run_ok_iff {α : Type} (width : Nat) {ofNat : Nat → α} {toNat : α → Nat}
    (bounded : ∀ value, toNat value < LittleEndian.span width)
    (ofNat_toNat : ∀ value, ofNat (toNat value) = value)
    (toNat_ofNat : ∀ number < LittleEndian.span width, toNat (ofNat number) = number)
    {bytes rest : Bytes} {value : α}
    : (number width >>= fun number => (pure (ofNat number) : Reader α)).run bytes
          = .ok value rest
      ↔ bytes = LittleEndian.bytes width (toNat value) ++ rest := by
  simp only [bind_run_ok_iff, number_run_ok_iff, pure_run_ok_iff]
  constructor
  · intro holds
    obtain ⟨number, middle, ⟨small, rfl⟩, rfl, rfl⟩ := holds
    rw [toNat_ofNat number small]
  · rintro rfl
    exact ⟨toNat value, rest, ⟨bounded value, rfl⟩, ofNat_toNat value, rfl⟩

@[simp] theorem uint8_run_ok_iff {value : UInt8} {bytes rest : Bytes}
    : uint8.run bytes = .ok value rest ↔ bytes = Encoding.uint8 value ++ rest := by
  have spelt : LittleEndian.bytes 1 value.toNat = Encoding.uint8 value := by
    have small : value.toNat % 256 = value.toNat := Nat.mod_eq_of_lt value.toNat_lt
    simp [LittleEndian.bytes, Encoding.uint8, small]
  rw [← spelt]
  exact number_map_run_ok_iff 1 UInt8.toNat_lt (fun _ => UInt8.ofNat_toNat)
    fun _ small => UInt8.toNat_ofNat_of_lt' small

@[simp] theorem uint16_run_ok_iff {value : UInt16} {bytes rest : Bytes}
    : uint16.run bytes = .ok value rest ↔ bytes = Encoding.uint16 value ++ rest :=
  number_map_run_ok_iff 2 UInt16.toNat_lt (fun _ => UInt16.ofNat_toNat)
    fun _ small => UInt16.toNat_ofNat_of_lt' small

@[simp] theorem uint32_run_ok_iff {value : UInt32} {bytes rest : Bytes}
    : uint32.run bytes = .ok value rest ↔ bytes = Encoding.uint32 value ++ rest :=
  number_map_run_ok_iff 4 UInt32.toNat_lt (fun _ => UInt32.ofNat_toNat)
    fun _ small => UInt32.toNat_ofNat_of_lt' small

@[simp] theorem uint64_run_ok_iff {value : UInt64} {bytes rest : Bytes}
    : uint64.run bytes = .ok value rest ↔ bytes = Encoding.uint64 value ++ rest :=
  number_map_run_ok_iff 8 UInt64.toNat_lt (fun _ => UInt64.ofNat_toNat)
    fun _ small => UInt64.toNat_ofNat_of_lt' small

@[simp] theorem int32_run_ok_iff {value : Int32} {bytes rest : Bytes}
    : int32.run bytes = .ok value rest ↔ bytes = Encoding.int32 value ++ rest := by
  simp only [int32, bind_run_ok_iff, uint32_run_ok_iff, pure_run_ok_iff, Encoding.int32]
  constructor
  · intro holds
    obtain ⟨word, middle, rfl, rfl, rfl⟩ := holds
    simp
  · rintro rfl
    exact ⟨value.toUInt32, rest, rfl, by simp, rfl⟩

@[simp] theorem bool_run_ok_iff {value : Bool} {bytes rest : Bytes}
    : bool.run bytes = .ok value rest ↔ bytes = Encoding.bool value ++ rest := by
  simp only [bool, bind_run_ok_iff, uint8_run_ok_iff]
  constructor
  · intro holds
    obtain ⟨byte, middle, rfl, read⟩ := holds
    split at read
    · obtain ⟨rfl, rfl⟩ := pure_run_ok_iff.mp read
      rfl
    · obtain ⟨rfl, rfl⟩ := pure_run_ok_iff.mp read
      rfl
    · exact (throw_run_ne_ok read).elim
  · rintro rfl
    cases value with
    | false => exact ⟨0, rest, rfl, pure_run_ok_iff.mpr ⟨rfl, rfl⟩⟩
    | true => exact ⟨1, rest, rfl, pure_run_ok_iff.mpr ⟨rfl, rfl⟩⟩

-----------------------------------------------------------------------------------------
-- Lists of values
-----------------------------------------------------------------------------------------

theorem many_run_ok_iff {α : Type} {item : Reader α} {encode : α → Bytes}
    {allowed : α → Prop} (inverts : item.Inverts encode allowed)
    {count : Nat} {values : List α} {bytes rest : Bytes}
    : (many item count).run bytes = .ok values rest
      ↔ (values.length = count ∧ ∀ value ∈ values, allowed value)
        ∧ bytes = values.flatMap encode ++ rest := by
  unfold Inverts at inverts
  induction count generalizing values bytes rest with
  | zero =>
      simp only [many, pure_run_ok_iff]
      constructor
      · intro holds
        obtain ⟨rfl, rfl⟩ := holds
        simp
      · intro holds
        obtain ⟨⟨empty, -⟩, rfl⟩ := holds
        rw [List.length_eq_zero_iff.mp empty]
        simp
  | succ count ih =>
      simp only [many, bind_run_ok_iff, pure_run_ok_iff, inverts, ih]
      constructor
      · intro holds
        obtain ⟨first, middle, ⟨fits, rfl⟩, others, last, ⟨⟨rfl, fit⟩, rfl⟩, rfl, rfl⟩ := holds
        simp [fits]
        exact fit
      · intro holds
        obtain ⟨⟨size, fit⟩, rfl⟩ := holds
        cases values with
        | nil => simp at size
        | cons first others =>
            simp only [List.length_cons, Nat.add_right_cancel_iff] at size
            simp only [List.mem_cons, forall_eq_or_imp] at fit
            refine ⟨first, _, ⟨fit.1, ?_⟩, others, rest, ⟨⟨size, fit.2⟩, rfl⟩, rfl, rfl⟩
            simp

/-- Counted values are read where their number and then their encodings stand, unless they are more
than the reader takes.
-/
theorem counted_run_ok_iff {α : Type} {item : Reader α} {encode : α → Bytes}
    {allowed : α → Prop} (inverts : item.Inverts encode allowed)
    {limit : Nat} (small : limit < 0x100000000) {excess : Flaw} {values : List α}
    {bytes rest : Bytes}
    : (counted limit excess item).run bytes = .ok values rest
      ↔ (values.length ≤ limit ∧ ∀ value ∈ values, allowed value)
        ∧ bytes
          = Encoding.uint32 (UInt32.ofNat values.length) ++ values.flatMap encode ++ rest := by
  simp only [counted, bind_run_ok_iff, uint32_run_ok_iff]
  constructor
  · intro holds
    obtain ⟨count, middle, rfl, read⟩ := holds
    split at read
    · exact (throw_run_ne_ok read).elim
    · next bounded =>
      obtain ⟨⟨size, fit⟩, rfl⟩ := (many_run_ok_iff inverts).mp read
      refine ⟨⟨size ▸ Nat.le_of_not_lt bounded, fit⟩, ?_⟩
      simp [size]
  · intro holds
    obtain ⟨⟨bounded, fit⟩, rfl⟩ := holds
    have counted : (UInt32.ofNat values.length).toNat = values.length :=
      UInt32.toNat_ofNat_of_lt' (Nat.lt_of_le_of_lt bounded small)
    refine ⟨UInt32.ofNat values.length, values.flatMap encode ++ rest, by simp, ?_⟩
    rw [counted, if_neg (Nat.not_lt.mpr bounded)]
    exact (many_run_ok_iff inverts).mpr ⟨⟨rfl, fit⟩, rfl⟩

end Reader

-----------------------------------------------------------------------------------------
-- Records
-----------------------------------------------------------------------------------------

open Reader

/-- Every interrupt is read where it was written, field by field. -/
theorem interrupt_inverts
    : Interrupt.decode.Inverts Interrupt.encode fun _ => True := by
  intro bytes rest interrupt
  simp only [Interrupt.decode, bind_run_ok_iff, uint32_run_ok_iff, int32_run_ok_iff,
    pure_run_ok_iff, Interrupt.encode, List.append_assoc, true_and]
  constructor
  · intro holds
    obtain ⟨list, _, rfl, pc, _, rfl, channel, _, rfl, token, _, rfl, rfl, rfl⟩ := holds
    rfl
  · rintro rfl
    exact ⟨_, _, rfl, _, _, rfl, _, _, rfl, _, _, rfl, rfl, rfl⟩

/-- An engine record is read where it was written, unless more interrupts wait than a reader takes.
-/
theorem engineRecord_inverts
    : EngineRecord.decode.Inverts EngineRecord.encode
        fun record => record.pending.length ≤ interruptLimit := by
  intro bytes rest record
  simp only [EngineRecord.decode, bind_run_ok_iff, uint32_run_ok_iff, uint64_run_ok_iff,
    bool_run_ok_iff,
    counted_run_ok_iff interrupt_inverts (by decide : interruptLimit < 0x100000000),
    pure_run_ok_iff, EngineRecord.encode, List.append_assoc, implies_true, and_true]
  constructor
  · intro holds
    obtain ⟨nextId, _, rfl, current, _, rfl, serving, _, rfl, enabled, _, rfl, previous, _, rfl,
        finished, _, rfl, offset, _, rfl, cycles, _, rfl, checkpoint, _, rfl, ticks, _, rfl,
        pending, _, ⟨few, rfl⟩, rfl, rfl⟩ := holds
    exact ⟨few, rfl⟩
  · intro holds
    obtain ⟨few, rfl⟩ := holds
    exact ⟨_, _, rfl, _, _, rfl, _, _, rfl, _, _, rfl, _, _, rfl, _, _, rfl, _, _, rfl, _, _, rfl,
      _, _, rfl, _, _, rfl, _, _, ⟨few, rfl⟩, rfl, rfl⟩

theorem listRecord_inverts
    : ListRecord.decode.Inverts ListRecord.encode
        fun record => record.stack.length ≤ stackLimit := by
  intro bytes rest record
  have word_inverts : Reader.uint32.Inverts Encoding.uint32 fun _ => True := by simp [Inverts]
  simp only [ListRecord.decode, bind_run_ok_iff, uint32_run_ok_iff, uint8_run_ok_iff, Reader.words,
    int32_run_ok_iff, counted_run_ok_iff word_inverts (by decide : stackLimit < 0x100000000),
    pure_run_ok_iff, ListRecord.encode, Encoding.words, List.append_assoc, implies_true, and_true]
  constructor
  · intro holds
    obtain ⟨id, _, rfl, start, _, rfl, pc, _, rfl, stall, _, rfl, state, _, rfl, channel, _, rfl,
        token, _, rfl, signal, _, rfl, stack, _, ⟨shallow, rfl⟩, rfl, rfl⟩ := holds
    exact ⟨shallow, rfl⟩
  · intro holds
    obtain ⟨shallow, rfl⟩ := holds
    exact ⟨_, _, rfl, _, _, rfl, _, _, rfl, _, _, rfl, _, _, rfl, _, _, rfl, _, _, rfl, _, _, rfl,
      _, _, ⟨shallow, rfl⟩, rfl, rfl⟩

theorem ofWords_toList (cache : CommandCache)
    : CommandCache.ofWords cache.words.toList = cache := by
  cases cache with
  | mk words =>
      simp only [CommandCache.ofWords, CommandCache.mk.injEq]
      ext index
      simp

theorem toList_words_ofWords (words : List Word) (full : words.length = 256)
    : (CommandCache.ofWords words).words.toList = words := by
  apply List.ext_getElem
  · simp [full]
  · intro index bounded _
    simp [CommandCache.ofWords, full] at bounded ⊢

theorem cache_inverts
    : CommandCache.decode.Inverts CommandCache.encode fun _ => True := by
  intro bytes rest cache
  have word_inverts : Reader.uint32.Inverts Encoding.uint32 fun _ => True := by simp [Inverts]
  simp only [CommandCache.decode, bind_run_ok_iff, many_run_ok_iff word_inverts, pure_run_ok_iff,
    CommandCache.encode, true_and, implies_true, and_true]
  constructor
  · intro holds
    obtain ⟨words, _, ⟨full, rfl⟩, rfl, rfl⟩ := holds
    rw [toList_words_ofWords words full]
  · rintro rfl
    exact ⟨cache.words.toList, rest, ⟨by simp, rfl⟩, ofWords_toList cache, rfl⟩

-----------------------------------------------------------------------------------------
-- Headers
-----------------------------------------------------------------------------------------

theorem header_inverts
    : Header.decode.Inverts Header.encode fun _ => True := by
  intro bytes rest header
  simp only [Header.decode, bind_run_ok_iff, uint32_run_ok_iff, uint16_run_ok_iff,
    uint64_run_ok_iff, pure_run_ok_iff, Header.encode, List.append_assoc, true_and]
  constructor
  · intro holds
    obtain ⟨tag, _, rfl, version, _, rfl, flags, _, rfl, length, _, rfl, rfl, rfl⟩ := holds
    rfl
  · rintro rfl
    exact ⟨_, _, rfl, _, _, rfl, _, _, rfl, _, _, rfl, rfl, rfl⟩

-----------------------------------------------------------------------------------------
-- Sizes
-----------------------------------------------------------------------------------------

@[simp] theorem length_uint8 (value : UInt8)
    : (Encoding.uint8 value).length = 1 :=
  rfl

@[simp] theorem length_bool (value : Bool)
    : (Encoding.bool value).length = 1 :=
  rfl

@[simp] theorem length_uint16 (value : UInt16)
    : (Encoding.uint16 value).length = 2 :=
  LittleEndian.length_bytes 2 _

@[simp] theorem length_uint32 (value : UInt32)
    : (Encoding.uint32 value).length = 4 :=
  LittleEndian.length_bytes 4 _

@[simp] theorem length_int32 (value : Int32)
    : (Encoding.int32 value).length = 4 :=
  length_uint32 _

@[simp] theorem length_uint64 (value : UInt64)
    : (Encoding.uint64 value).length = 8 :=
  LittleEndian.length_bytes 8 _

/-- Every word has four bytes. -/
theorem length_flatMap_uint32 (words : List UInt32)
    : (words.flatMap Encoding.uint32).length = 4 * words.length := by
  simp [List.length_flatMap, List.map_const', Nat.mul_comm]

/-- A header has the same size whatever it says. -/
theorem length_header (header : Header)
    : header.encode.length = Header.size := by
  simp [Header.encode, Header.size]

end GraphicsEngine.Snapshot
