import GraphicsEngine.Proofs.Snapshot.Inversion
import GraphicsEngine.Snapshot.Write

/-! No encoding begins another one, so what stands in front of any bytes can be told from them. This
holds of all that can be counted, a reader's own limits aside.
-/

namespace GraphicsEngine.Snapshot

/-- The encodings of the allowed values can be told apart, whatever stands behind them. -/
def PrefixFree {α : Type} (encode : α → Bytes) (allowed : α → Prop)
    : Prop :=
  ∀ ⦃value other : α⦄ ⦃bytes rest : Bytes⦄, allowed value → allowed other
    → encode value ++ bytes = encode other ++ rest → value = other ∧ bytes = rest

/-- What a reader inverts is told apart by reading it. -/
theorem Reader.Inverts.prefixFree {α : Type} {reader : Reader α} {encode : α → Bytes}
    {allowed : α → Prop} (inverts : reader.Inverts encode allowed)
    : PrefixFree encode allowed := by
  intro value other bytes rest fits fits' same
  have first := inverts.mpr ⟨fits', same⟩
  rw [inverts.mpr ⟨fits, rfl⟩] at first
  cases first
  exact ⟨rfl, rfl⟩

-----------------------------------------------------------------------------------------
-- Plain values
-----------------------------------------------------------------------------------------

section Plain

variable {bytes rest : Bytes}

/-- A reader that gives just the value whose encoding stands in front tells all values apart. -/
theorem append_inj_of_reader {α : Type} {reader : Reader α} {encode : α → Bytes}
    (inverts : ∀ {value : α} {bytes rest : Bytes},
      reader.run bytes = .ok value rest ↔ bytes = encode value ++ rest)
    {value other : α} (same : encode value ++ bytes = encode other ++ rest)
    : value = other ∧ bytes = rest := by
  have inverts : reader.Inverts encode fun _ => True := by
    intro bytes rest value
    rw [inverts, true_and]
  exact inverts.prefixFree trivial trivial same

theorem uint8_append_inj {value other : UInt8}
    (same : Encoding.uint8 value ++ bytes = Encoding.uint8 other ++ rest)
    : value = other ∧ bytes = rest :=
  append_inj_of_reader Reader.uint8_run_ok_iff same

theorem bool_append_inj {value other : Bool}
    (same : Encoding.bool value ++ bytes = Encoding.bool other ++ rest)
    : value = other ∧ bytes = rest :=
  append_inj_of_reader Reader.bool_run_ok_iff same

theorem uint32_append_inj {value other : UInt32}
    (same : Encoding.uint32 value ++ bytes = Encoding.uint32 other ++ rest)
    : value = other ∧ bytes = rest :=
  append_inj_of_reader Reader.uint32_run_ok_iff same

theorem int32_append_inj {value other : Int32}
    (same : Encoding.int32 value ++ bytes = Encoding.int32 other ++ rest)
    : value = other ∧ bytes = rest :=
  append_inj_of_reader Reader.int32_run_ok_iff same

theorem uint64_append_inj {value other : UInt64}
    (same : Encoding.uint64 value ++ bytes = Encoding.uint64 other ++ rest)
    : value = other ∧ bytes = rest :=
  append_inj_of_reader Reader.uint64_run_ok_iff same

end Plain

-----------------------------------------------------------------------------------------
-- Lists of values
-----------------------------------------------------------------------------------------

/-- As many values in a row are told apart one by one, by induction on them. -/
theorem PrefixFree.flatMap {α : Type} {encode : α → Bytes} {allowed : α → Prop}
    (free : PrefixFree encode allowed) {values others : List α} {bytes rest : Bytes}
    (size : values.length = others.length) (fit : ∀ value ∈ values, allowed value)
    (fit' : ∀ value ∈ others, allowed value)
    (same : values.flatMap encode ++ bytes = others.flatMap encode ++ rest)
    : values = others ∧ bytes = rest := by
  induction values generalizing others with
  | nil =>
      obtain rfl := List.length_eq_zero_iff.mp size.symm
      exact ⟨rfl, same⟩
  | cons value values ih =>
      cases others with
      | nil => cases size
      | cons other others =>
          rw [List.forall_mem_cons] at fit fit'
          simp only [List.flatMap_cons, List.append_assoc] at same
          obtain ⟨first, behind⟩ := free fit.1 fit'.1 same
          obtain ⟨others, rest⟩ := ih (Nat.succ.inj size) fit.2 fit'.2 behind
          exact ⟨by rw [first, others], rest⟩

/-- Values behind their number are told apart, if four bytes can hold the number. -/
theorem PrefixFree.counted {α : Type} {encode : α → Bytes} {allowed : α → Prop}
    (free : PrefixFree encode allowed)
    : PrefixFree
        (fun values : List α =>
          Encoding.uint32 (UInt32.ofNat values.length) ++ values.flatMap encode)
        (fun values => values.length < 0x100000000 ∧ ∀ value ∈ values, allowed value) := by
  intro values others bytes rest holds holds' same
  obtain ⟨few, fit⟩ := holds
  obtain ⟨few', fit'⟩ := holds'
  simp only [List.append_assoc] at same
  obtain ⟨counts, same⟩ := uint32_append_inj same
  have size := congrArg UInt32.toNat counts
  rw [UInt32.toNat_ofNat_of_lt' few, UInt32.toNat_ofNat_of_lt' few'] at size
  exact free.flatMap size fit fit' same

/-- Words behind their number are told apart. -/
theorem words_prefixFree
    : PrefixFree Encoding.words fun words => words.length < 0x100000000 := by
  have word : PrefixFree Encoding.uint32 fun _ => True :=
    fun _ _ _ _ _ _ same => uint32_append_inj same
  intro words others bytes rest few few' same
  exact word.counted ⟨few, fun _ _ => trivial⟩ ⟨few', fun _ _ => trivial⟩ same

-----------------------------------------------------------------------------------------
-- Records
-----------------------------------------------------------------------------------------

/-- Engine records are told apart field by field. -/
theorem engineRecord_prefixFree
    : PrefixFree EngineRecord.encode fun record => record.pending.length < 0x100000000 := by
  intro record other bytes rest few few' same
  cases record
  cases other
  simp only [EngineRecord.encode, List.append_assoc] at same
  obtain ⟨nextId, same⟩ := uint32_append_inj same
  obtain ⟨current, same⟩ := uint32_append_inj same
  obtain ⟨serving, same⟩ := bool_append_inj same
  obtain ⟨enabled, same⟩ := bool_append_inj same
  obtain ⟨previous, same⟩ := uint32_append_inj same
  obtain ⟨finished, same⟩ := bool_append_inj same
  obtain ⟨offset, same⟩ := uint32_append_inj same
  obtain ⟨cycles, same⟩ := uint64_append_inj same
  obtain ⟨checkpoint, same⟩ := uint32_append_inj same
  obtain ⟨ticks, same⟩ := uint64_append_inj same
  simp only [← List.append_assoc] at same
  obtain ⟨pending, same⟩ := interrupt_inverts.prefixFree.counted ⟨few, fun _ _ => trivial⟩
    ⟨few', fun _ _ => trivial⟩ same
  refine ⟨?_, same⟩
  rw [EngineRecord.mk.injEq]
  exact ⟨nextId, current, serving, enabled, previous, finished, offset, cycles, checkpoint, ticks,
    pending⟩

/-- List records are told apart field by field. -/
theorem listRecord_prefixFree
    : PrefixFree ListRecord.encode fun record => record.stack.length < 0x100000000 := by
  intro record other bytes rest few few' same
  cases record
  cases other
  simp only [ListRecord.encode, List.append_assoc] at same
  obtain ⟨id, same⟩ := uint32_append_inj same
  obtain ⟨start, same⟩ := uint32_append_inj same
  obtain ⟨pc, same⟩ := uint32_append_inj same
  obtain ⟨stall, same⟩ := uint32_append_inj same
  obtain ⟨state, same⟩ := uint8_append_inj same
  obtain ⟨channel, same⟩ := int32_append_inj same
  obtain ⟨token, same⟩ := uint32_append_inj same
  obtain ⟨signal, same⟩ := uint8_append_inj same
  obtain ⟨stack, same⟩ := words_prefixFree few few' same
  refine ⟨?_, same⟩
  rw [ListRecord.mk.injEq]
  exact ⟨id, start, pc, stall, state, channel, token, signal, stack⟩

/-- The payloads of sections of lists are told apart. -/
theorem listsPayload_prefixFree
    : PrefixFree listsPayload fun records =>
        records.length < 0x100000000
        ∧ ∀ record ∈ records, record.stack.length < 0x100000000 :=
  listRecord_prefixFree.counted

end GraphicsEngine.Snapshot
