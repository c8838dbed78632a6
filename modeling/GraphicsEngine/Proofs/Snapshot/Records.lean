import GraphicsEngine.Proofs.Snapshot.Layout
import GraphicsEngine.Proofs.Snapshot.PrefixFree

/-! Records and their bytes. A reader takes a record off the front of any bytes exactly where its
writer would have put them there, and no two records are written alike.
-/

namespace GraphicsEngine.Snapshot

/-- The reader gives a value for the first so many bytes. -/
def Reader.Takes {α : Type} (reader : Reader α) (bytes : Bytes) (count : Nat) (value : α)
    : Prop :=
  ∃ rest, reader.run bytes = .ok value rest ∧ bytes.length = count + rest.length

/-- Values of a kind and their encodings stand for each other: a reader with a limit on what it
takes and a writer agree on every one of them.
-/
structure Canonical {α : Type} (reader : Reader α) (writer : α → Writer Unit) (encode : α → Bytes)
    (within : α → Prop)
    : Prop where
  /-- A value is read off the front exactly if it is within the limit and its encoding stands there.
  -/
  takes_iff
    : ∀ bytes count value,
        reader.Takes bytes count value
        ↔ count ≤ bytes.length ∧ bytes.take count = encode value ∧ within value
  /-- Within the limit the encoding is what is written. -/
  written : ∀ value, within value → (writer value).output none = .ok (encode value)
  /-- It is read again, and all that stands behind it is left. -/
  takes_back : ∀ value rest, within value → reader.run (encode value ++ rest) = .ok value rest
  /-- No two values are written alike, within the limit or beyond it. -/
  injective
    : ∀ value other bytes,
        (writer value).output none = .ok bytes → (writer other).output none = .ok bytes
        → other = value

-----------------------------------------------------------------------------------------
-- Readers and writers
-----------------------------------------------------------------------------------------

variable {α : Type} {reader : Reader α} {encode : α → Bytes} {within countable : α → Prop}

/-- Where there is no bound, a writer leaves its chunk behind if it may. -/
theorem Writer.Appends.output_none_eq_ok_iff {writer : Writer Unit} {chunk bytes : Bytes}
    {allowed : Prop} (appends : writer.Appends chunk allowed)
    : writer.output none = .ok bytes ↔ allowed ∧ bytes = chunk := by
  have unbounded : Cursor.Admits none chunk.length := fun _ bound => nomatch bound
  rw [appends.output_eq_ok_iff]
  simp only [unbounded, and_true]

/-- A reader takes as many bytes as the encoding in front has. -/
theorem Reader.Inverts.takes_iff (inverts : reader.Inverts encode within) {bytes : Bytes}
    {count : Nat} {value : α}
    : reader.Takes bytes count value
      ↔ count ≤ bytes.length ∧ bytes.take count = encode value ∧ within value := by
  constructor
  · intro takes
    obtain ⟨rest, read, size⟩ := takes
    obtain ⟨fits, rfl⟩ := inverts.mp read
    rw [List.length_append, Nat.add_right_cancel_iff] at size
    refine ⟨?_, List.take_left' size, fits⟩
    rw [List.length_append]
    omega
  · intro holds
    obtain ⟨inside, front, fits⟩ := holds
    refine ⟨bytes.drop count, inverts.mpr ⟨fits, ?_⟩, ?_⟩
    · rw [← front, List.take_append_drop]
    · rw [List.length_drop]
      omega

/-- A reader and a writer agree if the one takes and the other one adds the same encodings, and
these can be told apart as far as they can be counted.
-/
theorem canonical_of_inverts {writer : α → Writer Unit} (inverts : reader.Inverts encode within)
    (appends : ∀ value, (writer value).Appends (encode value) (countable value))
    (countable_of_within : ∀ value, within value → countable value)
    (prefixFree : PrefixFree encode countable)
    : Canonical reader writer encode within where
  takes_iff _ _ _ := inverts.takes_iff
  written value fits :=
    (appends value).output_none_eq_ok_iff.mpr ⟨countable_of_within value fits, rfl⟩
  takes_back _ _ fits := inverts.mpr ⟨fits, rfl⟩
  injective value other bytes written written' := by
    obtain ⟨counted, front⟩ := (appends value).output_none_eq_ok_iff.mp written
    obtain ⟨counted', front'⟩ := (appends other).output_none_eq_ok_iff.mp written'
    have same : encode other ++ [] = encode value ++ [] := by rw [← front, ← front']
    exact (prefixFree counted' counted same).1

-----------------------------------------------------------------------------------------
-- The four kinds of records
-----------------------------------------------------------------------------------------

/-- Each kind of record has one encoding for every record. Engine records are read with up to 4096
interrupts that wait, and list records with up to 1024 return addresses.
-/
theorem records_canonical
    : Canonical Interrupt.decode Interrupt.write Interrupt.encode (fun _ => True)
      ∧ Canonical EngineRecord.decode EngineRecord.write EngineRecord.encode
          (fun record => record.pending.length ≤ 4096)
      ∧ Canonical ListRecord.decode ListRecord.write ListRecord.encode
          (fun record => record.stack.length ≤ 1024)
      ∧ Canonical CommandCache.decode CommandCache.write CommandCache.encode (fun _ => True) := by
  refine ⟨?_, ?_, ?_, ?_⟩
  · exact canonical_of_inverts interrupt_inverts
      (fun interrupt => .of_eq_put interrupt.write_eq_put) (fun _ _ => trivial)
      interrupt_inverts.prefixFree
  · apply canonical_of_inverts engineRecord_inverts EngineRecord.write_appends
    · intro record few
      exact Nat.lt_of_le_of_lt few (by decide)
    · exact engineRecord_prefixFree
  · apply canonical_of_inverts listRecord_inverts ListRecord.write_appends
    · intro record shallow
      exact Nat.lt_of_le_of_lt shallow (by decide)
    · exact listRecord_prefixFree
  · exact canonical_of_inverts cache_inverts
      (fun cache => .of_eq_put cache.write_eq_put) (fun _ _ => trivial)
      cache_inverts.prefixFree

end GraphicsEngine.Snapshot
