import GraphicsEngine.Proofs.Snapshot.Puts

/-! Writing a snapshot leaves its layout behind. A writer that goes back to correct a length has
in the end written as if it had known the length from the start.
-/

namespace GraphicsEngine.Snapshot

namespace Cursor

/-- Inside what was written before, overwriting replaces as many bytes as are written, by induction
on what is written.
-/
theorem toList_overwrite_within (bytes : Array UInt8) (position : Nat) (chunk : Bytes)
    (fits : position + chunk.length ≤ bytes.size)
    : (overwrite bytes position chunk).toList
      = bytes.toList.take position ++ chunk ++ bytes.toList.drop (position + chunk.length) := by
  induction chunk generalizing bytes position with
  | nil => simp [overwrite]
  | cons byte rest ih =>
      simp only [List.length_cons] at fits
      have inside : position < bytes.size := by omega
      have replaced : (bytes.toList.set position byte).take (position + 1)
          = bytes.toList.take position ++ [byte] := by
        rw [List.take_add_one, List.take_set_of_le (Nat.le_refl _)]
        simp [inside]
      have kept : (bytes.toList.set position byte).drop (position + 1 + rest.length)
          = bytes.toList.drop (position + (rest.length + 1)) := by
        rw [List.drop_set_of_lt (by omega)]
        congr 1
        omega
      rw [overwrite, if_pos inside, ih _ _ (by simp; omega), Array.toList_setIfInBounds, replaced,
        kept]
      simp

/-- There is room for so many bytes. -/
def Admits (capacity : Option Nat) (size : Nat)
    : Prop :=
  ∀ bound ∈ capacity, size ≤ bound

/-- Fewer bytes have room where more have. -/
theorem Admits.mono {capacity : Option Nat} {size larger : Nat} (admits : Admits capacity larger)
    (le : size ≤ larger)
    : Admits capacity size :=
  fun bound limited => Nat.le_trans le (admits bound limited)

/-- The position is behind the last byte written. -/
def behind (capacity : Option Nat) (written : Bytes)
    : Cursor :=
  ⟨written.toArray, written.length, capacity⟩

/-- The position behind the last byte is the number of bytes, by definition. -/
theorem position_behind (capacity : Option Nat) (written : Bytes)
    : (behind capacity written).position = written.length :=
  rfl

/-- Overwriting behind the last byte appends. -/
theorem overwrite_behind (written chunk : Bytes)
    : overwrite written.toArray written.length chunk = (written ++ chunk).toArray :=
  Array.ext' (toList_overwrite_size written.toArray chunk)

/-- The room asked for is counted from the position on, by cases on the bound. -/
theorem hasRoom_iff {cursor : Cursor} {count : Nat}
    : cursor.hasRoom count ↔ Admits cursor.capacity (cursor.position + count) := by
  cases bound : cursor.capacity <;> simp [hasRoom, Admits, bound]

end Cursor

open Cursor

namespace Writer

/-- Two writers in a row succeed exactly where the second one succeeds behind the first one, by
cases on the first.
-/
theorem bind_run_ok_iff {α β : Type} {writer : Writer α} {next : α → Writer β}
    {cursor final : Cursor} {value : β}
    : (writer >>= next).run cursor = .ok (value, final)
      ↔ ∃ first middle, writer.run cursor = .ok (first, middle)
          ∧ (next first).run middle = .ok (value, final) := by
  simp only [StateT.run_bind]
  cases writer.run cursor with
  | error failure => simp [bind, Except.bind]
  | ok outcome =>
      constructor
      · exact fun later => ⟨outcome.1, outcome.2, rfl, later⟩
      · intro holds
        obtain ⟨_, _, equal, later⟩ := holds
        cases equal
        exact later

/-- Bytes are put where there is room for them, by definition. -/
theorem put_run_ok_iff {chunk : Bytes} {cursor final : Cursor} {value : Unit}
    : (put chunk).run cursor = .ok (value, final)
      ↔ Admits cursor.capacity (cursor.position + chunk.length)
        ∧ final = { cursor with
            bytes := overwrite cursor.bytes cursor.position chunk
            position := cursor.position + chunk.length } := by
  rw [← hasRoom_iff, StateT.run, put]
  split
  · next room => simp [room, eq_comm]
  · next full => simp [full]

/-- Behind what was written before, the writer adds a chunk if there is room for it and what it
writes is allowed, and fails otherwise.
-/
def Appends (writer : Writer Unit) (chunk : Bytes) (allowed : Prop)
    : Prop :=
  ∀ ⦃capacity : Option Nat⦄ ⦃written : Bytes⦄ ⦃final : Cursor⦄,
    Admits capacity written.length
    → (writer.run (behind capacity written) = .ok ((), final)
        ↔ (allowed ∧ Admits capacity (written ++ chunk).length)
          ∧ final = behind capacity (written ++ chunk))

theorem put_appends (chunk : Bytes)
    : (put chunk).Appends chunk True := by
  intro capacity written final _
  simp only [put_run_ok_iff, behind, overwrite_behind, List.length_append, true_and]

theorem Appends.of_eq_put {writer : Writer Unit} {chunk : Bytes} (atOnce : writer = put chunk)
    : writer.Appends chunk True := by
  rw [atOnce]
  exact put_appends chunk

theorem Appends.pure
    : (pure () : Writer Unit).Appends [] True := by
  intro capacity written final admits
  change Except.ok ((), behind capacity written) = .ok ((), final) ↔ _
  simp [admits, eq_comm]

theorem throw_appends (failure : Error) (chunk : Bytes)
    : (throw failure : Writer Unit).Appends chunk False := by
  intro capacity written final _
  simp [throw, throwThe, MonadExceptOf.throw, StateT.run, StateT.lift, bind, Except.bind]

/-- What two writers in a row add stands in a row. -/
theorem Appends.seq {first second : Writer Unit} {chunk other : Bytes} {allowed permitted : Prop}
    (leading : first.Appends chunk allowed) (following : second.Appends other permitted)
    : (first >>= fun _ => second).Appends (chunk ++ other) (allowed ∧ permitted) := by
  intro capacity written final admits
  rw [bind_run_ok_iff]
  constructor
  · intro holds
    obtain ⟨⟨⟩, middle, wrote, wrote'⟩ := holds
    obtain ⟨⟨fit, room⟩, rfl⟩ := (leading admits).mp wrote
    obtain ⟨⟨fit', room'⟩, rfl⟩ := (following room).mp wrote'
    rw [List.append_assoc] at room' ⊢
    exact ⟨⟨⟨fit, fit'⟩, room'⟩, rfl⟩
  · intro holds
    obtain ⟨⟨⟨fit, fit'⟩, room⟩, rfl⟩ := holds
    rw [← List.append_assoc] at room ⊢
    have shorter : Admits capacity (written ++ chunk).length := room.mono (by simp)
    exact ⟨(), _, (leading admits).mpr ⟨⟨fit, shorter⟩, rfl⟩,
      (following shorter).mpr ⟨⟨fit', room⟩, rfl⟩⟩

/-- A condition decides whether a writer adds its chunk or fails, by cases on it. -/
theorem Appends.ite {allowed : Prop} [Decidable allowed] {writer : Writer Unit} {chunk : Bytes}
    {failure : Error} (appends : writer.Appends chunk True)
    : (if allowed then writer else throw failure).Appends chunk allowed := by
  intro capacity written final admits
  split
  · next fit => simpa [fit] using appends admits
  · next unfit => simpa [unfit] using throw_appends failure chunk admits

/-- A count is added unless four bytes cannot hold it. -/
theorem count_appends (number : Nat) (excess : Flaw)
    : (count number excess).Appends (Encoding.uint32 (UInt32.ofNat number))
        (number < 0x100000000) :=
  Appends.ite (put_appends _)

/-- Values are added one after the other, by induction on them. -/
theorem each_appends {α : Type} {write : α → Writer Unit} {encode : α → Bytes} {allowed : α → Prop}
    (appends : ∀ value, (write value).Appends (encode value) (allowed value)) (values : List α)
    : (each write values).Appends (values.flatMap encode) (∀ value ∈ values, allowed value) := by
  induction values with
  | nil =>
      have nothing := Appends.pure
      simpa [each] using nothing
  | cons value rest ih =>
      simp only [each, List.flatMap_cons, List.forall_mem_cons]
      exact (appends value).seq ih

/-- The bytes that a writer leaves behind, given the room that there is for them. -/
def output (writer : Writer Unit) (capacity : Option Nat)
    : Except Error Bytes :=
  match writer.run (.start capacity) with
  | .ok (_, cursor) => .ok cursor.bytes.toList
  | .error error => .error error

/-- A writer that adds a chunk leaves the chunk behind, if it may and there is room for it. -/
theorem Appends.output_eq_ok_iff {writer : Writer Unit} {chunk bytes : Bytes} {allowed : Prop}
    {capacity : Option Nat} (appends : writer.Appends chunk allowed)
    : writer.output capacity = .ok bytes
      ↔ (allowed ∧ Admits capacity chunk.length) ∧ bytes = chunk := by
  have nothing : Admits capacity ([] : Bytes).length := fun _ _ => Nat.zero_le _
  have writes (final : Cursor)
      : writer.run (.start capacity) = .ok ((), final)
        ↔ (allowed ∧ Admits capacity chunk.length) ∧ final = behind capacity chunk :=
    appends nothing
  unfold output
  constructor
  · intro left
    split at left
    · next final wrote =>
      obtain ⟨fit, rfl⟩ := (writes final).mp wrote
      cases left
      exact ⟨fit, rfl⟩
    · cases left
  · intro holds
    obtain ⟨fit, rfl⟩ := holds
    rw [(writes _).mpr ⟨fit, rfl⟩]
    rfl

theorem position_run_ok_iff {cursor final : Cursor} {value : Nat}
    : position.run cursor = .ok (value, final) ↔ value = cursor.position ∧ final = cursor := by
  change Except.ok (cursor.position, cursor) = .ok (value, final) ↔ _
  simp [eq_comm]

theorem seek_run_ok_iff {cursor final : Cursor} {target : Nat} {value : Unit}
    : (seek target).run cursor = .ok (value, final)
      ↔ final = { cursor with position := target } := by
  change Except.ok ((), { cursor with position := target }) = .ok (value, final) ↔ _
  simp [eq_comm]

end Writer

open Writer

/-- Correcting the length in the header of a section leaves its layout behind, since the length is
the last field of the header.
-/
theorem overwrite_length (written payload : Bytes) (tag : Tag)
    : overwrite
          (written ++ Header.encode ⟨tag, sectionVersion, 0, 0⟩ ++ payload).toArray
          (written.length + Header.lengthPosition)
          (Encoding.uint64 (UInt64.ofNat payload.length))
      = (written ++ sectionLayout tag payload).toArray := by
  let front := Encoding.uint32 tag ++ Encoding.uint16 sectionVersion ++ Encoding.uint16 0
  have encoded (length : UInt64)
      : Header.encode ⟨tag, sectionVersion, 0, length⟩ = front ++ Encoding.uint64 length := rfl
  have length_front : front.length = Header.lengthPosition := by
    simp [front, Header.lengthPosition, Encoding.uint32, Encoding.uint16]
  have length_uint64 (value : UInt64) : (Encoding.uint64 value).length = 8 := by
    simp [Encoding.uint64]
  have before : (written ++ (front ++ Encoding.uint64 0) ++ payload).take
      (written.length + Header.lengthPosition) = written ++ front := by
    rw [← List.append_assoc, List.append_assoc]
    exact List.take_left' (by simp [length_front])
  have after : (written ++ (front ++ Encoding.uint64 0) ++ payload).drop
      (written.length + Header.lengthPosition + 8) = payload :=
    List.drop_left' (by simp [length_front, length_uint64]; omega)
  apply Array.ext'
  rw [encoded, toList_overwrite_within _ _ _ (by simp [length_front, length_uint64]; omega),
    length_uint64, before, after, sectionLayout, encoded]
  simp

/-- Going back to correct the length of a section leaves the cursor behind the layout. -/
theorem correct_run_ok_iff {capacity : Option Nat} {written header payload : Bytes} {tag : Tag}
    {final : Cursor} {value : Unit} (encoded : Header.encode ⟨tag, sectionVersion, 0, 0⟩ = header)
    (room : Admits capacity (written ++ header ++ payload).length)
    : (do
          seek (written.length + Header.lengthPosition)
          uint64 (UInt64.ofNat payload.length)
          seek (written ++ sectionLayout tag payload).length : Writer Unit).run
        (behind capacity (written ++ header ++ payload)) = .ok (value, final)
      ↔ final = behind capacity (written ++ sectionLayout tag payload) := by
  subst encoded
  have within : Admits capacity
      (written.length + Header.lengthPosition
        + (Encoding.uint64 (UInt64.ofNat payload.length)).length) :=
    room.mono (by
      simp [Header.encode, Header.lengthPosition, Encoding.uint32, Encoding.uint16,
        Encoding.uint64]
      omega)
  simp only [uint64, bind_run_ok_iff, seek_run_ok_iff, put_run_ok_iff]
  constructor
  · intro holds
    obtain ⟨_, _, rfl, _, _, ⟨-, rfl⟩, rfl⟩ := holds
    rw [behind, overwrite_length, behind]
  · rintro rfl
    refine ⟨(), _, rfl, (), _, ⟨within, rfl⟩, ?_⟩
    rw [behind, behind, overwrite_length]

/-- A section is added with its length in the header, though its writer learns the length last. -/
theorem writeSection_appends {payload : Writer Unit} {chunk : Bytes} {allowed : Prop}
    (appends : payload.Appends chunk allowed) (tag : Tag)
    : (writeSection tag payload).Appends (sectionLayout tag chunk) allowed := by
  intro capacity written final admits
  obtain ⟨header, encoded⟩ : ∃ header, Header.encode ⟨tag, sectionVersion, 0, 0⟩ = header :=
    ⟨_, rfl⟩
  have headed : (put header).Appends header True := put_appends header
  have same_length : (written ++ header ++ chunk).length
      = (written ++ sectionLayout tag chunk).length := by
    simp [← encoded, sectionLayout, Header.encode, Encoding.uint64]
  have payload_length : (written ++ header ++ chunk).length - (written ++ header).length
      = chunk.length := by
    rw [List.length_append, Nat.add_sub_cancel_left]
  have grown : ¬ (written ++ header ++ chunk).length < (written ++ header).length := by
    rw [List.length_append]
    omega
  unfold writeSection
  rw [Header.write_eq_put, encoded, bind_run_ok_iff]
  constructor
  · intro holds
    obtain ⟨_, _, started, later⟩ := holds
    obtain ⟨rfl, rfl⟩ := position_run_ok_iff.mp started
    obtain ⟨_, _, wroteHeader, later⟩ := bind_run_ok_iff.mp later
    obtain ⟨⟨-, room⟩, rfl⟩ := (headed admits).mp wroteHeader
    obtain ⟨_, _, reached, later⟩ := bind_run_ok_iff.mp later
    obtain ⟨rfl, rfl⟩ := position_run_ok_iff.mp reached
    obtain ⟨_, _, wrotePayload, later⟩ := bind_run_ok_iff.mp later
    obtain ⟨⟨fit, room'⟩, rfl⟩ := (appends room).mp wrotePayload
    obtain ⟨_, _, reached, later⟩ := bind_run_ok_iff.mp later
    obtain ⟨rfl, rfl⟩ := position_run_ok_iff.mp reached
    rw [position_behind, position_behind, position_behind, if_neg grown, payload_length,
      same_length] at later
    exact ⟨⟨fit, same_length ▸ room'⟩, (correct_run_ok_iff encoded room').mp later⟩
  · intro holds
    obtain ⟨⟨fit, room⟩, rfl⟩ := holds
    rw [← same_length] at room
    have shorter : Admits capacity (written ++ header).length := room.mono (by simp)
    refine ⟨_, _, position_run_ok_iff.mpr ⟨rfl, rfl⟩, bind_run_ok_iff.mpr
      ⟨(), _, (headed admits).mpr ⟨⟨trivial, shorter⟩, rfl⟩, bind_run_ok_iff.mpr
      ⟨_, _, position_run_ok_iff.mpr ⟨rfl, rfl⟩, bind_run_ok_iff.mpr
      ⟨(), _, (appends shorter).mpr ⟨⟨fit, room⟩, rfl⟩, bind_run_ok_iff.mpr
      ⟨_, _, position_run_ok_iff.mpr ⟨rfl, rfl⟩, ?_⟩⟩⟩⟩⟩
    rw [position_behind, position_behind, position_behind, if_neg grown, payload_length,
      same_length]
    exact (correct_run_ok_iff encoded room).mpr rfl

-----------------------------------------------------------------------------------------
-- Whole snapshots
-----------------------------------------------------------------------------------------

/-- Every list in the contents can be counted in four bytes. -/
structure Contents.Countable (contents : Contents) : Prop where
  pending : contents.engine.pending.length < 0x100000000
  lists : contents.lists.length < 0x100000000
  shallow : ∀ record ∈ contents.lists, record.stack.length < 0x100000000

/-- An engine record is added unless its interrupts are too many to be counted. -/
theorem EngineRecord.write_appends (record : EngineRecord)
    : record.write.Appends record.encode (record.pending.length < 0x100000000) := by
  have appends := (put_appends record.fields).seq
    ((count_appends record.pending.length .manyInterrupts).seq
      (each_appends (fun interrupt => .of_eq_put interrupt.write_eq_put) record.pending))
  simpa [write_eq, encode, fields] using appends

/-- A list record is added unless its stack is too long to be counted. -/
theorem ListRecord.write_appends (record : ListRecord)
    : record.write.Appends record.encode (record.stack.length < 0x100000000) := by
  have appends := (put_appends record.fields).seq
    ((count_appends record.stack.length .wideLength).seq
      (each_appends (fun address => .of_eq_put (uint32_eq_put address)) record.stack))
  simpa [write_eq, encode, fields, Encoding.words] using appends

/-- Lists are added behind their number. -/
theorem writeLists_appends (records : List ListRecord)
    : (writeLists records).Appends (listsPayload records)
        (records.length < 0x100000000
          ∧ ∀ record ∈ records, record.stack.length < 0x100000000) :=
  (count_appends records.length .manyLists).seq (each_appends ListRecord.write_appends records)

/-- A snapshot is added as its layout, unless there is too much of something to be counted. -/
theorem write_appends (contents : Contents)
    : (write contents).Appends (layout contents) contents.Countable := by
  have engine := writeSection_appends contents.engine.write_appends Tag.engine
  have lists := writeSection_appends (writeLists_appends contents.lists) Tag.lists
  have cache := writeSection_appends (.of_eq_put contents.cache.write_eq_put) Tag.cache
  have whole := (Appends.of_eq_put writeFileHeader_eq_put).seq (engine.seq (lists.seq cache))
  have countable : (True ∧ contents.engine.pending.length < 0x100000000
      ∧ (contents.lists.length < 0x100000000
        ∧ ∀ record ∈ contents.lists, record.stack.length < 0x100000000)
      ∧ True) ↔ contents.Countable :=
    ⟨fun ⟨_, pending, ⟨lists, shallow⟩, _⟩ => ⟨pending, lists, shallow⟩,
      fun ⟨pending, lists, shallow⟩ => ⟨trivial, pending, ⟨lists, shallow⟩, trivial⟩⟩
  have laid : fileHeader ++ (sectionLayout Tag.engine contents.engine.encode
      ++ (sectionLayout Tag.lists (listsPayload contents.lists)
        ++ sectionLayout Tag.cache contents.cache.encode)) = layout contents := by
    simp only [layout, List.append_assoc]
  rw [← countable, ← laid]
  exact whole

/-- Saving gives the layout of the contents where all can be counted and there is room for it. -/
theorem save_eq_ok_iff {capacity : Option Nat} {contents : Contents} {bytes : Bytes}
    : save capacity contents = .ok bytes
      ↔ (contents.Countable ∧ Admits capacity (layout contents).length)
        ∧ bytes = layout contents :=
  (write_appends contents).output_eq_ok_iff

end GraphicsEngine.Snapshot
