import GraphicsEngine.Snapshot.Write

/-! What is written value by value is written as if it were put down at once. Records that can be
counted are written so, whatever the position of the cursor and the room that is left, and so are
the headers.
-/

namespace GraphicsEngine

namespace Snapshot

-----------------------------------------------------------------------------------------
-- Puts in a row
-----------------------------------------------------------------------------------------

namespace Cursor

/-- Bytes in a row are put over others one after the other, by induction on the first of them. -/
theorem overwrite_append (bytes : Array UInt8) (position : Nat) (chunk other : Bytes)
    : overwrite bytes position (chunk ++ other)
      = overwrite (overwrite bytes position chunk) (position + chunk.length) other := by
  induction chunk generalizing bytes position with
  | nil => rfl
  | cons byte rest ih =>
      rw [List.cons_append, overwrite, overwrite, ih, List.length_cons, Nat.add_assoc,
        Nat.add_comm 1]

/-- There is room for two chunks if there is room for the second one behind the first one. -/
theorem hasRoom_add {cursor moved : Cursor} {first second : Nat}
    (capacity : moved.capacity = cursor.capacity)
    (position : moved.position = cursor.position + first)
    : cursor.hasRoom (first + second) ↔ cursor.hasRoom first ∧ moved.hasRoom second := by
  rw [hasRoom, hasRoom, hasRoom, capacity, position]
  cases cursor.capacity with
  | none => simp
  | some bound =>
      simp only [decide_eq_true_eq]
      omega

end Cursor

namespace Writer

/-- Two chunks in a row are one chunk. -/
theorem put_seq_put (chunk other : Bytes)
    : (put chunk >>= fun _ => put other) = put (chunk ++ other) := by
  funext cursor
  change Except.bind (put chunk cursor) (fun outcome => put other outcome.2) = _
  let moved : Cursor :=
    { cursor with
      bytes := Cursor.overwrite cursor.bytes cursor.position chunk
      position := cursor.position + chunk.length }
  have both : cursor.hasRoom (chunk ++ other).length
      ↔ cursor.hasRoom chunk.length ∧ moved.hasRoom other.length := by
    rw [List.length_append]
    exact Cursor.hasRoom_add rfl rfl
  by_cases room : cursor.hasRoom chunk.length
  · have first : put chunk cursor = .ok ((), moved) := if_pos room
    rw [first, Except.bind, put, put]
    by_cases room' : moved.hasRoom other.length
    · rw [if_pos room', if_pos (both.mpr ⟨room, room'⟩), Cursor.overwrite_append,
        List.length_append, ← Nat.add_assoc]
    · rw [if_neg room', if_neg fun holds => room' (both.mp holds).2]
  · have first : put chunk cursor = .error .bufferFull := if_neg room
    rw [first, Except.bind, put, if_neg fun holds => room (both.mp holds).1]

theorem put_seq_put_seq (chunk other : Bytes) (next : Writer Unit)
    : (put chunk >>= fun _ => put other >>= fun _ => next)
      = put (chunk ++ other) >>= fun _ => next := by
  rw [← put_seq_put, bind_assoc]

/-- Values that are each put at once are put at once, behind a chunk, by induction on them. -/
theorem put_seq_each {α : Type} {write : α → Writer Unit} {encode : α → Bytes}
    (atOnce : ∀ value, write value = put (encode value)) (chunk : Bytes) (values : List α)
    : (put chunk >>= fun _ => each write values) = put (chunk ++ values.flatMap encode) := by
  induction values generalizing chunk with
  | nil =>
      rw [List.flatMap_nil, List.append_nil]
      exact bind_pure _
  | cons value rest ih =>
      rw [each, atOnce, put_seq_put_seq, ih, List.flatMap_cons, List.append_assoc]

theorem each_eq_put {α : Type} {write : α → Writer Unit} {encode : α → Bytes}
    (atOnce : ∀ value, write value = put (encode value)) {values : List α} (any : values ≠ [])
    : each write values = put (values.flatMap encode) := by
  cases values with
  | nil => exact absurd rfl any
  | cons value rest => rw [each, atOnce, put_seq_each atOnce, List.flatMap_cons]

theorem uint32_eq_put (value : UInt32)
    : uint32 value = put (Encoding.uint32 value) :=
  rfl

theorem count_eq_put {number : Nat} (counted : number < 0x100000000) (excess : Flaw)
    : count number excess = put (Encoding.uint32 (UInt32.ofNat number)) :=
  if_pos counted

end Writer

end Snapshot

-----------------------------------------------------------------------------------------
-- Records and headers
-----------------------------------------------------------------------------------------

open Snapshot Writer

theorem Interrupt.write_eq_put (interrupt : Interrupt)
    : interrupt.write = .put interrupt.encode := by
  simp only [write, uint32, int32, put_seq_put, encode, List.append_assoc]

theorem CommandCache.write_eq_put (cache : CommandCache)
    : cache.write = .put cache.encode := by
  refine each_eq_put uint32_eq_put fun none => ?_
  have length : cache.words.toList.length = 256 := cache.words.size_toArray
  rw [none] at length
  cases length

namespace Snapshot

theorem writeFileHeader_eq_put
    : writeFileHeader = .put fileHeader := by
  simp only [writeFileHeader, uint8, uint16, uint32, put_seq_put, fileHeader, List.append_assoc]

theorem Header.write_eq_put (header : Header)
    : header.write = .put header.encode := by
  simp only [write, uint16, uint32, uint64, put_seq_put, encode, List.append_assoc]

/-- The fields of an engine record that are always there. -/
def EngineRecord.fields (record : EngineRecord)
    : Bytes :=
  Encoding.uint32 record.nextId ++ Encoding.uint32 record.current
    ++ Encoding.bool record.serving ++ Encoding.bool record.interruptsEnabled
    ++ Encoding.uint32 record.previous ++ Encoding.bool record.finished
    ++ Encoding.uint32 record.offset ++ Encoding.uint64 record.cycles
    ++ Encoding.uint32 record.checkpoint ++ Encoding.uint64 record.startingTicks

/-- The fields of an engine record are put at once, and then the interrupts are counted. -/
theorem EngineRecord.write_eq (record : EngineRecord)
    : record.write
      = put record.fields >>= fun _ => count record.pending.length .manyInterrupts
          >>= fun _ => each Interrupt.write record.pending := by
  simp only [write, uint32, Writer.bool, uint64, put_seq_put_seq, fields, List.append_assoc]

/-- An engine record is put at once if its interrupts can be counted. -/
theorem EngineRecord.write_eq_put {record : EngineRecord}
    (counted : record.pending.length < 0x100000000)
    : record.write = .put record.encode := by
  rw [write_eq, count_eq_put counted, put_seq_put_seq, put_seq_each Interrupt.write_eq_put]
  simp only [encode, fields, List.append_assoc]

/-- The fields of a list record that are always there. -/
def ListRecord.fields (record : ListRecord)
    : Bytes :=
  Encoding.uint32 record.id ++ Encoding.uint32 record.start ++ Encoding.uint32 record.pc
    ++ Encoding.uint32 record.stall ++ Encoding.uint8 record.state ++ Encoding.int32 record.channel
    ++ Encoding.uint32 record.token ++ Encoding.uint8 record.signal

/-- The fields of a list record are put at once, and then its return addresses are counted. -/
theorem ListRecord.write_eq (record : ListRecord)
    : record.write
      = put record.fields >>= fun _ => count record.stack.length .wideLength
          >>= fun _ => each uint32 record.stack := by
  simp only [write, words, uint32, uint8, int32, put_seq_put_seq, fields, List.append_assoc]

/-- A list record is put at once if its return addresses can be counted. -/
theorem ListRecord.write_eq_put {record : ListRecord}
    (counted : record.stack.length < 0x100000000)
    : record.write = .put record.encode := by
  rw [write_eq, count_eq_put counted, put_seq_put_seq, put_seq_each uint32_eq_put]
  simp only [encode, fields, Encoding.words, List.append_assoc]

end Snapshot

end GraphicsEngine
