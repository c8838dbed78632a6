import GraphicsEngine.Proofs.Snapshot.RoundTrip

/-! Writing into bounded room. A writer that goes back to correct a length needs no more room than
its layout, whichever byte the room ends at, and where there is less it fails for that reason alone.
-/

namespace GraphicsEngine.Snapshot

open Cursor

namespace Writer

variable {writer first second : Writer Unit} {chunk other : Bytes} {allowed : Prop}

/-- Behind what was written before, the writer runs out of room if there is too little of it for the
chunk.
-/
def Overruns (writer : Writer Unit) (chunk : Bytes)
    : Prop :=
  ∀ ⦃capacity : Option Nat⦄ ⦃written : Bytes⦄,
    Admits capacity written.length → ¬ Admits capacity (written ++ chunk).length
    → writer.run (behind capacity written) = .error .bufferFull

/-- A failure is not followed by anything. -/
theorem bind_run_of_error {α β : Type} {writer : Writer α} {next : α → Writer β} {cursor : Cursor}
    {failure : Error} (failed : writer.run cursor = .error failure)
    : (writer >>= next).run cursor = .error failure := by
  rw [StateT.run_bind, failed]
  rfl

/-- What succeeds is followed by what comes next. -/
theorem bind_run_of_ok {α β : Type} {writer : Writer α} {next : α → Writer β}
    {cursor middle : Cursor} {value : α} (succeeded : writer.run cursor = .ok (value, middle))
    : (writer >>= next).run cursor = (next value).run middle := by
  rw [StateT.run_bind, succeeded]
  rfl

theorem put_overruns (chunk : Bytes)
    : (put chunk).Overruns chunk := by
  intro capacity written _ tight
  rw [List.length_append] at tight
  have full : ¬ (behind capacity written).hasRoom chunk.length := fun room =>
    tight (hasRoom_iff.mp room)
  rw [StateT.run, put, if_neg full]

theorem Overruns.of_eq_put (atOnce : writer = put chunk)
    : writer.Overruns chunk := by
  rw [atOnce]
  exact put_overruns chunk

/-- Nothing always has room. -/
theorem Overruns.nothing (writer : Writer Unit)
    : writer.Overruns [] := by
  intro capacity written admits tight
  rw [List.append_nil] at tight
  exact absurd admits tight

/-- Of two writers in a row the first one runs out of room, or the second one behind it. -/
theorem Overruns.seq (appends : first.Appends chunk allowed) (fit : allowed)
    (leading : first.Overruns chunk) (following : second.Overruns other)
    : (first >>= fun _ => second).Overruns (chunk ++ other) := by
  intro capacity written admits tight
  rw [← List.append_assoc] at tight
  by_cases room : Admits capacity (written ++ chunk).length
  · have wrote := (appends admits).mpr ⟨⟨fit, room⟩, rfl⟩
    rw [bind_run_of_ok wrote]
    exact following room tight
  · exact bind_run_of_error (leading admits room)

/-- From the start, a writer that may add its chunk does so if there is room for it, and runs out of
room otherwise.
-/
theorem Appends.run_start (appends : writer.Appends chunk allowed) (fit : allowed)
    (overruns : writer.Overruns chunk) (room : Nat)
    : writer.run (.start (some room))
      = if chunk.length ≤ room then .ok ((), behind (some room) chunk) else .error .bufferFull := by
  have nothing : Admits (some room) ([] : Bytes).length := fun _ _ => Nat.zero_le _
  have admits_iff : Admits (some room) chunk.length ↔ chunk.length ≤ room := by simp [Admits]
  change writer.run (behind (some room) []) = _
  split
  · next enough =>
    exact (appends nothing).mpr ⟨⟨fit, admits_iff.mpr enough⟩, rfl⟩
  · next tight =>
    exact overruns nothing fun admits => tight (admits_iff.mp admits)

end Writer

open Writer

/-- A section runs out of room in its header or in its payload, and never when its length is
corrected.
-/
theorem writeSection_overruns {payload : Writer Unit} {chunk : Bytes}
    (overruns : payload.Overruns chunk) (tag : Tag)
    : (writeSection tag payload).Overruns (sectionLayout tag chunk) := by
  intro capacity written admits tight
  let header := Header.encode ⟨tag, sectionVersion, 0, 0⟩
  have reached {middle : Bytes}
      : Writer.position.run (behind capacity middle)
        = .ok (middle.length, behind capacity middle) :=
    position_run_ok_iff.mpr ⟨rfl, rfl⟩
  have same_length : (written ++ header ++ chunk).length
      = (written ++ sectionLayout tag chunk).length := by
    simp [header, sectionLayout, Header.encode, Encoding.uint64]
  rw [← same_length] at tight
  rw [writeSection, Header.write_eq_put, bind_run_of_ok reached]
  by_cases headed : Admits capacity (written ++ header).length
  · have wrote := (put_appends header admits).mpr ⟨⟨trivial, headed⟩, rfl⟩
    rw [bind_run_of_ok wrote, bind_run_of_ok reached]
    exact bind_run_of_error (overruns headed tight)
  · exact bind_run_of_error (put_overruns header admits headed)

-----------------------------------------------------------------------------------------
-- Whole snapshots
-----------------------------------------------------------------------------------------

/-- Records run out of room in one of them, by induction on them. -/
theorem writeRecords_overruns (records : List ListRecord)
    (shallow : ∀ record ∈ records, record.stack.length < 0x100000000)
    : (Writer.each ListRecord.write records).Overruns (records.flatMap ListRecord.encode) := by
  induction records with
  | nil => exact Overruns.nothing _
  | cons record rest ih =>
      rw [List.forall_mem_cons] at shallow
      obtain ⟨counted, others⟩ := shallow
      exact Overruns.seq record.write_appends counted (.of_eq_put (record.write_eq_put counted))
        (ih others)

/-- A snapshot runs out of room in one of its parts, if all can be counted. -/
theorem write_overruns {contents : Contents} (countable : contents.Countable)
    : (write contents).Overruns (layout contents) := by
  have engine := writeSection_overruns
    (.of_eq_put (contents.engine.write_eq_put countable.pending)) Tag.engine
  have records := writeRecords_overruns contents.lists countable.shallow
  have lists := writeSection_overruns
    (Overruns.seq (count_appends contents.lists.length .manyLists) countable.lists
      (.of_eq_put (count_eq_put countable.lists .manyLists)) records) Tag.lists
  have cache := writeSection_overruns (.of_eq_put contents.cache.write_eq_put) Tag.cache
  have laid : fileHeader ++ (sectionLayout Tag.engine contents.engine.encode
      ++ (sectionLayout Tag.lists (listsPayload contents.lists)
        ++ sectionLayout Tag.cache contents.cache.encode)) = layout contents := by
    simp only [layout, List.append_assoc]
  rw [← laid]
  apply Overruns.seq (.of_eq_put writeFileHeader_eq_put) trivial (.of_eq_put writeFileHeader_eq_put)
  apply Overruns.seq (writeSection_appends contents.engine.write_appends Tag.engine)
    countable.pending engine
  exact Overruns.seq (writeSection_appends (writeLists_appends contents.lists) Tag.lists)
    ⟨countable.lists, countable.shallow⟩ lists cache

-----------------------------------------------------------------------------------------
-- What stands in a snapshot
-----------------------------------------------------------------------------------------

/-- A payload behind its number, its version, which is one, no flags, and its length in eight bytes.
-/
def framed (tag : Nat) (payload : Bytes)
    : Bytes :=
  LittleEndian.bytes 4 tag ++ LittleEndian.bytes 2 1 ++ LittleEndian.bytes 2 0
    ++ LittleEndian.bytes 8 payload.length ++ payload

/-- The bytes of a snapshot, spelt out: sixteen that are always the same, then the engine, the lists
and the cache.
-/
def Contents.spelt (contents : Contents)
    : Bytes :=
  [0x47, 0x45, 0x53, 0x4E, 0x41, 0x50, 0, 0, 1, 0, 1, 0, 0, 0, 0, 0]
    ++ framed 1 contents.engine.encode
    ++ framed 2
      (LittleEndian.bytes 4 contents.lists.length ++ contents.lists.flatMap ListRecord.encode)
    ++ framed 3 contents.cache.encode

/-- The header of a section gives the length of its payload as far as eight bytes hold it. -/
theorem sectionLayout_eq_framed (tag : Tag) (payload : Bytes)
    : sectionLayout tag payload = framed tag.toNat payload := by
  have length : Encoding.uint64 (UInt64.ofNat payload.length)
      = LittleEndian.bytes 8 payload.length := by
    rw [Encoding.uint64, UInt64.toNat_ofNat']
    exact LittleEndian.bytes_mod_span 8 payload.length
  rw [sectionLayout, Header.encode, length]
  rfl

/-- The layout is what is spelt out. -/
theorem layout_eq_spelt (contents : Contents)
    : layout contents = contents.spelt := by
  have count : Encoding.uint32 (UInt32.ofNat contents.lists.length)
      = LittleEndian.bytes 4 contents.lists.length := by
    rw [Encoding.uint32, UInt32.toNat_ofNat']
    exact LittleEndian.bytes_mod_span 4 contents.lists.length
  simp only [layout, sectionLayout_eq_framed, listsPayload, count]
  rfl

/-- Going back to correct lengths comes to writing the parts one after the other, each behind its
length; the cache takes 1024 bytes. In bounded room the same bytes are written if there is room for
all of them, and otherwise writing fails for want of room.
-/
theorem write_spelt {contents : Contents} (countable : contents.Countable)
    : (write contents).run (.start none)
        = .ok ((), ⟨contents.spelt.toArray, contents.spelt.length, none⟩)
      ∧ contents.cache.encode.length = 1024
      ∧ (∀ room,
        (write contents).run (.start (some room))
          = if contents.spelt.length ≤ room then
              .ok ((), ⟨contents.spelt.toArray, contents.spelt.length, some room⟩)
            else .error .bufferFull)
      ∧ Error.bufferFull.transfer? = some "failed to write whole buffer" := by
  have appends := write_appends contents
  have overruns := write_overruns countable
  rw [layout_eq_spelt] at appends overruns
  have nothing : Admits none ([] : Bytes).length := fun _ bound => nomatch bound
  have unbounded : Admits none contents.spelt.length := fun _ bound => nomatch bound
  refine ⟨(appends nothing).mpr ⟨⟨countable, unbounded⟩, rfl⟩, length_cache contents.cache, ?_, rfl⟩
  intro room
  exact appends.run_start countable overruns room

/-- With a list in the middle of a call, one byte less than there is to write is too little. -/
theorem write_spelt_inMidCall
    : inMidCall.Countable ∧ inMidCall.spelt.length = 1189
      ∧ (write inMidCall).run (.start (some 1188)) = .error .bufferFull
      ∧ (write inMidCall).run (.start (some 1189))
        = .ok ((), ⟨inMidCall.spelt.toArray, 1189, some 1189⟩) := by
  have countable : inMidCall.Countable := ⟨by decide, by decide, by decide⟩
  have total : inMidCall.spelt.length = 1189 := by
    simp [Contents.spelt, framed, length_engineRecord, length_listRecord, length_cache, inMidCall]
  obtain ⟨-, -, bounded, -⟩ := write_spelt countable
  have tight := bounded 1188
  have enough := bounded 1189
  rw [total] at tight enough
  exact ⟨countable, total, tight, enough⟩

end GraphicsEngine.Snapshot
