import GraphicsEngine.Proofs.Snapshot.Boundaries
import GraphicsEngine.Proofs.Snapshot.Layout

/-! Reading what was written gives it back, unless it is more than a reader takes; then reading
fails.
-/

namespace GraphicsEngine.Snapshot

open Reader

-----------------------------------------------------------------------------------------
-- Sizes
-----------------------------------------------------------------------------------------

/-- An engine record has fixed fields and so many bytes for each interrupt. -/
theorem length_engineRecord (record : EngineRecord)
    : record.encode.length = 43 + 16 * record.pending.length := by
  have each : ∀ interrupt : Interrupt, interrupt.encode.length = 16 := by
    simp [Interrupt.encode]
  simp [EngineRecord.encode, List.length_flatMap, each, List.map_const']
  omega

theorem length_listRecord (record : ListRecord)
    : record.encode.length = 30 + 4 * record.stack.length := by
  simp only [ListRecord.encode, Encoding.words, List.length_append, length_uint32, length_uint8,
    length_int32, length_flatMap_uint32]
  omega

theorem length_cache (cache : CommandCache)
    : cache.encode.length = 1024 := by
  rw [CommandCache.encode, length_flatMap_uint32, Vector.length_toList]

theorem length_listsPayload_le {records : List ListRecord}
    (shallow : ∀ record ∈ records, record.stack.length ≤ stackLimit)
    : (listsPayload records).length ≤ 4 + 4126 * records.length := by
  have each : (records.flatMap ListRecord.encode).length ≤ 4126 * records.length := by
    induction records with
    | nil => simp
    | cons record rest ih =>
        have first := shallow record (by simp)
        have others := ih fun other member => shallow other (by simp [member])
        simp only [List.flatMap_cons, List.length_append, length_listRecord, List.length_cons,
          stackLimit] at first others ⊢
        omega
  rw [listsPayload, List.length_append, length_uint32]
  omega

-----------------------------------------------------------------------------------------
-- Sections
-----------------------------------------------------------------------------------------

/-- A section as it is written with a payload. -/
def writtenSection (tag : Tag) (payload : Bytes) (bounded : payload.length < 0x10000000000000000)
    : RawSection where
  header := ⟨tag, sectionVersion, 0, UInt64.ofNat payload.length⟩
  payload := payload
  complete := (UInt64.toNat_ofNat_of_lt' bounded).symm

/-- A section is short where its payload is. -/
theorem isShort_writtenSection (tag : Tag) {payload : Bytes}
    (bounded : payload.length < 0x10000000000000000) (small : payload.length ≤ 0x04000000)
    : (writtenSection tag payload bounded).IsShort :=
  fun _ => (writtenSection tag payload bounded).complete ▸ small

namespace RawSection.Holds

variable {raw : RawSection} {held : Option Section}

/-- A section that is marked as an engine record begins with one. -/
theorem of_engineTag (holds : raw.Holds held) (version : raw.header.version = sectionVersion)
    (tag : raw.header.tag = Tag.engine)
    : ∃ record rest, record.pending.length ≤ interruptLimit
        ∧ raw.payload = EngineRecord.encode record ++ rest := by
  cases holds with
  | engine record rest _ _ few payload => exact ⟨record, rest, few, payload⟩
  | lists _ _ _ other => exact absurd (tag.symm.trans other) (by decide)
  | cache _ _ _ other => exact absurd (tag.symm.trans other) (by decide)
  | unknown other =>
      rcases other with other | ⟨other, -, -⟩
      · exact absurd version other
      · exact absurd tag other

/-- A section that is marked as lists begins with their number and with the lists. -/
theorem of_listsTag (holds : raw.Holds held) (version : raw.header.version = sectionVersion)
    (tag : raw.header.tag = Tag.lists)
    : ∃ records rest, records.length ≤ listLimit
        ∧ (∀ record ∈ records, record.stack.length ≤ stackLimit)
        ∧ raw.payload = listsPayload records ++ rest := by
  cases holds with
  | lists records rest _ _ few shallow payload => exact ⟨records, rest, few, shallow, payload⟩
  | engine _ _ _ other => exact absurd (tag.symm.trans other) (by decide)
  | cache _ _ _ other => exact absurd (tag.symm.trans other) (by decide)
  | unknown other =>
      rcases other with other | ⟨-, other, -⟩
      · exact absurd version other
      · exact absurd tag other

end RawSection.Holds

-----------------------------------------------------------------------------------------
-- Contents within the limits
-----------------------------------------------------------------------------------------

/-- The contents are no more than a reader takes. -/
structure Contents.WithinLimits (contents : Contents) : Prop where
  pending : contents.engine.pending.length ≤ interruptLimit
  lists : contents.lists.length ≤ listLimit
  shallow : ∀ record ∈ contents.lists, record.stack.length ≤ stackLimit

/-- What is within the limits of a reader can be counted. -/
theorem Contents.WithinLimits.countable {contents : Contents} (within : contents.WithinLimits)
    : contents.Countable where
  pending := Nat.lt_of_le_of_lt within.pending (by decide)
  lists := Nat.lt_of_le_of_lt within.lists (by decide)
  shallow record member := Nat.lt_of_le_of_lt (within.shallow record member) (by decide)

/-- Contents within the limits never come near the limit on the length of sections. -/
theorem Contents.WithinLimits.small {contents : Contents} (within : contents.WithinLimits)
    : contents.engine.encode.length ≤ 0x04000000
      ∧ (listsPayload contents.lists).length ≤ 0x04000000
      ∧ contents.cache.encode.length ≤ 0x04000000 := by
  have pending := within.pending
  have lists := within.lists
  have listsLength := length_listsPayload_le within.shallow
  have engineLength := length_engineRecord contents.engine
  have cacheLength := length_cache contents.cache
  rw [interruptLimit] at pending
  rw [listLimit] at lists
  refine ⟨?_, ?_, ?_⟩ <;> omega

/-- A layout taken apart into the file header and three sections. -/
def Contents.toRaw (contents : Contents) (within : contents.WithinLimits)
    : RawSnapshot where
  reserved := 0
  flags := 0
  sections :=
    [writtenSection Tag.engine contents.engine.encode
        (Nat.lt_of_le_of_lt within.small.1 (by decide)),
      writtenSection Tag.lists (listsPayload contents.lists)
        (Nat.lt_of_le_of_lt within.small.2.1 (by decide)),
      writtenSection Tag.cache contents.cache.encode
        (Nat.lt_of_le_of_lt within.small.2.2 (by decide))]

/-- What a reader hands on of a layout. -/
def Contents.toSections (contents : Contents)
    : List Section :=
  [.engine contents.engine, .lists contents.lists, .cache contents.cache]

/-- A layout is the file header and then its three sections, with nothing behind them. -/
theorem layout_eq (contents : Contents)
    : layout contents
      = fileHeader ++ (sectionLayout Tag.engine contents.engine.encode
        ++ (sectionLayout Tag.lists (listsPayload contents.lists)
          ++ (sectionLayout Tag.cache contents.cache.encode ++ []))) := by
  simp only [layout, List.append_assoc, List.append_nil]

/-- Nothing is lost by taking a layout apart. -/
theorem Contents.encode_toRaw {contents : Contents} (within : contents.WithinLimits)
    : (contents.toRaw within).encode = layout contents :=
  (layout_eq contents).symm

/-- Every section of a layout yields what was written. -/
theorem Contents.yields_toRaw {contents : Contents} (within : contents.WithinLimits)
    : List.Forall₂ RawSection.Yields (contents.toRaw within).sections contents.toSections :=
  .cons ⟨isShort_writtenSection _ _ within.small.1,
      .engine contents.engine [] rfl rfl within.pending (List.append_nil _).symm⟩
    (.cons ⟨isShort_writtenSection _ _ within.small.2.1,
        .lists contents.lists [] rfl rfl within.lists within.shallow (List.append_nil _).symm⟩
      (.cons ⟨isShort_writtenSection _ _ within.small.2.2,
          .cache contents.cache [] rfl rfl (List.append_nil _).symm⟩
        .nil))

/-- Reading a layout gives the contents back, section by section, if they are within the limits. -/
theorem read_layout {contents : Contents} (within : contents.WithinLimits)
    : read (layout contents) = ⟨contents.toSections, .ok ()⟩ := by
  have spells : Spells (layout contents) contents.toSections :=
    contents.encode_toRaw within ▸ RawSnapshot.spells_encode (contents.yields_toRaw within)
  exact read_eq_ok_iff.mpr ⟨_, spells, rfl, rfl, rfl⟩

-----------------------------------------------------------------------------------------
-- Contents beyond the limits
-----------------------------------------------------------------------------------------

/-- Behind the file header that is written, bytes that can be read are sections in a row. -/
theorem concatenates_of_read {bytes : Bytes}
    (succeeded : (read (fileHeader ++ bytes)).outcome = .ok ())
    : ∃ contents, Concatenates bytes contents := by
  have readable : read (fileHeader ++ bytes) = ⟨(read (fileHeader ++ bytes)).sections, .ok ()⟩ :=
    succeeded ▸ rfl
  obtain ⟨contents, ⟨_, _, sections, same, concatenates⟩, -⟩ := read_eq_ok_iff.mp readable
  have headed : readFileHeader.run (fileHeader ++ bytes) = .ok () bytes := rfl
  rw [readFileHeader_run_ok_iff.mpr ⟨_, _, same⟩] at headed
  cases headed
  exact ⟨contents, concatenates⟩

/-- Sections in a row that begin with an engine record as it is written can be told to: the record
that is read in front of the payload is the one that was written.
-/
theorem Concatenates.of_engineLayout {record : EngineRecord} {bytes : Bytes}
    {contents : List Section} (countable : record.pending.length < 0x100000000)
    (concatenates : Concatenates (sectionLayout Tag.engine record.encode ++ bytes) contents)
    : record.pending.length ≤ interruptLimit ∧ ∃ others, Concatenates bytes others := by
  have length := length_engineRecord record
  let raw := writtenSection Tag.engine record.encode (by omega)
  obtain ⟨_, others, holds, behind, -⟩ := Concatenates.of_encode raw concatenates
  obtain ⟨found, rest, few, payload⟩ := holds.of_engineTag rfl rfl
  have same : record.encode ++ [] = found.encode ++ rest := (List.append_nil _).trans payload
  have fewer : found.pending.length < 0x100000000 := Nat.lt_of_le_of_lt few (by decide)
  obtain ⟨rfl, -⟩ := engineRecord_prefixFree countable fewer same
  exact ⟨few, others, behind⟩

/-- Sections in a row that begin with lists as they are written: the lists that are read in front of
the payload are those that were written. Their stacks may be so deep that the header gives another
length than that of the payload, so it does not matter here where the section ends.
-/
theorem Concatenates.of_listsLayout {records : List ListRecord} {bytes : Bytes}
    {contents : List Section} (countable : records.length < 0x100000000)
    (shallow : ∀ record ∈ records, record.stack.length < 0x100000000)
    (concatenates : Concatenates (sectionLayout Tag.lists (listsPayload records) ++ bytes) contents)
    : records.length ≤ listLimit ∧ ∀ record ∈ records, record.stack.length ≤ stackLimit := by
  rw [sectionLayout, List.append_assoc] at concatenates
  obtain ⟨raw, _, _, _, headers, same, holds, -, -⟩ := concatenates.of_header
  obtain ⟨found, _, few, shallow', payload⟩ := holds.of_listsTag (headers ▸ rfl) (headers ▸ rfl)
  rw [payload, List.append_assoc] at same
  have fewer : found.length < 0x100000000 := Nat.lt_of_le_of_lt few (by decide)
  have shallower : ∀ record ∈ found, record.stack.length < 0x100000000 :=
    fun record member => Nat.lt_of_le_of_lt (shallow' record member) (by decide)
  obtain ⟨rfl, -⟩ := listsPayload_prefixFree ⟨countable, shallow⟩ ⟨fewer, shallower⟩ same
  exact ⟨few, shallow'⟩

/-- A layout that can be read holds contents within the limits. -/
theorem withinLimits_of_read {contents : Contents} (countable : contents.Countable)
    (succeeded : (read (layout contents)).outcome = .ok ())
    : contents.WithinLimits := by
  rw [layout_eq] at succeeded
  obtain ⟨_, sections⟩ := concatenates_of_read succeeded
  obtain ⟨pending, _, behind⟩ := sections.of_engineLayout countable.pending
  obtain ⟨lists, shallow⟩ := behind.of_listsLayout countable.lists countable.shallow
  exact ⟨pending, lists, shallow⟩

-----------------------------------------------------------------------------------------
-- Round trip
-----------------------------------------------------------------------------------------

/-- All that can be counted can be written. It can be read again, for a receiver that accepts it,
exactly if it is within the limits of the reader, and then the receiver is given just what was
written: the engine record, the lists, the cache, and the call to check them.
-/
theorem restore_of_save {contents : Contents} (countable : contents.Countable)
    (accept : List Section → Except Error Unit)
    (accepts : accept [.engine contents.engine, .lists contents.lists, .cache contents.cache]
      = .ok ())
    : ∃ bytes, save none contents = .ok bytes
        ∧ ((restore accept bytes).2 = .ok ()
          ↔ contents.engine.pending.length ≤ 4096
            ∧ contents.lists.length ≤ 4096
            ∧ ∀ record ∈ contents.lists, record.stack.length ≤ 1024)
        ∧ ((restore accept bytes).2 = .ok ()
          → (restore accept bytes).1
            = [.receive (.engine contents.engine), .receive (.lists contents.lists),
              .receive (.cache contents.cache), .finish]) := by
  have saved : save none contents = .ok (layout contents) :=
    save_eq_ok_iff.mpr ⟨⟨countable, fun _ none => nomatch none⟩, rfl⟩
  have within_of_restore (restored : (restore accept (layout contents)).2 = .ok ())
      : contents.WithinLimits := by
    apply withinLimits_of_read countable
    rw [restore] at restored
    split at restored
    · cases restored
    · assumption
  have restore_of_within (within : contents.WithinLimits)
      : restore accept (layout contents)
        = ([.receive (.engine contents.engine), .receive (.lists contents.lists),
            .receive (.cache contents.cache), .finish], .ok ()) := by
    rw [restore, read_layout within]
    exact congrArg (Prod.mk _) accepts
  refine ⟨_, saved, ⟨fun restored => ?_, fun holds => ?_⟩, fun restored => ?_⟩
  · have within := within_of_restore restored
    exact ⟨within.pending, within.lists, within.shallow⟩
  · obtain ⟨pending, lists, shallow⟩ := holds
    rw [restore_of_within ⟨pending, lists, shallow⟩]
  · rw [restore_of_within (within_of_restore restored)]

/-- An engine record with an interrupt that waits, a list in the middle of a call, and a cache with
one word.
-/
def inMidCall : Contents where
  engine :=
    { nextId := 3, current := 2, serving := true, interruptsEnabled := true, previous := 0x0A000010
      finished := false, offset := 0, cycles := 9, checkpoint := 0x08000010, startingTicks := 7
      pending := [{ list := 2, pc := 0x08000004, channel := 5, token := 77 }] }
  lists :=
    [{ id := 2, start := 0x08000000, pc := 0x08000010, stall := 0x08000010, state := 2, channel := 5
       token := 77, signal := 1, stack := [0x08000008, 0x08000020] }]
  cache := CommandCache.blank.put 0x0A000010

/-- A receiver that accepts anything is given just this when it is read again. -/
theorem restore_of_save_inMidCall
    : inMidCall.Countable
      ∧ ∃ bytes, save none inMidCall = .ok bytes
          ∧ restore (fun _ => .ok ()) bytes
            = ([.receive (.engine inMidCall.engine), .receive (.lists inMidCall.lists),
                .receive (.cache inMidCall.cache), .finish], .ok ()) := by
  have countable : inMidCall.Countable := ⟨by decide, by decide, by decide⟩
  obtain ⟨bytes, saved, readable, given⟩ :=
    restore_of_save countable (fun _ => .ok ()) rfl
  have restored := readable.mpr ⟨by decide, by decide, by decide⟩
  exact ⟨countable, bytes, saved, Prod.ext (given restored) restored⟩

end GraphicsEngine.Snapshot
