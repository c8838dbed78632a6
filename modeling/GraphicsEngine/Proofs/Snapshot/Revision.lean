import GraphicsEngine.Proofs.Snapshot.RoundTrip
import Mathlib.Logic.Relation

/-! What later writers may change without earlier readers noticing: they may add sections of kinds
or versions of their own, go on behind the records of known sections, and use what is reserved.
Where one section was read, the next one is looked for at the place that the header says, however
much of the payload was taken.
-/

namespace GraphicsEngine.Snapshot

-----------------------------------------------------------------------------------------
-- Sections
-----------------------------------------------------------------------------------------

namespace RawSection

/-- Nothing is read of the section: it is of another kind or version than those that are known. -/
def IsForeign (raw : RawSection)
    : Prop :=
  raw.header.version ≠ 1
  ∨ raw.header.tag ≠ Tag.engine ∧ raw.header.tag ≠ Tag.lists ∧ raw.header.tag ≠ Tag.cache

/-- The section goes on behind its payload, and its header says so. -/
def lengthen (raw : RawSection) (extra : Bytes)
    (bounded : (raw.payload ++ extra).length < 0x10000000000000000)
    : RawSection where
  header := { raw.header with length := UInt64.ofNat (raw.payload ++ extra).length }
  payload := raw.payload ++ extra
  complete := (UInt64.toNat_ofNat_of_lt' bounded).symm

/-- The section with other flags. -/
def withFlags (raw : RawSection) (flags : UInt16)
    : RawSection where
  header := { raw.header with flags }
  payload := raw.payload
  complete := raw.complete

/-- What a section holds it still holds when it goes on behind its payload, by cases on its kind. -/
theorem Holds.lengthen {raw : RawSection} {held : Option Section} (holds : raw.Holds held)
    {extra : Bytes} (bounded : (raw.payload ++ extra).length < 0x10000000000000000)
    : (raw.lengthen extra bounded).Holds held := by
  have longer {front rest : Bytes} (payload : raw.payload = front ++ rest)
      : (raw.lengthen extra bounded).payload = front ++ (rest ++ extra) := by
    rw [← List.append_assoc, ← payload]
    rfl
  cases holds with
  | engine record rest version tag few payload =>
      exact .engine record (rest ++ extra) version tag few (longer payload)
  | lists records rest version tag few shallow payload =>
      exact .lists records (rest ++ extra) version tag few shallow (longer payload)
  | cache cache rest version tag payload =>
      exact .cache cache (rest ++ extra) version tag (longer payload)
  | unknown other => exact .unknown other

/-- A section is no longer than what it is lengthened to. -/
theorem isShort_of_lengthen {raw : RawSection} {extra : Bytes}
    {bounded : (raw.payload ++ extra).length < 0x10000000000000000}
    (short : (raw.lengthen extra bounded).IsShort)
    : raw.IsShort := by
  intro tag
  have limit := short tag
  rw [← (raw.lengthen extra bounded).complete] at limit
  rw [← raw.complete]
  exact Nat.le_trans (by simp [RawSection.lengthen]) limit

variable {raw other : RawSection} {rest : Bytes} {found : Array Section}

/-- A section that is short enough is read as what it holds. -/
theorem readSections_of_holds {held : Option Section} (short : raw.IsShort)
    (holds : raw.Holds held)
    : readSections (raw.encode ++ rest) found = readSections rest (found ++ held.toList) := by
  obtain ⟨left, decoded⟩ := raw.decode_of_holds holds
  rw [raw.readSections_encode, if_neg (raw.isShort_iff.mp short), decoded]

/-- A reader cannot tell the sections from each other, whatever stands behind them. -/
def SeemsLike (raw other : RawSection)
    : Prop :=
  ∀ (rest : Bytes) (found : Array Section),
    readSections (raw.encode ++ rest) found = readSections (other.encode ++ rest) found

/-- Nothing but the kind, the version and the length of a section is looked at in its header. -/
theorem withFlags_seemsLike (raw : RawSection) (flags : UInt16)
    : (raw.withFlags flags).SeemsLike raw := by
  intro rest found
  rw [readSections_encode, readSections_encode]
  rfl

/-- What stands behind the record in a payload is passed over. -/
theorem lengthen_seemsLike {held : Option Section} {left extra : Bytes}
    {bounded : (raw.payload ++ extra).length < 0x10000000000000000}
    (decodes : (Section.decode raw.header).run raw.payload = .ok held left)
    (short : (raw.lengthen extra bounded).IsShort)
    : (raw.lengthen extra bounded).SeemsLike raw := by
  intro rest found
  have holds := holds_of_decode decodes
  rw [readSections_of_holds short (holds.lengthen bounded),
    readSections_of_holds (isShort_of_lengthen short) holds]

/-- Foreign sections are passed over. -/
theorem readSections_of_isForeign (foreign : raw.IsForeign) (short : raw.IsShort)
    : readSections (raw.encode ++ rest) found = readSections rest found := by
  rw [readSections_of_holds short (.unknown foreign), Option.toList_none, Array.appendList_nil]

end RawSection

/-- Behind sections that are the same, what is read is the same if it would be without them, by
induction on them: each of them leads to the same end, or the reader gets to the others.
-/
theorem readSections_congr {bytes other : Bytes}
    (same : ∀ found, readSections bytes found = readSections other found)
    (before : List RawSection) (found : Array Section)
    : readSections (before.flatMap RawSection.encode ++ bytes) found
      = readSections (before.flatMap RawSection.encode ++ other) found := by
  induction before generalizing found with
  | nil => exact same found
  | cons raw before ih =>
      rw [List.flatMap_cons, List.append_assoc, List.append_assoc, raw.readSections_encode,
        raw.readSections_encode]
      simp only [ih]

-----------------------------------------------------------------------------------------
-- Snapshots
-----------------------------------------------------------------------------------------

namespace RawSnapshot

/-- A change that a later writer may make to a snapshot. -/
inductive Revision : RawSnapshot → RawSnapshot → Prop
  /-- A foreign section is put in front of any section, or behind the last one. -/
  | inserts (reserved : UInt8) (flags : UInt32) (before after : List RawSection)
    (added : RawSection) (foreign : added.IsForeign) (short : added.IsShort)
    : Revision ⟨reserved, flags, before ++ after⟩ ⟨reserved, flags, before ++ added :: after⟩
  /-- A section of known version that can be read goes on behind its payload. -/
  | lengthens (reserved : UInt8) (flags : UInt32) (before after : List RawSection)
    {raw : RawSection} {held : Option Section} {left extra : Bytes}
    (bounded : (raw.payload ++ extra).length < 0x10000000000000000)
    (version : raw.header.version = 1)
    (decodes : (Section.decode raw.header).run raw.payload = .ok held left)
    (short : (raw.lengthen extra bounded).IsShort)
    : Revision ⟨reserved, flags, before ++ raw :: after⟩
        ⟨reserved, flags, before ++ raw.lengthen extra bounded :: after⟩
  /-- The flags of a section are others. -/
  | marks (reserved : UInt8) (flags : UInt32) (before after : List RawSection) (raw : RawSection)
    (marked : UInt16)
    : Revision ⟨reserved, flags, before ++ raw :: after⟩
        ⟨reserved, flags, before ++ raw.withFlags marked :: after⟩
  /-- The reserved byte and the flags of the file header are others. -/
  | reserves (reserved reserved' : UInt8) (flags flags' : UInt32) (sections : List RawSection)
    : Revision ⟨reserved, flags, sections⟩ ⟨reserved', flags', sections⟩

variable {raw revised : RawSnapshot}

/-- Sections that are read alike make snapshots that are read alike. -/
theorem read_congr
    (same : readSections (revised.sections.flatMap RawSection.encode) #[]
      = readSections (raw.sections.flatMap RawSection.encode) #[])
    : read revised.encode = read raw.encode := by
  simp only [read, readFileHeader_encode, same]

/-- One section among others is read as the one that it seems like. -/
theorem read_replace {reserved : UInt8} {flags : UInt32} (before after : List RawSection)
    {later earlier : RawSection} (seems : later.SeemsLike earlier)
    : read (encode ⟨reserved, flags, before ++ later :: after⟩)
      = read (encode ⟨reserved, flags, before ++ earlier :: after⟩) := by
  apply read_congr
  simp only [List.flatMap_append, List.flatMap_cons]
  exact readSections_congr (seems _) before #[]

/-- A change that a later writer may make is not noticed, case by case. -/
theorem Revision.read_eq (revision : Revision raw revised)
    : read revised.encode = read raw.encode := by
  cases revision with
  | inserts _ _ before after added foreign short =>
      apply read_congr
      simp only [List.flatMap_append, List.flatMap_cons]
      exact readSections_congr (fun _ => RawSection.readSections_of_isForeign foreign short) before
        #[]
  | lengthens _ _ before after _ _ decodes short =>
      exact read_replace before after (RawSection.lengthen_seemsLike decodes short)
  | marks _ _ before after raw marked =>
      exact read_replace before after (raw.withFlags_seemsLike marked)
  | reserves => exact read_congr rfl

/-- However later writers change a snapshot, the receiver is given the same in the same order, and
the end is the same, be it a success or a failure; by induction on the changes.
-/
theorem restore_of_revisions (revisions : Relation.ReflTransGen Revision raw revised)
    (accept : List Section → Except Error Unit)
    : restore accept revised.encode = restore accept raw.encode := by
  have same : read revised.encode = read raw.encode := by
    induction revisions with
    | refl => rfl
    | tail _ revision ih => exact revision.read_eq.trans ih
  rw [restore, restore, same]

/-- A snapshot as it is written, of a list in the middle of a call. -/
def plain : RawSnapshot :=
  inMidCall.toRaw ⟨by decide, by decide, by decide⟩

/-- A section of a kind that is not known, with two bytes. -/
def comment : RawSection :=
  ⟨⟨99, 1, 0, 2⟩, [4, 5], rfl⟩

/-- Bytes behind the engine record, flags of the lists, a comment in front of the cache, and another
file header leave the same to the receiver.
-/
theorem restore_of_revisions_plain
    : ∃ revised : RawSnapshot,
        revised.reserved = 7 ∧ revised.flags = 9 ∧ revised.sections.length = 4
        ∧ Relation.ReflTransGen Revision plain revised
        ∧ restore (fun _ => .ok ()) revised.encode
          = (inMidCall.toSections.map .receive ++ [.finish], .ok ()) := by
  have within : inMidCall.WithinLimits := ⟨by decide, by decide, by decide⟩
  let engine := writtenSection Tag.engine inMidCall.engine.encode (by decide)
  let lists := writtenSection Tag.lists (listsPayload inMidCall.lists) (by decide)
  let cache := writtenSection Tag.cache inMidCall.cache.encode (by rw [length_cache]; decide)
  have bounded : (engine.payload ++ [8, 9]).length < 0x10000000000000000 := by decide
  have holds : engine.Holds (some (.engine inMidCall.engine)) :=
    .engine inMidCall.engine [] rfl rfl (by decide) (List.append_nil _).symm
  obtain ⟨left, decodes⟩ := engine.decode_of_holds holds
  let longer := engine.lengthen [8, 9] bounded
  have revisions : Relation.ReflTransGen Revision plain
      ⟨7, 9, [longer, lists.withFlags 5] ++ comment :: [cache]⟩ :=
    .tail (.tail (.tail (.tail .refl
      (.reserves 0 7 0 9 [engine, lists, cache]))
      (.lengthens 7 9 [] [lists, cache] bounded rfl decodes fun other => by cases other))
      (.marks 7 9 [longer] [cache] lists 5))
      (.inserts 7 9 [longer, lists.withFlags 5] [cache] comment (.inr (by decide))
        fun other => absurd other (by decide))
  refine ⟨_, rfl, rfl, rfl, revisions, ?_⟩
  rw [restore_of_revisions revisions, restore, plain, Contents.encode_toRaw, read_layout within]

end RawSnapshot

end GraphicsEngine.Snapshot
