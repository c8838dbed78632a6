import GraphicsEngine.Proofs.Snapshot.PrefixFree
import GraphicsEngine.Snapshot.Read

/-! Which bytes are snapshots: a file header and then sections one after the other, each of them
complete. A reader takes exactly these, and hands on what the sections of known kind and version
hold.
-/

namespace GraphicsEngine.Snapshot

open Reader

-----------------------------------------------------------------------------------------
-- Sections
-----------------------------------------------------------------------------------------

/-- A section as it stands in a snapshot: a header, and behind it as many bytes as it says. -/
structure RawSection where
  header : Header
  payload : Bytes
  complete : payload.length = header.length.toNat

namespace RawSection

def encode (raw : RawSection)
    : Bytes :=
  raw.header.encode ++ raw.payload

/-- What a section holds. A payload of known kind and version begins with the record that it holds,
and may go on behind it; of any other section nothing is read.
-/
inductive Holds (raw : RawSection) : Option Section → Prop
  | engine (record : EngineRecord) (rest : Bytes) (version : raw.header.version = 1)
    (tag : raw.header.tag = Tag.engine) (few : record.pending.length ≤ 4096)
    (payload : raw.payload = record.encode ++ rest)
    : Holds raw (some (.engine record))
  | lists (records : List ListRecord) (rest : Bytes) (version : raw.header.version = 1)
    (tag : raw.header.tag = Tag.lists) (few : records.length ≤ 4096)
    (shallow : ∀ record ∈ records, record.stack.length ≤ 1024)
    (payload : raw.payload = listsPayload records ++ rest)
    : Holds raw (some (.lists records))
  | cache (cache : CommandCache) (rest : Bytes) (version : raw.header.version = 1)
    (tag : raw.header.tag = Tag.cache) (payload : raw.payload = cache.encode ++ rest)
    : Holds raw (some (.cache cache))
  | unknown
    (other : raw.header.version ≠ 1
      ∨ raw.header.tag ≠ Tag.engine ∧ raw.header.tag ≠ Tag.lists ∧ raw.header.tag ≠ Tag.cache)
    : Holds raw none

/-- A section is within the limit on the length of sections of lists. -/
def IsShort (raw : RawSection)
    : Prop :=
  raw.header.tag = Tag.lists → raw.header.length.toNat ≤ 64 * 1024 * 1024

variable {raw : RawSection} {read : Option Section}

/-- A section holds what its payload is read as, by cases on its version and its kind. -/
theorem holds_of_decode {left : Bytes}
    (decoded : (Section.decode raw.header).run raw.payload = .ok read left)
    : raw.Holds read := by
  rw [Section.decode] at decoded
  split at decoded
  · next version =>
    obtain ⟨rfl, -⟩ := pure_run_ok_iff.mp decoded
    exact .unknown (.inl version)
  · next version =>
    have version := Decidable.not_not.mp version
    split at decoded
    · next tag =>
      obtain ⟨record, middle, engine, last⟩ := bind_run_ok_iff.mp decoded
      obtain ⟨rfl, -⟩ := pure_run_ok_iff.mp last
      obtain ⟨few, payload⟩ := engineRecord_inverts.mp engine
      exact .engine record middle version tag few payload
    · next engine =>
      split at decoded
      · next tag =>
        obtain ⟨records, middle, lists, last⟩ := bind_run_ok_iff.mp decoded
        obtain ⟨rfl, -⟩ := pure_run_ok_iff.mp last
        obtain ⟨⟨few, shallow⟩, payload⟩ :=
          (counted_run_ok_iff listRecord_inverts (by decide)).mp lists
        exact .lists records middle version tag few shallow payload
      · next lists =>
        split at decoded
        · next tag =>
          obtain ⟨cache, middle, cached, last⟩ := bind_run_ok_iff.mp decoded
          obtain ⟨rfl, -⟩ := pure_run_ok_iff.mp last
          exact .cache cache middle version tag (cache_inverts.mp cached).2
        · next cache =>
          obtain ⟨rfl, -⟩ := pure_run_ok_iff.mp decoded
          exact .unknown (.inr ⟨engine, lists, cache⟩)

/-- The payload of a section is read as what the section holds, and what stands behind it is left.
-/
theorem decode_of_holds (holds : raw.Holds read)
    : ∃ left, (Section.decode raw.header).run raw.payload = .ok read left := by
  rw [Section.decode, sectionVersion]
  cases holds with
  | engine record rest version tag few payload =>
      have decoded := engineRecord_inverts.mpr ⟨few, payload⟩
      rw [if_neg (fun other => other version), if_pos tag]
      exact ⟨rest, bind_run_ok_iff.mpr ⟨record, rest, decoded, rfl⟩⟩
  | lists records rest version tag few shallow payload =>
      have decoded : (counted listLimit .manyLists ListRecord.decode).run raw.payload
          = .ok records rest :=
        (counted_run_ok_iff listRecord_inverts (by decide)).mpr ⟨⟨few, shallow⟩, payload⟩
      rw [if_neg (fun other => other version), tag, if_neg (by decide), if_pos rfl]
      exact ⟨rest, bind_run_ok_iff.mpr ⟨records, rest, decoded, rfl⟩⟩
  | cache cache rest version tag payload =>
      have decoded := cache_inverts.mpr ⟨trivial, payload⟩
      rw [if_neg (fun other => other version), tag, if_neg (by decide), if_neg (by decide),
        if_pos rfl]
      exact ⟨rest, bind_run_ok_iff.mpr ⟨cache, rest, decoded, rfl⟩⟩
  | unknown other =>
      refine ⟨raw.payload, ?_⟩
      rcases other with version | ⟨engine, lists, cache⟩
      · rw [if_pos version]
        rfl
      · rw [if_neg engine, if_neg lists, if_neg cache, ite_self]
        rfl

/-- A section is not nothing, since it has a header. -/
theorem encode_append_ne_nil (raw : RawSection) (rest : Bytes)
    : raw.encode ++ rest ≠ [] := by
  intro empty
  have none := congrArg List.length empty
  simp [encode, length_header, Header.size] at none

/-- A section is read as its payload says, whatever stands behind it. -/
theorem readSections_encode (raw : RawSection) (rest : Bytes) (found : Array Section)
    : readSections (raw.encode ++ rest) found
      = if raw.header.tag = Tag.lists ∧ listsLengthLimit < raw.header.length then
          (found, .error (.corrupt .largeLists))
        else
          match (Section.decode raw.header).run raw.payload with
          | .error error _ => (found, .error error)
          | .ok read _ => readSections rest (found ++ read.toList) := by
  have laid : raw.encode ++ rest = raw.header.encode ++ (raw.payload ++ rest) := by
    rw [encode, List.append_assoc]
  have front : (raw.encode ++ rest).take Header.size = raw.header.encode := by
    rw [laid, List.take_left' (length_header _)]
  have behind : (raw.encode ++ rest).drop Header.size = raw.payload ++ rest := by
    rw [laid, List.drop_left' (length_header _)]
  have decoded : Header.decode.run raw.header.encode = .ok raw.header [] :=
    header_inverts.mpr ⟨trivial, by simp⟩
  have nonempty := raw.encode_append_ne_nil rest
  have exactly_payload : (raw.payload ++ rest).take raw.header.length.toNat = raw.payload :=
    List.take_left' raw.complete
  have exactly_rest : (raw.payload ++ rest).drop raw.header.length.toNat = rest :=
    List.drop_left' raw.complete
  have continued := readSections.eq_1 (raw.encode ++ rest) found
  rw [if_neg nonempty, front, decoded] at continued
  simp only [behind, exactly_payload, exactly_rest, raw.complete, Nat.lt_irrefl, if_false]
    at continued
  exact continued

/-- The limit on the length of sections of lists, as the reader tests it. -/
theorem isShort_iff (raw : RawSection)
    : raw.IsShort ↔ ¬(raw.header.tag = Tag.lists ∧ listsLengthLimit < raw.header.length) := by
  have limit : listsLengthLimit.toNat = 64 * 1024 * 1024 := rfl
  rw [IsShort, not_and, UInt64.lt_iff_toNat_lt, limit]
  simp only [Nat.not_lt]

end RawSection

/-- A reader that refuses on a condition and reads on otherwise succeeds only where it reads on. -/
theorem refuse_run_ok_iff {α β : Type} {condition : Prop} [Decidable condition] {failure : Error}
    {skipped : α → Reader β} {next : Reader β} {bytes rest : Bytes} {value : β}
    : (if condition then throw failure >>= skipped else next).run bytes = .ok value rest
      ↔ ¬condition ∧ next.run bytes = .ok value rest := by
  split
  · next refused =>
    refine ⟨fun accepted => ?_, fun holds => absurd refused holds.1⟩
    obtain ⟨_, _, thrown, -⟩ := bind_run_ok_iff.mp accepted
    exact (throw_run_ne_ok thrown).elim
  · next free => simp [free]

/-- The file header is the magic, the version, the byte order, and a reserved byte and flags that
may be anything.
-/
theorem readFileHeader_run_ok_iff {bytes rest : Bytes}
    : readFileHeader.run bytes = .ok () rest
      ↔ ∃ reserved flags, bytes = magic ++ Encoding.uint16 1 ++ Encoding.uint8 1
          ++ Encoding.uint8 reserved ++ Encoding.uint32 flags ++ rest := by
  simp only [readFileHeader, bind_run_ok_iff, refuse_run_ok_iff, take_run_ok_iff,
    uint16_run_ok_iff, uint8_run_ok_iff, uint32_run_ok_iff, pure_run_ok_iff, ne_eq,
    Decidable.not_not, List.append_assoc]
  constructor
  · intro holds
    obtain ⟨_, _, ⟨rfl, -⟩, rfl, _, _, rfl, rfl, _, _, rfl, rfl, reserved, _, rfl, flags, _, rfl,
      -, rfl⟩ := holds
    exact ⟨reserved, flags, rfl⟩
  · intro holds
    obtain ⟨reserved, flags, rfl⟩ := holds
    exact ⟨_, _, ⟨rfl, rfl⟩, rfl, _, _, rfl, rfl, _, _, rfl, rfl, reserved, _, rfl, flags, _, rfl,
      trivial, rfl⟩

-----------------------------------------------------------------------------------------
-- Sections in a row
-----------------------------------------------------------------------------------------

/-- Bytes that are sections one after the other, and what the sections hold in order. -/
inductive Concatenates : Bytes → List Section → Prop
  | nil : Concatenates [] []
  | cons (raw : RawSection) {read : Option Section} {rest : Bytes} {contents : List Section}
    (short : raw.IsShort) (holds : raw.Holds read) (others : Concatenates rest contents)
    : Concatenates (raw.encode ++ rest) (read.toList ++ contents)

/-- Sections are handed on behind those found before. -/
theorem append_append (found : Array Section) (earlier later : List Section)
    : found ++ earlier ++ later = found ++ (earlier ++ later) :=
  Array.ext' (by simp)

/-- Sections in a row are read to the end of the bytes, by induction on them. -/
theorem Concatenates.readSections {bytes : Bytes} {contents : List Section}
    (concatenates : Concatenates bytes contents) (found : Array Section)
    : readSections bytes found = (found ++ contents, .ok ()) := by
  induction concatenates generalizing found with
  | nil => rw [Snapshot.readSections, if_pos rfl, Array.appendList_nil]
  | cons raw short holds _ ih =>
      obtain ⟨left, decoded⟩ := raw.decode_of_holds holds
      rw [raw.readSections_encode, if_neg (raw.isShort_iff.mp short), decoded]
      dsimp only
      rw [ih, append_append]

/-- Bytes that begin with a header and hold as many bytes behind it as it says begin with a section.
-/
theorem eq_encode_append {bytes left : Bytes} {header : Header}
    (decoded : Header.decode.run (bytes.take Header.size) = .ok header left)
    (full : ¬((bytes.drop Header.size).take header.length.toNat).length < header.length.toNat)
    : ∃ complete, bytes
        = RawSection.encode ⟨header, (bytes.drop Header.size).take header.length.toNat, complete⟩
          ++ (bytes.drop Header.size).drop header.length.toNat := by
  obtain ⟨-, front⟩ := header_inverts.mp decoded
  have lengths := congrArg List.length front
  have short := List.length_take_le Header.size bytes
  rw [List.length_append, length_header] at lengths
  -- A header takes as many bytes as it is given, so none of these is left.
  have nothing : left = [] := List.length_eq_zero_iff.mp (by omega)
  rw [nothing, List.append_nil] at front
  refine ⟨Nat.le_antisymm (List.length_take_le _ _) (Nat.not_lt.mp full), ?_⟩
  rw [RawSection.encode, List.append_assoc, List.take_append_drop, ← front, List.take_append_drop]

/-- Bytes that are read to their end are sections in a row, by induction on the reading. -/
theorem concatenates_of_readSections {bytes : Bytes} {found after : Array Section}
    (read : readSections bytes found = (after, .ok ()))
    : ∃ contents, Concatenates bytes contents ∧ after = found ++ contents := by
  fun_induction readSections bytes found with
  | case1 => exact ⟨[], .nil, by simpa using (Prod.mk.inj read).1.symm⟩
  | case2 | case3 | case4 | case5 => cases (Prod.mk.inj read).2
  | case6 bytes found _ header _ headed large rest payload held _ decoded _ full ih =>
      obtain ⟨others, concatenates, rfl⟩ := ih read
      obtain ⟨complete, same⟩ := eq_encode_append headed full
      let raw : RawSection := ⟨header, payload, complete⟩
      have concatenates : Concatenates (raw.encode ++ rest.drop header.length.toNat)
          (held.toList ++ others) :=
        .cons raw (raw.isShort_iff.mpr large) (RawSection.holds_of_decode decoded) concatenates
      exact ⟨_, same ▸ concatenates, append_append ..⟩

/-- Sections in a row that are not nothing begin with a section. -/
theorem Concatenates.exists_first {bytes : Bytes} {contents : List Section}
    (concatenates : Concatenates bytes contents) (nonempty : bytes ≠ [])
    : ∃ (raw : RawSection) (read : Option Section) (rest : Bytes) (others : List Section),
        bytes = raw.encode ++ rest ∧ raw.Holds read ∧ Concatenates rest others
        ∧ contents = read.toList ++ others := by
  cases concatenates with
  | nil => exact absurd rfl nonempty
  | cons raw _ holds others => exact ⟨raw, _, _, _, rfl, holds, others, rfl⟩

/-- Sections in a row that begin with a header begin with a section that has it. The payload is as
long as the header says, whatever was meant to be the payload.
-/
theorem Concatenates.of_header {header : Header} {bytes : Bytes} {contents : List Section}
    (concatenates : Concatenates (header.encode ++ bytes) contents)
    : ∃ (raw : RawSection) (read : Option Section) (rest : Bytes) (others : List Section),
        raw.header = header ∧ bytes = raw.payload ++ rest ∧ raw.Holds read
        ∧ Concatenates rest others ∧ contents = read.toList ++ others := by
  have nonempty : header.encode ++ bytes ≠ [] := by
    intro empty
    have none := congrArg List.length empty
    simp [length_header, Header.size] at none
  obtain ⟨raw, read, rest, others, same, holds, behind, found⟩ :=
    concatenates.exists_first nonempty
  rw [RawSection.encode, List.append_assoc] at same
  obtain ⟨headers, payload⟩ := header_inverts.prefixFree trivial trivial same
  exact ⟨raw, read, rest, others, headers.symm, payload, holds, behind, found⟩

/-- Sections are told apart: the header says how much of the bytes behind it is the payload. -/
theorem RawSection.prefixFree
    : PrefixFree RawSection.encode fun _ => True := by
  intro raw other bytes rest _ _ same
  rw [encode, encode, List.append_assoc, List.append_assoc] at same
  obtain ⟨headers, behind⟩ := header_inverts.prefixFree trivial trivial same
  have lengths : raw.payload.length = other.payload.length := by
    rw [raw.complete, other.complete, headers]
  obtain ⟨payloads, rests⟩ := List.append_inj behind lengths
  cases raw
  cases other
  exact ⟨by rw [RawSection.mk.injEq]; exact ⟨headers, payloads⟩, rests⟩

/-- Sections in a row that begin with a section hold what it holds, and then what the others hold.
-/
theorem Concatenates.of_encode (raw : RawSection) {rest : Bytes} {contents : List Section}
    (concatenates : Concatenates (raw.encode ++ rest) contents)
    : ∃ read others, raw.Holds read ∧ Concatenates rest others
        ∧ contents = read.toList ++ others := by
  have nonempty : raw.encode ++ rest ≠ [] := raw.encode_append_ne_nil rest
  obtain ⟨first, read, behind, others, same, holds, concatenates, found⟩ :=
    concatenates.exists_first nonempty
  obtain ⟨rfl, rfl⟩ := RawSection.prefixFree trivial trivial same
  exact ⟨read, others, holds, concatenates, found⟩

-----------------------------------------------------------------------------------------
-- Snapshots
-----------------------------------------------------------------------------------------

/-- Bytes that are the header of a snapshot and then sections in a row, and what the sections hold.
-/
def Spells (bytes : Bytes) (contents : List Section)
    : Prop :=
  ∃ reserved flags sections,
    bytes = magic ++ Encoding.uint16 1 ++ Encoding.uint8 1 ++ Encoding.uint8 reserved
      ++ Encoding.uint32 flags ++ sections
    ∧ Concatenates sections contents

/-- Bytes spell what is read behind their file header. -/
theorem spells_iff {bytes : Bytes} {contents : List Section}
    : Spells bytes contents
      ↔ ∃ rest, readFileHeader.run bytes = .ok () rest
          ∧ readSections rest #[] = (contents.toArray, .ok ()) := by
  constructor
  · intro spells
    obtain ⟨reserved, flags, sections, same, concatenates⟩ := spells
    refine ⟨sections, readFileHeader_run_ok_iff.mpr ⟨reserved, flags, same⟩, ?_⟩
    simpa using concatenates.readSections #[]
  · intro holds
    obtain ⟨rest, headed, read⟩ := holds
    obtain ⟨reserved, flags, same⟩ := readFileHeader_run_ok_iff.mp headed
    obtain ⟨others, concatenates, found⟩ := concatenates_of_readSections read
    have equal : contents = others := by simpa using found
    exact ⟨reserved, flags, rest, same, equal ▸ concatenates⟩

/-- Bytes spell one thing only, since reading them gives one thing only. -/
theorem Spells.unique {bytes : Bytes} {contents others : List Section}
    (spells : Spells bytes contents) (again : Spells bytes others)
    : others = contents := by
  obtain ⟨rest, headed, read⟩ := spells_iff.mp spells
  obtain ⟨_, headed', read'⟩ := spells_iff.mp again
  rw [headed] at headed'
  cases headed'
  rw [read] at read'
  simpa using (Prod.mk.inj read').1.symm

/-- What is handed on of a snapshot: what its sections hold, and an empty cache where none holds
one.
-/
def withCache (contents : List Section)
    : List Section :=
  if contents.any Section.isCache then contents else contents ++ [.cache .blank]

/-- A reader takes exactly the snapshots in which some section holds an engine record and some
section holds lists.
-/
theorem read_eq_ok_iff {bytes : Bytes} {sections : List Section}
    : read bytes = ⟨sections, .ok ()⟩
      ↔ ∃ contents, Spells bytes contents ∧ contents.any Section.isEngine
          ∧ contents.any Section.isLists ∧ sections = withCache contents := by
  simp only [spells_iff, read, withCache]
  constructor
  · intro succeeded
    split at succeeded
    · cases succeeded
    · next headed =>
      split at succeeded
      · cases succeeded
      · next found _ ended =>
        split at succeeded
        · cases succeeded
        · next engine =>
          split at succeeded
          · cases succeeded
          · next lists =>
            refine ⟨found.toList, ⟨_, headed, by simpa using ended⟩, Decidable.not_not.mp engine,
              Decidable.not_not.mp lists, ?_⟩
            split at succeeded
            · next cached =>
              cases succeeded
              rw [if_pos cached]
            · next uncached =>
              cases succeeded
              rw [if_neg uncached]
  · intro holds
    obtain ⟨contents, ⟨rest, headed, ended⟩, engine, lists, rfl⟩ := holds
    rw [headed]
    dsimp only
    rw [ended]
    dsimp only
    rw [if_neg (Decidable.not_not.mpr engine), if_neg (Decidable.not_not.mpr lists)]
    split <;> rfl

end GraphicsEngine.Snapshot
