import GraphicsEngine.Proofs.Snapshot.Grammar
import Mathlib.Data.List.Forall2

/-! Snapshots taken apart into a file header and sections. Where one section ends and the next one
begins can be told from the front of the bytes, so a snapshot that was cut off can be read on only
if the cut goes between two sections.
-/

namespace GraphicsEngine.Snapshot

-----------------------------------------------------------------------------------------
-- Sections in a row
-----------------------------------------------------------------------------------------

/-- A section that a reader takes, and what it then hands on. -/
def RawSection.Yields (raw : RawSection) (held : Section)
    : Prop :=
  raw.IsShort ∧ raw.Holds (some held)

/-- Sections that are taken one by one are taken in a row, by induction on them. -/
theorem concatenates_of_yields {sections : List RawSection} {contents : List Section}
    (each : List.Forall₂ RawSection.Yields sections contents)
    : Concatenates (sections.flatMap RawSection.encode) contents := by
  induction each with
  | nil => exact .nil
  | cons first _ ih =>
      obtain ⟨short, holds⟩ := first
      exact .cons _ short holds ih

/-- Sections in a row at the beginning of others are the first ones of these, by induction on them.
-/
theorem Concatenates.eq_take {torn rest : Bytes} {contents : List Section}
    (concatenates : Concatenates torn contents) {sections : List RawSection}
    (front : torn ++ rest = sections.flatMap RawSection.encode)
    : ∃ count, torn = (sections.take count).flatMap RawSection.encode := by
  induction concatenates generalizing sections with
  | nil => exact ⟨0, rfl⟩
  | cons raw _ _ _ ih =>
      rw [List.append_assoc] at front
      cases sections with
      | nil => exact absurd front (raw.encode_append_ne_nil _)
      | cons first others =>
          rw [List.flatMap_cons] at front
          obtain ⟨rfl, behind⟩ := RawSection.prefixFree trivial trivial front
          obtain ⟨count, rfl⟩ := ih behind
          exact ⟨count + 1, by rw [List.take_succ_cons, List.flatMap_cons]⟩

-----------------------------------------------------------------------------------------
-- Snapshots
-----------------------------------------------------------------------------------------

/-- What bytes that are laid out as a snapshot consist of: all that is free in the file header, and
complete sections.
-/
structure RawSnapshot where
  reserved : UInt8
  flags : UInt32
  sections : List RawSection

namespace RawSnapshot

def header (raw : RawSnapshot)
    : Bytes :=
  magic ++ Encoding.uint16 1 ++ Encoding.uint8 1 ++ Encoding.uint8 raw.reserved
    ++ Encoding.uint32 raw.flags

def encode (raw : RawSnapshot)
    : Bytes :=
  raw.header ++ raw.sections.flatMap RawSection.encode

variable {raw : RawSnapshot} {torn : Bytes} {held contents : List Section}

/-- Behind the file header stand the sections. -/
theorem readFileHeader_encode (raw : RawSnapshot)
    : readFileHeader.run raw.encode = .ok () (raw.sections.flatMap RawSection.encode) :=
  readFileHeader_run_ok_iff.mpr ⟨raw.reserved, raw.flags, rfl⟩

/-- A snapshot spells what its sections yield. -/
theorem spells_encode (each : List.Forall₂ RawSection.Yields raw.sections held)
    : Spells raw.encode held :=
  ⟨raw.reserved, raw.flags, _, rfl, concatenates_of_yields each⟩

/-- The snapshot with the first so many of the sections. -/
def truncate (raw : RawSnapshot) (count : Nat)
    : RawSnapshot :=
  { raw with sections := raw.sections.take count }

/-- Nothing is cut off where there are no more sections. -/
theorem truncate_of_length_le {count : Nat} (few : raw.sections.length ≤ count)
    : raw.truncate count = raw := by
  rw [truncate, List.take_of_length_le few]

/-- The beginning of a snapshot that is a snapshot itself ends where a section ends: file headers
are equally long, and behind them stand sections in a row.
-/
theorem eq_truncate_of_spells (front : torn <+: raw.encode) (spells : Spells torn contents)
    : ∃ count, torn = (raw.truncate count).encode := by
  obtain ⟨reserved, flags, sections, rfl, concatenates⟩ := spells
  obtain ⟨rest, same⟩ := front
  rw [List.append_assoc, encode] at same
  obtain ⟨headers, behind⟩ := List.append_inj same (by simp [header])
  obtain ⟨count, rfl⟩ := concatenates.eq_take behind
  exact ⟨count, congrArg (· ++ _) headers⟩

/-- The beginning of a snapshot that is a snapshot itself spells what the sections before the cut
yield.
-/
theorem take_of_spells (each : List.Forall₂ RawSection.Yields raw.sections held)
    (front : torn <+: raw.encode) (spells : Spells torn contents)
    : ∃ count, torn = (raw.truncate count).encode ∧ contents = held.take count := by
  obtain ⟨count, rfl⟩ := eq_truncate_of_spells front spells
  have some_of_them : Spells (raw.truncate count).encode (held.take count) :=
    spells_encode (List.forall₂_take count each)
  exact ⟨count, rfl, some_of_them.unique spells⟩

end RawSnapshot

end GraphicsEngine.Snapshot
