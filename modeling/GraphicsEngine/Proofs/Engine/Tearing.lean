import GraphicsEngine.Proofs.Engine.Loading
import GraphicsEngine.Proofs.Engine.Transparency

/-! Snapshots that were cut off while they were written. Wherever the cut is they are refused, but
for one place: right in front of the command cache, which a snapshot need not have.
-/

namespace GraphicsEngine

-----------------------------------------------------------------------------------------
-- Layouts that were cut off
-----------------------------------------------------------------------------------------

namespace Snapshot

variable {contents : Contents} {torn : Bytes} {held : List Section}

/-- A layout up to where the section of the cache begins. -/
def uncachedLayout (contents : Contents)
    : Bytes :=
  fileHeader ++ sectionLayout Tag.engine contents.engine.encode
    ++ sectionLayout Tag.lists (listsPayload contents.lists)

/-- The first two sections of a layout are all but the cache. -/
theorem encode_truncate_toRaw (within : contents.WithinLimits)
    : ((contents.toRaw within).truncate 2).encode = uncachedLayout contents := by
  have sections : ((contents.toRaw within).truncate 2).encode
      = fileHeader ++ (sectionLayout Tag.engine contents.engine.encode
        ++ (sectionLayout Tag.lists (listsPayload contents.lists) ++ [])) := rfl
  rw [sections, uncachedLayout, List.append_nil, List.append_assoc]

/-- Up to the cache a layout spells an engine record and lists. -/
theorem spells_uncachedLayout (within : contents.WithinLimits)
    : Spells (uncachedLayout contents) [.engine contents.engine, .lists contents.lists] :=
  encode_truncate_toRaw within ▸
    RawSnapshot.spells_encode (List.forall₂_take 2 (contents.yields_toRaw within))

/-- The beginning of a layout that spells an engine record and lists is the whole of it, or all but
the cache: a cut between two sections further in front leaves one of them out.
-/
theorem eq_of_spells_torn (within : contents.WithinLimits) (front : torn <+: layout contents)
    (spells : Spells torn held) (engine : held.any Section.isEngine)
    (lists : held.any Section.isLists)
    : torn = uncachedLayout contents ∨ torn = layout contents := by
  rw [← contents.encode_toRaw within] at front
  obtain ⟨count, rfl, rfl⟩ :=
    RawSnapshot.take_of_spells (contents.yields_toRaw within) front spells
  match count with
  | 0 => cases engine
  | 1 => cases lists
  | 2 => exact .inl (encode_truncate_toRaw within)
  | count + 3 =>
      have few : (contents.toRaw within).sections.length ≤ count + 3 := Nat.le_add_left 3 count
      rw [RawSnapshot.truncate_of_length_le few]
      exact .inr (contents.encode_toRaw within)

end Snapshot

-----------------------------------------------------------------------------------------
-- Engines
-----------------------------------------------------------------------------------------

namespace Engine

open Snapshot

variable {source loader : Engine} {bytes torn : Bytes} {whole outcome : Outcome Unit}

/-- Up to the cache, what a restorable engine has saved is examined successfully. -/
theorem Restorable.examine_uncachedLayout (restorable : source.Restorable)
    : examine (uncachedLayout source.capture)
      = .ok ⟨source.capture.engine, source.queue, .blank⟩ :=
  examine_eq_ok_iff_spells.mpr
    ⟨_, source.capture.engine, source.capture.lists, source.queue,
      spells_uncachedLayout restorable.within, rfl, rfl, restorable.nextId,
      restorable.queueOfRecords, rfl⟩

/-- The beginning of what a restorable engine has saved is loaded only if it is the whole of it, or
all but the cache.
-/
theorem Restorable.eq_of_load_torn (restorable : source.Restorable) {engine : Engine}
    (front : torn <+: layout source.capture) (loaded : engine.load torn = .ok outcome)
    : torn = uncachedLayout source.capture ∨ torn = layout source.capture := by
  obtain ⟨_, examined, -⟩ := load_eq_ok_iff.mp loaded
  obtain ⟨held, record, lists, _, spells, last, lastLists, -⟩ :=
    examine_eq_ok_iff_spells.mp examined
  have engine := (exists_last?_iff (fun held => held.isKind_eq.1) held).mp ⟨record, last⟩
  have lists := (exists_last?_iff (fun held => held.isKind_eq.2.1) held).mp ⟨lists, lastLists⟩
  exact eq_of_spells_torn restorable.within front spells engine lists

/-- Of what an engine has saved, if it can be loaded at all, no engine loads a beginning, and the
engine that tries stays as it is; but for the beginning that ends where the section of the cache
begins. That one is loaded as the whole would be, with an empty cache.
-/
theorem load_torn (saved : source.save = .ok bytes) (loaded : loader.load bytes = .ok whole)
    (engine : Engine)
    : ∃ uncached,
        bytes = uncached ++ sectionLayout Tag.cache source.cache.encode
        ∧ (∃ outcome complete,
            engine.load uncached = .ok outcome
            ∧ engine.load bytes = .ok complete
            ∧ outcome.engine = { complete.engine with cache := .blank }
            ∧ outcome.engine.registers = source.registers
            ∧ outcome.engine.interrupts = source.interrupts
            ∧ outcome.engine.queue = source.queue
            ∧ outcome.engine.nextId = source.nextId)
        ∧ ∀ torn, torn <+: bytes → torn ≠ bytes → torn ≠ uncached
          → ∃ error, engine.load torn = .error error
              ∧ ∀ host, (Operation.load torn).perform host engine
                  = some { answer := .unreadable error, engine, trace := #[] } := by
  obtain ⟨restorable, -⟩ := (load_saved_eq_ok_iff saved).mp loaded
  have complete : engine.load bytes = .ok _ := (load_saved_eq_ok_iff saved).mpr ⟨restorable, rfl⟩
  have uncached : engine.load (uncachedLayout source.capture) = .ok _ :=
    load_eq_ok_iff.mpr ⟨_, restorable.examine_uncachedLayout, rfl⟩
  obtain ⟨-, rfl⟩ := save_eq_ok_iff.mp saved
  refine ⟨uncachedLayout source.capture, rfl,
    ⟨_, _, uncached, complete, rfl, rfl, ?_, rfl, rfl⟩, fun torn front strict other => ?_⟩
  · simp only [adopt, capture, Array.toArray_toList]
  · cases outcome : engine.load torn with
    | error failure =>
        exact ⟨failure, rfl, fun host => by rw [Operation.perform, Operation.loadInto, outcome]⟩
    | ok _ =>
        rcases restorable.eq_of_load_torn front outcome with same | same
        · exact absurd same other
        · exact absurd same strict

/-- Without its last byte, what the engine with a waiting list has saved is refused; without its
cache it is loaded.
-/
theorem load_torn_waiting
    : ∃ bytes loading,
        waiting.save = .ok bytes ∧ (initial {}).load bytes = .ok loading
        ∧ (∃ error, (initial {}).load bytes.dropLast = .error error)
        ∧ ∃ uncached outcome,
            bytes = uncached ++ sectionLayout Tag.cache CommandCache.blank.encode
            ∧ (initial {}).load uncached = .ok outcome
            ∧ outcome.engine.queue = waiting.queue := by
  obtain ⟨bytes, loading, saved, loaded⟩ := waiting_restorable (initial {})
  obtain ⟨uncached, rfl, ⟨outcome, _, loadedUncached, -, -, -, -, queue, -⟩, refused⟩ :=
    load_torn saved loaded (initial {})
  have long : 1 < (sectionLayout Tag.cache waiting.cache.encode).length := by
    simp only [sectionLayout, List.length_append, length_cache]
    omega
  have shorter : (uncached ++ sectionLayout Tag.cache waiting.cache.encode).dropLast.length = _ :=
    List.length_dropLast
  rw [List.length_append] at shorter
  obtain ⟨error, failed, -⟩ := refused _ (List.dropLast_prefix _)
    (fun same => by
      have lengths := congrArg List.length same
      rw [List.length_append] at lengths
      omega)
    (fun same => by
      have lengths := congrArg List.length same
      omega)
  exact ⟨_, loading, saved, loaded, ⟨error, failed⟩, uncached, outcome, rfl, loadedUncached,
    queue⟩

end Engine

end GraphicsEngine
