import GraphicsEngine.Proofs.Engine.Loading
import GraphicsEngine.Proofs.Engine.Restorability
import GraphicsEngine.Proofs.Engine.Transparency

/-! Every snapshot that can be loaded has a normal form: the snapshot that is saved right after. It
is reached in one step, means the same to every engine, and is its own normal form.
-/

namespace GraphicsEngine

-----------------------------------------------------------------------------------------
-- What is read is within the limits
-----------------------------------------------------------------------------------------

namespace Snapshot

/-- What a section holds is no more than a reader takes. -/
def Section.WithinLimits
    : Section → Prop
  | engine record => record.pending.length ≤ interruptLimit
  | lists records =>
      records.length ≤ listLimit ∧ ∀ record ∈ records, record.stack.length ≤ stackLimit
  | cache _ => True

/-- A section holds no more than a reader takes, case by case. -/
theorem RawSection.Holds.withinLimits {raw : RawSection} {read : Option Section}
    (holds : raw.Holds read)
    : ∀ held ∈ read.toList, held.WithinLimits := by
  cases holds with
  | engine _ _ _ _ few => exact List.forall_mem_singleton.mpr few
  | lists _ _ _ _ few shallow => exact List.forall_mem_singleton.mpr ⟨few, shallow⟩
  | cache => exact List.forall_mem_singleton.mpr trivial
  | unknown => exact List.forall_mem_nil _

/-- Sections in a row hold no more than a reader takes, by induction on them. -/
theorem Concatenates.withinLimits {bytes : Bytes} {contents : List Section}
    (concatenates : Concatenates bytes contents)
    : ∀ held ∈ contents, held.WithinLimits := by
  induction concatenates with
  | nil => exact List.forall_mem_nil _
  | cons _ _ holds _ ih => exact List.forall_mem_append.mpr ⟨holds.withinLimits, ih⟩

/-- The last section of a kind is one of the sections. -/
theorem mem_of_last? {α : Type} {kind : Section → Option α} {sections : List Section} {held : α}
    (last : last? kind sections = some held)
    : ∃ contents ∈ sections, kind contents = some held :=
  List.mem_filterMap.mp (List.mem_of_getLast? last)

/-- The records that an engine takes on are within the limits, wherever they come from. -/
theorem Spells.withinLimits {bytes : Bytes} {contents : List Section}
    {record : EngineRecord} {lists : List ListRecord} (spells : Spells bytes contents)
    (engine : last? Section.engine? contents = some record)
    (last : last? Section.lists? contents = some lists) (cache : CommandCache)
    : Contents.WithinLimits ⟨record, lists, cache⟩ := by
  obtain ⟨_, _, _, -, concatenates⟩ := spells
  obtain ⟨held, member, same⟩ := mem_of_last? engine
  obtain ⟨held', member', same'⟩ := mem_of_last? last
  have within := concatenates.withinLimits held member
  have within' := concatenates.withinLimits held' member'
  cases held <;> cases same
  cases held' <;> cases same'
  exact ⟨within, within'.1, within'.2⟩

end Snapshot

namespace Engine

open Snapshot

variable {engine source : Engine} {bytes : Bytes} {outcome : Outcome Unit}

-----------------------------------------------------------------------------------------
-- Normal forms
-----------------------------------------------------------------------------------------

/-- An engine that has loaded a snapshot is restorable, whatever the snapshot was: all that would
stand in the way has been refused.
-/
theorem load_restorable (loaded : engine.load bytes = .ok outcome)
    : outcome.engine.Restorable := by
  have sound := load_sound loaded
  have numbered := load_numbered loaded
  obtain ⟨_, examined, rfl⟩ := load_eq_ok_iff.mp loaded
  obtain ⟨_, record, _, queue, spells, last, lists, -, described, rfl⟩ :=
    examine_eq_ok_iff_spells.mp examined
  obtain ⟨⟨rfl, -⟩, -⟩ := queueOfRecords_nil_eq_ok_iff.mp described
  have within := spells.withinLimits last lists .blank
  exact {
    within := ⟨by simpa [capture, adopt] using within.pending, within.lists, within.shallow⟩
    lists := sound.lists
    nextId := sound.nextId
    distinct := numbered.distinct
    given := numbered.given
  }

/-- An engine whose snapshot can be loaded is sound if its current list is in its queue. -/
theorem Restorable.sound (restorable : source.Restorable)
    (queued : ∀ id ∈ source.current, id ∈ Queue.ids source.queue)
    : source.Sound :=
  ⟨restorable.lists, queued, restorable.nextId⟩

/-- What is saved right after a snapshot was loaded can be loaded by every engine, makes of it what
the snapshot itself would have made of it, and is saved again byte for byte. A snapshot that an
engine has saved whose current list, if any, was in its queue is saved again as it is.
-/
theorem load_save_canonical (loaded : engine.load bytes = .ok outcome)
    : ∃ saved, outcome.engine.save = .ok saved
        ∧ (∀ other : Engine, ∃ first again,
            other.load bytes = .ok first
            ∧ other.load saved = .ok again
            ∧ again.engine = first.engine
            ∧ again.engine.save = .ok saved)
        ∧ ∀ source : Engine, source.save = .ok bytes
          → (∀ id ∈ source.current, id ∈ Queue.ids source.queue)
          → saved = bytes := by
  have restorable := load_restorable loaded
  have saved := restorable.save
  refine ⟨_, saved, fun other => ?_, fun source savedBefore queued => ?_⟩
  · have again : other.load _ = .ok _ := (load_saved_eq_ok_iff saved).mpr ⟨restorable, rfl⟩
    have restored := load_of_save (load_sound loaded) saved again
    obtain ⟨restoration, examined, rfl⟩ := load_eq_ok_iff.mp loaded
    have first : other.load bytes = .ok _ := load_eq_ok_iff.mpr ⟨restoration, examined, rfl⟩
    refine ⟨_, _, first, again, restored, ?_⟩
    rw [restored]
    exact saved
  · obtain ⟨restorableBefore, -⟩ := (load_saved_eq_ok_iff savedBefore).mp loaded
    have restored := load_of_save (restorableBefore.sound queued) savedBefore loaded
    -- What is saved does not depend on the configuration and the counters.
    have same : outcome.engine.save = source.save := by
      rw [restored]
      rfl
    rw [savedBefore, saved] at same
    exact Except.ok.inj same

/-- A snapshot without a cache and without lists, whose engine record names a current list all the
same. Something unknown stands in front of the record, and a byte behind the count of the lists.
-/
def orphaned : RawSnapshot where
  reserved := 1
  flags := 2
  sections :=
    [⟨⟨88, 1, 0, 1⟩, [6], rfl⟩, ⟨⟨Tag.engine, 1, 4, 43⟩, waitingRecord.encode, rfl⟩,
      ⟨⟨Tag.lists, 1, 6, 5⟩, listsPayload [] ++ [3], rfl⟩]

/-- It can be loaded, and what is saved then is another snapshot, since it has a cache; what the
engine with a waiting list has saved is saved again as it is.
-/
theorem load_save_canonical_orphaned
    : (∃ outcome saved, (initial {}).load orphaned.encode = .ok outcome
        ∧ outcome.engine.save = .ok saved
        ∧ saved ≠ orphaned.encode
        ∧ ∃ first again,
            waiting.load orphaned.encode = .ok first
            ∧ waiting.load saved = .ok again
            ∧ again.engine = first.engine
            ∧ again.engine.save = .ok saved)
      ∧ ∃ bytes outcome, waiting.save = .ok bytes
          ∧ (initial {}).load bytes = .ok outcome
          ∧ outcome.engine.save = .ok bytes := by
  have concatenates : Concatenates (orphaned.sections.flatMap RawSection.encode)
      [.engine waitingRecord, .lists []] := by
    refine .cons ⟨⟨88, 1, 0, 1⟩, [6], rfl⟩ (fun _ => by decide)
      (.unknown (.inr (by decide))) ?_
    refine .cons ⟨⟨Tag.engine, 1, 4, 43⟩, waitingRecord.encode, rfl⟩ (fun _ => by decide)
      (.engine waitingRecord [] rfl rfl (by decide) rfl) ?_
    exact .cons ⟨⟨Tag.lists, 1, 6, 5⟩, listsPayload [] ++ [3], rfl⟩ (fun _ => by decide)
      (.lists [] [3] rfl rfl (by decide) (List.forall_mem_nil _) rfl) .nil
  have examined : examine orphaned.encode = .ok ⟨waitingRecord, [], .blank⟩ :=
    examine_eq_ok_iff_spells.mpr
      ⟨_, waitingRecord, [], [], ⟨1, 2, _, rfl, concatenates⟩, rfl, rfl, by decide, rfl, rfl⟩
  have loaded : (initial {}).load orphaned.encode = .ok _ :=
    load_eq_ok_iff.mpr ⟨_, examined, rfl⟩
  obtain ⟨saved, save, reloads, -⟩ := load_save_canonical loaded
  obtain ⟨bytes, outcome, saved', loaded'⟩ := waiting_restorable (initial {})
  obtain ⟨again, save', -, kept⟩ := load_save_canonical loaded'
  have same := kept waiting saved' waiting_reachable.sound.current
  refine ⟨⟨_, saved, loaded, save, ?_, reloads waiting⟩, bytes, outcome, saved', loaded',
    same ▸ save'⟩
  rintro rfl
  obtain ⟨-, same⟩ := save_eq_ok_iff.mp save
  have long (contents : Contents) : 1024 ≤ (layout contents).length := by
    simp only [layout, sectionLayout, List.length_append, length_cache]
    omega
  exact absurd (same ▸ long _) (show ¬1024 ≤ orphaned.encode.length by decide)

end Engine

end GraphicsEngine
