import GraphicsEngine.Proofs.Engine.Soundness
import GraphicsEngine.Proofs.Snapshot.RoundTrip

/-! Loading what an engine has saved: exactly which snapshots of sound engines are taken on, and
what the loading engine then is.
-/

namespace GraphicsEngine

-----------------------------------------------------------------------------------------
-- Lists
-----------------------------------------------------------------------------------------

/-- A sound list is the list that its record describes: it has none of the faults. -/
theorem DisplayList.ofRecord_toRecord {list : DisplayList} (sound : list.Sound)
    : ofRecord list.toRecord = .ok list := by
  have shallow : ¬stackCapacity < list.stack.reverse.length := by
    simpa using sound.shallow
  have masked : ¬¬(list.start.IsMasked ∧ list.pc.IsMasked ∧ list.stall.IsMasked
      ∧ list.stack.reverse.all (·.IsMasked)) :=
    Decidable.not_not.mpr ⟨sound.start, sound.pc, sound.stall, by simpa using sound.stack⟩
  simp only [ofRecord, toRecord, ListState.ofCode?_code, if_neg sound.id, if_neg shallow,
    if_neg masked, if_neg sound.channel, List.reverse_reverse]

/-- Records describe the sound lists that have them. -/
theorem DisplayList.ofRecord_eq_ok_iff {record : Snapshot.ListRecord} {list : DisplayList}
    : ofRecord record = .ok list ↔ list.Sound ∧ list.toRecord = record := by
  constructor
  · exact fun described => ⟨ofRecord_sound described, toRecord_of_ofRecord described⟩
  · intro holds
    obtain ⟨sound, rfl⟩ := holds
    exact ofRecord_toRecord sound

/-- Records keep the numbers of lists. -/
theorem DisplayList.map_id_toRecord (queue : Queue)
    : (queue.map toRecord).map (·.id) = Queue.ids queue := by
  rw [List.map_map]
  rfl

namespace Snapshot

/-- Records describe just the sound lists that have them, one by one. -/
theorem forall₂_ofRecord_iff {records : List ListRecord} {queue : Queue}
    : List.Forall₂ (fun record list => DisplayList.ofRecord record = .ok list) records queue
      ↔ queue.map DisplayList.toRecord = records ∧ ∀ list ∈ queue, list.Sound := by
  simp only [DisplayList.ofRecord_eq_ok_iff]
  constructor
  · intro each
    induction each with
    | nil => simp
    | cons first _ ih =>
        obtain ⟨sound, rfl⟩ := first
        obtain ⟨rfl, others⟩ := ih
        exact ⟨rfl, List.forall_mem_cons.mpr ⟨sound, others⟩⟩
  · intro holds
    obtain ⟨rfl, sound⟩ := holds
    exact List.forall₂_map_left_iff.mpr
      (List.forall₂_same.mpr fun list member => ⟨sound list member, rfl⟩)

/-- Records describe a queue of sound lists that has them, if every list has a number of its own
that was given out before the next one.
-/
theorem queueOfRecords_nil_eq_ok_iff {nextId : ListId} {records : List ListRecord} {queue : Queue}
    : queueOfRecords nextId [] records = .ok queue
      ↔ (queue.map DisplayList.toRecord = records ∧ ∀ list ∈ queue, list.Sound)
        ∧ (records.map (·.id)).Nodup ∧ ∀ id ∈ records.map (·.id), id < nextId := by
  rw [queueOfRecords_eq_ok_iff, forall₂_ofRecord_iff]
  refine and_congr_right fun holds => ?_
  obtain ⟨rfl, -⟩ := holds
  rw [DisplayList.map_id_toRecord]
  simp

/-- The records of a queue describe exactly that queue, if its lists are sound and every one has a
number of its own that was given out before the next one.
-/
theorem queueOfRecords_toRecord_eq_ok_iff {nextId : ListId} {queue found : Queue}
    : queueOfRecords nextId [] (queue.map DisplayList.toRecord) = .ok found
      ↔ (found = queue ∧ ∀ list ∈ queue, list.Sound)
        ∧ (Queue.ids queue).Nodup ∧ ∀ id ∈ Queue.ids queue, id < nextId := by
  have same : (found.map DisplayList.toRecord = queue.map DisplayList.toRecord
      ∧ ∀ list ∈ found, list.Sound) ↔ found = queue ∧ ∀ list ∈ queue, list.Sound := by
    rw [(List.map_injective_iff.mpr DisplayList.toRecord_injective).eq_iff]
    exact and_congr_right fun same => same ▸ Iff.rfl
  rw [queueOfRecords_nil_eq_ok_iff, same, DisplayList.map_id_toRecord]

end Snapshot

-----------------------------------------------------------------------------------------
-- Engines
-----------------------------------------------------------------------------------------

namespace Engine

variable {engine other : Engine} {bytes : Bytes} {outcome : Outcome Unit}

/-- The current list of a sound engine is found again among its lists. -/
theorem Sound.resolveCurrent (sound : engine.Sound)
    : resolveCurrent engine.queue (engine.current.getD 0) = engine.current := by
  cases current : engine.current with
  | none => simp [Engine.resolveCurrent]
  | some id =>
      have member := sound.current id current
      have given : id ≠ 0 := by
        obtain ⟨list, listed, rfl⟩ := List.mem_map.mp member
        exact (sound.lists list listed).id
      have found := (Queue.position?_isSome engine.queue id).mpr member
      simp [Engine.resolveCurrent, given, found]

/-- The stacks of sound lists are no more than a reader takes. -/
theorem Sound.shallow (sound : engine.Sound)
    : ∀ record ∈ engine.capture.lists, record.stack.length ≤ Snapshot.stackLimit := by
  intro record member
  obtain ⟨list, listed, rfl⟩ := List.mem_map.mp member
  have shallow := (sound.lists list listed).shallow
  rw [DisplayList.stackCapacity] at shallow
  simp only [DisplayList.toRecord, List.length_reverse, Snapshot.stackLimit]
  omega

/-- A layout within the limits is examined as its contents are. -/
theorem examine_layout {contents : Snapshot.Contents} (within : contents.WithinLimits)
    : examine (Snapshot.layout contents)
      = Snapshot.Staged.check ⟨some contents.engine, contents.lists, contents.cache⟩ := by
  rw [examine, Snapshot.read_layout within]
  rfl

/-- What it takes for an engine to be loaded from what it has saved: it is no more than a reader
takes, its lists are sound, and every list has a number of its own that was given out before the
next one.
-/
structure Restorable (engine : Engine)
    : Prop where
  within : engine.capture.WithinLimits
  lists : ∀ list ∈ engine.queue, list.Sound
  nextId : engine.nextId ≠ 0
  distinct : (Queue.ids engine.queue).Nodup
  given : ∀ id ∈ Queue.ids engine.queue, id < engine.nextId

/-- What a restorable engine gives is the layout of what it consists of. -/
theorem Restorable.save (restorable : engine.Restorable)
    : engine.save = .ok (Snapshot.layout engine.capture) :=
  Snapshot.save_eq_ok_iff.mpr ⟨⟨restorable.within.countable, fun _ none => nomatch none⟩, rfl⟩

/-- The records of a restorable engine describe its queue. -/
theorem Restorable.queueOfRecords (restorable : engine.Restorable)
    : Snapshot.queueOfRecords engine.nextId [] engine.capture.lists = .ok engine.queue :=
  Snapshot.queueOfRecords_toRecord_eq_ok_iff.mpr
    ⟨⟨rfl, restorable.lists⟩, restorable.distinct, restorable.given⟩

/-- What an engine has saved is examined successfully exactly if the engine is restorable. Then
nothing is lost.
-/
theorem examine_eq_ok_iff (saved : engine.save = .ok bytes) {restoration : Snapshot.Restoration}
    : examine bytes = .ok restoration
      ↔ engine.Restorable ∧ restoration = ⟨engine.capture.engine, engine.queue, engine.cache⟩ := by
  obtain ⟨⟨countable, -⟩, rfl⟩ := Snapshot.save_eq_ok_iff.mp saved
  constructor
  · intro examined
    have readable : (Snapshot.read (Snapshot.layout engine.capture)).outcome = .ok () := by
      cases outcome : (Snapshot.read (Snapshot.layout engine.capture)).outcome with
      | error failure =>
          simp only [examine, outcome] at examined
          cases examined
      | ok _ => rfl
    have within := Snapshot.withinLimits_of_read countable readable
    rw [examine_layout within] at examined
    obtain ⟨_, queue, staged, nextId, accepted, rfl⟩ :=
      Snapshot.Staged.check_eq_ok_iff.mp examined
    cases staged
    obtain ⟨⟨rfl, lists⟩, distinct, given⟩ :=
      Snapshot.queueOfRecords_toRecord_eq_ok_iff.mp accepted
    exact ⟨⟨within, lists, nextId, distinct, given⟩, rfl⟩
  · intro holds
    obtain ⟨restorable, rfl⟩ := holds
    rw [examine_layout restorable.within]
    exact Snapshot.Staged.check_eq_ok_iff.mpr
      ⟨_, engine.queue, rfl, restorable.nextId, restorable.queueOfRecords, rfl⟩

/-- What an engine has saved is loaded by every engine if the engine is restorable, and by none
otherwise.
-/
theorem load_saved_eq_ok_iff (saved : engine.save = .ok bytes)
    : other.load bytes = .ok outcome
      ↔ engine.Restorable
        ∧ outcome =
          ⟨(), other.adopt ⟨engine.capture.engine, engine.queue, engine.cache⟩,
            adoptTrace ⟨engine.capture.engine, engine.queue, engine.cache⟩⟩ := by
  have examined {restoration : Snapshot.Restoration}
      : examine bytes = .ok restoration ↔ _ := examine_eq_ok_iff saved
  rw [load_eq_ok_iff]
  constructor
  · intro holds
    obtain ⟨_, accepted, rfl⟩ := holds
    obtain ⟨restorable, rfl⟩ := examined.mp accepted
    exact ⟨restorable, rfl⟩
  · intro holds
    obtain ⟨restorable, rfl⟩ := holds
    exact ⟨_, examined.mpr ⟨restorable, rfl⟩, rfl⟩

/-- A sound engine can be saved and the bytes be loaded exactly when it is within the limits of a
reader and every list has a number of its own that was given out before the next one.
-/
theorem restorable_iff (sound : engine.Sound)
    : (∃ bytes outcome, engine.save = .ok bytes ∧ other.load bytes = .ok outcome)
      ↔ engine.capture.WithinLimits
        ∧ (Queue.ids engine.queue).Nodup ∧ ∀ id ∈ Queue.ids engine.queue, id < engine.nextId := by
  constructor
  · intro holds
    obtain ⟨bytes, outcome, saved, loaded⟩ := holds
    obtain ⟨restorable, -⟩ := (load_saved_eq_ok_iff saved).mp loaded
    exact ⟨restorable.within, restorable.distinct, restorable.given⟩
  · intro holds
    obtain ⟨within, distinct, given⟩ := holds
    have restorable : engine.Restorable := ⟨within, sound.lists, sound.nextId, distinct, given⟩
    exact ⟨_, _, restorable.save, (load_saved_eq_ok_iff restorable.save).mpr ⟨restorable, rfl⟩⟩

/-- An engine that loads what a sound engine has saved is that engine, but for its configuration
and its counters.
-/
theorem load_of_save (sound : engine.Sound) (saved : engine.save = .ok bytes)
    (loaded : other.load bytes = .ok outcome)
    : outcome.engine = { engine with config := other.config, stats := other.stats } := by
  obtain ⟨-, rfl⟩ := (load_saved_eq_ok_iff saved).mp loaded
  simp only [adopt, capture, sound.resolveCurrent, Array.toArray_toList]

end Engine

end GraphicsEngine
