import GraphicsEngine.Proofs.Engine.Restoration
import GraphicsEngine.Proofs.Engine.Waiting

/-! Which engines can be saved and restored. As long as new lists get new numbers, only the limits
of the reader on the number of lists and of waiting interrupts stand in the way.
-/

namespace GraphicsEngine

namespace Engine

-----------------------------------------------------------------------------------------
-- Numbers
-----------------------------------------------------------------------------------------

/-- Every list has a number of its own that was given out before the next one. -/
structure Numbered (engine : Engine)
    : Prop where
  distinct : (Queue.ids engine.queue).Nodup
  given : ∀ id ∈ Queue.ids engine.queue, id < engine.nextId

/-- The last number there is; behind it they begin anew. -/
def lastId : ListId := 0xFFFFFFFF

/-- The engines that operations lead to as long as no list takes the last number. -/
inductive ReachableInOrder (config : Config)
    : Engine → Prop
  | initial : ReachableInOrder config (.initial config)
  | perform {engine : Engine} {host : Host} {operation : Operation} {outcome : Outcome Answer}
    (reachable : ReachableInOrder config engine)
    (inOrder : operation.joining engine ≠ [] → engine.nextId ≠ lastId)
    (performed : operation.perform host engine = some outcome)
    : ReachableInOrder config outcome.engine

variable {engine ready other : Engine} {host : Host} {operation : Operation}
  {outcome : Outcome Answer} {before : Trace} {answer : Bool → Answer}

/-- Numbers in order are numbers all the same. -/
theorem ReachableInOrder.reachable {config : Config}
    (reachable : engine.ReachableInOrder config)
    : engine.Reachable config := by
  induction reachable with
  | initial => exact .initial
  | perform _ _ performed ih => exact .perform ih performed

/-- Unless a number is the last one, the number after it is larger. -/
theorem lt_followingId {id : ListId} (inOrder : id ≠ lastId)
    : id < followingId id := by
  have bound : id.toNat ≠ 4294967295 := fun same => inOrder (UInt32.toNat_inj.mp same)
  have size := id.toNat_lt
  have next : (id + 1).toNat = id.toNat + 1 := by
    rw [UInt32.toNat_add]
    simp only [UInt32.toNat_one]
    omega
  have given : id + 1 ≠ 0 := by
    intro zero
    simp [zero] at next
  rw [followingId, if_neg given, UInt32.lt_iff_toNat_lt, next]
  exact Nat.lt_succ_self _

/-- Lists that leave from the front leave the numbers of the others in order. -/
theorem Numbered.of_suffix (numbered : ready.Numbered)
    (suffix : Queue.ids engine.queue <:+ Queue.ids ready.queue)
    (nextId : engine.nextId = ready.nextId)
    : engine.Numbered where
  distinct := numbered.distinct.sublist suffix.sublist
  given id member := nextId ▸ numbered.given id (suffix.subset member)

/-- Running a queue leaves the numbers in order. -/
theorem Numbered.drainInto (numbered : engine.Numbered) {trace : Trace}
    {outcome : Outcome Bool} (drained : engine.drainInto host trace = some outcome)
    : outcome.engine.Numbered := by
  obtain ⟨final, seen, drains, settled, -⟩ := drainInto_eq_some_iff.mp drained
  rw [settled]
  exact numbered.of_suffix drains.ids_suffix drains.settings.2

/-- A list that joins gets a number of its own. -/
theorem Numbered.join (numbered : engine.Numbered) (inOrder : engine.nextId ≠ lastId)
    (list stall : Address) (channel : Int32) (head : Bool)
    : (engine.join list stall channel head).Numbered := by
  have own : engine.nextId ∉ Queue.ids engine.queue :=
    fun member => UInt32.lt_irrefl _ (numbered.given _ member)
  have behind : ∀ id ∈ engine.nextId :: Queue.ids engine.queue, id < followingId engine.nextId := by
    intro id member
    have next := lt_followingId inOrder
    rcases List.mem_cons.mp member with rfl | member
    · exact next
    · exact UInt32.lt_trans (numbered.given id member) next
  have ids : (Queue.ids (engine.join list stall channel head).queue).Perm
      (engine.nextId :: Queue.ids engine.queue) := by
    simp only [Engine.join]
    split
    · simp [DisplayList.fresh]
    · simp [DisplayList.fresh, List.perm_append_singleton]
  exact {
    distinct := ids.nodup_iff.mpr (List.nodup_cons.mpr ⟨own, numbered.distinct⟩)
    given := fun id member => behind id (ids.mem_iff.mp member)
  }

/-- What an operation makes ready has its numbers in order. -/
theorem Numbered.readied (numbered : engine.Numbered)
    (inOrder : operation.joining engine ≠ [] → engine.nextId ≠ lastId)
    (readies : operation.Readies engine ready before answer)
    : ready.Numbered := by
  cases readies with
  | enqueue list stall channel head =>
      exact numbered.join (inOrder (by simp [Operation.joining])) list stall channel head
  | moveStall id stall => exact ⟨by simpa using numbered.distinct, by simpa using numbered.given⟩
  | drain | endService => exact { numbered with }

/-- A restored engine has its numbers in order, wherever its snapshot comes from. -/
theorem load_numbered {bytes : Bytes} {outcome : Outcome Unit}
    (loaded : engine.load bytes = .ok outcome)
    : outcome.engine.Numbered := by
  obtain ⟨restoration, records, rfl, -, described⟩ := of_load loaded
  obtain ⟨-, distinct, given⟩ := Snapshot.queueOfRecords_eq_ok_iff.mp described
  exact ⟨distinct, fun id member => (given id member).2⟩

/-- An engine without lists has its numbers in order. -/
theorem initial_numbered (config : Config)
    : (initial config).Numbered :=
  ⟨List.nodup_nil, fun _ member => nomatch member⟩

/-- An operation leaves the numbers in order, unless a list takes the last one. -/
theorem Numbered.perform (numbered : engine.Numbered)
    (inOrder : operation.joining engine ≠ [] → engine.nextId ≠ lastId)
    (performs : operation.Performs host engine outcome)
    : outcome.engine.Numbered := by
  cases performs with
  | drains readies drained => exact (numbered.readied inOrder readies).drainInto drained
  | loads loaded => exact load_numbered loaded
  | resets => exact initial_numbered engine.config
  | serves | sets | rests => exact { numbered with }

/-- Reachable engines have their numbers in order, operation by operation. -/
theorem ReachableInOrder.numbered {config : Config}
    (reachable : engine.ReachableInOrder config)
    : engine.Numbered := by
  induction reachable with
  | initial => exact initial_numbered config
  | perform _ inOrder performed ih =>
      exact ih.perform inOrder (Operation.performs_of_perform performed)

-----------------------------------------------------------------------------------------
-- Limits
-----------------------------------------------------------------------------------------

/-- A sound engine is within the limits of a reader where its lists and its waiting interrupts are:
its stacks always are.
-/
theorem Sound.withinLimits_iff (sound : engine.Sound)
    : engine.capture.WithinLimits
      ↔ engine.queue.length ≤ Snapshot.listLimit
        ∧ engine.interrupts.pending.size ≤ Snapshot.interruptLimit := by
  have lists : engine.capture.lists.length = engine.queue.length := List.length_map ..
  constructor
  · intro within
    exact ⟨lists ▸ within.lists, within.pending⟩
  · intro holds
    obtain ⟨few, pending⟩ := holds
    exact ⟨pending, lists ▸ few, sound.shallow⟩

/-- As long as no list takes the last number, an engine can be saved and then be loaded by every
engine exactly when it has no more lists and no more waiting interrupts than a reader takes.
-/
theorem restorable_iff_within_limits {config : Config}
    (reachable : engine.ReachableInOrder config) (other : Engine)
    : (∃ bytes outcome, engine.save = .ok bytes ∧ other.load bytes = .ok outcome)
      ↔ engine.queue.length ≤ Snapshot.listLimit
        ∧ engine.interrupts.pending.size ≤ Snapshot.interruptLimit := by
  have sound := reachable.reachable.sound
  have numbered := reachable.numbered
  rw [restorable_iff sound, sound.withinLimits_iff]
  exact ⟨fun restorable => restorable.1, fun within => ⟨within, numbered.distinct, numbered.given⟩⟩

/-- The engine with a waiting list can be saved and restored. -/
theorem restorable_iff_within_limits_waiting
    : waiting.ReachableInOrder {}
      ∧ ∃ bytes outcome, waiting.save = .ok bytes ∧ (initial {}).load bytes = .ok outcome := by
  have reachable : waiting.ReachableInOrder {} :=
    .perform .initial (fun _ => by decide) perform_waiting
  exact ⟨reachable,
    (restorable_iff_within_limits reachable (initial {})).mpr ⟨by decide, by decide⟩⟩

-----------------------------------------------------------------------------------------
-- Engines that cannot be restored
-----------------------------------------------------------------------------------------

/-- Behind a waiting list there is room for any number of lists, by induction on it. -/
theorem exists_reachable_waits (count : Nat)
    : ∃ (engine : Engine) (list : DisplayList) (rest : Queue),
        engine.Reachable {}
        ∧ engine.Waits list rest
        ∧ blankHost.memory.isMapped list.pc
        ∧ rest.length = count
        ∧ engine.interrupts.pending = #[] := by
  induction count with
  | zero =>
      exact ⟨waiting, _, [], .perform .initial perform_waiting, ⟨rfl, rfl, rfl, rfl⟩, by decide,
        rfl, rfl⟩
  | succ count ih =>
      obtain ⟨engine, list, rest, reachable, waits, mapped, length, pending⟩ := ih
      let joined := engine.join 0x08000000 0x08000000 (-1) false
      have front : joined.queue
          = list :: (rest ++ [.fresh engine.nextId 0x08000000 0x08000000 (-1)]) := by
        simp [joined, join, waits.queue, Queue.pushBack]
      have drained := drainInto_of_waits front waits.running waits.stalled mapped (by decide)
        #[.notice (.enqueued (.fresh engine.nextId 0x08000000 0x08000000 (-1)) false)]
      have performed : (Operation.enqueue 0x08000000 0x08000000 (-1) false).perform blankHost engine
          = _ := Operation.Readies.perform (.enqueue 0x08000000 0x08000000 (-1) false)
      rw [drained] at performed
      exact ⟨_, list, _, .perform reachable performed, ⟨front, rfl, waits.running, waits.stalled⟩,
        mapped, by simp [length], pending⟩

/-- A sound engine within the limits of a reader that has its numbers in order can be had by loading
a snapshot, but for its configuration and its counters.
-/
theorem Sound.exists_load (sound : engine.Sound) (within : engine.capture.WithinLimits)
    (numbered : engine.Numbered) (other : Engine)
    : ∃ bytes outcome, other.load bytes = .ok outcome
        ∧ outcome.engine = { engine with config := other.config, stats := other.stats } := by
  obtain ⟨bytes, outcome, saved, loaded⟩ : ∃ bytes outcome, engine.save = .ok bytes
      ∧ other.load bytes = .ok outcome :=
    (restorable_iff sound).mpr ⟨within, numbered.distinct, numbered.given⟩
  exact ⟨bytes, outcome, loaded, load_of_save sound saved loaded⟩

/-- Loading leads from reachable engines to reachable ones. -/
theorem Reachable.load {config : Config} {bytes : Bytes} {outcome : Outcome Unit}
    (reachable : engine.Reachable config) (loaded : engine.load bytes = .ok outcome)
    : outcome.engine.Reachable config := by
  have performed : (Operation.load bytes).perform blankHost engine
      = some { outcome with answer := .done } := by
    rw [Operation.perform, Operation.loadInto, loaded]
    rfl
  exact .perform reachable performed

/-- An engine whose next list gets the last number. -/
def lastNumbered : Engine :=
  { initial {} with nextId := lastId }

/-- A snapshot can say that the next list gets the last number. -/
theorem lastNumbered_reachable
    : lastNumbered.Reachable {} := by
  have sound : lastNumbered.Sound := { initial_sound {} with nextId := by decide }
  have within : lastNumbered.capture.WithinLimits :=
    ⟨by decide, by decide, by simp [capture, lastNumbered, initial]⟩
  have numbered : lastNumbered.Numbered := ⟨List.nodup_nil, List.forall_mem_nil _⟩
  obtain ⟨bytes, outcome, loaded, restored⟩ := sound.exists_load within numbered (initial {})
  exact (show outcome.engine = lastNumbered from restored) ▸ Reachable.initial.load loaded

/-- An engine whose only list has taken the last number. -/
def wrapped : Engine :=
  { waiting with
    queue := [{ DisplayList.fresh lastId 0x08000000 0x08000000 (-1) with state := .running }]
    current := some lastId
    nextId := 1 }

/-- Some engines that operations lead to cannot be restored: those with more lists than a reader
takes, and those in which a list has taken the last number.
-/
theorem reachable_not_restorable
    : (∃ engine : Engine, engine.Reachable {} ∧ engine.queue.length = 4097
        ∧ engine.interrupts.pending.size = 0
        ∧ ¬∃ bytes outcome, engine.save = .ok bytes ∧ (initial {}).load bytes = .ok outcome)
      ∧ wrapped.Reachable {}
      ∧ ¬∃ bytes outcome, wrapped.save = .ok bytes ∧ (initial {}).load bytes = .ok outcome := by
  refine ⟨?_, ?_⟩
  · obtain ⟨engine, list, rest, reachable, waits, -, length, pending⟩ :=
      exists_reachable_waits 4096
    refine ⟨engine, reachable, by simp [waits.queue, length], by simp [pending], ?_⟩
    rw [restorable_iff reachable.sound, reachable.sound.withinLimits_iff]
    intro holds
    obtain ⟨⟨few, -⟩, -⟩ := holds
    simp [waits.queue, length, Snapshot.listLimit] at few
  · have performed
        : ∃ trace, (Operation.enqueue 0x08000000 0x08000000 (-1) false).perform blankHost
            lastNumbered = some { answer := .enqueued lastId, engine := wrapped, trace } :=
      ⟨_, rfl⟩
    obtain ⟨trace, performed⟩ := performed
    have reachable : wrapped.Reachable {} := .perform lastNumbered_reachable performed
    refine ⟨reachable, ?_⟩
    rw [restorable_iff reachable.sound]
    intro holds
    obtain ⟨-, -, given⟩ := holds
    have ahead := given lastId (by decide)
    exact absurd ahead (by decide)

end Engine

end GraphicsEngine
