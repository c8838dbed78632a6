import GraphicsEngine.Proofs.Engine.Operations
import Mathlib.Data.List.Forall2

/-! What holds of every engine that operations can lead to, snapshots of any origin included: its
lists are in order, and the current list is in the queue.
-/

namespace GraphicsEngine

-----------------------------------------------------------------------------------------
-- Lists
-----------------------------------------------------------------------------------------

/-- A list that the engine can hold: it names no segment anywhere, its calls are within the limit,
and no channel below zero but one stands for having none.
-/
structure DisplayList.Sound (list : DisplayList)
    : Prop where
  id : list.id ≠ 0
  start : list.start.IsMasked
  pc : list.pc.IsMasked
  stall : list.stall.IsMasked
  stack : ∀ address ∈ list.stack, address.IsMasked
  shallow : list.stack.length ≤ stackCapacity
  channel : ¬list.channel < -1

/-- What continues a sound list is sound where its commands and its calls are. -/
theorem DisplayList.Sound.of_continues {list later : DisplayList} (sound : list.Sound)
    (continues : list.Continues later) (pc : later.pc.IsMasked)
    (stack : ∀ address ∈ later.stack, address.IsMasked)
    (shallow : later.stack.length ≤ stackCapacity)
    : later.Sound where
  id := continues.id ▸ sound.id
  start := continues.start ▸ sound.start
  pc := pc
  stall := continues.stall ▸ sound.stall
  stack := stack
  shallow := shallow
  channel := continues.channel ▸ sound.channel

/-- A list that has not run yet is sound, since it is built of masked addresses. -/
theorem DisplayList.fresh_sound {id : ListId} (given : id ≠ 0) (list stall : Address)
    (channel : Int32)
    : (fresh id list stall channel).Sound where
  id := given
  start := Address.isMasked_mask list
  pc := Address.isMasked_mask list
  stall := Address.isMasked_mask stall
  stack := by simp [fresh]
  shallow := by simp [fresh]
  channel := by
    simp only [fresh]
    split
    · decide
    · assumption

/-- A list that waits at another address is as sound as before. -/
theorem DisplayList.Sound.withStall {list : DisplayList} (sound : list.Sound) (stall : Address)
    : (list.withStall stall).Sound :=
  { sound with stall := Address.isMasked_mask stall }

namespace Execution

variable {memory : Memory} {traceCommands : Bool}

/-- A command leaves only masked addresses to return to, and not too many of them. -/
theorem Performs.stack {execution : Execution} {reaction : Reaction}
    (performs : Performs memory execution reaction) (sound : execution.list.Sound)
    : (∀ address ∈ reaction.execution.list.stack, address.IsMasked)
      ∧ reaction.execution.list.stack.length ≤ DisplayList.stackCapacity := by
  have masked := sound.stack
  have shallow := sound.shallow
  cases performs with
  | stays | offsets | counts | jumps => exact ⟨masked, shallow⟩
  | calls _ _ _ room =>
      refine ⟨?_, room⟩
      intro address member
      rcases List.mem_cons.mp member with rfl | member
      · exact Address.isMasked_mask _
      · exact masked address member
  | returns _ _ stack =>
      rw [stack] at masked shallow
      exact ⟨fun address member => masked address (List.mem_cons_of_mem _ member),
        Nat.le_of_succ_le shallow⟩
  | loses _ _ _ stack _ same =>
      rw [stack] at masked shallow
      subst same
      exact ⟨fun address member => masked address (List.mem_cons_of_mem _ member),
        Nat.le_of_succ_le shallow⟩
  | signals | finishes =>
      simp only [signal, finish, raise_list]
      exact ⟨masked, shallow⟩

/-- After a command and the step to the next word a list is sound. -/
theorem Performs.sound {execution : Execution} {reaction : Reaction}
    (performs : Performs memory execution reaction) (sound : execution.list.Sound) (word : Word)
    : (reaction.execution.advance word).list.Sound :=
  sound.of_continues (performs.continues.trans ⟨rfl, rfl, rfl, rfl⟩) (Address.isMasked_mask _)
    (performs.stack sound).1 (performs.stack sound).2

/-- A turn leaves a sound list sound. -/
theorem sound_of_running {execution next : Execution} {seen : List Occurrence}
    (sound : execution.list.Sound)
    (stepped : execution.step memory traceCommands = .running next seen)
    : next.list.Sound := by
  cases turn_of_step stepped with
  | executes _ word _ _ performs => exact performs.sound sound word

/-- The last turn leaves a sound list sound. -/
theorem sound_of_ended {execution last : Execution} {seen : List Occurrence} {ending : Ending}
    (sound : execution.list.Sound)
    (ended : execution.step memory traceCommands = .ended ending last seen)
    : last.list.Sound := by
  cases turn_of_step ended with
  | stalls | fails => exact sound
  | ends _ word _ _ performs => exact performs.sound sound word

/-- A run leaves a sound list sound, turn by turn. -/
theorem Runs.sound {fuel : Nat} {first last : Execution} {ending : Ending}
    {seen : List Occurrence} (runs : Runs memory traceCommands fuel first ending last seen)
    (sound : first.list.Sound)
    : last.list.Sound := by
  obtain ⟨_, _, _, _, passage, ended, -, -⟩ := runs
  exact sound_of_ended (passage.keeps sound_of_running sound) ended

end Execution

-----------------------------------------------------------------------------------------
-- Engines
-----------------------------------------------------------------------------------------

namespace Engine

/-- The lists are sound, the current one is in the queue, and there is a number for the next list.
-/
structure Sound (engine : Engine)
    : Prop where
  lists : ∀ list ∈ engine.queue, list.Sound
  current : ∀ id ∈ engine.current, id ∈ Queue.ids engine.queue
  nextId : engine.nextId ≠ 0

variable {host : Host} {engine after final : Engine} {list later : DisplayList} {queue : Queue}
  {ending : Ending} {answer : Bool} {seen : List Occurrence}

/-- A sound list is sound after its time at the front. -/
theorem Visits.sound (visits : Visits host engine list ending later after seen)
    (sound : list.Sound)
    : later.Sound := by
  cases visits with
  | skips | misses => exact sound
  | runs _ _ ran => exact Execution.Runs.sound ran { sound with }

/-- Running sound lists leaves a sound engine. -/
theorem Drains.sound (drains : Drains host queue engine answer final seen)
    (lists : ∀ list ∈ queue, list.Sound) (nextId : engine.nextId ≠ 0)
    : final.Sound := by
  refine ⟨drains.forall_mem Visits.sound lists, ?_, drains.settings.2 ▸ nextId⟩
  rcases drains.front with ⟨-, -, none⟩ | ⟨_, list, rest, _, later, after, _, stopped⟩
  · simp [none]
  · obtain ⟨-, -, visits, rfl⟩ := stopped
    have current : after.current = some later.id := by
      rw [visits.settings.2.2, visits.continues.id]
    simp [current, Queue.ids]

/-- Draining sound lists leaves a sound engine. -/
theorem drainInto_sound {trace : Trace} {outcome : Outcome Bool}
    (lists : ∀ list ∈ engine.queue, list.Sound) (nextId : engine.nextId ≠ 0)
    (drained : engine.drainInto host trace = some outcome)
    : outcome.engine.Sound := by
  obtain ⟨final, seen, drains, settled, -⟩ := drainInto_eq_some_iff.mp drained
  have sound := Drains.sound drains lists nextId
  rw [settled]
  exact { sound with }

/-- The number after a given one is not zero. -/
theorem followingId_ne_zero (id : ListId)
    : followingId id ≠ 0 := by
  unfold followingId
  split
  · decide
  · assumption

end Engine

-----------------------------------------------------------------------------------------
-- Snapshots
-----------------------------------------------------------------------------------------

/-- Every list that a record describes is sound: all else is refused. -/
theorem DisplayList.ofRecord_sound {record : Snapshot.ListRecord} {list : DisplayList}
    (described : ofRecord record = .ok list)
    : list.Sound := by
  unfold ofRecord at described
  split at described
  · cases described
  · split at described
    · cases described
    · next given =>
      split at described
      · cases described
      · next shallow =>
        split at described
        · cases described
        · next masked =>
          split at described
          · cases described
          · next channel =>
            cases described
            obtain ⟨start, pc, stall, stack⟩ := Decidable.not_not.mp masked
            exact {
              id := given
              start, pc, stall
              stack := by simpa using stack
              shallow := by simpa using shallow
              channel }

/-- A code stands for the state whose code it is. -/
theorem ListState.code_of_ofCode? {code : UInt8} {state : ListState}
    (found : ofCode? code = some state)
    : state.code = code := by
  unfold ofCode? at found
  split at found <;> cases found <;> rfl

/-- A list that a record describes has just that record. -/
theorem DisplayList.toRecord_of_ofRecord {record : Snapshot.ListRecord} {list : DisplayList}
    (described : ofRecord record = .ok list)
    : list.toRecord = record := by
  unfold ofRecord at described
  split at described
  · cases described
  · next state found =>
    repeat' split at described
    all_goals cases described
    simp only [toRecord, ListState.code_of_ofCode? found, List.reverse_reverse]

/-- Lists that have the same record are the same, field by field. -/
theorem DisplayList.toRecord_injective
    : Function.Injective toRecord := by
  intro first second same
  have states : first.state = second.state := by
    have codes := congrArg (fun record => ListState.ofCode? record.state) same
    simpa only [toRecord, ListState.ofCode?_code, Option.some.injEq] using codes
  cases first
  cases second
  simp only [toRecord, Snapshot.ListRecord.mk.injEq, List.reverse_inj] at same states
  simp [same, states]

/-- A list has the number that its record has. -/
theorem DisplayList.id_of_ofRecord {record : Snapshot.ListRecord} {list : DisplayList}
    (described : ofRecord record = .ok list)
    : list.id = record.id :=
  congrArg Snapshot.ListRecord.id (toRecord_of_ofRecord described)

/-- Records describe the queue of the lists that they describe one by one, if every list has a
number of its own that was given out before the next one; by induction on the records.
-/
theorem Snapshot.queueOfRecords_eq_ok_iff {nextId : ListId} {seen : List ListId}
    {records : List ListRecord} {queue : Queue}
    : queueOfRecords nextId seen records = .ok queue
      ↔ List.Forall₂ (fun record list => DisplayList.ofRecord record = .ok list) records queue
        ∧ (Queue.ids queue).Nodup
        ∧ ∀ id ∈ Queue.ids queue, id ∉ seen ∧ id < nextId := by
  induction records generalizing seen queue with
  | nil =>
      constructor
      · intro described
        cases described
        exact ⟨.nil, by simp [Queue.ids], by simp [Queue.ids]⟩
      · intro holds
        obtain ⟨described, -, -⟩ := holds
        cases described
        rfl
  | cons record rest ih =>
      simp only [queueOfRecords]
      constructor
      · intro described
        split at described
        · cases described
        · next unseen =>
          split at described
          · cases described
          · next behind =>
            split at described
            · cases described
            · next list first =>
              split at described
              · cases described
              · next others later =>
                cases described
                obtain ⟨each, distinct, given⟩ := ih.mp later
                have ids : Queue.ids (list :: others) = record.id :: Queue.ids others := by
                  rw [← DisplayList.id_of_ofRecord first]
                  rfl
                simp only [List.mem_cons, not_or] at given
                simp only [ids, List.nodup_cons, List.forall_mem_cons]
                exact ⟨.cons first each, ⟨fun member => (given _ member).1.1 rfl, distinct⟩,
                  ⟨unseen, UInt32.not_le.mp behind⟩,
                  fun id member => ⟨(given id member).1.2, (given id member).2⟩⟩
      · intro holds
        obtain ⟨described, distinct, given⟩ := holds
        cases described with
        | @cons _ list _ others first each =>
            have ids : Queue.ids (list :: others) = record.id :: Queue.ids others := by
              rw [← DisplayList.id_of_ofRecord first]
              rfl
            simp only [ids, List.nodup_cons, List.forall_mem_cons] at distinct given
            obtain ⟨⟨unseen, behind⟩, given⟩ := given
            have later : queueOfRecords nextId (record.id :: seen) rest = .ok others := by
              refine ih.mpr ⟨each, distinct.2, fun id member => ?_⟩
              obtain ⟨absent, before⟩ := given id member
              exact ⟨by simpa [absent] using ne_of_mem_of_not_mem member distinct.1, before⟩
            rw [if_neg unseen, if_neg (UInt32.not_le.mpr behind), first]
            dsimp only
            rw [later]

/-- Every list of a queue that records describe is sound. -/
theorem Snapshot.queueOfRecords_sound {nextId : ListId} {seen : List ListId}
    {records : List ListRecord} {queue : Queue}
    (described : queueOfRecords nextId seen records = .ok queue)
    : ∀ list ∈ queue, list.Sound := by
  obtain ⟨each, -, -⟩ := queueOfRecords_eq_ok_iff.mp described
  clear described
  induction each with
  | nil => simp
  | cons first _ ih =>
      exact List.forall_mem_cons.mpr ⟨DisplayList.ofRecord_sound first, ih⟩

/-- What was staged is accepted if there is an engine record, its lists are in order and there is a
number for the next one.
-/
theorem Snapshot.Staged.check_eq_ok_iff {staged : Staged} {restoration : Restoration}
    : staged.check = .ok restoration
      ↔ ∃ record queue, staged.engine = some record ∧ record.nextId ≠ 0
          ∧ queueOfRecords record.nextId [] staged.lists = .ok queue
          ∧ restoration = ⟨record, queue, staged.cache⟩ := by
  unfold check
  constructor
  · intro checked
    split at checked
    · cases checked
    · next record staged =>
      split at checked
      · cases checked
      · next queue described =>
        split at checked
        · cases checked
        · next given =>
          cases checked
          exact ⟨record, queue, staged, given, described, rfl⟩
  · intro holds
    obtain ⟨record, queue, staged, given, described, rfl⟩ := holds
    rw [staged]
    dsimp only
    rw [described]
    dsimp only
    rw [if_neg given]

namespace Engine

/-- A current list of a restored engine is in the queue, or there is none. -/
theorem mem_ids_of_resolveCurrent {queue : Queue} {current id : ListId}
    (resolved : resolveCurrent queue current = some id)
    : id ∈ Queue.ids queue := by
  unfold resolveCurrent at resolved
  split at resolved
  · next found =>
    cases resolved
    exact (Queue.position?_isSome queue current).mp found.2
  · cases resolved

/-- An engine that loads bytes takes on what it has examined. -/
theorem load_eq_ok_iff {engine : Engine} {bytes : Bytes} {outcome : Outcome Unit}
    : engine.load bytes = .ok outcome
      ↔ ∃ restoration, examine bytes = .ok restoration
          ∧ outcome = ⟨(), engine.adopt restoration, adoptTrace restoration⟩ := by
  rw [load]
  split
  · next refused => simp [refused]
  · next restoration examined =>
    simp only [examined, Except.ok.injEq, exists_eq_left']
    exact eq_comm

/-- An engine that loads bytes takes on a snapshot whose records describe a queue. -/
theorem of_load {engine : Engine} {bytes : Bytes} {outcome : Outcome Unit}
    (loaded : engine.load bytes = .ok outcome)
    : ∃ restoration records,
        outcome = ⟨(), engine.adopt restoration, adoptTrace restoration⟩
        ∧ restoration.engine.nextId ≠ 0
        ∧ Snapshot.queueOfRecords restoration.engine.nextId [] records = .ok restoration.queue := by
  obtain ⟨restoration, examined, rfl⟩ := load_eq_ok_iff.mp loaded
  simp only [examine] at examined
  split at examined
  · cases examined
  · obtain ⟨record, queue, -, given, described, rfl⟩ :=
      Snapshot.Staged.check_eq_ok_iff.mp examined
    exact ⟨_, _, rfl, given, described⟩

/-- An engine that takes on a snapshot is sound, whatever it was before. -/
theorem load_sound {engine : Engine} {bytes : Bytes} {outcome : Outcome Unit}
    (loaded : engine.load bytes = .ok outcome)
    : outcome.engine.Sound := by
  obtain ⟨restoration, records, rfl, given, described⟩ := of_load loaded
  exact ⟨Snapshot.queueOfRecords_sound described,
    fun id resolved => mem_ids_of_resolveCurrent resolved, given⟩

-----------------------------------------------------------------------------------------
-- Operations
-----------------------------------------------------------------------------------------

/-- An engine that has done nothing yet is sound, since it has no lists. -/
theorem initial_sound (config : Config)
    : (initial config).Sound :=
  ⟨by simp [initial], by simp [initial], by simp [initial]⟩

/-- An operation makes sound lists ready, and keeps a number for the next one. -/
theorem Sound.ready {engine ready : Engine} {operation : Operation} {before : Trace}
    {answer : Bool → Answer} (sound : engine.Sound)
    (readies : operation.Readies engine ready before answer)
    : (∀ list ∈ ready.queue, list.Sound) ∧ ready.nextId ≠ 0 := by
  refine ⟨readies.forall_mem sound.lists (DisplayList.fresh_sound sound.nextId) ?_, ?_⟩
  · exact fun list stall sound => sound.withStall stall
  · cases readies with
    | enqueue => exact followingId_ne_zero engine.nextId
    | moveStall | drain | endService => exact sound.nextId

/-- An operation leaves a sound engine sound. -/
theorem Sound.perform {engine : Engine} {host : Host} {operation : Operation}
    {outcome : Outcome Answer} (sound : engine.Sound)
    (performs : operation.Performs host engine outcome)
    : outcome.engine.Sound := by
  cases performs with
  | drains readies drained =>
      obtain ⟨lists, nextId⟩ := sound.ready readies
      exact drainInto_sound lists nextId drained
  | serves | sets => exact { sound with }
  | resets => exact initial_sound engine.config
  | loads loaded => exact load_sound loaded
  | rests => exact sound

/-- Every engine that operations lead to is sound, operation by operation. -/
theorem Reachable.sound {config : Config} {engine : Engine}
    (reachable : Reachable config engine)
    : engine.Sound := by
  induction reachable with
  | initial => exact initial_sound config
  | perform _ performed ih => exact ih.perform (Operation.performs_of_perform performed)

end Engine

end GraphicsEngine
