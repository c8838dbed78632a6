import GraphicsEngine.Proofs.Engine.Drains
import GraphicsEngine.Proofs.Execution.Likeness
import GraphicsEngine.Engine.Operation

/-! Engines that no operation can tell apart: what is overlooked in executions stays overlooked
while lists come and go.
-/

namespace GraphicsEngine

-----------------------------------------------------------------------------------------
-- Engines
-----------------------------------------------------------------------------------------

/-- Two engines between which there are only overlooked differences, their queues apart. -/
structure Engine.Alike (oversight : Oversight) (left right : Engine)
    : Prop where
  config : right.config = left.config
  current : right.current = left.current
  nextId : right.nextId = left.nextId
  cache : right.cache = left.cache
  registers : oversight.between left.registers right.registers
  interrupts : right.interrupts = left.interrupts
  stats : oversight.counted left.stats right.stats

/-- Two outcomes with the same answer and the same effects that leave like engines with one queue.
-/
structure Outcome.Alike {α : Type} (oversight : Oversight) (left right : Outcome α)
    : Prop where
  answer : right.answer = left.answer
  engine : left.engine.Alike oversight right.engine
  queue : right.engine.queue = left.engine.queue
  effects : Occurrence.effects right.trace.toList = Occurrence.effects left.trace.toList

namespace Engine

variable {oversight : Oversight} {left right : Engine} {host : Host}

theorem Alike.present (alike : left.Alike oversight right) (list : DisplayList)
    : (left.present list).Alike oversight (right.present list) :=
  { alike with
    current := rfl
    registers := oversight.present alike.registers }

/-- What an ending adds to the counters. -/
theorem count_eq_add (stats : Stats) (ending : Ending)
    : stats.count ending = stats.add (Stats.count {} ending) := by
  cases ending <;> simp [Stats.count, Stats.add]

theorem add_totalCycles (stats : Stats) (cycles : UInt64)
    : stats.add { totalCycles := cycles }
      = { stats with totalCycles := stats.totalCycles + cycles } := by
  simp [Stats.add]

theorem add_started (stats : Stats)
    : stats.add { started := 1 } = { stats with started := stats.started + 1 } := by
  simp [Stats.add]

theorem Alike.settle (alike : left.Alike oversight right)
    : left.settle.Alike oversight right.settle :=
  { alike with
    stats := by
      simp only [Engine.settle, ← add_totalCycles]
      exact oversight.settle alike.registers alike.stats }

theorem Alike.count (alike : left.Alike oversight right) (ending : Ending)
    : (left.count ending).Alike oversight (right.count ending) :=
  { alike with
    stats := by
      rw [Engine.count, Engine.count, count_eq_add left.stats, count_eq_add right.stats]
      exact oversight.add _ alike.stats }

/-- A list that comes to the front of like engines is run alike. -/
theorem Alike.launch (alike : left.Alike oversight right) (list : DisplayList)
    : ((left.present list).launch list).Alike oversight ((right.present list).launch list) where
  list := rfl
  registers := by
    have launched := oversight.launch list.pc alike.registers
    exact launched
  cache := alike.cache
  interrupts := alike.interrupts
  stats := by
    simp only [Engine.launch, Engine.present]
    split
    · simp only [← add_started]
      exact oversight.add _ alike.stats
    · exact alike.stats

/-- Like changes lead to like engines, whatever was changed before. -/
theorem land_alike (config : right.config = left.config) (current : right.current = left.current)
    (nextId : right.nextId = left.nextId) {execution other : Execution}
    (executed : execution.Alike oversight other)
    : (left.land execution).Alike oversight (right.land other) where
  config := config
  current := current
  nextId := nextId
  cache := executed.cache
  registers := oversight.land executed.registers
  interrupts := executed.interrupts
  stats := executed.stats

/-- A list spends its time at the front of like engines alike. -/
theorem Visits.alike {list later : DisplayList} {after : Engine} {ending : Ending}
    {seen : List Occurrence} (visits : Visits host left list ending later after seen)
    (alike : left.Alike oversight right)
    : ∃ other happened,
        Visits host right list ending later other happened
        ∧ after.Alike oversight other
        ∧ Occurrence.effects happened = Occurrence.effects seen := by
  cases visits with
  | skips completed => exact ⟨_, _, .skips completed, alike.present list, rfl⟩
  | misses waiting unmapped =>
      exact ⟨_, _, .misses waiting unmapped, (alike.present list).count .unmapped, rfl⟩
  | runs waiting mapped ran =>
      obtain ⟨stop, happened, ran, executed, same, effects⟩ := ran.alike (alike.launch list) rfl
      have presented := alike.present list
      have landed := land_alike presented.config presented.current presented.nextId executed
      rw [← same]
      refine ⟨_, _, .runs waiting mapped (alike.config ▸ ran), ?_, ?_⟩
      · exact landed.count ending
      · split
        · simp only [Occurrence.effects_append, effects]
        · exact effects

/-- A queue is run alike in like engines, list by list. -/
theorem Drains.alike {queue : Queue} {answer : Bool} {final : Engine} {seen : List Occurrence}
    (drains : Drains host queue left answer final seen) (alike : left.Alike oversight right)
    : ∃ other happened,
        Drains host queue right answer other happened
        ∧ final.Alike oversight other
        ∧ other.queue = final.queue
        ∧ Occurrence.effects happened = Occurrence.effects seen := by
  induction drains generalizing right with
  | empty => exact ⟨_, _, .empty right, { alike with current := rfl }, rfl, rfl⟩
  | leaves visits leaving _ ih =>
      obtain ⟨_, _, visits, alike, effects⟩ := visits.alike alike
      obtain ⟨other, _, drains, alike, queue, effects'⟩ := ih alike
      exact ⟨other, _, .leaves visits leaving drains, alike, queue,
        by simp only [Occurrence.effects_notice, Occurrence.effects_append, effects, effects']⟩
  | stays visits =>
      obtain ⟨other, _, visits, alike, effects⟩ := visits.alike alike
      exact ⟨_, _, .stays visits, { alike with }, rfl,
        by simp only [Occurrence.effects_notice, effects]⟩

/-- A queue is drained alike by engines that are alike when they have taken it up, whatever the
clock shows then, and with any more fuel.
-/
theorem Alike.drainInto_takenUp {elsewhere : Host}
    (takenUp : (left.takeUp host.ticks).Alike oversight (right.takeUp elsewhere.ticks))
    (queue : right.queue = left.queue) (memory : elsewhere.memory = host.memory)
    (enough : host.fuel ≤ elsewhere.fuel) {trace before : Trace}
    (same : Occurrence.effects before.toList = Occurrence.effects trace.toList)
    {outcome : Outcome Bool} (drained : left.drainInto host trace = some outcome)
    : ∃ other, right.drainInto elsewhere before = some other ∧ outcome.Alike oversight other := by
  obtain ⟨final, seen, drains, settled, traced⟩ := drainInto_eq_some_iff.mp drained
  obtain ⟨other, happened, drains, alike, queued, effects⟩ :=
    (drains.rehosted memory enough).alike takenUp
  refine ⟨⟨outcome.answer, other.settle, before ++ happened⟩,
    drainInto_eq_some_iff.mpr ⟨other, happened, queue ▸ drains, rfl, rfl⟩, ?_⟩
  exact {
    answer := rfl
    engine := settled ▸ alike.settle
    queue := by rw [settled]; exact queued
    effects := by simp [traced, same, effects] }

/-- Like engines with one queue are drained alike. -/
theorem Alike.drainInto (alike : left.Alike oversight right) (queue : right.queue = left.queue)
    {trace before : Trace}
    (same : Occurrence.effects before.toList = Occurrence.effects trace.toList)
    {outcome : Outcome Bool} (drained : left.drainInto host trace = some outcome)
    : ∃ other, right.drainInto host before = some other ∧ outcome.Alike oversight other := by
  have takenUp : (left.takeUp host.ticks).Alike oversight (right.takeUp host.ticks) :=
    { alike with registers := oversight.takeUp host.ticks alike.registers }
  exact Alike.drainInto_takenUp takenUp queue rfl (Nat.le_refl _) same drained

end Engine

-----------------------------------------------------------------------------------------
-- Operations
-----------------------------------------------------------------------------------------

namespace Operation

variable {oversight : Oversight} {left right : Engine} {host : Host} {outcome : Outcome Answer}

/-- What is done alike is done alike with the answers put differently. -/
theorem answerWith_alike {α : Type} {first second : Option (Outcome α)} {answer : α → Answer}
    (likewise : ∀ {outcome}, first = some outcome
      → ∃ other, second = some other ∧ outcome.Alike oversight other)
    (performed : first.map (answerWith · answer) = some outcome)
    : ∃ other, second.map (answerWith · answer) = some other
        ∧ outcome.Alike oversight other := by
  obtain ⟨given, first, rfl⟩ := Option.map_eq_some_iff.mp performed
  obtain ⟨other, rfl, alike⟩ := likewise first
  exact ⟨_, rfl, { alike with answer := congrArg answer alike.answer }⟩

/-- What is done without a change to the engine is done alike. -/
theorem unchanged_alike (alike : left.Alike oversight right) (queue : right.queue = left.queue)
    (answer : Answer) (trace : Trace)
    : Outcome.Alike oversight { answer, engine := left, trace }
        { answer, engine := right, trace } :=
  { answer := rfl, engine := alike, queue, effects := rfl }

/-- Like engines with one queue answer questions about progress alike. -/
theorem drawSync_alike (alike : left.Alike oversight right) (queue : right.queue = left.queue)
    (mode : UInt32)
    : right.drawSync mode = left.drawSync mode := by
  have found : right.list? = left.list? := by
    funext id
    rw [Engine.list?, Engine.list?, queue]
  simp only [Engine.drawSync, Engine.currentList?, alike.current, found]

/-- Like engines with one queue answer questions about a list alike. -/
theorem listSync_alike (queue : right.queue = left.queue) (id : ListId) (mode : UInt32)
    : right.listSync id mode = left.listSync id mode := by
  simp only [Engine.listSync, Engine.list?, queue]

/-- Like engines answer alike what was found out alike. -/
theorem report_alike (alike : left.Alike oversight right) (queue : right.queue = left.queue)
    (finding : Except SyncError (SyncStatus × Trace))
    : (report left finding).Alike oversight (report right finding) := by
  cases finding <;> exact unchanged_alike alike queue _ _

/-- Like engines take a snapshot on alike, or refuse it. -/
theorem loadInto_alike (alike : left.Alike oversight right) (queue : right.queue = left.queue)
    (bytes : Bytes)
    : (loadInto left bytes).Alike oversight (loadInto right bytes) := by
  simp only [loadInto, Engine.load]
  cases Engine.examine bytes with
  | error failure => exact unchanged_alike alike queue _ _
  | ok restoration =>
      have adopted : (left.adopt restoration).Alike oversight (right.adopt restoration) :=
        { alike with
          current := rfl
          nextId := rfl
          cache := rfl
          registers := oversight.refl _
          interrupts := rfl }
      exact { answer := rfl, engine := adopted, queue := rfl, effects := rfl }

/-- Like engines with one queue perform an operation alike, case by case. A reset is left out: after
it nothing is left of what was counted before.
-/
theorem perform_alike {operation : Operation} (keeping : operation ≠ .reset)
    (alike : left.Alike oversight right) (queue : right.queue = left.queue)
    (performed : operation.perform host left = some outcome)
    : ∃ other, operation.perform host right = some other ∧ outcome.Alike oversight other := by
  cases operation with
  | enqueue list stall channel head =>
      refine answerWith_alike (fun {outcome} joined => ?_) performed
      rw [Engine.enqueue_eq_map] at joined ⊢
      obtain ⟨drained, ran, rfl⟩ := Option.map_eq_some_iff.mp joined
      have joining : (left.join list stall channel head).Alike oversight
          (right.join list stall channel head) :=
        { alike with nextId := congrArg Engine.followingId alike.nextId }
      have queue : (right.join list stall channel head).queue
          = (left.join list stall channel head).queue := by
        simp only [Engine.join, queue, alike.nextId]
      rw [alike.nextId]
      obtain ⟨other, ran, alike⟩ := joining.drainInto queue rfl ran
      rw [ran]
      exact ⟨_, rfl, { alike with answer := rfl }⟩
  | moveStall id stall =>
      refine answerWith_alike (fun {outcome} drained => ?_) performed
      have moved : Engine.Alike oversight
          { left with queue := Queue.moveStall left.queue id stall }
          { right with queue := Queue.moveStall right.queue id stall } := { alike with }
      exact moved.drainInto (by simp only [queue]) rfl drained
  | drain =>
      exact answerWith_alike (fun drained => alike.drainInto queue rfl drained) performed
  | beginService =>
      cases performed
      have serving : left.beginService.Alike oversight right.beginService :=
        { alike with interrupts := by simp only [Engine.beginService, alike.interrupts] }
      exact ⟨_, rfl, { answer := rfl, engine := serving, queue, effects := rfl }⟩
  | endService =>
      refine answerWith_alike (fun {outcome} drained => ?_) performed
      have served : Engine.Alike oversight
          { left with interrupts := { left.interrupts with serving := false, pending := #[] } }
          { right with interrupts := { right.interrupts with serving := false, pending := #[] } } :=
        { alike with interrupts := by simp only [alike.interrupts] }
      exact served.drainInto queue (by rw [alike.interrupts]) drained
  | setInterrupts enabled =>
      cases performed
      have set : (left.setInterrupts enabled).Alike oversight (right.setInterrupts enabled) :=
        { alike with interrupts := by simp only [Engine.setInterrupts, alike.interrupts] }
      exact ⟨_, rfl, { answer := rfl, engine := set, queue, effects := rfl }⟩
  | reset => exact absurd rfl keeping
  | load bytes =>
      cases performed
      exact ⟨_, rfl, loadInto_alike alike queue bytes⟩
  | drawSync mode =>
      cases performed
      rw [perform, drawSync_alike alike queue]
      exact ⟨_, rfl, report_alike alike queue _⟩
  | listSync id mode =>
      cases performed
      rw [perform, listSync_alike queue]
      exact ⟨_, rfl, report_alike alike queue _⟩
  | dequeueList _ | continueQueue =>
      cases performed
      exact ⟨_, rfl, unchanged_alike alike queue _ _⟩
  | breakQueue mode =>
      cases performed
      refine ⟨_, rfl, ?_⟩
      simp only [refuseBreak]
      cases SyncMode.ofCode mode <;> exact unchanged_alike alike queue _ _

end Operation

end GraphicsEngine
