import GraphicsEngine.Proofs.Engine.Announcements
import GraphicsEngine.Proofs.Engine.Order

/-! Who has been at the front of the queue, and what that does to the counters. Every list is
started the first time that it can run, whether or not it is put off later, and is finished or
aborted when it leaves.
-/

namespace GraphicsEngine

/-- The event tells of a list that has reached its end. -/
def Event.isFinish
    : Event → Bool
  | finish _ => true
  | execute .. | jump .. | call .. | ret .. | signal .. | reset => false

-----------------------------------------------------------------------------------------
-- Times at the front
-----------------------------------------------------------------------------------------

/-- A list as it came to the front, and its time there. -/
structure Stint where
  list : DisplayList
  visit : Visit

namespace Stint

def id (stint : Stint)
    : ListId :=
  stint.list.id

/-- The list was still waiting for its first turn. -/
def enters (stint : Stint)
    : Bool :=
  stint.list.state = .queued

/-- The list was waiting for its first turn and has had it now. -/
def starts (stint : Stint)
    : Bool :=
  stint.enters && stint.visit.list.state ≠ .queued

/-- The list was aborted before it ever ran. -/
def turnedAway (stint : Stint)
    : Bool :=
  stint.enters && stint.visit.ending = .unmapped

def leaves (stint : Stint)
    : Bool :=
  stint.visit.ending.leaves

def stalls (stint : Stint)
    : Bool :=
  stint.visit.ending = .stalled

def finishes (stint : Stint)
    : Bool :=
  stint.visit.ending = .completed

end Stint

/-- The drain ended with a list that stalled. -/
def endsStalled (stints : List Stint)
    : Bool :=
  stints.getLast?.any Stint.stalls

/-- The lists that are waiting for their first turn. -/
def Queue.queued (queue : Queue)
    : Queue :=
  queue.filter fun list => list.state = .queued

namespace Engine

/-- The lists of a queue that come to the front, in order, until one stalls. -/
def stints (host : Host)
    : Queue → Engine → List Stint
  | [], _ => []
  | list :: rest, engine =>
      match engine.visit host list #[] with
      | none => []
      | some visit =>
          ⟨list, visit⟩ :: if visit.ending.leaves then stints host rest visit.engine else []

end Engine

-----------------------------------------------------------------------------------------
-- What becomes of a queue
-----------------------------------------------------------------------------------------

/-- From one queue to another, while lists with the given numbers join: all lists are accounted for,
and so are those that are waiting for their first turn.
-/
structure Turnover (queue left : Queue) (joined : List ListId) (stints : List Stint)
    : Prop where
  leaving
    : ((stints.filter Stint.leaves).map Stint.id ++ Queue.ids left).Perm (Queue.ids queue ++ joined)
  entering
    : ((stints.filter Stint.enters).map Stint.id ++ Queue.ids left.queued).Perm
        (Queue.ids queue.queued ++ joined)

/-- Where no list comes to the front and none joins, all lists are accounted for. -/
theorem Turnover.of_same {queue left : Queue} (ids : Queue.ids left = Queue.ids queue)
    (queued : Queue.ids left.queued = Queue.ids queue.queued)
    : Turnover queue left [] [] :=
  ⟨.of_eq (ids.trans (List.append_nil _).symm), .of_eq (queued.trans (List.append_nil _).symm)⟩

/-- A list that leaves its queue is accounted for. -/
theorem Turnover.leaves (list : DisplayList) (rest : Queue) (visit : Visit)
    (leaving : visit.ending.leaves)
    : Turnover (list :: rest) rest [] [⟨list, visit⟩] := by
  refine ⟨?_, ?_⟩
  · simp [Stint.leaves, Stint.id, Queue.ids, leaving]
  · by_cases queued : list.state = .queued
    all_goals simp [Stint.enters, Stint.id, Queue.ids, Queue.queued, queued]

/-- A list that has run and stays in front of its queue is accounted for. -/
theorem Turnover.stays {list later : DisplayList} (rest : Queue) (visit : Visit)
    (staying : ¬visit.ending.leaves) (same : later.id = list.id) (run : later.state ≠ .queued)
    : Turnover (list :: rest) (later :: rest) [] [⟨list, visit⟩] := by
  refine ⟨?_, ?_⟩
  · simp [Stint.leaves, Queue.ids, staying, same]
  · by_cases queued : list.state = .queued
    all_goals simp [Stint.enters, Stint.id, Queue.ids, Queue.queued, queued, run]

/-- What is accounted for in two stretches of time is accounted for in all. -/
theorem perm_trans {α : Type} {gone left queue joined more remaining later : List α}
    (first : (gone ++ left).Perm (queue ++ joined))
    (second : (more ++ remaining).Perm (left ++ later))
    : ((gone ++ more) ++ remaining).Perm (queue ++ (joined ++ later)) := by
  calc (gone ++ more) ++ remaining
      _ = gone ++ (more ++ remaining) := List.append_assoc ..
      List.Perm _ (gone ++ (left ++ later)) := second.append_left gone
      _ = (gone ++ left) ++ later := (List.append_assoc ..).symm
      List.Perm _ ((queue ++ joined) ++ later) := first.append_right later
      _ = queue ++ (joined ++ later) := List.append_assoc ..

theorem Turnover.trans {queue left remaining : Queue} {joined later : List ListId}
    {stints others : List Stint} (first : Turnover queue left joined stints)
    (second : Turnover left remaining later others)
    : Turnover queue remaining (joined ++ later) (stints ++ others) := by
  refine ⟨?_, ?_⟩
  · rw [List.filter_append, List.map_append]
    exact perm_trans first.leaving second.leaving
  · rw [List.filter_append, List.map_append]
    exact perm_trans first.entering second.entering

/-- How many lists have left and how many have had their first turn. -/
theorem Turnover.count {queue left : Queue} {joined : List ListId} {stints : List Stint}
    (turnover : Turnover queue left joined stints)
    : stints.countP Stint.leaves + left.length = queue.length + joined.length
      ∧ stints.countP Stint.enters + left.queued.length
        = queue.queued.length + joined.length := by
  have leaving := turnover.leaving.length_eq
  have entering := turnover.entering.length_eq
  simp only [Queue.ids, List.length_append, List.length_map, ← List.countP_eq_length_filter]
    at leaving entering
  exact ⟨leaving, entering⟩

-----------------------------------------------------------------------------------------
-- What is counted
-----------------------------------------------------------------------------------------

/-- Over a stretch of time the counters grow by what the lists at the front have done, and the
renderer is told of every one that has reached its end.
-/
structure Stats.Tells (before after : Stats) (stints : List Stint) (seen : List Occurrence)
    : Prop where
  started : after.started = before.started + stints.countP Stint.starts
  completed : after.completed = before.completed + stints.countP Stint.finishes
  left
    : after.completed + after.aborted
      = before.completed + before.aborted + stints.countP Stint.leaves
  stalls : after.stalls = before.stalls + stints.countP Stint.stalls
  /-- A list that has had its first time at the front has started then or was turned away. -/
  entered
    : stints.countP Stint.enters
      = stints.countP Stint.starts + stints.countP Stint.turnedAway
  finishes
    : (seen.filterMap Occurrence.event?).countP Event.isFinish = stints.countP Stint.finishes

section Count

variable (stats : Stats) (ending : Ending)

@[simp] theorem Stats.count_started
    : (stats.count ending).started = stats.started := by
  cases ending <;> rfl

@[simp] theorem Stats.count_completed
    : (stats.count ending).completed
      = stats.completed + if ending = .completed then 1 else 0 := by
  cases ending <;> rfl

@[simp] theorem Stats.count_stalls
    : (stats.count ending).stalls = stats.stalls + if ending = .stalled then 1 else 0 := by
  cases ending <;> rfl

/-- A list that leaves the queue counts as completed or aborted, unless it is passed over. -/
theorem Stats.count_left (notSkipped : ending ≠ .skipped)
    : (stats.count ending).completed + (stats.count ending).aborted
      = stats.completed + stats.aborted + if ending.leaves then 1 else 0 := by
  cases ending with
  | skipped => exact absurd rfl notSkipped
  | stalled => rfl
  | unmapped | aborted => rfl
  | completed => simp [Stats.count, Ending.leaves, Nat.add_right_comm]

end Count

namespace Stats.Tells

variable {first second third : Stats} {stints others : List Stint} {seen later : List Occurrence}

/-- Where no list is at the front and no list is told to have ended, nothing is counted. -/
theorem of_nobody (stats : Stats)
    (silent : (seen.filterMap Occurrence.event?).countP Event.isFinish = 0)
    : stats.Tells stats [] seen :=
  ⟨rfl, rfl, rfl, rfl, rfl, silent⟩

/-- What is noticed is not counted. -/
theorem notice (tells : first.Tells second stints seen) (given : Notice)
    : first.Tells second stints (.notice given :: seen) :=
  ⟨tells.started, tells.completed, tells.left, tells.stalls, tells.entered, tells.finishes⟩

/-- Two stretches of time, one right after the other, are one. -/
theorem trans (earlier : first.Tells second stints seen) (behind : second.Tells third others later)
    : first.Tells third (stints ++ others) (seen ++ later) where
  started := by rw [behind.started, earlier.started, List.countP_append, Nat.add_assoc]
  completed := by rw [behind.completed, earlier.completed, List.countP_append, Nat.add_assoc]
  left := by rw [behind.left, earlier.left, List.countP_append, Nat.add_assoc]
  stalls := by rw [behind.stalls, earlier.stalls, List.countP_append, Nat.add_assoc]
  entered := by
    simp only [List.countP_append, earlier.entered, behind.entered]
    omega
  finishes := by
    rw [List.filterMap_append, List.countP_append, List.countP_append, earlier.finishes,
      behind.finishes]

end Stats.Tells

/-- Where only the last one can be counted, it is counted or none is. -/
theorem countP_of_dropLast {α : Type} {counts : α → Bool} {items : List α}
    (others : ∀ item ∈ items.dropLast, ¬counts item)
    : items.countP counts = if items.getLast?.any counts then 1 else 0 := by
  rcases items.eq_nil_or_concat' with rfl | ⟨earlier, last, rfl⟩
  · rfl
  · rw [List.dropLast_concat] at others
    rw [List.countP_append, List.countP_eq_zero.mpr others, List.getLast?_concat, Nat.zero_add,
      List.countP_singleton]
    rfl

/-- Of two words in a row a FINISH is told exactly if they finish the list. -/
theorem Succession.isFinish_told? (succession : Succession)
    : (succession.told?.map Event.isFinish).getD false = decide succession.Finishes := by
  by_cases finishes : succession.Finishes
  · have noSignal : ¬succession.before.opcode = Opcode.signal := by
      rw [finishes.2]
      decide
    rw [told?, if_pos finishes.1, if_neg noSignal, if_pos finishes.2, decide_eq_true finishes]
    rfl
  · rw [decide_eq_false finishes, told?]
    split
    · next ends =>
      split
      · rfl
      · rw [if_neg fun finish => finishes ⟨ends, finish⟩]
        rfl
    · rfl

/-- A list that raises a FINISH is told to have ended, and no other list is: only its last two words
can finish it.
-/
theorem Engine.Announces.countP_isFinish {engine : Engine} {list later : DisplayList}
    {ending : Ending} {fetches : List (Address × Word)} {told : List Event}
    {raised : List Interrupt} (announces : engine.Announces list later ending fetches told raised)
    : told.countP Event.isFinish = if ending = .completed then 1 else 0 := by
  have same : (fun succession : Succession =>
      (succession.told?.map Event.isFinish).getD false) = fun succession =>
        decide succession.Finishes := funext Succession.isFinish_told?
  have last : ∀ succession ∈ (successions fetches).dropLast, ¬decide succession.Finishes := by
    simpa using announces.last
  have found : 0 < (successions fetches).countP (fun succession => decide succession.Finishes)
      ↔ ending = .completed := by
    rw [List.countP_pos_iff, announces.finished]
    simp
  have once := countP_of_dropLast last
  rw [announces.told, List.countP_filterMap, same]
  split at once
  · rw [if_pos (found.mp (by omega)), once]
  · rw [if_neg (fun completed => by have := found.mpr completed; omega), once]

/-- What is told of a list that has ended is told with its FINISH. -/
theorem Occurrence.countP_isFinish_announced (seen : List Occurrence)
    : (announced seen).countP Event.isFinish
      = (seen.filterMap event?).countP Event.isFinish := by
  rw [announced, List.countP_filter]
  congr 1
  funext told
  cases told <;> rfl

namespace Execution

variable {memory : Memory} {traceCommands : Bool} {first last : Execution} {ending : Ending}
  {seen : List Occurrence} {fuel : Nat}

/-- No list that runs goes back to waiting for its first turn. -/
theorem Performs.notQueued {execution : Execution} {reaction : Reaction}
    (performs : Performs memory execution reaction) (running : execution.list.state = .running)
    : reaction.execution.list.state ≠ .queued := by
  cases performs with
  | loses _ _ _ _ _ same =>
      rw [same]
      simp [transfer, running]
  | finishes => simp [finish]
  | signals => simp [signal, charge, running]
  | stays | offsets | counts | jumps | calls | returns =>
      simp [setOffset, charge, transfer, running]

theorem Runs.notQueued (runs : Runs memory traceCommands fuel first ending last seen)
    (running : first.list.state = .running)
    : last.list.state ≠ .queued := by
  obtain ⟨_, head, _, _, passage, ended, -, -⟩ := runs
  have running : head.list.state = .running := passage.state.trans running
  cases turn_of_step ended with
  | stalls | fails => simp [charge, running]
  | ends _ _ _ _ performs => exact performs.notQueued running

end Execution

namespace Engine

variable {host : Host} {engine after final : Engine} {list later : DisplayList} {queue : Queue}
  {ending : Ending} {answer : Bool} {seen : List Occurrence}

/-- A list that waits for its first turn has it, or is turned away. -/
theorem Visits.notQueued_iff (visits : Visits host engine list ending later after seen)
    (queued : list.state = .queued)
    : later.state ≠ .queued ↔ ending ≠ .unmapped := by
  cases visits with
  | skips completed => simp [queued] at completed
  | misses => simp [queued]
  | runs _ _ ran =>
      refine iff_of_true (Execution.Runs.notQueued ran rfl) ?_
      rcases Execution.Runs.ending ran with rfl | rfl | rfl <;> simp

/-- What a list does over its time at the front is counted. -/
theorem Visits.tells (visits : Visits host engine list ending later after seen)
    (unfinished : list.state ≠ .completed)
    : engine.stats.Tells after.stats
        [⟨list, { ending, list := later, engine := after, trace := seen.toArray }⟩] seen := by
  have finishes := visits.announces.countP_isFinish
  rw [Occurrence.countP_isFinish_announced] at finishes
  have entered := visits.notQueued_iff
  cases visits with
  | skips completed => exact absurd completed unfinished
  | misses =>
      refine ⟨?_, rfl, rfl, rfl, ?_, finishes⟩
      · simp [Stint.starts, Stint.enters, Engine.count, Stats.count, present]
      · simp [Stint.starts, Stint.enters, Stint.turnedAway]
  | @runs _ _ _ last seen ran =>
      obtain ⟨_, _, counted⟩ := Execution.Runs.stats ran
      have started : last.list.state ≠ .queued := Execution.Runs.notQueued ran rfl
      have ran : ending ≠ .skipped ∧ ending ≠ .unmapped := by
        rcases Execution.Runs.ending ran with rfl | rfl | rfl <;> simp
      have stats : (((engine.present list).land last).count ending).stats
          = last.stats.count ending := rfl
      have launched : ((engine.present list).launch list).stats
          = { engine.stats with
              started := engine.stats.started + if list.state = .queued then 1 else 0 } := by
        simp only [launch, present]
        split <;> rfl
      rw [stats, counted, launched]
      refine ⟨?_, ?_, ?_, ?_, ?_, ?_⟩
      · simp [Stint.starts, Stint.enters, started, List.countP_singleton]
      · simp [Stint.finishes, List.countP_singleton]
      · rw [Stats.count_left _ _ ran.1, List.countP_singleton]
        rfl
      · simp [Stint.stalls, List.countP_singleton]
      · simp [Stint.enters, Stint.starts, Stint.turnedAway, started, ran.2, List.countP_singleton]
      · rw [filterMap_stalled fun _ => rfl] at finishes ⊢
        simp [finishes, Stint.finishes, List.countP_singleton]

-----------------------------------------------------------------------------------------
-- Drains
-----------------------------------------------------------------------------------------

/-- The first list of a queue comes to the front, and the others after it unless it stalls. -/
theorem Visits.stints_cons (visits : Visits host engine list ending later after seen)
    (rest : Queue)
    : stints host (list :: rest) engine
      = ⟨list, { ending, list := later, engine := after, trace := seen.toArray }⟩
        :: if ending.leaves then stints host rest after else [] := by
  rw [stints, visits.alone]

/-- What the lists of a queue do at the front is counted, list by list. -/
theorem Drains.tells (drains : Drains host queue engine answer final seen)
    (unfinished : ∀ list ∈ queue, list.state ≠ .completed)
    : engine.stats.Tells final.stats (stints host queue engine) seen := by
  induction drains with
  | empty => exact .of_nobody _ rfl
  | leaves visits leaving _ ih =>
      rw [List.forall_mem_cons] at unfinished
      rw [visits.stints_cons, if_pos leaving]
      exact ((visits.tells unfinished.1).trans (ih unfinished.2)).notice _
  | stays visits =>
      rw [List.forall_mem_cons] at unfinished
      rw [visits.stints_cons]
      exact (visits.tells unfinished.1).notice _

/-- All lists of a queue but the last one that comes to the front leave it. -/
theorem Drains.leaves_of_dropLast (drains : Drains host queue engine answer final seen)
    : ∀ stint ∈ (stints host queue engine).dropLast, stint.leaves := by
  induction drains with
  | empty => simp [stints]
  | @leaves _ _ rest _ after _ _ _ _ _ visits leaving _ ih =>
      rw [visits.stints_cons, if_pos leaving]
      cases others : stints host rest after with
      | nil => simp
      | cons second more =>
          rw [List.dropLast_cons_cons, List.forall_mem_cons]
          exact ⟨leaving, others ▸ ih⟩
  | stays visits =>
      rw [visits.stints_cons]
      simp [Ending.leaves]

/-- A drain has at most one list that stalls, which ends it. -/
theorem Drains.countP_stalls (drains : Drains host queue engine answer final seen)
    : (stints host queue engine).countP Stint.stalls
      = if endsStalled (stints host queue engine) then 1 else 0 := by
  refine countP_of_dropLast fun stint member => ?_
  have leaving := drains.leaves_of_dropLast stint member
  rw [Stint.leaves, Ending.leaves_iff] at leaving
  simpa [Stint.stalls] using leaving

/-- Of the lists of a queue those that have left it and those that are still in it are all, and of
those that have not had their first turn the ones that have had it now and the others.
-/
theorem Drains.turnover (drains : Drains host queue engine answer final seen)
    : Turnover queue final.queue [] (stints host queue engine) := by
  induction drains with
  | empty => exact .of_same rfl rfl
  | @leaves list _ rest _ _ _ _ _ _ _ visits leaving _ ih =>
      rw [visits.stints_cons, if_pos leaving]
      exact (Turnover.leaves list rest _ leaving).trans ih
  | stays visits =>
      rw [visits.stints_cons]
      exact Turnover.stays _ _ nofun visits.continues.id (by simp [visits.stalled.2])

end Engine

end GraphicsEngine
