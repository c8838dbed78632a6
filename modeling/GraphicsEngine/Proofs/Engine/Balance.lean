import GraphicsEngine.Proofs.Engine.Attendance
import GraphicsEngine.Proofs.Engine.Delivery
import GraphicsEngine.Proofs.Engine.Quiescence
import Mathlib.Data.List.Nodup

/-! The counters balance over the life of an engine: every list that has joined is in the queue or
has left it once, as completed or as aborted, and has been started once unless it still waits for
its first turn or was turned away.
-/

namespace GraphicsEngine

-----------------------------------------------------------------------------------------
-- One operation
-----------------------------------------------------------------------------------------

/-- Moving a stall address gives no list its first turn. -/
theorem Queue.ids_queued_moveStall (queue : Queue) (id : ListId) (stall : Address)
    : ids (moveStall queue id stall).queued = ids queue.queued := by
  have same : (fun list : DisplayList => decide (list.state = .queued))
      ∘ (fun list => if list.id == id then list.withStall stall else list)
      = fun list => decide (list.state = .queued) := by
    funext list
    simp only [Function.comp_apply]
    split <;> rfl
  rw [queued, moveStall, List.filter_map, same]
  exact ids_moveStall queue.queued id stall

namespace Operation

/-- The engine that an operation takes up to run its queue. -/
def ready (engine : Engine)
    : Operation → Engine
  | enqueue list stall channel head => engine.join list stall channel head
  | moveStall id stall => { engine with queue := Queue.moveStall engine.queue id stall }
  | endService =>
      { engine with interrupts := { engine.interrupts with serving := false, pending := #[] } }
  | _ => engine

/-- The lists that come to the front while an operation is performed; none if it does not run the
queue.
-/
def stints (host : Host) (engine : Engine) (operation : Operation)
    : List Stint :=
  if operation.runsQueue then
    Engine.stints host (operation.ready engine).queue ((operation.ready engine).takeUp host.ticks)
  else
    []

/-- A list joins the queue. -/
def enqueues
    : Operation → Bool
  | enqueue _ _ _ _ => true
  | _ => false

variable {engine ready : Engine} {operation : Operation} {before : Trace} {answer : Bool → Answer}

theorem Readies.ready_eq (readies : operation.Readies engine ready before answer)
    : operation.ready engine = ready := by
  cases readies <;> rfl

/-- What is made ready to be run is the queue and the list that joins it. -/
theorem Readies.turnover (readies : operation.Readies engine ready before answer)
    : Turnover engine.queue ready.queue (Queue.ids (operation.joining engine)) [] := by
  cases readies with
  | enqueue list stall channel head =>
      cases head with
      | true =>
          exact ⟨(List.perm_append_singleton engine.nextId _).symm,
            (List.perm_append_singleton engine.nextId _).symm⟩
      | false =>
          refine ⟨.of_eq ?_, .of_eq ?_⟩
          · simp [Engine.join, joining, Queue.ids, Queue.pushBack]
          · simp [Engine.join, joining, Queue.ids, Queue.queued, Queue.pushBack, DisplayList.fresh]
  | moveStall id stall =>
      exact .of_same (Queue.ids_moveStall ..) (Queue.ids_queued_moveStall ..)
  | drain | endService => exact .of_same rfl rfl

end Operation

namespace Engine

/-- What the counters and the queue of an engine have to do with those of an earlier one, when lists
with the given numbers joined and the given ones were at the front, drain by drain.
-/
structure Books (engine after : Engine) (joined : List ListId) (drains : List (List Stint))
    (seen : List Occurrence)
    : Prop where
  tells : engine.stats.Tells after.stats drains.flatten seen
  turnover : Turnover engine.queue after.queue joined drains.flatten
  stalled : drains.flatten.countP Stint.stalls = drains.countP endsStalled

/-- Two stretches of time, one right after the other, are one. -/
theorem Books.trans {first second third : Engine} {joined later : List ListId}
    {drains others : List (List Stint)} {seen more : List Occurrence}
    (earlier : first.Books second joined drains seen)
    (behind : second.Books third later others more)
    : first.Books third (joined ++ later) (drains ++ others) (seen ++ more) where
  tells := by
    rw [List.flatten_append]
    exact earlier.tells.trans behind.tells
  turnover := by
    rw [List.flatten_append]
    exact earlier.turnover.trans behind.turnover
  stalled := by
    rw [List.flatten_append, List.countP_append, List.countP_append, earlier.stalled,
      behind.stalled]

variable {host : Host} {engine ready : Engine} {operation : Operation} {preempted : List ListId}
  {outcome : Outcome Answer} {before : Trace} {answer : Bool → Answer}

/-- No list of an engine at rest has been completed. -/
theorem AtRest.unfinished (atRest : engine.AtRest preempted)
    : ∀ list ∈ engine.queue, list.state ≠ .completed := by
  rcases atRest with ⟨empty, -⟩ | ⟨front, rest, waits, behind⟩
  · simp [empty]
  · rw [waits.queue]
    exact List.forall_mem_cons.mpr ⟨by simp [waits.running], fun other member =>
      (behind other member).state.1⟩

/-- A trace that tells of nothing tells of no list's end. -/
theorem countP_isFinish_of_events {trace : Trace} (silent : trace.events = [])
    : (trace.toList.filterMap Occurrence.event?).countP Event.isFinish = 0 := by
  rw [← Array.toList_filterMap]
  exact congrArg (List.countP Event.isFinish) silent

/-- A drain keeps the books. -/
theorem Drains.books {final : Engine} {answer : Bool} {seen : List Occurrence}
    (drains : Drains host engine.queue (engine.takeUp host.ticks) answer final seen)
    (unfinished : ∀ list ∈ engine.queue, list.state ≠ .completed)
    : engine.Books final.settle [] [stints host engine.queue (engine.takeUp host.ticks)] seen := by
  have tells := drains.tells unfinished
  have only : [stints host engine.queue (engine.takeUp host.ticks)].flatten
      = stints host engine.queue (engine.takeUp host.ticks) := List.flatten_singleton
  refine ⟨?_, ?_, ?_⟩
  · rw [only]
    exact ⟨tells.started, tells.completed, tells.left, tells.stalls, tells.entered, tells.finishes⟩
  · rw [only]
    exact drains.turnover
  · rw [only, drains.countP_stalls, List.countP_singleton]

/-- An operation that does not run the queue changes nothing but what is known about interrupts, and
has no effect that is seen.
-/
theorem quiet_of_perform (quiet : operation.isQuiet)
    (performed : operation.perform host engine = some outcome)
    : outcome.engine = { engine with interrupts := outcome.engine.interrupts }
      ∧ outcome.trace.events = [] ∧ operation.joining engine = [] ∧ ¬operation.runsQueue := by
  have nobody : operation.joining engine = [] ∧ ¬operation.runsQueue := by
    cases operation with
    | enqueue | moveStall | drain | endService => cases quiet
    | _ => exact ⟨rfl, nofun⟩
  cases Operation.performs_of_perform performed with
  | drains readies => cases readies <;> cases quiet
  | resets | loads => cases quiet
  | serves | sets => exact ⟨rfl, rfl, nobody⟩
  | rests _ trace silent =>
      have none : Occurrence.effects trace.toList = [].map .delivered := silent
      exact ⟨rfl, (Trace.of_effects_eq_delivered none).2.1, nobody⟩

/-- An operation keeps the books, if it runs the queue or leaves it as it is. -/
theorem AtRest.books (atRest : engine.AtRest preempted) (carries : operation.carriesOn)
    (performed : operation.perform host engine = some outcome)
    : engine.Books outcome.engine (Queue.ids (operation.joining engine))
        [operation.stints host engine] outcome.trace.toList := by
  rcases Bool.or_eq_true_iff.mp carries with runs | quiet
  · obtain ⟨ready, before, answer, readies⟩ := Operation.exists_readies runs engine
    rw [readies.perform] at performed
    obtain ⟨drained, ran, rfl⟩ := Option.map_eq_some_iff.mp performed
    obtain ⟨final, seen, drains, settled, traced⟩ := drainInto_eq_some_iff.mp ran
    have readied : engine.Books ready (Queue.ids (operation.joining engine)) [] before.toList :=
      ⟨readies.stats ▸ .of_nobody _ (countP_isFinish_of_events readies.events), readies.turnover,
        rfl⟩
    have unfinished : ∀ list ∈ ready.queue, list.state ≠ .completed :=
      readies.forall_mem atRest.unfinished (by simp [DisplayList.fresh]) fun _ _ kept => kept
    have books := readied.trans (drains.books unfinished)
    have shown : (Operation.answerWith drained answer).trace.toList = before.toList ++ seen :=
      (congrArg Array.toList traced).trans (by simp)
    have after : (Operation.answerWith drained answer).engine = final.settle := settled
    rw [List.append_nil] at books
    rw [Operation.stints, if_pos runs, readies.ready_eq, shown, after]
    exact books
  · obtain ⟨kept, silent, nobody, rests⟩ := quiet_of_perform quiet performed
    rw [Operation.stints, if_neg rests, nobody, kept]
    exact ⟨.of_nobody _ (countP_isFinish_of_events silent), .of_same rfl rfl, rfl⟩

-----------------------------------------------------------------------------------------
-- Series of operations
-----------------------------------------------------------------------------------------

/-- The numbers that were given to lists over a series of operations, in order. -/
def numbers (episodes : List Episode)
    : List ListId :=
  episodes.flatMap fun episode => Queue.ids (episode.operation.joining episode.before)

/-- Which lists came to the front over a series of operations, operation by operation. -/
def attendance (requests : List Request) (episodes : List Episode)
    : List (List Stint) :=
  requests.zipWith (fun request episode => episode.operation.stints request.host episode.before)
    episodes

/-- A series of operations keeps the books, operation by operation: between them the engine is at
rest.
-/
theorem AtRest.books_of_performAll {requests : List Request} {episodes : List Episode}
    (atRest : engine.AtRest preempted) (carries : ∀ request ∈ requests, request.operation.carriesOn)
    (performed : engine.performAll requests = some episodes)
    : engine.Books (engine.after episodes) (numbers episodes) (attendance requests episodes)
        (showing episodes).toList := by
  induction requests generalizing engine episodes preempted with
  | nil =>
      cases performed
      exact ⟨.of_nobody _ rfl, .of_same rfl rfl, rfl⟩
  | cons request rest ih =>
      rw [List.forall_mem_cons] at carries
      obtain ⟨outcome, others, first, later, rfl⟩ := performAll_cons_eq_some_iff.mp performed
      have keeps : ∀ bytes, request.operation ≠ .load bytes := by
        intro bytes load
        have stops := carries.1
        rw [load] at stops
        cases stops
      have books := ih (atRest.perform keeps first) carries.2 later
      exact (atRest.books carries.1 first).trans books

/-- How many lists join over a series of operations. -/
def enqueued (requests : List Request)
    : Nat :=
  requests.countP (·.operation.enqueues)

theorem toNat_followingId {id : ListId} (room : id.toNat + 1 < UInt32.size)
    : (followingId id).toNat = id.toNat + 1 := by
  have next : (id + 1).toNat = id.toNat + 1 := by
    rw [UInt32.toNat_add]
    exact Nat.mod_eq_of_lt room
  have given : id + 1 ≠ 0 := by
    intro zero
    simp [zero] at next
  rw [followingId, if_neg given, next]

/-- The number after the last one that was given to a list that joins is the next one. -/
theorem nextId_of_perform (carries : operation.carriesOn)
    (performed : operation.perform host engine = some outcome)
    : Queue.ids (operation.joining engine) = (if operation.enqueues then [engine.nextId] else [])
      ∧ outcome.engine.nextId
        = if operation.enqueues then followingId engine.nextId else engine.nextId := by
  rcases Bool.or_eq_true_iff.mp carries with runs | quiet
  · obtain ⟨ready, before, answer, readies⟩ := Operation.exists_readies runs engine
    rw [readies.perform] at performed
    obtain ⟨drained, ran, rfl⟩ := Option.map_eq_some_iff.mp performed
    obtain ⟨final, seen, drains, settled, -⟩ := drainInto_eq_some_iff.mp ran
    have kept : (Operation.answerWith drained answer).engine.nextId = ready.nextId :=
      (congrArg Engine.nextId settled).trans drains.settings.2
    rw [kept]
    cases readies <;> exact ⟨rfl, rfl⟩
  · rw [(quiet_of_perform quiet performed).1]
    cases operation with
    | enqueue | moveStall | drain | endService => cases quiet
    | _ => exact ⟨rfl, rfl⟩

/-- As long as there are numbers left, lists get them one after the other. -/
theorem numbers_of_performAll {requests : List Request} {episodes : List Episode}
    (carries : ∀ request ∈ requests, request.operation.carriesOn)
    (few : engine.nextId.toNat + enqueued requests < UInt32.size)
    (performed : engine.performAll requests = some episodes)
    : (numbers episodes).map UInt32.toNat = List.range' engine.nextId.toNat (enqueued requests)
      ∧ (engine.after episodes).nextId.toNat = engine.nextId.toNat + enqueued requests := by
  induction requests generalizing engine episodes with
  | nil =>
      cases performed
      exact ⟨rfl, rfl⟩
  | cons request rest ih =>
      rw [List.forall_mem_cons] at carries
      obtain ⟨outcome, others, first, later, rfl⟩ := performAll_cons_eq_some_iff.mp performed
      obtain ⟨joined, next⟩ := nextId_of_perform carries.1 first
      have behind : (engine.after (⟨request.operation, engine, outcome⟩ :: others))
          = outcome.engine.after others := rfl
      rw [numbers, List.flatMap_cons, ← numbers, joined, behind]
      rw [enqueued, List.countP_cons, ← enqueued] at few ⊢
      by_cases joins : request.operation.enqueues
      · simp only [if_pos joins] at few next ⊢
        have number : outcome.engine.nextId.toNat = engine.nextId.toNat + 1 := by
          rw [next]
          exact toNat_followingId (by omega)
        obtain ⟨given, last⟩ := ih carries.2 (by omega) later
        rw [List.range'_succ, List.map_append, given, last, number]
        exact ⟨rfl, by omega⟩
      · simp only [if_neg joins] at few next ⊢
        rw [← next] at few ⊢
        exact ih carries.2 few later

/-- What the counters of an engine say after so many lists have joined, when the given lists were at
the front, drain by drain, and the renderer was told of the events.
-/
structure Balanced (engine : Engine) (joined : Nat) (drains : List (List Stint))
    (events : List Event)
    : Prop where
  numbers : engine.nextId.toNat = joined + 1
  /-- Every list has been completed or aborted or is in the queue. -/
  lists : engine.stats.completed + engine.stats.aborted + engine.queue.length = joined
  finishes : events.countP Event.isFinish = engine.stats.completed
  stalls : engine.stats.stalls = drains.countP endsStalled
  /-- Every list has been started or turned away or waits for its first turn. -/
  entered
    : engine.stats.started + engine.queue.queued.length + drains.flatten.countP Stint.turnedAway
      = joined
  started : engine.stats.started = drains.flatten.countP Stint.starts
  startedOnce : ((drains.flatten.filter Stint.starts).map Stint.id).Nodup
  completed : engine.stats.completed = drains.flatten.countP Stint.finishes
  finishedOnce : ((drains.flatten.filter Stint.finishes).map Stint.id).Nodup

/-- Lists of which none joins twice come to the front for the first time once, and leave once. -/
theorem nodup_of_turnover {left : Queue} {joined : List ListId} {stints : List Stint}
    (turnover : Turnover [] left joined stints) (distinct : joined.Nodup)
    : ((stints.filter Stint.enters).map Stint.id).Nodup
      ∧ ((stints.filter Stint.leaves).map Stint.id).Nodup :=
  ⟨(List.nodup_append.mp (turnover.entering.nodup_iff.mpr distinct)).1,
    (List.nodup_append.mp (turnover.leaving.nodup_iff.mpr distinct)).1⟩

/-- Stints of some kind are of different lists if those of a wider kind are. -/
theorem nodup_filter_mono {stints : List Stint} {narrow wide : Stint → Bool}
    (within : ∀ stint, narrow stint → wide stint)
    (distinct : ((stints.filter wide).map Stint.id).Nodup)
    : ((stints.filter narrow).map Stint.id).Nodup :=
  distinct.sublist ((List.monotone_filter_right stints within).map Stint.id)

/-- Over every series of operations on a new engine that neither clears it nor loads a snapshot, as
long as there are numbers left, the counters balance: with the lists that joined, with those that
are in the queue, with the ends that the renderer was told of, and with the drains that came to a
stall. No list is started or finished twice, however often it is put off and resumed.
-/
theorem performAll_balances {requests : List Request} {episodes : List Episode}
    (begins : engine.Begins) (carries : ∀ request ∈ requests, request.operation.carriesOn)
    (few : enqueued requests < UInt32.size - 1)
    (performed : engine.performAll requests = some episodes)
    : (engine.after episodes).Balanced (enqueued requests) (attendance requests episodes)
        (showing episodes).events := by
  have new := begins.eq_initial
  have first : engine.nextId.toNat = 1 := by rw [new]; rfl
  have empty : engine.queue = [] := by rw [new]; rfl
  have blank : engine.stats = {} := by rw [new]; rfl
  have atRest : engine.AtRest [] := .inl ⟨empty, by rw [new]; rfl⟩
  obtain ⟨tells, turnover, stalled⟩ := atRest.books_of_performAll carries performed
  obtain ⟨given, next⟩ := numbers_of_performAll carries (by omega) performed
  rw [blank] at tells
  rw [empty] at turnover
  have distinct : (numbers episodes).Nodup :=
    .of_map UInt32.toNat (given ▸ List.nodup_range' 1)
  have count : (numbers episodes).length = enqueued requests := by
    simpa using congrArg List.length given
  obtain ⟨leaving, entering⟩ := turnover.count
  obtain ⟨enter, leave⟩ := nodup_of_turnover turnover distinct
  have started := tells.started.trans (Nat.zero_add _)
  have completed := tells.completed.trans (Nat.zero_add _)
  have left := tells.left.trans (Nat.zero_add _)
  have entered := tells.entered
  exact {
    numbers := by omega
    lists := by
      rw [left, leaving, count]
      exact Nat.zero_add _
    finishes := by
      rw [completed, ← tells.finishes, ← Array.toList_filterMap]
      rfl
    stalls := by rw [tells.stalls, stalled]; exact Nat.zero_add _
    entered := by
      rw [started, Nat.add_right_comm, ← entered, entering, count]
      exact Nat.zero_add _
    started
    startedOnce := nodup_filter_mono (fun stint starts => (Bool.and_eq_true_iff.mp starts).1) enter
    completed
    finishedOnce := nodup_filter_mono (fun stint finishes => by
      have ended : stint.visit.ending = .completed := by simpa [Stint.finishes] using finishes
      rw [Stint.leaves, ended]
      rfl) leave }

/-- A list that finishes, and one whose first word does nothing before it does. -/
def finishing : Host :=
  hostWith [0x0F000000, 0x0C000000, 0x00000000, 0x0F000001, 0x0C000000]

/-- A list waits behind its first word while another one is put in front of it; one that stands
where no memory is and one that waits at once join behind it before it is let go on; and a last one
is left to wait for its first turn.
-/
def takingTurns : List Request :=
  [⟨finishing, .enqueue 0x00010008 0x0001000C (-1) false⟩,
    ⟨finishing, .enqueue 0x00010000 0 (-1) true⟩,
    ⟨finishing, .enqueue 0 8 (-1) false⟩,
    ⟨finishing, .enqueue 0x00010000 0x00010000 (-1) false⟩,
    ⟨finishing, .moveStall 1 0⟩,
    ⟨finishing, .enqueue 0x00010000 0 (-1) false⟩]

/-- Of five lists two have been completed and one aborted, which has not been started; the first one
has been at the front five times and is counted once.
-/
theorem performAll_balances_takingTurns
    : ∃ episodes,
        (initial {}).Begins
        ∧ (∀ request ∈ takingTurns, request.operation.carriesOn)
        ∧ enqueued takingTurns < UInt32.size - 1
        ∧ (initial {}).performAll takingTurns = some episodes
        ∧ ((initial {}).after episodes).Balanced 5 (attendance takingTurns episodes)
            (showing episodes).events
        ∧ ((initial {}).after episodes).stats
          = { started := 3, completed := 2, aborted := 1, stalls := 6, commands := 5,
              totalCycles := 5 }
        ∧ Queue.ids ((initial {}).after episodes).queue = [4, 5]
        ∧ (attendance takingTurns episodes).flatten.countP (fun stint => stint.id = 1) = 5 := by
  have known : ((initial {}).performAll takingTurns).map (fun episodes =>
      (((initial {}).after episodes).stats, Queue.ids ((initial {}).after episodes).queue,
        (attendance takingTurns episodes).flatten.countP (fun stint => stint.id = 1)))
      = some ({ started := 3, completed := 2, aborted := 1, stalls := 6, commands := 5,
                totalCycles := 5 }, [4, 5], 5) := by decide +kernel
  obtain ⟨episodes, performed, shown⟩ := Option.map_eq_some_iff.mp known
  simp only [Prod.mk.injEq] at shown
  have begins : (initial {}).Begins := .built {}
  have carries : ∀ request ∈ takingTurns, request.operation.carriesOn := by decide
  have few : enqueued takingTurns < UInt32.size - 1 := by decide
  exact ⟨episodes, begins, carries, few, performed,
    performAll_balances begins carries few performed, shown⟩

end Engine

end GraphicsEngine
