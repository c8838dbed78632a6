import GraphicsEngine.Proofs.Engine.Restoration
import GraphicsEngine.Proofs.Engine.Waiting

/-! What an engine looks like between operations: it has nothing to do, or the list at its front
waits and the lists behind it have not been touched since they joined, unless another list was put
in front of them.
-/

namespace GraphicsEngine

-----------------------------------------------------------------------------------------
-- Lists that do not run
-----------------------------------------------------------------------------------------

/-- The list has joined the queue and has not been at the front yet. -/
structure DisplayList.Untouched (list : DisplayList)
    : Prop where
  queued : list.state = .queued
  pc : list.pc = list.start
  stack : list.stack = []
  token : list.token = 0
  signal : list.signal = 0

/-- A list behind the front has not been touched, or is one of those that another list was put in
front of while they ran.
-/
def DisplayList.RestsBehind (list : DisplayList) (preempted : List ListId)
    : Prop :=
  (list.state = .running ∧ list.id ∈ preempted) ∨ list.Untouched

namespace DisplayList.RestsBehind

variable {list : DisplayList} {preempted : List ListId}

theorem fresh (id : ListId) (start stall : Address) (channel : Int32)
    : (DisplayList.fresh id start stall channel).RestsBehind preempted :=
  .inr ⟨rfl, rfl, rfl, rfl, rfl⟩

/-- It makes no difference where a list behind the front waits. -/
theorem withStall (rests : list.RestsBehind preempted) (stall : Address)
    : (list.withStall stall).RestsBehind preempted :=
  rests.imp_right fun untouched => { untouched with }

theorem mono {others : List ListId} (rests : list.RestsBehind preempted)
    (subset : preempted ⊆ others)
    : list.RestsBehind others :=
  rests.imp_left fun running => running.imp_right fun member => subset member

/-- A list behind the front is neither done with nor paused. -/
theorem state (rests : list.RestsBehind preempted)
    : list.state ≠ .completed ∧ list.state ≠ .paused := by
  rcases rests with ⟨running, -⟩ | untouched
  · simp [running]
  · simp [untouched.queued]

end DisplayList.RestsBehind

namespace Operation

/-- The lists that others have been put in front of since the engine was built or cleared: those
before an operation, and the first one if the operation puts a list in front of it.
-/
def preempted (engine : Engine) (before : List ListId)
    : Operation → List ListId
  | enqueue _ _ _ true => (Queue.ids engine.queue).take 1 ++ before
  | reset => []
  | _ => before

theorem subset_preempted {operation : Operation} (keeping : operation ≠ .reset) (engine : Engine)
    (before : List ListId)
    : before ⊆ operation.preempted engine before := by
  cases operation with
  | enqueue _ _ _ head =>
      cases head with
      | true => exact List.subset_append_right ..
      | false => exact List.Subset.refl before
  | reset => exact absurd rfl keeping
  | _ => exact List.Subset.refl before

end Operation

namespace Engine

-----------------------------------------------------------------------------------------
-- Engines at rest
-----------------------------------------------------------------------------------------

/-- The engine has no list, or the first one waits and all others rest behind it. -/
def AtRest (engine : Engine) (preempted : List ListId)
    : Prop :=
  (engine.queue = [] ∧ engine.current = none)
  ∨ ∃ front rest,
      engine.Waits front rest ∧ ∀ other ∈ rest, other.RestsBehind preempted

variable {host : Host} {engine ready after final : Engine} {front : DisplayList}
  {queue rest : Queue} {answer : Bool} {seen : List Occurrence} {operation : Operation}
  {before : Trace} {preempted : List ListId}

theorem AtRest.behind (atRest : engine.AtRest preempted)
    : ∀ other ∈ engine.queue.tail, other.RestsBehind preempted := by
  rcases atRest with ⟨empty, -⟩ | ⟨front, rest, waits, behind⟩
  · simp [empty]
  · rw [waits.queue]
    exact behind

/-- Every list of an engine at rest rests behind one that is put in front of all of them. -/
theorem AtRest.behind_head (atRest : engine.AtRest preempted)
    : ∀ other ∈ engine.queue, other.RestsBehind ((Queue.ids engine.queue).take 1 ++ preempted) := by
  rcases atRest with ⟨empty, -⟩ | ⟨front, rest, waits, behind⟩
  · simp [empty]
  · rw [waits.queue]
    intro other member
    rcases List.mem_cons.mp member with rfl | member
    · exact .inl ⟨waits.running, List.mem_cons_self⟩
    · exact (behind other member).mono (List.subset_append_right ..)

/-- An engine at rest is at rest as long as its lists and the current one stay. -/
theorem AtRest.of_same {others : List ListId} (atRest : engine.AtRest preempted)
    (subset : preempted ⊆ others) (queue : after.queue = engine.queue)
    (current : after.current = engine.current)
    : after.AtRest others := by
  rcases atRest with ⟨empty, none⟩ | ⟨front, rest, waits, behind⟩
  · exact .inl ⟨queue.trans empty, current.trans none⟩
  · exact .inr ⟨front, rest,
      ⟨queue.trans waits.queue, current.trans waits.current, waits.running, waits.stalled⟩,
      fun other member => (behind other member).mono subset⟩

/-- Lists that were not at the front when the queue was run are behind those that are at the front
now, or have run.
-/
theorem Drains.tail_suffix (drains : Drains host queue engine answer final seen)
    : final.queue.tail <:+ queue.tail := by
  rcases drains.front with ⟨-, emptied, -⟩ | ⟨earlier, list, rest, _, later, _, _, stopped⟩
  · rw [emptied]
    exact List.nil_suffix
  · obtain ⟨-, rfl, -, rfl⟩ := stopped
    cases earlier with
    | nil => exact List.suffix_rfl
    | cons first others => exact (List.suffix_cons list rest).trans (List.suffix_append others _)

/-- Running the queue leaves an engine at rest, if the lists behind the first one rest. -/
theorem atRest_of_drainInto {trace : Trace} {outcome : Outcome Bool}
    (drained : engine.drainInto host trace = some outcome)
    (behind : ∀ other ∈ engine.queue.tail, other.RestsBehind preempted)
    : outcome.engine.AtRest preempted := by
  obtain ⟨final, seen, drains, settled, -⟩ := drainInto_eq_some_iff.mp drained
  cases empty : outcome.answer with
  | true =>
      rw [empty] at drains
      rcases drains.front with ⟨-, emptied, none⟩ | ⟨_, _, _, _, _, _, _, stopped⟩
      · exact .inl ⟨by rw [settled]; exact emptied, by rw [settled]; exact none⟩
      · cases stopped.1
  | false =>
      obtain ⟨front, rest, waits⟩ := waits_of_drainInto drained empty
      refine .inr ⟨front, rest, waits, fun other member => ?_⟩
      have left : rest = final.queue.tail := by
        have queue : final.settle.queue = front :: rest := settled ▸ waits.queue
        exact (congrArg List.tail queue).symm
      exact behind other (drains.tail_suffix.subset (left ▸ member))

/-- What an operation makes ready to be run leaves the lists behind the first one at rest, case by
case on where a list joins.
-/
theorem AtRest.readied {answer : Bool → Answer} (atRest : engine.AtRest preempted)
    (readies : operation.Readies engine ready before answer)
    : ∀ other ∈ ready.queue.tail,
        other.RestsBehind (operation.preempted engine preempted) := by
  cases readies with
  | enqueue list stall channel head =>
      cases head with
      | true => exact atRest.behind_head
      | false =>
          intro other member
          let joining : DisplayList := .fresh engine.nextId list stall channel
          have joined : other ∈ (engine.queue ++ [joining]).tail := member
          rw [List.tail_append] at joined
          split at joined
          · cases joined
          · rcases List.mem_append.mp joined with member | member
            · exact atRest.behind other member
            · exact List.mem_singleton.mp member ▸ .fresh ..
  | moveStall id stall =>
      intro other member
      rw [Queue.moveStall, ← List.map_tail] at member
      obtain ⟨origin, listed, rfl⟩ := List.mem_map.mp member
      split
      · exact (atRest.behind origin listed).withStall stall
      · exact atRest.behind origin listed
  | drain | endService => exact atRest.behind

-----------------------------------------------------------------------------------------
-- Engines that have lived
-----------------------------------------------------------------------------------------

/-- The engines that operations lead to from new ones, where what is loaded has been saved by such
an engine, and the lists that others have been put in front of on the way. Loading what is refused
changes nothing.
-/
inductive Lived
    : Engine → List ListId → Prop
  | built (config : Config) : Lived (initial config) []
  | perform {engine : Engine} {preempted : List ListId} {host : Host} {operation : Operation}
    {outcome : Outcome Answer} (lived : Lived engine preempted)
    (keeps : ∀ bytes, operation ≠ .load bytes)
    (performed : operation.perform host engine = some outcome)
    : Lived outcome.engine (operation.preempted engine preempted)
  | load {engine origin : Engine} {preempted others : List ListId} {bytes : Bytes}
    {outcome : Outcome Unit} (lived : Lived engine preempted) (saver : Lived origin others)
    (saved : origin.save = .ok bytes) (loaded : engine.load bytes = .ok outcome)
    : Lived outcome.engine others

theorem Lived.sound (lived : engine.Lived preempted)
    : engine.Sound := by
  induction lived with
  | built config => exact initial_sound config
  | perform _ _ performed ih => exact ih.perform (Operation.performs_of_perform performed)
  | load _ _ _ loaded => exact load_sound loaded

/-- Every operation but the loading of a snapshot leaves an engine at rest. -/
theorem AtRest.perform {outcome : Outcome Answer} (atRest : engine.AtRest preempted)
    (keeps : ∀ bytes, operation ≠ .load bytes)
    (performed : operation.perform host engine = some outcome)
    : outcome.engine.AtRest (operation.preempted engine preempted) := by
  by_cases resetting : operation = .reset
  · subst resetting
    cases performed
    exact .inl ⟨rfl, rfl⟩
  · have subset := Operation.subset_preempted resetting engine preempted
    cases Operation.performs_of_perform performed with
    | drains readies drained => exact atRest_of_drainInto drained (atRest.readied readies)
    | serves | sets | rests => exact atRest.of_same subset rfl rfl
    | resets => exact absurd rfl resetting
    | loads => exact absurd rfl (keeps _)

/-- Engines are at rest between operations, operation by operation. -/
theorem Lived.atRest (lived : engine.Lived preempted)
    : engine.AtRest preempted := by
  induction lived with
  | built => exact .inl ⟨rfl, rfl⟩
  | perform _ keeps performed ih => exact ih.perform keeps performed
  | load _ saver saved loaded _ ih =>
      have restored := load_of_save saver.sound saved loaded
      exact ih.of_same (List.Subset.refl _) (by rw [restored]) (by rw [restored])

-----------------------------------------------------------------------------------------
-- What programs are told
-----------------------------------------------------------------------------------------

/-- The first list of a queue is found by its number. -/
theorem Waits.list?_eq (waits : engine.Waits front rest)
    : engine.list? front.id = some front := by
  simp [list?, Queue.get?, waits.queue]

/-- Of an engine whose first list waits a program is told that it is stalled. -/
theorem Waits.drawSync (waits : engine.Waits front rest)
    : engine.drawSync 1 = .ok (.stalling, #[]) := by
  have peek : SyncMode.ofCode 1 = .ok .peek := rfl
  have current : engine.currentList? = some front := by
    rw [currentList?, waits.current, Option.bind_some, waits.list?_eq]
  rw [Engine.drawSync, peek, current]
  dsimp only
  rw [if_pos waits.stalled]

theorem Waits.listSync (waits : engine.Waits front rest)
    : engine.listSync front.id 1 = .ok (.stalling, #[]) := by
  have peek : SyncMode.ofCode 1 = .ok .peek := rfl
  rw [Engine.listSync, peek, waits.list?_eq]
  dsimp only
  rw [progress, waits.running]
  dsimp only
  rw [if_pos waits.stalled]

/-- Of an engine that has no current list a program is told that all is completed. -/
theorem drawSync_of_idle (idle : engine.current = none)
    : engine.drawSync 1 = .ok (.completed, #[]) := by
  have peek : SyncMode.ofCode 1 = .ok .peek := rfl
  have current : engine.currentList? = none := by
    rw [currentList?, idle, Option.bind_none]
  rw [Engine.drawSync, peek, current]

/-- Between operations an engine has no list and says so, or its first list waits where more
commands are to come and the engine says so. All other lists have not been touched since they
joined, or were running when another one was put in front of them. No list is completed or paused,
and the engine never says that it is drawing.
-/
theorem Lived.quiescent (lived : engine.Lived preempted)
    : ((engine.queue = [] ∧ engine.current = none
          ∧ engine.drawSync 1 = .ok (.completed, #[]))
        ∨ ∃ front rest,
            engine.queue = front :: rest
            ∧ engine.current = some front.id
            ∧ front.state = .running
            ∧ front.pc = front.stall
            ∧ engine.drawSync 1 = .ok (.stalling, #[])
            ∧ engine.listSync front.id 1 = .ok (.stalling, #[])
            ∧ ∀ other ∈ rest,
                (other.state = .running ∧ other.id ∈ preempted) ∨ other.Untouched)
      ∧ (∀ list ∈ engine.queue, list.state ≠ .completed ∧ list.state ≠ .paused)
      ∧ ∀ trace, engine.drawSync 1 ≠ .ok (.drawing, trace) := by
  rcases lived.atRest with ⟨empty, idle⟩ | ⟨front, rest, waits, behind⟩
  · have told := drawSync_of_idle idle
    refine ⟨.inl ⟨empty, idle, told⟩, by simp [empty], fun trace drawing => ?_⟩
    cases told.symm.trans drawing
  · have told := waits.drawSync
    have standing : front.pc = front.stall := by
      simpa [DisplayList.isStalled] using waits.stalled
    refine ⟨.inr ⟨front, rest, waits.queue, waits.current, waits.running, standing, told,
      waits.listSync, behind⟩, ?_, fun trace drawing => ?_⟩
    · rw [waits.queue]
      exact List.forall_mem_cons.mpr ⟨by simp [waits.running], fun other member =>
        (behind other member).state⟩
    · cases told.symm.trans drawing

/-- A list is put in front of a waiting one, and another one joins behind them. -/
def puttingInFront : List Request :=
  [⟨blankHost, .enqueue 0x08000010 0x08000010 (-1) true⟩,
    ⟨blankHost, .enqueue 0x08000020 0x08000020 (-1) false⟩]

/-- The list in front waits, the one that waited before has been preempted, and the last one has not
been touched.
-/
theorem quiescent_puttingInFront
    : ∃ episodes,
        waiting.performAll puttingInFront = some episodes
        ∧ (waiting.after episodes).Lived [1]
        ∧ Queue.ids (waiting.after episodes).queue = [2, 1, 3]
        ∧ (waiting.after episodes).drawSync 1 = .ok (.stalling, #[])
        ∧ (waiting.after episodes).listSync 2 1 = .ok (.stalling, #[])
        ∧ ∀ other ∈ (waiting.after episodes).queue.tail,
            (other.state = .running ∧ other.id ∈ [1]) ∨ other.Untouched := by
  have known : (waiting.performAll puttingInFront).map
      (fun episodes => Queue.ids (waiting.after episodes).queue) = some [2, 1, 3] := by
    decide +kernel
  obtain ⟨episodes, performed, ids⟩ := Option.map_eq_some_iff.mp known
  have lived : (waiting.after episodes).Lived [1] := by
    obtain ⟨_, _, first, later, rfl⟩ := performAll_cons_eq_some_iff.mp performed
    obtain ⟨_, _, second, last, rfl⟩ := performAll_cons_eq_some_iff.mp later
    cases last
    have began : waiting.Lived [] := .perform (.built {}) (by simp) perform_waiting
    exact .perform (.perform began (by simp) first) (by simp) second
  rcases lived.quiescent.1 with ⟨empty, -⟩ | ⟨front, rest, queue, -, -, -, told, listTold, behind⟩
  · simp [empty, Queue.ids] at ids
  · have number : front.id = 2 := by
      rw [queue] at ids
      exact (List.cons.inj ids).1
    refine ⟨episodes, performed, lived, ids, told, number ▸ listTold, ?_⟩
    rw [queue]
    exact behind

end Engine

end GraphicsEngine
