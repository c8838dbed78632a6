import GraphicsEngine.Engine.Requests
import GraphicsEngine.Proofs.Execution.Turns

/-! What a drain is made of: the time of each list at the front, one list after the other. -/

namespace GraphicsEngine

theorem Ending.leaves_iff (ending : Ending)
    : ending.leaves ↔ ending ≠ .stalled := by
  cases ending <;> simp [leaves]

namespace Engine

-----------------------------------------------------------------------------------------
-- One list at the front
-----------------------------------------------------------------------------------------

@[simp] theorem present_config (engine : Engine) (list : DisplayList)
    : (engine.present list).config = engine.config :=
  rfl

/-- All that a list's time at the front can be: how it ended, the list and the engine after it, and
what happened.
-/
inductive Visits (host : Host) (engine : Engine) (list : DisplayList)
    : Ending → DisplayList → Engine → List Occurrence → Prop
  | skips (completed : list.state = .completed)
    : Visits host engine list .skipped list (engine.present list) []
  | misses (waiting : list.state ≠ .completed) (unmapped : ¬host.memory.isMapped list.pc)
    : Visits host engine list .unmapped list ((engine.present list).count .unmapped)
        [.notice (.unmappedStart list.id list.pc)]
  | runs (waiting : list.state ≠ .completed) (mapped : host.memory.isMapped list.pc)
    {ending : Ending} {last : Execution} {seen : List Occurrence}
    (ran : Execution.Runs host.memory engine.config.traceCommands host.fuel
      ((engine.present list).launch list) ending last seen)
    : Visits host engine list ending last.list (((engine.present list).land last).count ending)
        (if ending = .stalled then seen ++ [.notice (.stalled list.id)] else seen)

/-- A notice that a list has stalled is seen by no other view. -/
theorem filterMap_stalled {α : Type} {view : Occurrence → Option α}
    (blind : ∀ notice, view (.notice notice) = none) (ending : Ending) (seen : List Occurrence)
    (id : ListId)
    : (if ending = .stalled then seen ++ [.notice (.stalled id)] else seen).filterMap view
      = seen.filterMap view := by
  split
  · rw [List.filterMap_append, List.filterMap_cons_none (blind _), List.filterMap_nil,
      List.append_nil]
  · rfl

variable {host : Host} {engine after final : Engine} {list later : DisplayList} {queue : Queue}
  {ending : Ending} {seen : List Occurrence} {trace : Trace}

/-- A list that runs until it stalls is noticed to have stalled. -/
theorem Visits.stalls {last : Execution} (waiting : list.state ≠ .completed)
    (mapped : host.memory.isMapped list.pc)
    (ran : Execution.Runs host.memory engine.config.traceCommands host.fuel
      ((engine.present list).launch list) .stalled last seen)
    : Visits host engine list .stalled last.list (((engine.present list).land last).count .stalled)
        (seen ++ [.notice (.stalled list.id)]) :=
  .runs waiting mapped ran

/-- A list's time at the front is what a visit gives, case by case on what the visit tests. -/
theorem visit_eq_some_iff {visit : Visit}
    : engine.visit host list trace = some visit
      ↔ ∃ seen, Visits host engine list visit.ending visit.list visit.engine seen
          ∧ visit.trace = trace ++ seen := by
  constructor
  · intro visited
    simp only [Engine.visit] at visited
    split at visited
    · next completed =>
      cases visited
      exact ⟨_, .skips completed, by simp⟩
    · next waiting =>
      split at visited
      · next unmapped =>
        cases visited
        exact ⟨_, .misses waiting (by simpa using unmapped), by simp⟩
      · next mapped =>
        split at visited
        · cases visited
        · next ran =>
          cases visited
          obtain ⟨seen, runs, rfl⟩ := Execution.run_eq_some_iff.mp ran
          refine ⟨_, .runs waiting (by simpa using mapped) runs, ?_⟩
          split
          · rw [← Execution.append_append]
            simp
          · rfl
  · obtain ⟨ending, later, after, behind⟩ := visit
    intro holds
    obtain ⟨seen, visits, traced⟩ := holds
    dsimp only at visits traced
    rw [Engine.visit]
    cases visits with
    | skips completed => simp [completed, traced]
    | misses waiting unmapped => simp [waiting, unmapped, traced]
    | runs waiting mapped ran =>
        simp only [if_neg waiting, mapped, Bool.not_true, Bool.false_eq_true, if_false,
          present_config, ran.run, traced]
        split
        · rw [← Execution.append_append]
          simp
        · rfl

theorem Visits.visit (visits : Visits host engine list ending later after seen) (trace : Trace)
    : engine.visit host list trace
      = some { ending, list := later, engine := after, trace := trace ++ seen } :=
  visit_eq_some_iff.mpr ⟨seen, visits, rfl⟩

/-- A list spends its time at the front so whatever the clock shows, and with any more fuel. -/
theorem Visits.rehosted (visits : Visits host engine list ending later after seen) {other : Host}
    (memory : other.memory = host.memory) (enough : host.fuel ≤ other.fuel)
    : Visits other engine list ending later after seen := by
  cases visits with
  | skips completed => exact .skips completed
  | misses waiting unmapped => exact .misses waiting (memory ▸ unmapped)
  | runs waiting mapped ran =>
      obtain ⟨heads, head, early, late, passage, ended, fueled, traced⟩ := ran
      refine .runs waiting (memory ▸ mapped) ?_
      rw [memory]
      exact ⟨heads, head, early, late, passage, ended, Nat.lt_of_lt_of_le fueled enough, traced⟩

/-- A list spends its time at the front so whatever queue stands behind it. -/
theorem Visits.requeued (visits : Visits host engine list ending later after seen) (queue : Queue)
    : Visits host { engine with queue } list ending later { after with queue } seen := by
  cases visits with
  | skips completed => exact .skips completed
  | misses waiting unmapped => exact .misses waiting unmapped
  | runs waiting mapped ran => exact .runs waiting mapped ran

theorem Visits.retimed (visits : Visits host engine list ending later after seen) (ticks : UInt64)
    : Visits { host with ticks } engine list ending later after seen :=
  visits.rehosted rfl (Nat.le_refl _)

/-- A list's time at the front leaves alone what was settled before. -/
theorem Visits.continues (visits : Visits host engine list ending later after seen)
    : list.Continues later := by
  cases visits with
  | skips | misses => exact .refl list
  | runs _ _ ran =>
      have kept := Execution.Runs.continues ran
      exact ⟨kept.id, kept.start, kept.stall, kept.channel⟩

theorem Visits.settings (visits : Visits host engine list ending later after seen)
    : after.config = engine.config ∧ after.nextId = engine.nextId
      ∧ after.current = some list.id := by
  cases visits <;> exact ⟨rfl, rfl, rfl⟩

/-- A list that has stalled is running and stands where it waits. -/
theorem Visits.stalled (visits : Visits host engine list .stalled later after seen)
    : later.isStalled ∧ later.state = .running := by
  cases visits with
  | runs _ _ ran => exact Execution.Runs.stalled ran

/-- A list's time at the front leaves the next command at a masked address. -/
theorem Visits.isMasked (visits : Visits host engine list ending later after seen)
    (masked : list.pc.IsMasked)
    : later.pc.IsMasked := by
  cases visits with
  | skips | misses => exact masked
  | runs _ _ ran => exact Execution.Runs.isMasked ran masked

/-- The number of aborted lists never falls while a list is at the front. -/
theorem Visits.aborted_le (visits : Visits host engine list ending later after seen)
    : engine.stats.aborted ≤ after.stats.aborted := by
  cases visits with
  | skips => exact Nat.le_refl _
  | misses => exact Nat.le_succ _
  | @runs _ _ _ last _ ran =>
      have launched : ((engine.present list).launch list).stats.aborted
          = engine.stats.aborted := by
        simp only [launch]
        split <;> rfl
      obtain ⟨_, _, counted⟩ := Execution.Runs.stats ran
      have landed : last.stats.aborted = engine.stats.aborted := by
        rw [counted]
        exact launched
      have counts : last.stats.aborted ≤ (last.stats.count ending).aborted := by
        cases ending <;> simp [Stats.count]
      exact landed ▸ counts

-----------------------------------------------------------------------------------------
-- All lists
-----------------------------------------------------------------------------------------

/-- All that a queue's being run can be: whether it ran empty, the engine after it, and what
happened.
-/
inductive Drains (host : Host)
    : Queue → Engine → Bool → Engine → List Occurrence → Prop
  | empty (engine : Engine)
    : Drains host [] engine true { engine with queue := [], current := none } []
  | leaves {list later : DisplayList} {rest : Queue} {engine after final : Engine}
    {ending : Ending} {answer : Bool} {seen others : List Occurrence}
    (visits : Visits host engine list ending later after seen) (leaving : ending.leaves)
    (drains : Drains host rest after answer final others)
    : Drains host (list :: rest) engine answer final
        (.notice (.starting list.id list.pc list.stall) :: (seen ++ others))
  | stays {list later : DisplayList} {rest : Queue} {engine after : Engine}
    {seen : List Occurrence} (visits : Visits host engine list .stalled later after seen)
    : Drains host (list :: rest) engine false { after with queue := later :: rest }
        (.notice (.starting list.id list.pc list.stall) :: seen)

/-- Running a queue is the time of each list at the front, by induction on the queue one way and on
those times the other.
-/
theorem visitAll_eq_some_iff {outcome : Outcome Bool}
    : visitAll host queue engine trace = some outcome
      ↔ ∃ seen, Drains host queue engine outcome.answer outcome.engine seen
          ∧ outcome.trace = trace ++ seen := by
  constructor
  · intro drained
    induction queue generalizing engine trace with
    | nil =>
        cases drained
        exact ⟨[], .empty engine, by simp⟩
    | cons list rest ih =>
        rw [visitAll] at drained
        split at drained
        · cases drained
        · next visit visited =>
          obtain ⟨seen, visits, traced⟩ := visit_eq_some_iff.mp visited
          split at drained
          · next leaving =>
            obtain ⟨others, drains, ran⟩ := ih drained
            refine ⟨_, .leaves visits leaving drains, ?_⟩
            rw [ran, traced, Execution.append_append]
            simp
          · next staying =>
            have stalled : visit.ending = .stalled := by
              simpa [Ending.leaves_iff] using staying
            cases drained
            exact ⟨_, .stays (stalled ▸ visits), by simp [traced]⟩
  · obtain ⟨answer, final, behind⟩ := outcome
    intro holds
    obtain ⟨seen, drains, traced⟩ := holds
    dsimp only at drains traced
    subst traced
    induction drains generalizing trace with
    | empty => simp [visitAll]
    | leaves visits leaving _ ih =>
        rw [visitAll, visits.visit]
        simp only [leaving, if_true, ih]
        rw [Execution.append_append]
        simp
    | stays visits =>
        rw [visitAll, visits.visit]
        simp [Ending.leaves]

theorem Drains.visitAll {answer : Bool} (drains : Drains host queue engine answer final seen)
    (trace : Trace)
    : visitAll host queue engine trace
      = some { answer, engine := final, trace := trace ++ seen } :=
  visitAll_eq_some_iff.mpr ⟨seen, drains, rfl⟩

/-- A queue is run so whatever queue the engine itself holds, by induction on the lists. -/
theorem Drains.requeued {answer : Bool} (drains : Drains host queue engine answer final seen)
    (other : Queue)
    : Drains host queue { engine with queue := other } answer final seen := by
  induction drains with
  | empty engine => exact .empty { engine with queue := other }
  | leaves visits leaving _ ih => exact .leaves (visits.requeued other) leaving ih
  | @stays list later rest engine after happened visits =>
      exact @Drains.stays host list later rest _ { after with queue := other } _
        (visits.requeued other)

theorem visitAll_requeued (host : Host) (queue : Queue) (engine : Engine) (trace : Trace)
    (other : Queue)
    : visitAll host queue { engine with queue := other } trace
      = visitAll host queue engine trace := by
  refine Option.ext fun outcome => ?_
  rw [visitAll_eq_some_iff, visitAll_eq_some_iff]
  constructor
  · intro ⟨seen, drains, traced⟩
    exact ⟨seen, drains.requeued engine.queue, traced⟩
  · intro ⟨seen, drains, traced⟩
    exact ⟨seen, drains.requeued other, traced⟩

/-- The queue that the engine holds is run by taking the list in front, running the first list with
its number, and removing the first list with its number unless it stalled. These are all the list in
front, which keeps its number, even if lists behind it have the same one.
-/
theorem visitAll_by_number (host : Host) (engine : Engine) (trace : Trace)
    : visitAll host engine.queue engine trace
      = match engine.queue.head? with
        | none => some { answer := true, engine := { engine with current := none }, trace }
        | some front =>
            match engine.interpret host front.id
              (trace.push (.notice (.starting front.id front.pc front.stall))) with
            | none => none
            | some outcome =>
                if outcome.answer.leaves then
                  let queue := outcome.engine.queue.remove front.id
                  visitAll host queue { outcome.engine with queue } outcome.trace
                else
                  some { outcome with answer := false } := by
  cases held : engine.queue with
  | nil => simp [visitAll]
  | cons front rest =>
      have found : engine.list? front.id = some front := by
        rw [list?, held, Queue.get?_front]
      simp only [visitAll, List.head?_cons, interpret, found]
      cases visited : engine.visit host front
        (trace.push (.notice (.starting front.id front.pc front.stall))) with
      | none => rfl
      | some visit =>
          obtain ⟨seen, visits, -⟩ := visit_eq_some_iff.mp visited
          have removed : Queue.remove (visit.list :: rest) front.id = rest := by
            rw [← visits.continues.id, Queue.remove_front]
          simp only [held, Queue.replace_front, removed, visitAll_requeued]

/-- A queue is run so whatever the clock shows, and with any more fuel. -/
theorem Drains.rehosted {answer : Bool} (drains : Drains host queue engine answer final seen)
    {other : Host} (memory : other.memory = host.memory) (enough : host.fuel ≤ other.fuel)
    : Drains other queue engine answer final seen := by
  induction drains with
  | empty => exact .empty _
  | leaves visits leaving _ ih => exact .leaves (visits.rehosted memory enough) leaving ih
  | stays visits => exact .stays (visits.rehosted memory enough)

theorem Drains.retimed {answer : Bool} (drains : Drains host queue engine answer final seen)
    (ticks : UInt64)
    : Drains { host with ticks } queue engine answer final seen :=
  drains.rehosted rfl (Nat.le_refl _)

theorem Drains.settings {answer : Bool} (drains : Drains host queue engine answer final seen)
    : final.config = engine.config ∧ final.nextId = engine.nextId := by
  induction drains with
  | empty => exact ⟨rfl, rfl⟩
  | leaves visits _ _ ih => exact ⟨ih.1.trans visits.settings.1, ih.2.trans visits.settings.2.1⟩
  | stays visits => exact ⟨visits.settings.1, visits.settings.2.1⟩

/-- A queue runs empty, or one of its lists stalls and stays in front of those behind it. -/
theorem Drains.front {answer : Bool} (drains : Drains host queue engine answer final seen)
    : (answer = true ∧ final.queue = [] ∧ final.current = none)
      ∨ ∃ earlier list rest before later after happened,
          answer = false
          ∧ queue = earlier ++ list :: rest
          ∧ Visits host before list .stalled later after happened
          ∧ final = { after with queue := later :: rest } := by
  induction drains with
  | empty => exact .inl ⟨rfl, rfl, rfl⟩
  | @leaves first _ _ _ _ _ _ _ _ _ visits leaving _ ih =>
      rcases ih with emptied | ⟨earlier, list, rest, before, later, after, happened, stopped⟩
      · exact .inl emptied
      · obtain ⟨refused, rfl, visits, settled⟩ := stopped
        exact .inr ⟨first :: earlier, list, rest, before, later, after, happened, refused, rfl,
          visits, settled⟩
  | @stays list later rest engine after happened visits =>
      exact .inr ⟨[], list, rest, engine, later, after, happened, rfl, rfl, visits, rfl⟩

/-- Lists leave a queue from the front, and the others keep their order. -/
theorem Drains.ids_suffix {answer : Bool} (drains : Drains host queue engine answer final seen)
    : Queue.ids final.queue <:+ Queue.ids queue := by
  rcases drains.front with ⟨-, emptied, -⟩ | ⟨earlier, list, rest, _, later, _, _, stopped⟩
  · rw [emptied]
    exact List.nil_suffix
  · obtain ⟨-, rfl, visits, rfl⟩ := stopped
    have ids : Queue.ids (later :: rest) = Queue.ids (list :: rest) := by
      simp only [Queue.ids, List.map_cons, visits.continues.id]
    rw [ids, Queue.ids, Queue.ids, List.map_append]
    exact List.suffix_append ..

/-- What holds of the lists of a queue, and goes on to hold of a list over its time at the front,
holds of the lists that are left.
-/
theorem Drains.forall_mem {Holds : DisplayList → Prop} {answer : Bool}
    (drains : Drains host queue engine answer final seen)
    (kept : ∀ {before list ending later after happened},
      Visits host before list ending later after happened → Holds list → Holds later)
    (each : ∀ list ∈ queue, Holds list)
    : ∀ list ∈ final.queue, Holds list := by
  rcases drains.front with ⟨-, emptied, -⟩ | ⟨earlier, list, rest, _, later, _, _, stopped⟩
  · simp [emptied]
  · obtain ⟨-, rfl, visits, rfl⟩ := stopped
    intro other member
    rcases List.mem_cons.mp member with rfl | member
    · exact kept visits (each list (by simp))
    · exact each other (by simp [member])

theorem Drains.aborted_le {answer : Bool} (drains : Drains host queue engine answer final seen)
    : engine.stats.aborted ≤ final.stats.aborted := by
  induction drains with
  | empty => exact Nat.le_refl _
  | leaves visits _ _ ih => exact Nat.le_trans visits.aborted_le ih
  | stays visits => exact visits.aborted_le

/-- A drain takes the queue up, runs it and settles. -/
theorem drainInto_eq_some_iff {outcome : Outcome Bool}
    : engine.drainInto host trace = some outcome
      ↔ ∃ final seen, Drains host engine.queue (engine.takeUp host.ticks) outcome.answer final seen
          ∧ outcome.engine = final.settle
          ∧ outcome.trace = trace ++ seen := by
  rw [drainInto]
  constructor
  · intro drained
    split at drained
    · cases drained
    · next ran =>
      cases drained
      obtain ⟨seen, drains, traced⟩ := visitAll_eq_some_iff.mp ran
      exact ⟨_, seen, drains, rfl, traced⟩
  · obtain ⟨answer, settled, behind⟩ := outcome
    intro holds
    obtain ⟨final, seen, drains, rfl, rfl⟩ := holds
    rw [drains.visitAll]

theorem Drains.drainInto {answer : Bool}
    (drains : Drains host engine.queue (engine.takeUp host.ticks) answer final seen)
    (trace : Trace)
    : engine.drainInto host trace
      = some { answer, engine := final.settle, trace := trace ++ seen } :=
  drainInto_eq_some_iff.mpr ⟨final, seen, drains, rfl, rfl⟩

/-- With more fuel a queue is drained so, too. -/
theorem drainInto_refueled {outcome : Outcome Bool} {fuel : Nat}
    (drained : engine.drainInto host trace = some outcome) (enough : host.fuel ≤ fuel)
    : engine.drainInto { host with fuel } trace = some outcome := by
  obtain ⟨final, seen, drains, settled, traced⟩ := drainInto_eq_some_iff.mp drained
  exact drainInto_eq_some_iff.mpr ⟨final, seen, drains.rehosted rfl enough, settled, traced⟩

/-- The engine with a new list in its queue, before the queue is run. -/
def join (engine : Engine) (list stall : Address) (channel : Int32) (head : Bool)
    : Engine :=
  { engine with
    queue :=
      if head then
        engine.queue.pushFront (.fresh engine.nextId list stall channel)
      else
        engine.queue.pushBack (.fresh engine.nextId list stall channel)
    nextId := followingId engine.nextId }

/-- A list joins the queue, and the queue is drained. -/
theorem enqueue_eq_map (engine : Engine) (host : Host) (list stall : Address) (channel : Int32)
    (head : Bool)
    : engine.enqueue host list stall channel head
      = ((engine.join list stall channel head).drainInto host
          #[.notice (.enqueued (.fresh engine.nextId list stall channel) head)]).map
          fun outcome => { outcome with answer := engine.nextId } := by
  simp only [Engine.enqueue, join]
  split
  · next none =>
    rw [none]
    rfl
  · next some =>
    rw [some]
    rfl

end Engine

end GraphicsEngine
