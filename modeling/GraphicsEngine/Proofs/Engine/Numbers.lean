import GraphicsEngine.Proofs.Engine.Restorability

/-! Numbers name lists. As long as they are given out in order no two lists in the queue have the
same one, so that whatever is asked by number concerns one list; where they begin anew it may
concern two.
-/

namespace GraphicsEngine

-----------------------------------------------------------------------------------------
-- Queues in which every list has a number of its own
-----------------------------------------------------------------------------------------

namespace Queue

variable {earlier later : Queue} {list : DisplayList}

/-- Where numbers are distinct, no list but one has the number of that list. -/
theorem notMem_of_nodup (distinct : (ids (earlier ++ list :: later)).Nodup)
    : list.id ∉ ids earlier ∧ list.id ∉ ids later := by
  simp only [ids, List.map_append, List.map_cons] at distinct ⊢
  obtain ⟨-, behind, apart⟩ := List.nodup_append.mp distinct
  exact ⟨fun member => apart _ member _ List.mem_cons_self rfl, (List.nodup_cons.mp behind).1⟩

/-- A list is found by its number if no list before it has that number. -/
theorem get?_of_notMem (first : list.id ∉ ids earlier)
    : get? (earlier ++ list :: later) list.id = some list := by
  have absent : earlier.find? (·.id == list.id) = none := (get?_eq_none_iff earlier _).mpr first
  have front : (list :: later).find? (·.id == list.id) = some list := get?_front list later
  rw [get?, List.find?_append, absent, front]
  rfl

/-- A list leaves by its number if no list before it has that number, and no other list leaves. -/
theorem remove_of_notMem (first : list.id ∉ ids earlier)
    : remove (earlier ++ list :: later) list.id = earlier ++ later := by
  have others : ∀ other ∈ earlier, ¬(other.id == list.id) = true := by
    intro other member same
    exact first (beq_iff_eq.mp same ▸ List.mem_map_of_mem member)
  have front : (list :: later).eraseP (·.id == list.id) = later := remove_front list later
  rw [remove, List.eraseP_append_right _ others, front]

/-- Where numbers are distinct, moving a stall address by number moves that of one list. -/
theorem moveStall_of_nodup (distinct : (ids (earlier ++ list :: later)).Nodup) (stall : Address)
    : moveStall (earlier ++ list :: later) list.id stall
      = earlier ++ list.withStall stall :: later := by
  obtain ⟨before, behind⟩ := notMem_of_nodup distinct
  calc moveStall (earlier ++ list :: later) list.id stall
      = moveStall earlier list.id stall
        ++ list.withStall stall :: moveStall later list.id stall := by simp [moveStall]
    _ = earlier ++ list.withStall stall :: later := by
      rw [moveStall_of_notMem before, moveStall_of_notMem behind]

end Queue

namespace Engine

-----------------------------------------------------------------------------------------
-- Numbers in order
-----------------------------------------------------------------------------------------

/-- The engines in which no list has taken the last number since the engine was built, was reset, or
took on a snapshot.
-/
inductive CountsUp
    : Engine → Prop
  | built (config : Config) : CountsUp (.initial config)
  | restored {engine : Engine} {bytes : Bytes} {outcome : Outcome Unit}
    (loaded : engine.load bytes = .ok outcome)
    : CountsUp outcome.engine
  | performed {engine : Engine} {host : Host} {operation : Operation} {outcome : Outcome Answer}
    (countsUp : CountsUp engine)
    (inOrder : operation.joining engine ≠ [] → engine.nextId ≠ lastId)
    (performed : operation.perform host engine = some outcome)
    : CountsUp outcome.engine

variable {engine : Engine}

/-- As long as numbers count up the lists have their numbers in order, operation by operation. -/
theorem CountsUp.numbered (countsUp : engine.CountsUp)
    : engine.Numbered := by
  induction countsUp with
  | built config => exact initial_numbered config
  | restored loaded => exact load_numbered loaded
  | performed _ inOrder performed ih =>
      exact ih.perform inOrder (Operation.performs_of_perform performed)

theorem CountsUp.sound (countsUp : engine.CountsUp)
    : engine.Sound := by
  induction countsUp with
  | built config => exact initial_sound config
  | restored loaded => exact load_sound loaded
  | performed _ _ performed ih => exact ih.perform (Operation.performs_of_perform performed)

/-- The number that a list gets is the one that was the next. -/
theorem answer_of_enqueue {host : Host} {list stall : Address} {channel : Int32} {head : Bool}
    {outcome : Outcome ListId}
    (enqueued : engine.enqueue host list stall channel head = some outcome)
    : outcome.answer = engine.nextId := by
  rw [enqueue_eq_map] at enqueued
  obtain ⟨_, -, rfl⟩ := Option.map_eq_some_iff.mp enqueued
  rfl

/-- As long as numbers count up, no two lists in the queue have the same number and none has zero,
and the number that a joining list gets is neither zero nor that of a list in the queue. So whatever
is asked by the number of a list concerns that list alone: looking for it, asking for its progress,
moving its stall address and taking it off.
-/
theorem CountsUp.concerns_one (countsUp : engine.CountsUp)
    : (Queue.ids engine.queue).Nodup
      ∧ 0 ∉ Queue.ids engine.queue
      ∧ (∀ {host list stall channel head outcome},
          engine.enqueue host list stall channel head = some outcome
          → outcome.answer ≠ 0 ∧ outcome.answer ∉ Queue.ids engine.queue)
      ∧ ∀ earlier list later, engine.queue = earlier ++ list :: later
          → engine.list? list.id = some list
            ∧ engine.listSync list.id 1 = .ok (progress list, #[])
            ∧ (∀ stall, Queue.moveStall engine.queue list.id stall
                = earlier ++ list.withStall stall :: later)
            ∧ Queue.remove engine.queue list.id = earlier ++ later := by
  have numbered := countsUp.numbered
  have sound := countsUp.sound
  refine ⟨numbered.distinct, ?_, ?_, ?_⟩
  · intro member
    obtain ⟨list, listed, zero⟩ := List.mem_map.mp member
    exact (sound.lists list listed).id zero
  · intro host list stall channel head outcome enqueued
    rw [answer_of_enqueue enqueued]
    exact ⟨sound.nextId, fun member => UInt32.lt_irrefl _ (numbered.given _ member)⟩
  · intro earlier list later same
    have distinct := same ▸ numbered.distinct
    have first := (Queue.notMem_of_nodup distinct).1
    have found : engine.list? list.id = some list := by
      rw [Engine.list?, same, Queue.get?_of_notMem first]
    refine ⟨found, ?_, fun stall => ?_, ?_⟩
    · simp only [listSync, SyncMode.ofCode, found]
    · rw [same, Queue.moveStall_of_nodup distinct]
    · rw [same, Queue.remove_of_notMem first]

-----------------------------------------------------------------------------------------
-- Numbers that begin anew
-----------------------------------------------------------------------------------------

/-- An engine whose only list waits while the next list gets the last number. -/
def overtaken : Engine :=
  { waiting with nextId := lastId, stats := {} }

/-- A snapshot can say that a list waits while the next list gets the last number. -/
theorem exists_load_overtaken
    : ∃ bytes outcome, (initial {}).load bytes = .ok outcome ∧ outcome.engine = overtaken := by
  have waits : waiting.Sound := Reachable.sound (.perform .initial perform_waiting)
  have sound : overtaken.Sound := { waits with nextId := by decide }
  have within : overtaken.capture.WithinLimits :=
    sound.withinLimits_iff.mpr ⟨by decide, by decide⟩
  have numbered : overtaken.Numbered :=
    ⟨by decide, List.forall_mem_singleton.mpr (by decide)⟩
  exact sound.exists_load within numbered (initial {})

/-- The last number is given out once: no list has it before, and the list that waits is still
concerned alone.
-/
theorem concerns_one_overtaken
    : overtaken.CountsUp
      ∧ overtaken.nextId = lastId
      ∧ lastId ∉ Queue.ids overtaken.queue
      ∧ ∃ list, overtaken.list? 1 = some list ∧ Queue.remove overtaken.queue 1 = [] := by
  obtain ⟨bytes, outcome, loaded, restored⟩ := exists_load_overtaken
  have countsUp : overtaken.CountsUp := restored ▸ .restored loaded
  obtain ⟨-, -, joining, alone⟩ := countsUp.concerns_one
  have enqueued : ∃ outcome, overtaken.enqueue blankHost 0x08000000 0x08000000 (-1) false
      = some outcome ∧ outcome.answer = lastId := ⟨_, rfl, rfl⟩
  obtain ⟨joined, enqueued, last⟩ := enqueued
  obtain ⟨found, -, -, removed⟩ := alone [] _ [] rfl
  exact ⟨countsUp, rfl, last ▸ (joining enqueued).2, _, found, removed⟩

/-- Behind the last number they begin anew, whatever numbers lists in the queue have: of two lists
that join behind a list with the number 1, the second one gets that number as well. From then on its
stall address cannot be moved by number without that of the first one.
-/
theorem numbers_begin_anew
    : ∃ first second : Outcome Answer,
        overtaken.Reachable {}
        ∧ (Operation.enqueue 0x08000000 0x08000000 (-1) false).perform blankHost overtaken
          = some first
        ∧ first.answer = .enqueued lastId
        ∧ 1 ∈ Queue.ids first.engine.queue
        ∧ (Operation.enqueue 0x08000000 0x08000000 (-1) false).perform blankHost first.engine
          = some second
        ∧ second.answer = .enqueued 1
        ∧ second.engine.Reachable {}
        ∧ Queue.ids second.engine.queue = [1, lastId, 1]
        ∧ (Queue.moveStall second.engine.queue 1 0x08000004).map (·.stall)
          = [0x08000004, 0x08000000, 0x08000004] := by
  obtain ⟨bytes, outcome, loaded, restored⟩ := exists_load_overtaken
  have reachable : overtaken.Reachable {} := restored ▸ Reachable.initial.load loaded
  let joins : Operation := .enqueue 0x08000000 0x08000000 (-1) false
  have joined : ∃ first, joins.perform blankHost overtaken = some first
      ∧ first.answer = .enqueued lastId ∧ 1 ∈ Queue.ids first.engine.queue
      ∧ ∃ second, joins.perform blankHost first.engine = some second
          ∧ second.answer = .enqueued 1 ∧ Queue.ids second.engine.queue = [1, lastId, 1]
          ∧ (Queue.moveStall second.engine.queue 1 0x08000004).map (·.stall)
            = [0x08000004, 0x08000000, 0x08000004] :=
    ⟨_, rfl, rfl, by decide, _, rfl, rfl, rfl, rfl⟩
  obtain ⟨first, performed, last, queued, second, again, anew, ids, moved⟩ := joined
  exact ⟨first, second, reachable, performed, last, queued, again, anew,
    .perform (.perform reachable performed) again, ids, moved⟩

end Engine

end GraphicsEngine
