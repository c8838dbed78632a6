import GraphicsEngine.Proofs.Engine.Likeness

/-! The clock steers nothing. An engine that takes up its queue at other times does the same, also
if less has been counted before.
-/

namespace GraphicsEngine

@[simp] theorem Stats.zero_add (stats : Stats)
    : Stats.add {} stats = stats := by
  simp [add]

/-- What the clock showed is overlooked, and what the other engine has not counted in the past. -/
def Oversight.clocks (past : Stats)
    : Oversight where
  between registers others := others = { registers with startingTicks := others.startingTicks }
  during registers others := others = { registers with startingTicks := others.startingTicks }
  counted stats counts := stats = past.add counts
  offset same := by rw [same]
  announcement same := by rw [same]
  charge pc checkpoint same := by
    rw [same]
    rfl
  setOffset _ same := by rw [same]
  setPrevious _ same := by rw [same]
  finish same := by rw [same]
  add growth same := by rw [same, Stats.add_assoc]
  refl _ := rfl
  takeUp _ same := by rw [same]
  present same := by rw [same]
  launch _ same := by rw [same]
  land same := same
  settle same counted := by rw [same, counted, Stats.add_assoc]

namespace Engine

variable {past : Stats} {engine left right : Engine} {host elsewhere : Host}

/-- Engines that are alike but for clocks may take up their queues at different times. -/
theorem Alike.takeUp_clocks (alike : left.Alike (.clocks past) right) (ticks later : UInt64)
    : (left.takeUp ticks).Alike (.clocks past) (right.takeUp later) := by
  have same : right.registers
      = { left.registers with startingTicks := right.registers.startingTicks } := alike.registers
  exact { alike with
    registers := by
      rw [takeUp, takeUp, same]
      rfl }

/-- Where a list waits is moved alike at any time and with any more fuel. -/
theorem Alike.moveStall_clocks (alike : left.Alike (.clocks past) right)
    (queue : right.queue = left.queue) (memory : elsewhere.memory = host.memory)
    (enough : host.fuel ≤ elsewhere.fuel) {id : ListId} {stall : Address} {outcome : Outcome Bool}
    (moved : left.moveStall host id stall = some outcome)
    : ∃ other, right.moveStall elsewhere id stall = some other
        ∧ outcome.Alike (.clocks past) other := by
  have ready : Engine.Alike (.clocks past)
      { left with queue := Queue.moveStall left.queue id stall }
      { right with queue := Queue.moveStall right.queue id stall } := { alike with }
  exact Alike.drainInto_takenUp (ready.takeUp_clocks host.ticks elsewhere.ticks)
    (by simp only [queue]) memory enough rfl moved

/-- A list that joins an engine is run alike at any time, however much fuel there is. -/
theorem enqueue_clocks {list stall : Address} {channel : Int32} {head : Bool}
    {outcome other : Outcome ListId}
    (joined : engine.enqueue host list stall channel head = some outcome)
    (joined' : engine.enqueue elsewhere list stall channel head = some other)
    (memory : elsewhere.memory = host.memory)
    : outcome.Alike (.clocks {}) other := by
  rw [enqueue_eq_map] at joined joined'
  obtain ⟨drained, ran, rfl⟩ := Option.map_eq_some_iff.mp joined
  obtain ⟨drained', ran', rfl⟩ := Option.map_eq_some_iff.mp joined'
  let ready := engine.join list stall channel head
  let richer : Host := { elsewhere with fuel := max host.fuel elsewhere.fuel }
  have same : ready.Alike (.clocks {}) ready :=
    ⟨rfl, rfl, rfl, rfl, rfl, rfl, (Stats.zero_add _).symm⟩
  have enough : host.fuel ≤ richer.fuel := Nat.le_max_left ..
  obtain ⟨likewise, again, alike⟩ :=
    Alike.drainInto_takenUp (same.takeUp_clocks host.ticks richer.ticks) rfl memory enough rfl ran
  have ran' := drainInto_refueled ran' (Nat.le_max_right host.fuel elsewhere.fuel)
  cases ran'.symm.trans again
  exact { alike with answer := rfl }

end Engine

end GraphicsEngine
