import GraphicsEngine.Proofs.Engine.Waiting
import GraphicsEngine.Proofs.Execution.Ranking
import GraphicsEngine.Proofs.Memory.History

/-! In memory without jumps every drain comes to an end, however its lists call and return. How many
turns a list can take is bounded by the depth of the stack and by the size of the address map alone.
-/

namespace GraphicsEngine.Engine

variable {host : Host} {memory : Memory} {engine : Engine} {list : DisplayList}

/-- Without jumps a list's time at the front comes to an end. -/
theorem visit_of_jumpFree (jumpFree : host.memory.JumpFree) (placed : list.Placed)
    (enough : 2 * 0x10000000 ^ 33 ≤ host.fuel) (engine : Engine) (trace : Trace)
    : ∃ visit, engine.visit host list trace = some visit := by
  have launched : ((engine.present list).launch list).list.Placed :=
    ⟨placed.pc, placed.stack, placed.shallow⟩
  obtain ⟨⟨ending, last, after⟩, ran⟩ :=
    Execution.run_of_rank_lt jumpFree engine.config.traceCommands launched
      (Nat.lt_of_lt_of_le launched.rank_lt enough) trace
  simp only [Engine.visit, present_config, ran]
  split
  · exact ⟨_, rfl⟩
  · split
    · exact ⟨_, rfl⟩
    · exact ⟨_, rfl⟩

/-- So does the time of all lists of a queue, by induction on it. -/
theorem visitAll_of_jumpFree (host : Host) (jumpFree : host.memory.JumpFree) {queue : Queue}
    (placed : ∀ list ∈ queue, list.Placed) (enough : 2 * 0x10000000 ^ 33 ≤ host.fuel)
    (engine : Engine) (trace : Trace)
    : ∃ outcome, visitAll host queue engine trace = some outcome := by
  induction queue generalizing engine trace with
  | nil => exact ⟨_, rfl⟩
  | cons list rest ih =>
      obtain ⟨front, others⟩ := List.forall_mem_cons.mp placed
      obtain ⟨visit, visited⟩ := visit_of_jumpFree jumpFree front enough engine
        (trace.push (.notice (.starting list.id list.pc list.stall)))
      simp only [visitAll, visited]
      split
      · exact ih others visit.engine visit.trace
      · exact ⟨_, rfl⟩

/-- Without jumps a queue is drained, whatever its lists call and wherever they return to, and all
fuel beyond what the calls of one list can use up makes no difference.
-/
theorem drain_terminates (jumpFree : memory.JumpFree) (placed : ∀ list ∈ engine.queue, list.Placed)
    (ticks : UInt64)
    : ∃ outcome, ∀ fuel, 2 * 0x10000000 ^ 33 ≤ fuel
        → engine.drain { memory, ticks, fuel } = some outcome := by
  let host : Host := { memory, ticks, fuel := 2 * 0x10000000 ^ 33 }
  obtain ⟨outcome, ran⟩ := visitAll_of_jumpFree host jumpFree placed (Nat.le_refl _)
    (engine.takeUp ticks) #[]
  have drained : engine.drainInto host #[]
      = some { outcome with engine := outcome.engine.settle } := by
    simp only [drainInto, host, ran]
  exact ⟨_, fun fuel enough => drainInto_refueled drained enough⟩

/-- A machine has no JUMP in memory if none of its bytes selects one. -/
theorem jumpFree_hostWith {words : List Word} (absent : Opcode.jump ∉ Memory.wordBytes words)
    : (hostWith words).memory.JumpFree := by
  refine Memory.jumpFree_of_byteAt fun address jumps => ?_
  have sized : (Memory.blank 0x100).ramSize = Memory.clampRamSize 0x100 := rfl
  obtain ⟨-, held⟩ := Memory.afterStore_eq sized (.words 0x00010000 words)
  rw [hostWith, held, Memory.byteAt_blank] at jumps
  cases covers : Memory.written? 0x100 address.toNat (.words 0x00010000 words) with
  | none =>
      rw [covers] at jumps
      cases jumps
  | some byte =>
      rw [covers, Option.getD_some] at jumps
      rw [Memory.written?] at covers
      split at covers
      · exact absent (jumps ▸ List.mem_of_getElem? covers)
      · cases covers

/-- A list that comes with 30 open calls and calls itself until no more fit. Then it returns to
where it waits, from one call after the other.
-/
def recursing : Engine :=
  { initial {} with
    queue := [{ DisplayList.fresh 1 0x00010000 0x00010008 (-1) with
      stack := List.replicate 30 0x00010008 }] }

/-- The list calls itself twice and passes over a third CALL, and stalls behind the third return. -/
theorem drain_terminates_recursing
    : (hostWith [0x0A010000, 0x0B000000]).memory.JumpFree
      ∧ (∀ list ∈ recursing.queue, list.Placed)
      ∧ ∃ outcome, outcome.answer = false
          ∧ outcome.trace.fetches.length = 6
          ∧ ∀ fuel, 2 * 0x10000000 ^ 33 ≤ fuel
              → recursing.drain { hostWith [0x0A010000, 0x0B000000] with fuel } = some outcome := by
  have jumpFree : (hostWith [0x0A010000, 0x0B000000]).memory.JumpFree :=
    jumpFree_hostWith (by decide)
  have placed : ∀ list ∈ recursing.queue, list.Placed := by
    rw [recursing, List.forall_mem_singleton]
    exact ⟨rfl, fun address member => List.eq_of_mem_replicate member ▸ rfl, by decide⟩
  obtain ⟨outcome, drained⟩ := drain_terminates jumpFree placed 7
  have known : (recursing.drain { hostWith [0x0A010000, 0x0B000000] with fuel := 8 }).map
      (fun outcome => (outcome.answer, outcome.trace.fetches.length)) = some (false, 6) := by
    decide +kernel
  obtain ⟨early, ran, same⟩ := Option.map_eq_some_iff.mp known
  obtain ⟨answer, fetches⟩ := Prod.mk.inj same
  have enough : 8 ≤ 2 * 0x10000000 ^ 33 := by decide
  have later := (drainInto_refueled ran enough).symm.trans (drained _ (Nat.le_refl _))
  cases later
  exact ⟨jumpFree, placed, _, answer, fetches, drained⟩

end GraphicsEngine.Engine
