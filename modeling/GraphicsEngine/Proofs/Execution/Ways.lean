import GraphicsEngine.Proofs.Execution.Likeness
import GraphicsEngine.Proofs.Memory
import Mathlib.Control.Monad.Basic

/-! Ways of a list over stops: addresses at which the list is made to wait before it goes on, each
in a memory that need only hold the commands up to there.
-/

namespace GraphicsEngine

/-- An address at which a list is made to wait, and the machine around the engine while it comes
there.
-/
structure Stop where
  host : Host
  address : Address

namespace Execution

/-- The way of a list over stops. Each stop is the first loop head at its address behind the one
before, where the list is standing, or from the start of the list on. The list does not wait there
by itself, and nothing is in force that the next time at the front would not know: no offset and
no announcement. The machine of a stop has the same regions of memory and the same words for the
commands on the way to it, and fuel for them.
-/
inductive Way (memory : Memory) (traceCommands : Bool)
    : (standing : Bool) → Execution → List Stop → Execution → List Occurrence → Prop
  | there (standing : Bool) (execution : Execution)
    : Way memory traceCommands standing execution [] execution []
  | stop {standing : Bool} {first middle last : Execution} {heads : List Execution} {stop : Stop}
    {stops : List Stop} {seen later : List Occurrence}
    (passage : Passage memory traceCommands first heads seen middle)
    (behind : standing → heads ≠ [])
    (before : ∀ head ∈ heads.drop standing.toNat, head.list.pc ≠ stop.address)
    (reached : middle.list.pc = stop.address)
    (free : ¬middle.list.isStalled)
    (offset : middle.registers.offset = 0)
    (unannounced : Word.announcement? middle.registers.previous = none)
    (regions : stop.host.memory.regions = memory.regions)
    (words : ∀ head ∈ heads,
      stop.host.memory.readWord head.list.pc = memory.readWord head.list.pc)
    (fueled : heads.length < stop.host.fuel)
    (way : Way memory traceCommands true middle stops last later)
    : Way memory traceCommands standing first (stop :: stops) last (seen ++ later)

variable {memory : Memory} {traceCommands standing : Bool} {first middle last : Execution}
  {heads : List Execution} {stops : List Stop} {seen : List Occurrence}

/-- A list that goes on has a word to read where it stands. -/
theorem Passage.isMapped (passage : Passage memory traceCommands first heads seen last)
    (moves : heads ≠ [])
    : memory.isMapped first.list.pc := by
  cases passage with
  | here => exact absurd rfl moves
  | turn stepped =>
      cases turn_of_step stepped with
      | executes _ _ fetched => exact (Memory.of_readWord fetched).1

/-- A list whose next stop is not where it stands does not come by the stop's address on its way. -/
theorem Passage.before (passage : Passage memory traceCommands first heads seen last)
    {address : Address} (apart : standing → first.list.pc ≠ address)
    (before : ∀ head ∈ heads.drop standing.toNat, head.list.pc ≠ address)
    : ∀ head ∈ heads, head.list.pc ≠ address := by
  cases standing with
  | false => exact before
  | true =>
      cases passage with
      | here => exact before
      | turn => exact List.forall_mem_cons.mpr ⟨apart rfl, before⟩

/-- A way is a passage, with the stops left out. -/
theorem Way.passage (way : Way memory traceCommands standing first stops last seen)
    : ∃ heads, Passage memory traceCommands first heads seen last := by
  induction way with
  | there => exact ⟨[], .here _⟩
  | stop passage _ _ _ _ _ _ _ _ _ _ ih =>
      obtain ⟨_, others⟩ := ih
      exact ⟨_, passage.append others⟩

/-- A list that stands at a stop and has another one before it has a word to read where it stands.
-/
theorem Way.isMapped (way : Way memory traceCommands true first stops last seen)
    (more : stops ≠ [])
    : memory.isMapped first.list.pc := by
  cases way with
  | there => exact absurd rfl more
  | stop passage behind => exact passage.isMapped (behind rfl)

/-- Behind a stop the list does not wait by itself. -/
theorem Way.free (way : Way memory traceCommands standing first stops last seen)
    (more : stops ≠ [])
    : ¬last.list.isStalled := by
  induction way with
  | there => exact absurd rfl more
  | @stop _ _ _ _ _ _ stops _ _ _ _ _ _ free _ _ _ _ _ way ih =>
      cases stops with
      | nil =>
          cases way
          exact free
      | cons => exact ih (by simp)

-----------------------------------------------------------------------------------------
-- Finding ways
-----------------------------------------------------------------------------------------

/-- The loop heads on the way to the first one at an address, what happens there, and that loop
head. A list that is standing takes a turn first.
-/
def seek (memory : Memory) (traceCommands : Bool) (address : Address)
    : (fuel : Nat) → (standing : Bool) → Execution
      → Option (List Execution × List Occurrence × Execution)
  | 0, _, _ => none
  | fuel + 1, standing, execution =>
      if standing = false ∧ execution.list.pc = address then
        some ([], [], execution)
      else
        match execution.step memory traceCommands with
        | .ended .. => none
        | .running next seen =>
            match seek memory traceCommands address fuel false next with
            | none => none
            | some (heads, later, last) => some (execution :: heads, seen ++ later, last)

/-- Whether a list goes its way over stops, found out by running it. -/
def goes (memory : Memory) (traceCommands : Bool)
    : (standing : Bool) → Execution → List Stop → Bool
  | _, _, [] => true
  | standing, execution, stop :: stops =>
      match seek memory traceCommands stop.address stop.host.fuel standing execution with
      | none => false
      | some (heads, _, middle) =>
          !middle.list.isStalled
          && middle.registers.offset == 0
          && (Word.announcement? middle.registers.previous).isNone
          && stop.host.memory.regions == memory.regions
          && heads.all (fun head =>
            stop.host.memory.readWord head.list.pc == memory.readWord head.list.pc)
          && goes memory traceCommands true middle stops

/-- What is sought is found at the end of a passage, by induction on the fuel. -/
theorem passage_of_seek {address : Address} {fuel : Nat}
    (found : seek memory traceCommands address fuel standing first = some (heads, seen, last))
    : Passage memory traceCommands first heads seen last
      ∧ (standing → heads ≠ [])
      ∧ (∀ head ∈ heads.drop standing.toNat, head.list.pc ≠ address)
      ∧ last.list.pc = address
      ∧ heads.length < fuel := by
  induction fuel generalizing standing first heads seen with
  | zero => cases found
  | succ fuel ih =>
      rw [seek] at found
      split at found
      · next here =>
        cases found
        exact ⟨.here _, by simp [here.1], by simp, here.2, Nat.succ_pos fuel⟩
      · next away =>
        split at found
        · cases found
        · next stepped =>
          split at found
          · cases found
          · next behind =>
            cases found
            obtain ⟨passage, -, before, reached, fueled⟩ := ih behind
            refine ⟨.turn stepped passage, fun _ => List.cons_ne_nil _ _, ?_, reached,
              Nat.succ_lt_succ fueled⟩
            cases standing with
            | true => exact before
            | false =>
                exact List.forall_mem_cons.mpr ⟨fun here => away ⟨rfl, here⟩, before⟩

/-- A list that is found to go its way goes it, stop by stop. -/
theorem way_of_goes
    (found : goes memory traceCommands standing first stops)
    : ∃ last seen, Way memory traceCommands standing first stops last seen := by
  induction stops generalizing standing first with
  | nil => exact ⟨first, [], .there standing first⟩
  | cons stop stops ih =>
      rw [goes] at found
      split at found
      · cases found
      · next sought =>
        simp only [Bool.and_eq_true, Bool.not_eq_true', beq_iff_eq, Option.isNone_iff_eq_none,
          List.all_eq_true] at found
        obtain ⟨⟨⟨⟨⟨free, offset⟩, unannounced⟩, regions⟩, words⟩, later⟩ := found
        obtain ⟨passage, behind, before, reached, fueled⟩ := passage_of_seek sought
        obtain ⟨last, seen, way⟩ := ih later
        exact ⟨last, _, .stop passage behind before reached (by simp [free]) offset unannounced
          regions words fueled way⟩

end Execution

end GraphicsEngine
