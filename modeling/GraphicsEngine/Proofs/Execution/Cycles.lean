import GraphicsEngine.Proofs.Effects
import GraphicsEngine.Proofs.Execution.Announcements
import GraphicsEngine.Proofs.Memory

/-! Every command takes one cycle. Cycles are counted in stretches, whenever control is
transferred, so what is counted at a loop head is what has been counted before and the words since
then.
-/

namespace GraphicsEngine

-----------------------------------------------------------------------------------------
-- Distances
-----------------------------------------------------------------------------------------

/-- A list returns into the segment of its command, which names none where the command is masked. -/
theorem Address.isMasked_return {pc : Address} (masked : pc.IsMasked) (address : Address)
    : IsMasked ((pc &&& 0xF0000000) ||| address.mask) := by
  rw [segment_eq_zero masked, UInt32.zero_or]
  exact isMasked_mask address

/-- The words between two addresses are as many as their distance says. -/
theorem words_between {pc checkpoint : Address} {words : Nat}
    (apart : pc.toNat = checkpoint.toNat + 4 * words)
    : ((pc - checkpoint) / 4).toUInt64 = UInt64.ofNat words := by
  have behind : checkpoint ≤ pc := UInt32.le_iff_toNat_le.mpr (by omega)
  have bound := pc.toNat_lt
  have distance : ((pc - checkpoint) / 4).toNat = words := by
    rw [UInt32.toNat_div, UInt32.toNat_sub_of_le _ _ behind]
    simp only [UInt32.reduceToNat]
    omega
  apply UInt64.toNat_inj.mp
  rw [UInt32.toNat_toUInt64, distance, UInt64.toNat_ofNat_of_lt']
  exact Nat.lt_of_le_of_lt (by omega : words ≤ pc.toNat) (Nat.lt_trans bound (by decide))

namespace Execution

/-- A loop head at which the next command is a number of words behind the checkpoint. -/
structure Aligned (execution : Execution)
    : Prop where
  pc : execution.list.pc.IsMasked
  apart : ∃ words, execution.list.pc.toNat = execution.registers.checkpoint.toNat + 4 * words

/-- The cycles up to the next command. -/
def cycles (execution : Execution)
    : UInt64 :=
  execution.charge.registers.cycles

variable {memory : Memory} {traceCommands : Bool}

/-- How a command leaves the counting of cycles: as it was, or with all cycles counted up to the
command after which the next one stands.
-/
theorem Performs.counting {execution : Execution} {reaction : Reaction}
    (performs : Performs memory execution reaction)
    : (reaction.execution.list.pc = execution.list.pc
        ∧ reaction.execution.registers.cycles = execution.registers.cycles
        ∧ reaction.execution.registers.checkpoint = execution.registers.checkpoint)
      ∨ (reaction.execution.registers.cycles = execution.cycles
        ∧ reaction.execution.registers.checkpoint = reaction.execution.list.pc
        ∧ (reaction.execution.list.pc = execution.list.pc
          ∨ ∃ target, reaction.execution.list.pc = target - 4
            ∧ (execution.list.pc.IsMasked → target.IsMasked)
            ∧ (reaction.ending = none → memory.isMapped target))) := by
  have back (address : Address) (masked : execution.list.pc.IsMasked) :=
    Address.isMasked_return masked address
  cases performs with
  | stays | offsets => exact .inl ⟨rfl, rfl, rfl⟩
  | counts => exact .inr ⟨rfl, rfl, .inl rfl⟩
  | jumps target masked mapped =>
      exact .inr ⟨rfl, rfl, .inr ⟨target, rfl, fun _ => masked, fun _ => mapped⟩⟩
  | calls target masked mapped =>
      exact .inr ⟨rfl, rfl, .inr ⟨target, rfl, fun _ => masked, fun _ => mapped⟩⟩
  | returns address _ _ mapped =>
      exact .inr ⟨rfl, rfl, .inr ⟨_, rfl, back address, fun _ => mapped⟩⟩
  | loses address _ _ _ _ same =>
      subst same
      exact .inr ⟨rfl, rfl, .inr ⟨_, rfl, back address, fun none => nomatch none⟩⟩
  | signals | finishes =>
      refine .inr ⟨?_, ?_, .inl ?_⟩ <;> simp [signal, finish, charge, cycles, Registers.charge]

/-- A command takes one cycle, and leaves the next one a number of words behind the checkpoint
unless it ends the list.
-/
theorem Performs.cycles {execution : Execution} {reaction : Reaction}
    (performs : Performs memory execution reaction) (aligned : execution.Aligned)
    (room : execution.list.pc.toNat + 4 < 0x10000000) (word : Word)
    : (reaction.execution.advance word).cycles = execution.cycles + 1
      ∧ (reaction.ending = none → (reaction.execution.advance word).Aligned) := by
  obtain ⟨words, apart⟩ := aligned.apart
  have next : (Address.mask (execution.list.pc + 4)).toNat = execution.list.pc.toNat + 4 := by
    rw [Address.toNat_mask, UInt32.toNat_add]
    simp only [UInt32.reduceToNat]
    omega
  have masked : (reaction.execution.advance word).list.pc.IsMasked := Address.isMasked_mask _
  have counted : execution.cycles = execution.registers.cycles + UInt64.ofNat words := by
    simp only [Execution.cycles, charge, Registers.charge, words_between apart]
  rcases performs.counting with ⟨pc, cycles, checkpoint⟩ | ⟨cycles, checkpoint, moved⟩
  · have further : (reaction.execution.advance word).list.pc.toNat
        = (reaction.execution.advance word).registers.checkpoint.toNat + 4 * (words + 1) := by
      simp only [advance, pc, checkpoint, next]
      omega
    refine ⟨?_, fun _ => ⟨masked, words + 1, further⟩⟩
    rw [counted, Execution.cycles, charge, Registers.charge, words_between further]
    simp only [advance, cycles, UInt64.ofNat_add, UInt64.add_assoc]
    rfl
  · have lands (apart : Address.mask (reaction.execution.list.pc + 4)
        = reaction.execution.list.pc + 4)
        : (reaction.execution.advance word).cycles = execution.cycles + 1 := by
      have one : (reaction.execution.list.pc + 4 - reaction.execution.list.pc) / 4 = 1 := by
        have distance : reaction.execution.list.pc + 4 - reaction.execution.list.pc = 4 := by
          grind
        rw [distance]
        rfl
      simp only [Execution.cycles, charge, Registers.charge, advance, checkpoint, apart, one,
        cycles]
      rfl
    rcases moved with stays | ⟨target, goes, inside, mapped⟩
    · have apart : Address.mask (execution.list.pc + 4) = execution.list.pc + 4 := by
        rw [← UInt32.toNat_inj, next, UInt32.toNat_add]
        simp only [UInt32.reduceToNat]
        omega
      refine ⟨lands (stays ▸ apart), fun _ => ⟨masked, 1, ?_⟩⟩
      simp only [advance, checkpoint, stays, next]
    · have reached : target - 4 + 4 = target := by grind
      have apart : Address.mask (target - 4 + 4) = target - 4 + 4 := by
        rw [reached]
        exact inside aligned.pc
      refine ⟨lands (goes ▸ apart), fun continues => ⟨masked, 1, ?_⟩⟩
      have low := Memory.le_of_isMapped (mapped continues)
      rw [inside aligned.pc] at low
      have behind : (4 : UInt32) ≤ target :=
        UInt32.le_iff_toNat_le.mpr (Nat.le_trans (by decide) low)
      simp only [advance, checkpoint, goes, apart]
      rw [reached, UInt32.toNat_sub_of_le _ _ behind]
      simp only [UInt32.reduceToNat]
      omega

/-- A word that is carried out takes one cycle, counts one command and is fetched once. -/
theorem cycles_of_fetched {execution : Execution} {word : Word} {reaction : Reaction}
    (aligned : execution.Aligned) (fetched : memory.readWord execution.list.pc = .ok word)
    (performs : Performs memory (execution.recordWord word) reaction)
    (same : reaction = execution.react memory word)
    : Occurrence.fetchCount (execution.fetchTrace traceCommands word ++ reaction.trace) = 1
      ∧ (reaction.execution.advance word).cycles = execution.cycles + 1
      ∧ (reaction.execution.advance word).stats.commands = execution.stats.commands + 1
      ∧ (reaction.ending = none → (reaction.execution.advance word).Aligned) := by
  have one := congrArg List.length ((reacts_of_eq same).heeds traceCommands).fetches
  have room := (Memory.of_readWord fetched).2
  rw [aligned.pc] at room
  have recorded : (execution.recordWord word).Aligned := ⟨aligned.pc, aligned.apart⟩
  obtain ⟨cycles, next⟩ := performs.cycles recorded (by
    show execution.list.pc.toNat + 4 < 0x10000000
    omega) word
  obtain ⟨_, counted⟩ := performs.stats
  refine ⟨one, cycles, ?_, next⟩
  simp only [advance, counted, recordWord]

/-- A turn after which a list runs on takes a cycle and counts a command for the word that it
fetches.
-/
theorem cycles_of_running {execution next : Execution} {seen : List Occurrence}
    (aligned : execution.Aligned)
    (stepped : execution.step memory traceCommands = .running next seen)
    : next.Aligned
      ∧ next.cycles = execution.cycles + UInt64.ofNat (Occurrence.fetchCount seen)
      ∧ next.stats.commands = execution.stats.commands + Occurrence.fetchCount seen := by
  cases turn_of_step stepped with
  | executes _ _ fetched _ performs continues same =>
      obtain ⟨one, cycles, commands, next⟩ := cycles_of_fetched aligned fetched performs same
      rw [one]
      exact ⟨next continues, cycles, commands⟩

/-- So does the last turn, if it fetches a word. -/
theorem cycles_of_ended {execution last : Execution} {seen : List Occurrence} {ending : Ending}
    (aligned : execution.Aligned)
    (ended : execution.step memory traceCommands = .ended ending last seen)
    : last.registers.cycles = execution.cycles + UInt64.ofNat (Occurrence.fetchCount seen)
      ∧ last.stats.commands = execution.stats.commands + Occurrence.fetchCount seen := by
  cases turn_of_step ended with
  | stalls | fails => exact ⟨by simp [cycles, charge, Registers.charge], rfl⟩
  | ends _ _ fetched _ performs _ _ same =>
      obtain ⟨one, cycles, commands, -⟩ := cycles_of_fetched aligned fetched performs same
      rw [one]
      exact ⟨cycles, commands⟩

/-- A passage takes a cycle and counts a command for every word, by induction on its turns. -/
theorem Passage.cycles {first last : Execution} {heads : List Execution} {seen : List Occurrence}
    (passage : Passage memory traceCommands first heads seen last) (aligned : first.Aligned)
    : last.Aligned
      ∧ last.cycles = first.cycles + UInt64.ofNat (Occurrence.fetchCount seen)
      ∧ last.stats.commands = first.stats.commands + Occurrence.fetchCount seen := by
  induction passage with
  | here => exact ⟨aligned, by simp, rfl⟩
  | turn stepped _ ih =>
      obtain ⟨next, cycles, commands⟩ := cycles_of_running aligned stepped
      obtain ⟨last, more, others⟩ := ih next
      refine ⟨last, ?_, ?_⟩
      · rw [more, cycles, Occurrence.fetchCount_append, UInt64.ofNat_add, UInt64.add_assoc]
      · rw [others, commands, Occurrence.fetchCount_append, Nat.add_assoc]

/-- A run takes a cycle and counts a command for every word that it fetches. -/
theorem Runs.cycles {fuel : Nat} {first last : Execution} {ending : Ending}
    {seen : List Occurrence} (runs : Runs memory traceCommands fuel first ending last seen)
    (aligned : first.Aligned)
    : last.registers.cycles = first.cycles + UInt64.ofNat (Occurrence.fetchCount seen)
      ∧ last.stats.commands = first.stats.commands + Occurrence.fetchCount seen := by
  obtain ⟨_, head, _, _, passage, ended, -, rfl⟩ := runs
  obtain ⟨aligned, cycles, commands⟩ := passage.cycles aligned
  obtain ⟨more, others⟩ := cycles_of_ended aligned ended
  rw [Occurrence.fetchCount_append]
  refine ⟨?_, ?_⟩
  · rw [more, cycles, UInt64.ofNat_add, UInt64.add_assoc]
  · rw [others, commands, Nat.add_assoc]

end Execution

end GraphicsEngine
