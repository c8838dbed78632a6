import GraphicsEngine.Proofs.Execution.Nesting
import GraphicsEngine.Proofs.Memory.Flat
import Mathlib.Algebra.Group.Nat.Defs

/-! Lists in memory without jumps come to an end. Calls and returns move the next command back and
forth, but each word leaves less of memory ahead of some open call while those outside it stay as
they were. Since no more than 32 calls are open at once, this can be measured by one number.
-/

namespace GraphicsEngine

namespace Memory

/-- No word of memory is a JUMP, wherever it is read from. -/
def JumpFree (memory : Memory)
    : Prop :=
  ∀ address word, memory.readWord address = .ok word → Word.opcode word ≠ Opcode.jump

variable {memory : Memory} {address : Address} {word : Word}

/-- The byte that selects the command is the last one of the word. -/
theorem opcode_of_readWord (fetched : memory.readWord address = .ok word)
    : Word.opcode word = memory.byteAt (address.mask + 3) := by
  have first := (memory.byteAt address.mask).toNat_lt
  have second := (memory.byteAt (address.mask + 1)).toNat_lt
  have third := (memory.byteAt (address.mask + 2)).toNat_lt
  have fourth := (memory.byteAt (address.mask + 3)).toNat_lt
  rw [readWord, read_eq] at fetched
  cases located : memory.locate address 4 with
  | error error =>
      rw [located] at fetched
      cases fetched
  | ok start =>
      cases start_of_locate located
      rw [located] at fetched
      cases fetched
      have bytes : memory.bytesFrom address.mask 4
          = [memory.byteAt address.mask, memory.byteAt (address.mask + 1),
            memory.byteAt (address.mask + 2), memory.byteAt (address.mask + 3)] := by
        simp [bytesFrom, List.range_succ]
      dsimp only
      rw [bytes, Word.opcode, ← UInt8.toNat_inj]
      simp only [LittleEndian.value, UInt32.toNat_toUInt8, UInt32.toNat_shiftRight,
        UInt32.toNat_ofNat', UInt32.reduceToNat, Nat.shiftRight_eq_div_pow, Nat.reduceMod,
        Nat.reducePow]
      omega

theorem jumpFree_of_byteAt (absent : ∀ address, memory.byteAt address ≠ Opcode.jump)
    : memory.JumpFree := by
  intro address word fetched
  rw [opcode_of_readWord fetched]
  exact absent _

end Memory

-----------------------------------------------------------------------------------------
-- Ranks
-----------------------------------------------------------------------------------------

/-- What of the address map lies ahead of addresses, innermost first: the digits of a number, of
which the innermost one weighs least.
-/
def Address.ahead
    : List Address → Nat
  | [] => 0
  | address :: outer => ahead outer * 0x10000000 + (0x10000000 - address.toNat)

/-- What lies ahead of a list and of its open calls, as a number of 33 digits. Those of calls that
are not open are zero.
-/
def DisplayList.rank (list : DisplayList)
    : Nat :=
  Address.ahead (list.pc :: list.stack)
    * 0x10000000 ^ (stackCapacity - list.stack.length)

namespace Address

variable {pc next back target : Address}

/-- A step ahead leaves less ahead. -/
theorem ahead_advance (moved : next.toNat = pc.toNat + 4) (room : next.toNat < 0x10000000)
    (outer : List Address)
    : ahead (next :: outer) < ahead (pc :: outer) := by
  rw [ahead, ahead]
  omega

/-- A call leaves less ahead of where it returns to, which weighs more than all that lies ahead of
its target.
-/
theorem ahead_call (moved : back.toNat = pc.toNat + 4) (room : back.toNat < 0x10000000)
    (target : Address) (outer : List Address)
    : ahead (target :: back :: outer) < ahead (pc :: outer) * 0x10000000 := by
  rw [ahead, ahead, ahead]
  omega

/-- A return leaves nothing ahead of the call that it closes. -/
theorem ahead_return (masked : pc.IsMasked) (back : Address) (outer : List Address)
    : ahead (back :: outer) * 0x10000000 < ahead (pc :: back :: outer) := by
  have below := (isMasked_iff pc).mp masked
  have all : ahead (pc :: back :: outer)
      = ahead (back :: outer) * 0x10000000 + (0x10000000 - pc.toNat) := rfl
  omega

/-- What lies ahead has as many digits as there are addresses, by induction on them. At the address
zero a digit is as large as its base, so the first number with one digit more is taken twice.
-/
theorem ahead_le (addresses : List Address)
    : ahead addresses + 2 ≤ 2 * 0x10000000 ^ addresses.length := by
  induction addresses with
  | nil => simp [ahead]
  | cons address outer ih =>
      rw [ahead, List.length_cons, Nat.pow_succ]
      omega

end Address

namespace DisplayList

variable {list next : DisplayList}

/-- At the same depth the list with less ahead has the lower rank. -/
theorem rank_lt_of_level (level : next.stack.length = list.stack.length)
    (less : Address.ahead (next.pc :: next.stack) < Address.ahead (list.pc :: list.stack))
    : next.rank < list.rank := by
  rw [rank, rank, level]
  exact Nat.mul_lt_mul_of_pos_right less (Nat.pow_pos (by decide))

/-- One call deeper the digits of a list stand one place further down. -/
theorem rank_eq_of_deeper (deeper : next.stack.length = list.stack.length + 1)
    (shallow : next.stack.length ≤ 32)
    : list.rank
      = Address.ahead (list.pc :: list.stack) * 0x10000000
        * 0x10000000 ^ (stackCapacity - next.stack.length) := by
  have places : stackCapacity - list.stack.length
      = (stackCapacity - next.stack.length) + 1 := by
    rw [stackCapacity]
    omega
  rw [rank, places, Nat.pow_succ, Nat.mul_assoc, Nat.mul_comm 0x10000000]

/-- No rank has more than 33 digits, whatever the depth. -/
theorem Placed.rank_lt (placed : list.Placed)
    : list.rank < 2 * 0x10000000 ^ 33 := by
  have digits : 0x10000000 ^ (list.stack.length + 1)
        * 0x10000000 ^ (stackCapacity - list.stack.length)
      = 0x10000000 ^ 33 := by
    have shallow := placed.shallow
    rw [← Nat.pow_add, stackCapacity]
    congr 1
    omega
  have below := Address.ahead_le (list.pc :: list.stack)
  rw [List.length_cons] at below
  calc
    list.rank
      < 2 * 0x10000000 ^ (list.stack.length + 1)
          * 0x10000000 ^ (stackCapacity - list.stack.length) :=
        Nat.mul_lt_mul_of_pos_right (by omega) (Nat.pow_pos (by decide))
    _ = 2 * 0x10000000 ^ 33 := by rw [Nat.mul_assoc, digits]

end DisplayList

-----------------------------------------------------------------------------------------
-- Turns
-----------------------------------------------------------------------------------------

namespace Execution

variable {memory : Memory} {traceCommands : Bool} {head next : Execution} {word : Word}
  {seen : List Occurrence}

/-- Behind a word that can be read memory goes on, since no region reaches up to the end of the
address map.
-/
theorem toNat_advance (masked : head.list.pc.IsMasked)
    (fetched : memory.readWord head.list.pc = .ok word)
    : (Address.mask (head.list.pc + 4)).toNat = head.list.pc.toNat + 4
      ∧ (Address.mask (head.list.pc + 4)).toNat < 0x10000000 := by
  have room := (Memory.of_readWord fetched).2
  rw [masked] at room
  rw [Address.toNat_mask, UInt32.toNat_add]
  simp only [UInt32.reduceToNat]
  omega

/-- A word that is no JUMP leads to a lower rank, whatever it does to the calls. -/
theorem Nests.rank_lt {told : List Event}
    (nests : Nests memory head word told (.running next seen)) (placed : head.list.Placed)
    (fetched : memory.readWord head.list.pc = .ok word) (straight : word.opcode ≠ Opcode.jump)
    : next.list.rank < head.list.rank := by
  obtain ⟨moved, room⟩ := toNat_advance placed.pc fetched
  -- Only a call and a return change the number of digits that are not zero.
  cases nests with
  | calls _ _ shallow _ stack =>
      have deeper : next.list.stack.length = head.list.stack.length + 1 := by
        rw [stack, List.length_cons]
      rw [DisplayList.rank_eq_of_deeper deeper (by omega), DisplayList.rank]
      refine Nat.mul_lt_mul_of_pos_right ?_ (Nat.pow_pos (by decide))
      rw [stack]
      exact Address.ahead_call moved room _ _
  | returns _ stack _ pc =>
      have deeper : head.list.stack.length = next.list.stack.length + 1 := by
        rw [stack, List.length_cons]
      rw [DisplayList.rank_eq_of_deeper deeper placed.shallow, DisplayList.rank]
      refine Nat.mul_lt_mul_of_pos_right ?_ (Nat.pow_pos (by decide))
      rw [stack, pc]
      exact Address.ahead_return placed.pc _ _
  | refuses _ _ pc stack =>
      refine DisplayList.rank_lt_of_level (congrArg List.length stack) ?_
      rw [pc, stack]
      exact Address.ahead_advance moved room _
  | ignores _ none pc stack =>
      refine DisplayList.rank_lt_of_level (congrArg List.length (stack.trans none.symm)) ?_
      rw [pc, stack, none]
      exact Address.ahead_advance moved room _
  | passes _ stack line =>
      refine DisplayList.rank_lt_of_level (congrArg List.length stack) ?_
      rw [Progress.execution] at stack line
      rw [line straight, stack]
      exact Address.ahead_advance moved room _

/-- Without jumps every turn after which a list runs on leads to a lower rank. -/
theorem rank_lt_of_running (jumpFree : memory.JumpFree) (placed : head.list.Placed)
    (stepped : head.step memory traceCommands = .running next seen)
    : next.list.rank < head.list.rank := by
  cases turn_of_step stepped with
  | executes waits word fetched =>
      have nests := nests_step waits fetched placed traceCommands
      rw [stepped] at nests
      exact nests.rank_lt placed fetched (jumpFree _ _ fetched)

/-- Without jumps a list comes to an end within as many turns as its rank says, by induction on the
turns that are left.
-/
theorem run_of_rank_lt (jumpFree : memory.JumpFree) (traceCommands : Bool) {fuel : Nat}
    {execution : Execution} (placed : execution.list.Placed) (enough : execution.list.rank < fuel)
    (trace : Trace)
    : ∃ result, execution.run memory traceCommands fuel trace = some result := by
  induction fuel generalizing execution trace with
  | zero => exact absurd enough (Nat.not_lt_zero _)
  | succ fuel ih =>
      rw [run]
      split
      · next next seen stepped =>
        have lower := rank_lt_of_running jumpFree placed stepped
        have placed := (replay_of_running placed stepped).2.2
        exact ih placed (Nat.lt_of_lt_of_le lower (Nat.le_of_lt_succ enough)) _
      · exact ⟨_, rfl⟩

end Execution

end GraphicsEngine
