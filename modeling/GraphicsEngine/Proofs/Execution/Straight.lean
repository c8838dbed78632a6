import GraphicsEngine.Proofs.Execution.Announcements
import GraphicsEngine.Proofs.Execution.Ranking
import GraphicsEngine.Proofs.Memory.Image

/-! Lists that never leave the line. Without jumps, calls and returns a list goes from word to word
until it waits, is completed, or comes to the end of memory. It waits at the end of an image only if
the image is made of whole words.
-/

namespace GraphicsEngine.Execution

variable {memory : Memory} {traceCommands : Bool} {head : Execution} {word : Word}

-----------------------------------------------------------------------------------------
-- One word
-----------------------------------------------------------------------------------------

/-- A word that leads nowhere else is fetched and carried out. The list goes on right behind it,
unless it is an END that completes the list.
-/
theorem step_of_straight (waits : ¬head.list.isStalled)
    (fetched : memory.readWord head.list.pc = .ok word)
    (straight : Word.opcode word ∉ [Opcode.jump, Opcode.call, Opcode.ret]) (traceCommands : Bool)
    : ∃ seen, seen.filterMap Occurrence.fetch? = [(head.list.pc, word)]
        ∧ ((∃ next, head.step memory traceCommands = .running next seen
            ∧ next.list.pc = Address.mask (head.list.pc + 4)
            ∧ next.list.stall = head.list.stall)
          ∨ (word.opcode = Opcode.endMark
            ∧ ∃ last, head.step memory traceCommands = .ended .completed last seen)) := by
  have other : word.opcode ≠ Opcode.jump ∧ word.opcode ≠ Opcode.call
      ∧ word.opcode ≠ Opcode.ret := by
    simpa using straight
  have reacts := reacts_react memory head word
  have performs := performs_perform memory (head.recordWord word) (head.cache.difference word)
    (Command.ofWord word)
  have unnested := other.2
  rw [← Command.opcode_ofWord] at unnested
  obtain ⟨-, -, line, unaborted⟩ :=
    perform_passes memory (head.recordWord word) (head.cache.difference word) unnested
  rw [Command.opcode_ofWord] at line
  refine ⟨_, (reacts.heeds traceCommands).fetches, ?_⟩
  cases ending : (head.react memory word).ending with
  | none =>
      refine .inl ⟨_, step_of_continues waits fetched rfl ending, ?_, ?_⟩
      · exact congrArg (fun pc => Address.mask (pc + 4)) (line other.1)
      · exact performs.continues.stall
  | some ended =>
      have completes : ended = .completed := by
        rcases performs.ending ending with aborted | completed
        · exact absurd (aborted ▸ ending) unaborted
        · exact completed
      subst completes
      exact .inr ⟨(reacts.completed_iff.mp ending).1, _, step_of_stops waits fetched rfl ending⟩

/-- A list that cannot read its next word is aborted. -/
theorem runs_of_unreadable {fuel : Nat} {error : Memory.Error} (waits : ¬head.list.isStalled)
    (unreadable : memory.readWord head.list.pc = .error error) (fueled : 0 < fuel)
    : ∃ last seen, Runs memory traceCommands fuel head .aborted last seen := by
  have stepped : head.step memory traceCommands
      = .ended .aborted
          (charge { head with registers := { head.registers with finished := true } })
          [.notice (.unreadable head.list.id head.list.pc error)] := by
    simp only [step, if_neg waits, unreadable]
  exact ⟨_, _, [], head, [], _, .here head, stepped, fueled, rfl⟩

-----------------------------------------------------------------------------------------
-- Zeros
-----------------------------------------------------------------------------------------

/-- Where the last byte of every word is zero, a list that is out of line with its stall address
runs on to the end of memory, by induction on the turns that are left.
-/
theorem runs_of_blank {fuel : Nat} (masked : head.list.pc.IsMasked)
    (blank : ∀ address, head.list.pc.toNat + 3 ≤ address.toNat → memory.byteAt address = 0)
    (astray : head.list.pc.toNat % 4 ≠ head.list.stall.toNat % 4)
    (enough : 0x10000000 ≤ head.list.pc.toNat + 4 * fuel) (traceCommands : Bool)
    : ∃ last seen, Runs memory traceCommands fuel head .aborted last seen := by
  induction fuel generalizing head with
  | zero =>
      have inside := (Address.isMasked_iff _).mp masked
      omega
  | succ fuel ih =>
      have waits : ¬head.list.isStalled := by
        intro stalled
        rw [DisplayList.isStalled, beq_iff_eq] at stalled
        exact astray (by rw [stalled])
      cases fetched : memory.readWord head.list.pc with
      | error error => exact runs_of_unreadable waits fetched (Nat.succ_pos fuel)
      | ok word =>
          obtain ⟨moved, room⟩ := toNat_advance masked fetched
          have last : (head.list.pc + 3).toNat = head.list.pc.toNat + 3 := by
            rw [UInt32.toNat_add]
            simp only [UInt32.reduceToNat]
            omega
          have nop : Word.opcode word = Opcode.nop := by
            rw [Memory.opcode_of_readWord fetched, masked]
            exact blank _ (Nat.le_of_eq last.symm)
          obtain ⟨seen, -, ⟨next, stepped, pc, stall⟩ | ⟨ends, -⟩⟩ :=
            step_of_straight waits fetched (by rw [nop]; decide) traceCommands
          · rw [← pc] at moved
            have masked' : next.list.pc.IsMasked := pc ▸ Address.isMasked_mask _
            have astray' : next.list.pc.toNat % 4 ≠ next.list.stall.toNat % 4 := by
              rw [moved, stall]
              omega
            obtain ⟨last, later, runs⟩ := ih masked'
              (fun address behind => blank address (by omega)) astray' (by omega)
            exact ⟨last, _, .turn stepped runs⟩
          · rw [nop] at ends
            cases ends

-----------------------------------------------------------------------------------------
-- Images
-----------------------------------------------------------------------------------------

/-- How a list can fare that begins at an image and is to wait at the end of it: how it ends, and
which words it fetches on the way.
-/
inductive Crosses (address : Address) (image : Bytes) : Ending → List (Address × Word) → Prop
  /-- It is completed by one of the words of the image. -/
  | completes {fetches : List (Address × Word)} (inside : fetches <+: wordsFrom address image)
    : Crosses address image .completed fetches
  /-- It waits behind all of them. -/
  | stalls (whole : 4 ∣ image.length)
    : Crosses address image .stalled (wordsFrom address image)
  /-- It misses the end of an image that is not made of whole words. -/
  | misses {fetches : List (Address × Word)} (broken : ¬4 ∣ image.length)
    (beyond : wordsFrom address image <+: fetches)
    : Crosses address image .aborted fetches

/-- A word in front is fetched first. -/
theorem Crosses.cons {address : Address} {first second third fourth : UInt8} {rest : Bytes}
    {ending : Ending} {fetches : List (Address × Word)}
    (crosses : Crosses (address + 4) rest ending fetches)
    : Crosses address (first :: second :: third :: fourth :: rest) ending
        ((address, UInt32.ofNat (LittleEndian.value [first, second, third, fourth]))
          :: fetches) := by
  have length : (first :: second :: third :: fourth :: rest).length = rest.length + 4 := rfl
  cases crosses with
  | completes inside =>
      exact .completes (List.cons_prefix_cons.mpr ⟨rfl, inside⟩)
  | stalls whole =>
      exact .stalls (by rw [length]; omega)
  | misses broken beyond =>
      exact .misses (by rw [length]; omega) (List.cons_prefix_cons.mpr ⟨rfl, beyond⟩)

/-- Behind the last whole word of an image a list waits, or it misses the end of the image. -/
theorem runs_of_short {size : UInt32} {image : Bytes} {fuel : Nat} (short : image.length < 4)
    (masked : head.list.pc.IsMasked) (shows : memory.Shows size head.list.pc.toNat image)
    (stall : head.list.stall.toNat = head.list.pc.toNat + image.length)
    (enough : 0x10000000 ≤ head.list.pc.toNat + 4 * fuel) (traceCommands : Bool)
    : ∃ ending last seen,
        Runs memory traceCommands fuel head ending last seen
        ∧ ((4 ∣ image.length ∧ ending = .stalled ∧ seen = [])
          ∨ (¬4 ∣ image.length ∧ ending = .aborted)) := by
  have inside := (Address.isMasked_iff _).mp masked
  by_cases empty : image.length = 0
  · have stalled : head.list.isStalled := by
      rw [DisplayList.isStalled, beq_iff_eq, ← UInt32.toNat_inj]
      omega
    have runs : Runs memory traceCommands fuel head .stalled head.charge [] :=
      runs_of_stalled stalled (by omega)
    exact ⟨_, _, _, runs, .inl ⟨by omega, rfl, rfl⟩⟩
  · obtain ⟨last, seen, runs⟩ := runs_of_blank masked
      (fun address behind => shows.byteAt_behind (by omega)) (by omega) enough traceCommands
    exact ⟨_, last, seen, runs, .inr ⟨by omega, rfl⟩⟩

/-- A list at an image without jumps, calls and returns fares so, by recursion on the words of the
image.
-/
theorem runs_of_straight {size : UInt32} {address : Address} {image : Bytes} {fuel : Nat}
    (starts : head.list.pc = address) (masked : address.IsMasked)
    (shows : memory.Shows size address.toNat image) (straight : Straight image)
    (stall : head.list.stall.toNat = address.toNat + image.length)
    (enough : 0x10000000 ≤ address.toNat + 4 * fuel) (traceCommands : Bool)
    : ∃ ending last seen,
        Runs memory traceCommands fuel head ending last seen
        ∧ Crosses address image ending (seen.filterMap Occurrence.fetch?) := by
  induction address, image using wordsFrom.induct generalizing head fuel with
  | case1 address first second third fourth rest ih =>
      subst starts
      let word := UInt32.ofNat (LittleEndian.value [first, second, third, fourth])
      have front : first :: second :: third :: fourth :: rest
          = LittleEndian.bytes 4 word.toNat ++ rest := by
        rw [bytes_ofNat_value _ rfl]
        rfl
      have inside := (Address.isMasked_iff _).mp masked
      rw [List.length_cons, List.length_cons, List.length_cons, List.length_cons] at stall
      rw [front] at shows straight
      have fetched := shows.readWord masked
      have waits : ¬head.list.isStalled := by
        intro stalled
        rw [DisplayList.isStalled, beq_iff_eq, ← UInt32.toNat_inj] at stalled
        omega
      obtain ⟨moved, room⟩ := toNat_advance masked fetched
      have next : Address.mask (head.list.pc + 4) = head.list.pc + 4 := by
        rw [← UInt32.toNat_inj, moved, UInt32.toNat_add]
        simp only [UInt32.reduceToNat]
        omega
      obtain ⟨seen, fetches, ⟨later, stepped, pc, kept⟩ | ⟨-, last, ended⟩⟩ :=
        step_of_straight waits fetched (straight [] word rest rfl) traceCommands
      · cases fuel with
        | zero => omega
        | succ fuel =>
            have behind := shows.of_append
            rw [LittleEndian.length_bytes, ← moved, next] at behind
            rw [next] at moved pc
            have ahead : later.list.stall.toNat = (head.list.pc + 4).toNat + rest.length := by
              rw [kept]
              omega
            have further : 0x10000000 ≤ (head.list.pc + 4).toNat + 4 * fuel := by omega
            obtain ⟨ending, last, others, runs, crosses⟩ := ih pc (next ▸ Address.isMasked_mask _)
              behind straight.of_append ahead further
            refine ⟨ending, last, _, .turn stepped runs, ?_⟩
            rw [List.filterMap_append, fetches]
            exact crosses.cons
      · have fueled : 0 < fuel := by omega
        refine ⟨.completed, last, seen, ⟨[], head, [], seen, .here head, ended, fueled, rfl⟩, ?_⟩
        rw [fetches]
        exact .completes ⟨_, rfl⟩
  | case2 image address broken =>
      subst starts
      have short : image.length < 4 := by
        rcases image with _ | ⟨_, _ | ⟨_, _ | ⟨_, _ | ⟨_, _⟩⟩⟩⟩
        · simp
        · simp
        · simp
        · simp
        · exact (broken _ _ _ _ _ rfl).elim
      have none : wordsFrom head.list.pc image = [] := by
        rw [wordsFrom]
        exact broken
      obtain ⟨ending, last, seen, runs, ⟨whole, rfl, rfl⟩ | ⟨misses, rfl⟩⟩ :=
        runs_of_short short masked shows stall enough traceCommands
      · refine ⟨_, last, _, runs, ?_⟩
        have stalls : Crosses head.list.pc image .stalled (wordsFrom head.list.pc image) :=
          .stalls whole
        rw [none] at stalls
        exact stalls
      · exact ⟨_, last, seen, runs, .misses misses (none ▸ List.nil_prefix)⟩

end GraphicsEngine.Execution
