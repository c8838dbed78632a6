import GraphicsEngine.Proofs.Execution.Straight
import GraphicsEngine.Proofs.Session.Progress

/-! Sessions that run an image from its beginning to its end. An image without jumps, calls and
returns is not left, as long as it is made of whole words.
-/

namespace GraphicsEngine

/-- Every word that was fetched lies in the image from its first byte to its last one, and no word
of the image was left out before another one.
-/
def Trace.StaysIn (trace : Trace) (start : Address) (image : Bytes)
    : Prop :=
  (∀ fetch ∈ trace.fetches,
    start.toNat ≤ fetch.1.toNat ∧ fetch.1.toNat + 4 ≤ start.toNat + image.length)
  ∧ trace.fetches <+: wordsFrom start image

namespace Session

/-- The list was completed. -/
def State.IsCompleted (session : State)
    : Prop :=
  session.engine.queue = [] ∧ session.engine.stats.completed = 1
  ∧ session.engine.stats.aborted = 0

/-- The list was aborted. -/
def State.IsAborted (session : State)
    : Prop :=
  session.engine.queue = [] ∧ session.engine.stats.completed = 0
  ∧ session.engine.stats.aborted = 1

/-- The list waits at an address, which its next command stands at. -/
def State.WaitsAt (session : State) (address : Address)
    : Prop :=
  ∃ list, session.engine.queue = [list] ∧ list.isStalled ∧ list.pc = address.mask

-----------------------------------------------------------------------------------------
-- The list of a session
-----------------------------------------------------------------------------------------

variable {arguments : Arguments} {surroundings : Surroundings} {memory : Memory} {size : UInt32}
  {image : Bytes}

/-- The list that a session begins with. -/
def Arguments.newList (arguments : Arguments) (size : UInt32)
    : DisplayList :=
  .fresh 1 (arguments.list.getD arguments.loadAddress)
    (arguments.stall.getD (arguments.loadAddress + size)) arguments.channel

/-- The engine that the list has joined, when its queue is taken up. -/
def joined (arguments : Arguments) (surroundings : Surroundings) (size : UInt32)
    : Engine :=
  ((firstEngine arguments).join (arguments.list.getD arguments.loadAddress)
    (arguments.stall.getD (arguments.loadAddress + size)) arguments.channel arguments.head).takeUp
    (surroundings.clock 0)

/-- The list at its first loop head. -/
def firstHead (arguments : Arguments) (surroundings : Surroundings) (size : UInt32)
    : Execution :=
  ((joined arguments surroundings size).present (arguments.newList size)).launch
    (arguments.newList size)

/-- A session is where the run of its list has led. -/
theorem launch_of_runs {ending : Ending} {last : Execution} {seen : List Occurrence}
    (mapped : memory.isMapped (arguments.newList size).pc)
    (ran : Execution.Runs memory arguments.traceCommands surroundings.fuel
      (firstHead arguments surroundings size) ending last seen)
    : ∃ session, launch arguments surroundings memory size = some session
        ∧ session.trace.fetches = seen.filterMap Occurrence.fetch?
        ∧ session.engine.queue = (if ending.leaves then [] else [last.list])
        ∧ session.engine.stats.completed = (if ending = .completed then 1 else 0)
        ∧ session.engine.stats.aborted = (if ending = .aborted then 1 else 0) := by
  let list := arguments.newList size
  let engine := joined arguments surroundings size
  let host : Host := { memory, ticks := surroundings.clock 0, fuel := surroundings.fuel }
  have waiting : list.state ≠ .completed := fun completed => nomatch completed
  have visits := @Engine.Visits.runs host engine list waiting mapped ending last seen ran
  -- Nothing is counted while the list runs but its commands and interrupts.
  obtain ⟨commands, interrupts, counted⟩ := ran.stats
  have before : (firstHead arguments surroundings size).stats = { started := 1 } := rfl
  rw [before] at counted
  obtain ⟨final, answer, shown, drains, fetches, queue, stats⟩ : ∃ final answer shown,
      Engine.Drains host [list] engine answer final shown
      ∧ shown.filterMap Occurrence.fetch? = seen.filterMap Occurrence.fetch?
      ∧ final.queue = (if ending.leaves then [] else [last.list])
      ∧ final.stats = last.stats.count ending := by
    have fetches
        : (if ending = .stalled then seen ++ [.notice (.stalled list.id)] else seen).filterMap
            Occurrence.fetch?
          = seen.filterMap Occurrence.fetch? :=
      Engine.filterMap_stalled (fun _ => rfl) ending seen list.id
    by_cases leaving : ending.leaves
    · refine ⟨_, _, _, .leaves visits leaving (.empty _), ?_, (if_pos leaving).symm, rfl⟩
      rw [List.append_nil]
      exact fetches
    · have stalled : ending = .stalled := by
        rw [Ending.leaves_iff] at leaving
        exact not_not.mp leaving
      subst stalled
      exact ⟨_, _, _, .stays visits, fetches, (if_neg leaving).symm, rfl⟩
  let base := (firstEngine arguments).join (arguments.list.getD arguments.loadAddress)
    (arguments.stall.getD (arguments.loadAddress + size)) arguments.channel arguments.head
  have queued : base.queue = [list] := by
    cases head : arguments.head <;> simp [base, head] <;> rfl
  rw [← queued] at drains
  have joins := Engine.enqueue_eq_map (firstEngine arguments) host
    (arguments.list.getD arguments.loadAddress)
    (arguments.stall.getD (arguments.loadAddress + size)) arguments.channel arguments.head
  rw [Engine.Drains.drainInto drains] at joins
  refine ⟨_, launch_eq_some_iff.mpr ⟨_, joins, rfl⟩, ?_, ?_, ?_, ?_⟩
  · rw [← fetches]
    simp [Trace.fetches, List.filterMap_cons, Occurrence.fetch?]
  · exact queue
  · have completed : final.settle.stats.completed = final.stats.completed := rfl
    rw [completed, stats, counted]
    cases ending <;> rfl
  · have aborted : final.settle.stats.aborted = final.stats.aborted := rfl
    rw [aborted, stats, counted]
    cases ending <;> first | rfl | exact absurd ran.ending (by decide)

/-- An image that is loaded shows in memory, from where it was loaded on. -/
theorem shows_of_loadImage (read : surroundings.files.read arguments.image = .ok image)
    (loaded : loadImage arguments surroundings.files = .ok (memory, size))
    : image ≠ [] ∧ size = UInt32.ofNat image.length
      ∧ memory.Shows arguments.ramSize (Address.place arguments.loadAddress) image := by
  rw [loadImage, read] at loaded
  dsimp only at loaded
  split at loaded
  · cases loaded
  · next present =>
    split at loaded
    · cases loaded
    · split at loaded
      · cases loaded
      · next written =>
        cases loaded
        exact ⟨by simpa using present, rfl, Memory.shows_of_write written⟩

/-- The end of what lies in the address map is as far behind its start in every segment. -/
theorem toNat_mask_add {address : Address} {count : Nat}
    (room : address.place + count < 0x10000000)
    : (Address.mask (address + UInt32.ofNat count)).toNat
      = (Address.mask address).toNat + count := by
  rw [Address.place] at room
  rw [Address.toNat_mask, Address.toNat_mask, UInt32.toNat_add, UInt32.toNat_ofNat']
  omega

/-- A session that moves no stall address is over when its list has run. -/
theorem run_of_launch {session : State}
    (loaded : loadImage arguments surroundings.files = .ok (memory, size))
    (new : arguments.loadState = none) (still : arguments.advances = [])
    (launched : launch arguments surroundings memory size = some session)
    : run arguments surroundings
      = some {
          value := conclude arguments surroundings.files session
          trace := session.trace } := by
  have started : start arguments surroundings
      = some { value := .ok session, trace := session.trace } := by
    simp [start, loaded, new, launched]
  rw [run_eq_some_iff started (underway_of_launch launched).list, still]
  exact ⟨session, .here session, rfl⟩

/-- A session that only runs an image, with fuel for all words of the address map, fetches the words
of the image one after the other, if none of them is a JUMP, a CALL or a RET. Its list is completed
by one of them or waits at the end of the image. The end of an image that is not made of whole words
is missed by a list that is not completed: it is aborted behind all the words.
-/
theorem run_straight (read : surroundings.files.read arguments.image = .ok image)
    (loaded : loadImage arguments surroundings.files = .ok (memory, size))
    (straight : Straight image) (list : arguments.list = none) (stall : arguments.stall = none)
    (new : arguments.loadState = none) (still : arguments.advances = [])
    (fueled : 0x10000000 ≤ 4 * surroundings.fuel)
    : ∃ session,
        run arguments surroundings
          = some {
              value := conclude arguments surroundings.files session
              trace := session.trace }
        ∧ (session.trace.StaysIn (Address.mask arguments.loadAddress) image
            ∧ (session.IsCompleted
              ∨ 4 ∣ image.length ∧ session.WaitsAt (arguments.loadAddress + size))
          ∨ ¬4 ∣ image.length ∧ session.IsAborted
            ∧ wordsFrom (Address.mask arguments.loadAddress) image <+: session.trace.fetches) := by
  obtain ⟨present, rfl, shows⟩ := shows_of_loadImage read loaded
  have length : 0 < image.length := List.length_pos_of_ne_nil present
  obtain ⟨extent, listed, starts, ends⟩ := shows.room
  have fits : Memory.Fits arguments.ramSize (Address.place arguments.loadAddress) image.length :=
    ⟨extent, listed, starts, by omega, ends⟩
  have room := Memory.lt_of_fits fits
  have ended := toNat_mask_add room
  have mapped : memory.isMapped (Address.mask arguments.loadAddress) := by
    rw [Memory.isMapped, Address.mask_mask]
    exact (Memory.isMapped_iff shows.sized _).mpr (Memory.mapped_of_fits fits)
  rw [← Address.toNat_mask_eq_place] at shows room
  -- The list begins at the first byte of the image and waits behind the last one.
  have fresh : arguments.newList (UInt32.ofNat image.length)
      = .fresh 1 arguments.loadAddress (arguments.loadAddress + UInt32.ofNat image.length)
          arguments.channel := by
    rw [Arguments.newList, list, stall]
    rfl
  have begins : (firstHead arguments surroundings (UInt32.ofNat image.length)).list.pc
      = Address.mask arguments.loadAddress :=
    congrArg DisplayList.pc fresh
  have waits : (firstHead arguments surroundings (UInt32.ofNat image.length)).list.stall
      = Address.mask (arguments.loadAddress + UInt32.ofNat image.length) :=
    congrArg DisplayList.stall fresh
  have enough : 0x10000000
      ≤ (Address.mask arguments.loadAddress).toNat + 4 * surroundings.fuel := by omega
  obtain ⟨ending, last, seen, runs, crosses⟩ :=
    Execution.runs_of_straight begins (Address.isMasked_mask _) shows straight (waits ▸ ended)
      enough arguments.traceCommands
  obtain ⟨session, launched, fetches, queue, completed, aborted⟩ :=
    launch_of_runs (fresh ▸ mapped) runs
  refine ⟨session, run_of_launch loaded new still launched, ?_⟩
  have inside
      (front : session.trace.fetches <+: wordsFrom (Address.mask arguments.loadAddress) image)
      : session.trace.StaysIn (Address.mask arguments.loadAddress) image := by
    refine ⟨fun fetch member => ?_, front⟩
    exact inside_of_mem_wordsFrom (Nat.lt_trans room (by decide)) (front.subset member)
  generalize seen.filterMap Occurrence.fetch? = fetched at fetches crosses
  cases crosses with
  | completes front =>
      rw [← fetches] at front
      exact .inl ⟨inside front, .inl ⟨queue, completed, aborted⟩⟩
  | stalls whole =>
      have front : session.trace.fetches
          <+: wordsFrom (Address.mask arguments.loadAddress) image :=
        ⟨[], by rw [List.append_nil, fetches]⟩
      have stalled := runs.stalled.1
      have stands : last.list.pc
          = Address.mask (arguments.loadAddress + UInt32.ofNat image.length) := by
        rw [DisplayList.isStalled, beq_iff_eq, runs.continues.stall, waits] at stalled
        exact stalled
      exact .inl ⟨inside front, .inr ⟨whole, last.list, queue, stalled, stands⟩⟩
  | misses broken beyond =>
      rw [← fetches] at beyond
      exact .inr ⟨broken, ⟨queue, completed, aborted⟩, beyond⟩

/-- Surroundings with one file to be read, and fuel for all words of the address map. -/
def holding (image : Bytes)
    : Surroundings :=
  { files := { read := fun _ => .ok image, create := fun _ => .error "read-only" }
    clock := fun _ => 7
    fuel := 0x04000000 }

/-- An image in video memory, put there through another segment and out of line. -/
def unaligned : Arguments :=
  { image := "list.bin", loadAddress := 0x441FFFF6 }

/-- Of two words none leaves the image. -/
theorem run_straight_unaligned
    : Straight [1, 0, 0, 4, 2, 0, 0, 4]
      ∧ ∃ session,
          run unaligned (holding [1, 0, 0, 4, 2, 0, 0, 4])
            = some {
                value := conclude unaligned (holding [1, 0, 0, 4, 2, 0, 0, 4]).files session
                trace := session.trace }
          ∧ session.trace.StaysIn 0x041FFFF6 [1, 0, 0, 4, 2, 0, 0, 4]
          ∧ (session.IsCompleted ∨ session.WaitsAt 0x441FFFFE) := by
  have straight : Straight [1, 0, 0, 4, 2, 0, 0, 4] :=
    straight_of_absent (by simp [Opcode.jump, Opcode.call, Opcode.ret])
  have known : (loadImage unaligned (holding [1, 0, 0, 4, 2, 0, 0, 4]).files).map Prod.snd
      = .ok 8 := by decide +kernel
  cases loaded : loadImage unaligned (holding [1, 0, 0, 4, 2, 0, 0, 4]).files with
  | error failure =>
      rw [loaded] at known
      cases known
  | ok placed =>
      obtain ⟨memory, size⟩ := placed
      rw [loaded] at known
      obtain rfl : size = 8 := Except.ok.inj known
      obtain ⟨session, ran, ⟨inside, ended⟩ | ⟨broken, -⟩⟩ :=
        run_straight rfl loaded straight rfl rfl rfl rfl (by decide)
      · exact ⟨straight, session, ran, inside, ended.imp_right And.right⟩
      · exact absurd ⟨2, rfl⟩ broken

/-- An image in main memory with room for two words. -/
def cramped : Arguments :=
  { image := "list.bin", ramSize := 8 }

/-- Of an image of five bytes one word is fetched that lies in it, and another one that does not.
Then the list is aborted and leaves the queue.
-/
theorem run_beyond_cramped
    : Straight [0, 0, 0, 0, 0]
      ∧ ∃ report trace,
          run cramped (holding [0, 0, 0, 0, 0]) = some { value := .ok report, trace }
          ∧ trace.fetches = [(0x08000000, 0), (0x08000004, 0)]
          ∧ ¬trace.StaysIn 0x08000000 [0, 0, 0, 0, 0]
          ∧ report.summary.queue = []
          ∧ report.summary.stats.completed = 0 ∧ report.summary.stats.aborted = 1 := by
  have straight : Straight [0, 0, 0, 0, 0] :=
    straight_of_absent (by simp [Opcode.jump, Opcode.call, Opcode.ret])
  have known : (run cramped (holding [0, 0, 0, 0, 0])).map (fun result =>
      (result.trace.fetches, result.value.toOption.map fun report =>
        (report.summary.queue, report.summary.stats.completed, report.summary.stats.aborted)))
      = some ([(0x08000000, 0), (0x08000004, 0)], some ([], 0, 1)) := by decide +kernel
  obtain ⟨⟨_ | report, trace⟩, ran, known⟩ := Option.map_eq_some_iff.mp known
  · simp [Except.toOption] at known
  simp only [Except.toOption, Option.map_some, Option.some.injEq, Prod.mk.injEq] at known
  obtain ⟨fetches, queue, completed, aborted⟩ := known
  refine ⟨straight, report, trace, ran, fetches, ?_, queue, completed, aborted⟩
  rintro ⟨inside, -⟩
  rw [fetches] at inside
  exact absurd (inside (0x08000004, 0) (by simp)).2 (by decide)

end Session

end GraphicsEngine
