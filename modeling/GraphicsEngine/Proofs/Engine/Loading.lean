import GraphicsEngine.Proofs.Engine.Ranges
import GraphicsEngine.Proofs.Engine.Restoration
import Mathlib.Data.List.Induction

/-! Exactly which bytes an engine loads, what it then is, and that it stays as it is where it
refuses them.
-/

namespace GraphicsEngine

-----------------------------------------------------------------------------------------
-- Lists
-----------------------------------------------------------------------------------------

/-- A record of a list such as an engine can hold, but for the number of the list. -/
structure Snapshot.ListRecord.InRange (record : ListRecord)
    : Prop where
  state : 1 ≤ record.state.toNat ∧ record.state.toNat ≤ 4
  start : record.start.toNat < 0x10000000
  pc : record.pc.toNat < 0x10000000
  stall : record.stall.toNat < 0x10000000
  stack : ∀ address ∈ record.stack, address.toNat < 0x10000000
  depth : record.stack.length ≤ 32
  channel : -1 ≤ record.channel.toInt

/-- The codes of states are the numbers from one to four. -/
theorem ListState.exists_code_iff (code : UInt8)
    : (∃ state, ListState.code state = code) ↔ 1 ≤ code.toNat ∧ code.toNat ≤ 4 := by
  constructor
  · intro holds
    obtain ⟨state, rfl⟩ := holds
    cases state <;> decide
  · intro between
    have codes : code.toNat = 1 ∨ code.toNat = 2 ∨ code.toNat = 3 ∨ code.toNat = 4 := by omega
    rcases codes with same | same | same | same
    · exact ⟨.queued, UInt8.toNat_inj.mp same.symm⟩
    · exact ⟨.running, UInt8.toNat_inj.mp same.symm⟩
    · exact ⟨.completed, UInt8.toNat_inj.mp same.symm⟩
    · exact ⟨.paused, UInt8.toNat_inj.mp same.symm⟩

namespace DisplayList

/-- The records of sound lists are those in range under numbers that are not zero. -/
theorem exists_sound_iff (record : Snapshot.ListRecord)
    : (∃ list : DisplayList, list.Sound ∧ list.toRecord = record)
      ↔ 1 ≤ record.id.toNat ∧ record.InRange := by
  constructor
  · intro holds
    obtain ⟨list, sound, rfl⟩ := holds
    have inRange := list.sound_iff_inRange.mp sound
    exact ⟨inRange.id, {
      state := (ListState.exists_code_iff _).mp ⟨list.state, rfl⟩
      start := inRange.start
      pc := inRange.pc
      stall := inRange.stall
      stack := fun address member => inRange.stack address (List.mem_reverse.mp member)
      depth := by simpa [toRecord] using inRange.depth
      channel := inRange.channel }⟩
  · intro holds
    obtain ⟨id, inRange⟩ := holds
    obtain ⟨state, code⟩ := (ListState.exists_code_iff _).mpr inRange.state
    let list : DisplayList :=
      { id := record.id, start := record.start, pc := record.pc, stall := record.stall, state
        channel := record.channel, token := record.token, signal := record.signal
        stack := record.stack.reverse }
    have listInRange : list.InRange := {
      id
      start := inRange.start
      pc := inRange.pc
      stall := inRange.stall
      stack := fun address member => inRange.stack address (List.mem_reverse.mp member)
      depth := by simpa [list] using inRange.depth
      channel := inRange.channel }
    refine ⟨list, list.sound_iff_inRange.mpr listInRange, ?_⟩
    simp only [list, toRecord, code, List.reverse_reverse]

end DisplayList

-----------------------------------------------------------------------------------------
-- Queues
-----------------------------------------------------------------------------------------

namespace Snapshot

/-- Some queue has the records exactly if each of them is in range, by induction on the records. -/
theorem exists_queue_iff (records : List ListRecord)
    : (∃ queue : Queue, queue.map DisplayList.toRecord = records ∧ ∀ list ∈ queue, list.Sound)
      ↔ ∀ record ∈ records, 1 ≤ record.id.toNat ∧ record.InRange := by
  simp only [← DisplayList.exists_sound_iff]
  constructor
  · intro holds record member
    obtain ⟨queue, rfl, sound⟩ := holds
    obtain ⟨list, listed, same⟩ := List.mem_map.mp member
    exact ⟨list, sound list listed, same⟩
  · intro each
    induction records with
    | nil => exact ⟨[], rfl, by simp⟩
    | cons record rest ih =>
        rw [List.forall_mem_cons] at each
        obtain ⟨list, sound, rfl⟩ := each.1
        obtain ⟨queue, rfl, others⟩ := ih each.2
        exact ⟨list :: queue, rfl, List.forall_mem_cons.mpr ⟨sound, others⟩⟩

/-- Records that an engine can take on: it has a number for its next list, and every list has one of
its own before that and is in range.
-/
structure Acceptable (record : EngineRecord) (lists : List ListRecord)
    : Prop where
  nextId : 1 ≤ record.nextId.toNat
  distinct : (lists.map (·.id)).Nodup
  given : ∀ list ∈ lists, 1 ≤ list.id.toNat ∧ list.id.toNat ≤ record.nextId.toNat - 1
  inRange : ∀ list ∈ lists, list.InRange

/-- Records describe a queue, and leave a number for the next list, exactly where they are
acceptable.
-/
theorem acceptable_iff {record : EngineRecord} {lists : List ListRecord}
    : Acceptable record lists
      ↔ record.nextId ≠ 0 ∧ ∃ queue, queueOfRecords record.nextId [] lists = .ok queue := by
  simp only [queueOfRecords_nil_eq_ok_iff, exists_and_right, exists_queue_iff,
    List.forall_mem_map, UInt32.lt_iff_toNat_lt, ← one_le_toNat_iff]
  constructor
  · intro acceptable
    refine ⟨acceptable.nextId, fun list member => ?_, acceptable.distinct, fun list member => ?_⟩
    · exact ⟨(acceptable.given list member).1, acceptable.inRange list member⟩
    · have given := acceptable.given list member
      omega
  · intro holds
    obtain ⟨nextId, each, distinct, behind⟩ := holds
    refine ⟨nextId, distinct, fun list member => ⟨(each list member).1, ?_⟩, fun list member => ?_⟩
    · have before := behind list member
      omega
    · exact (each list member).2

-----------------------------------------------------------------------------------------
-- Sections
-----------------------------------------------------------------------------------------

namespace Section

def engine?
    : Section → Option EngineRecord
  | engine record => some record
  | _ => none

def lists?
    : Section → Option (List ListRecord)
  | lists records => some records
  | _ => none

def cache?
    : Section → Option CommandCache
  | cache words => some words
  | _ => none

end Section

/-- A section is of a kind where it holds something of that kind. -/
theorem Section.isKind_eq (contents : Section)
    : contents.isEngine = contents.engine?.isSome
      ∧ contents.isLists = contents.lists?.isSome
      ∧ contents.isCache = contents.cache?.isSome := by
  cases contents <;> exact ⟨rfl, rfl, rfl⟩

/-- What the last section of a kind holds. -/
def last? {α : Type} (kind : Section → Option α) (sections : List Section)
    : Option α :=
  (sections.filterMap kind).getLast?

/-- There is a last section of a kind where there is one at all. -/
theorem exists_last?_iff {α : Type} {kind : Section → Option α} {isKind : Section → Bool}
    (same : ∀ contents, isKind contents = (kind contents).isSome) (sections : List Section)
    : (∃ held, last? kind sections = some held) ↔ sections.any isKind := by
  rw [← Option.isSome_iff_exists, last?, List.getLast?_isSome, List.any_eq_true]
  simp [same, Option.isSome_iff_exists, Option.ne_none_iff_exists']

/-- Of every kind the last section counts, by induction from the last section on. -/
theorem Staged.ofSections_eq (sections : List Section)
    : ofSections sections
      = ⟨last? Section.engine? sections, (last? Section.lists? sections).getD [],
          (last? Section.cache? sections).getD .blank⟩ := by
  induction sections using List.reverseRecOn with
  | nil => rfl
  | append_singleton earlier last ih =>
      rw [ofSections, List.foldl_append, ← ofSections, ih]
      cases last <;>
        simp [receive, last?, Section.engine?, Section.lists?, Section.cache?]

/-- The empty cache that is handed on for a missing one is the one that an engine starts from. -/
theorem Staged.ofSections_withCache (contents : List Section)
    : ofSections (withCache contents) = ofSections contents := by
  unfold withCache
  split
  · rfl
  · next uncached =>
    have missing : last? Section.cache? contents = none := by
      rw [← exists_last?_iff fun contents => contents.isKind_eq.2.2] at uncached
      exact Option.eq_none_iff_forall_not_mem.mpr fun cache last => uncached ⟨cache, last⟩
    rw [ofSections, List.foldl_append, ← ofSections, ofSections_eq, missing]
    rfl

end Snapshot

namespace Engine

open Snapshot

/-- An engine takes on the last engine record and the last lists of a snapshot if they are
acceptable.
-/
theorem examine_eq_ok_iff_spells {bytes : Bytes} {restoration : Restoration}
    : examine bytes = .ok restoration
      ↔ ∃ contents record lists queue, Spells bytes contents
          ∧ last? Section.engine? contents = some record
          ∧ last? Section.lists? contents = some lists
          ∧ record.nextId ≠ 0
          ∧ queueOfRecords record.nextId [] lists = .ok queue
          ∧ restoration = ⟨record, queue, (last? Section.cache? contents).getD .blank⟩ := by
  constructor
  · intro examined
    rw [examine] at examined
    cases reading : Snapshot.read bytes with
    | mk sections outcome =>
        rw [reading] at examined
        cases outcome with
        | error failure => cases examined
        | ok _ =>
            obtain ⟨contents, spells, -, lists, rfl⟩ := read_eq_ok_iff.mp reading
            obtain ⟨records, last⟩ :=
              (exists_last?_iff (fun contents => contents.isKind_eq.2.1) contents).mpr lists
            obtain ⟨record, queue, engine, given, described, rfl⟩ :=
              Staged.check_eq_ok_iff.mp examined
            rw [Staged.ofSections_withCache, Staged.ofSections_eq] at engine described ⊢
            rw [last] at described
            exact ⟨contents, record, records, queue, spells, engine, last, given, described, rfl⟩
  · intro holds
    obtain ⟨contents, record, lists, queue, spells, engine, last, given, described, rfl⟩ := holds
    have reading : Snapshot.read bytes = ⟨withCache contents, .ok ()⟩ :=
      read_eq_ok_iff.mpr ⟨contents, spells,
        (exists_last?_iff (fun contents => contents.isKind_eq.1) contents).mp ⟨record, engine⟩,
        (exists_last?_iff (fun contents => contents.isKind_eq.2.1) contents).mp ⟨lists, last⟩, rfl⟩
    rw [examine, reading]
    refine Staged.check_eq_ok_iff.mpr ⟨record, queue, ?_, given, ?_, ?_⟩
    · rw [Staged.ofSections_withCache, Staged.ofSections_eq, engine]
    · rw [Staged.ofSections_withCache, Staged.ofSections_eq, last]
      exact described
    · rw [Staged.ofSections_withCache, Staged.ofSections_eq]

/-- Bytes that an engine can take on: a snapshot with an engine record and lists, the last of which
are acceptable.
-/
def Loadable (bytes : Bytes)
    : Prop :=
  ∃ contents record lists, Spells bytes contents
    ∧ last? Section.engine? contents = some record
    ∧ last? Section.lists? contents = some lists
    ∧ Acceptable record lists

/-- The engine that an engine becomes when it takes on an engine record, lists and a cache: all that
they say and nothing of what it was before, but for its configuration and its counters. The current
list is the one that the record names, if it is among the lists.
-/
structure TakesOn (engine : Engine) (record : EngineRecord) (records : List ListRecord)
    (cache : CommandCache) (later : Engine)
    : Prop where
  lists : later.queue.map DisplayList.toRecord = records
  current
    : later.current
      = if record.current ∈ records.map (·.id) then some record.current else none
  nextId : later.nextId = record.nextId
  cache : later.cache = cache
  registers
    : later.registers
      = { offset := record.offset
          previous := record.previous
          finished := record.finished
          cycles := record.cycles
          checkpoint := record.checkpoint
          startingTicks := record.startingTicks }
  interrupts
    : later.interrupts
      = { enabled := record.interruptsEnabled
          serving := record.serving
          pending := record.pending.toArray }
  config : later.config = engine.config
  stats : later.stats = engine.stats

/-- Among lists whose numbers are not zero the current one is found by its number. -/
theorem resolveCurrent_eq {queue : Queue} (given : ∀ list ∈ queue, list.id ≠ 0) (current : ListId)
    : resolveCurrent queue current
      = if current ∈ Queue.ids queue then some current else none := by
  have known : (current ≠ 0 ∧ (Queue.position? queue current).isSome)
      ↔ current ∈ Queue.ids queue := by
    rw [Queue.position?_isSome, and_iff_right_iff_imp]
    intro member
    obtain ⟨list, listed, rfl⟩ := List.mem_map.mp member
    exact given list listed
  simp only [resolveCurrent, known]

/-- An engine takes on the records that describe a queue of sound lists. -/
theorem adopt_takesOn (engine : Engine) (record : EngineRecord) {queue : Queue}
    (cache : CommandCache) (sound : ∀ list ∈ queue, list.Sound)
    : engine.TakesOn record (queue.map DisplayList.toRecord) cache
        (engine.adopt ⟨record, queue, cache⟩) where
  lists := rfl
  current := by
    rw [DisplayList.map_id_toRecord]
    exact resolveCurrent_eq (fun list member => (sound list member).id) record.current
  nextId := rfl
  cache := rfl
  registers := rfl
  interrupts := rfl
  config := rfl
  stats := rfl

/-- An engine loads exactly the snapshots whose last engine record and last lists are acceptable. It
takes on just these and the last cache, or an empty one where there is none; where it refuses the
bytes it stays as it is.
-/
theorem load_exactly (engine : Engine) (bytes : Bytes)
    : ((∃ outcome, engine.load bytes = .ok outcome) ↔ Loadable bytes)
      ∧ (∀ {outcome contents record lists}, engine.load bytes = .ok outcome
          → Spells bytes contents
          → last? Section.engine? contents = some record
          → last? Section.lists? contents = some lists
          → engine.TakesOn record lists ((last? Section.cache? contents).getD .blank)
              outcome.engine)
      ∧ ∀ {host error}, engine.load bytes = .error error
          → (Operation.load bytes).perform host engine
            = some { answer := .unreadable error, engine, trace := #[] } := by
  refine ⟨⟨fun loads => ?_, fun loadable => ?_⟩, ?_, fun refused => ?_⟩
  · obtain ⟨_, loaded⟩ := loads
    obtain ⟨_, examined, -⟩ := load_eq_ok_iff.mp loaded
    obtain ⟨contents, record, lists, queue, spells, last, lastLists, given, described, -⟩ :=
      examine_eq_ok_iff_spells.mp examined
    exact ⟨contents, record, lists, spells, last, lastLists,
      acceptable_iff.mpr ⟨given, queue, described⟩⟩
  · obtain ⟨contents, record, lists, spells, last, lastLists, acceptable⟩ := loadable
    obtain ⟨given, queue, described⟩ := acceptable_iff.mp acceptable
    have examined := examine_eq_ok_iff_spells.mpr
      ⟨contents, record, lists, queue, spells, last, lastLists, given, described, rfl⟩
    exact ⟨_, load_eq_ok_iff.mpr ⟨_, examined, rfl⟩⟩
  · intro outcome contents record lists loaded spells last lastLists
    obtain ⟨_, examined, rfl⟩ := load_eq_ok_iff.mp loaded
    obtain ⟨found, _, _, queue, spelt, engine', lists', -, described, rfl⟩ :=
      examine_eq_ok_iff_spells.mp examined
    -- The sections that were examined are the given ones, since bytes spell one thing only.
    cases spells.unique spelt
    rw [last] at engine'
    rw [lastLists] at lists'
    cases engine'
    cases lists'
    obtain ⟨⟨rfl, sound⟩, -⟩ := queueOfRecords_nil_eq_ok_iff.mp described
    exact adopt_takesOn engine record _ sound
  · rw [Operation.perform, Operation.loadInto, refused]

/-- An engine record that names the list 2 as the current one. -/
def waitingRecord : EngineRecord :=
  { nextId := 3, current := 2, serving := false, interruptsEnabled := true, previous := 0
    finished := false, offset := 0, cycles := 0, checkpoint := 0x08000000, startingTicks := 7
    pending := [] }

/-- The record of a list that waits at its first command. -/
def waitingListRecord : ListRecord :=
  { id := 2, start := 0x08000000, pc := 0x08000000, stall := 0x08000000, state := 2, channel := -1
    token := 0, signal := 0, stack := [] }

/-- No lists, then something unknown, then an engine record that goes on behind its fields, and then
one list.
-/
def patches : List RawSection :=
  [⟨⟨Tag.lists, 1, 0, 4⟩, listsPayload [], rfl⟩, ⟨⟨77, 1, 0, 3⟩, [1, 2, 3], rfl⟩,
    ⟨⟨Tag.engine, 1, 5, 45⟩, waitingRecord.encode ++ [8, 9], rfl⟩,
    ⟨⟨Tag.lists, 1, 0, 34⟩, listsPayload [waitingListRecord], rfl⟩]

/-- A snapshot of such sections, with a reserved byte and flags that say something. -/
def patchwork : Bytes :=
  magic ++ Encoding.uint16 1 ++ Encoding.uint8 1 ++ Encoding.uint8 7 ++ Encoding.uint32 9
    ++ patches.flatMap RawSection.encode

/-- The snapshot is loaded, and of its sections of lists the second one counts. -/
theorem load_exactly_patchwork
    : ∃ outcome, (initial {}).load patchwork = .ok outcome
        ∧ outcome.engine.queue.map DisplayList.toRecord = [waitingListRecord]
        ∧ outcome.engine.current = some 2
        ∧ outcome.engine.nextId = 3
        ∧ outcome.engine.cache = .blank := by
  have concatenates : Concatenates (patches.flatMap RawSection.encode)
      [.lists [], .engine waitingRecord, .lists [waitingListRecord]] := by
    refine .cons ⟨⟨Tag.lists, 1, 0, 4⟩, listsPayload [], rfl⟩ (fun _ => by decide)
      (.lists [] [] rfl rfl (by decide) (by simp) rfl) ?_
    refine .cons ⟨⟨77, 1, 0, 3⟩, [1, 2, 3], rfl⟩ (fun _ => by decide)
      (.unknown (.inr (by decide))) ?_
    refine .cons ⟨⟨Tag.engine, 1, 5, 45⟩, waitingRecord.encode ++ [8, 9], rfl⟩
      (fun _ => by decide) (.engine waitingRecord [8, 9] rfl rfl (by decide) rfl) ?_
    exact .cons ⟨⟨Tag.lists, 1, 0, 34⟩, listsPayload [waitingListRecord], rfl⟩
      (fun _ => by decide)
      (.lists [waitingListRecord] [] rfl rfl (by decide) (by decide) rfl) .nil
  have spells : Spells patchwork
      [.lists [], .engine waitingRecord, .lists [waitingListRecord]] :=
    ⟨7, 9, _, rfl, concatenates⟩
  have acceptable : Acceptable waitingRecord [waitingListRecord] := {
    nextId := by decide
    distinct := by decide
    given := by decide
    inRange := fun list member => by
      cases List.mem_singleton.mp member
      exact ⟨by decide, by decide, by decide, by decide, List.forall_mem_nil _, by decide,
        by decide⟩ }
  obtain ⟨loads, takes, -⟩ := load_exactly (initial {}) patchwork
  obtain ⟨outcome, loaded⟩ := loads.mpr ⟨_, _, _, spells, rfl, rfl, acceptable⟩
  have taken := takes loaded spells rfl rfl
  exact ⟨outcome, loaded, taken.lists, taken.current, taken.nextId, taken.cache⟩

end Engine

end GraphicsEngine
