import GraphicsEngine.Proofs.Engine.Waiting
import GraphicsEngine.Proofs.Execution.Announcements

/-! What a list announces over its time at the front: with SIGNAL and FINISH before an END, and with
nothing else.
-/

namespace GraphicsEngine

-----------------------------------------------------------------------------------------
-- The first word of a turn at the front
-----------------------------------------------------------------------------------------

/-- No word announces anything to the first one that is fetched. -/
theorem Succession.told?_first (pc : Address) (word : Word)
    : told? ⟨0, pc, word⟩ = none := by
  have noSignal : ¬Word.opcode 0 = Opcode.signal := by decide
  have noFinish : ¬Word.opcode 0 = Opcode.finish := by decide
  simp only [told?, if_neg noSignal, if_neg noFinish, ite_self]

/-- Where nothing was fetched before, the first word has no word before it. -/
theorem following_zero (fetches : List (Address × Word))
    : following 0 fetches = successions fetches
      ∨ ∃ pc word, following 0 fetches = ⟨0, pc, word⟩ :: successions fetches := by
  cases fetches with
  | nil => exact .inl rfl
  | cons first rest => exact .inr ⟨first.1, first.2, following_cons 0 first.1 first.2 rest⟩

theorem filterMap_following_zero {α : Type} {view : Succession → Option α}
    (blind : ∀ pc word, view ⟨0, pc, word⟩ = none) (fetches : List (Address × Word))
    : (following 0 fetches).filterMap view = (successions fetches).filterMap view := by
  rcases following_zero fetches with same | ⟨pc, word, same⟩
  · rw [same]
  · rw [same, List.filterMap_cons_none (blind pc word)]

/-- The first word finishes nothing. -/
theorem finishes_following_zero (fetches : List (Address × Word))
    : (∃ succession ∈ following 0 fetches, succession.Finishes)
      ↔ ∃ succession ∈ successions fetches, succession.Finishes := by
  rcases following_zero fetches with same | ⟨pc, word, same⟩
  · rw [same]
  · have first : ¬Succession.Finishes ⟨0, pc, word⟩ :=
      Succession.not_finishes_of_untold (Succession.told?_first pc word)
    simp [same, first]

/-- The first word is before all others. -/
theorem mem_dropLast_following_zero {fetches : List (Address × Word)} {succession : Succession}
    (member : succession ∈ (successions fetches).dropLast)
    : succession ∈ (following 0 fetches).dropLast := by
  rcases following_zero fetches with same | ⟨pc, word, same⟩
  · rwa [same]
  · have some : successions fetches ≠ [] := by
      intro none
      simp [none] at member
    rw [same, List.dropLast_cons_of_ne_nil some]
    exact List.mem_cons_of_mem _ member

namespace Engine

variable {host : Host} {engine after : Engine} {list later : DisplayList} {ending : Ending}
  {seen : List Occurrence}

/-- All that a list makes known with SIGNAL and FINISH over its time at the front. -/
structure Announces (engine : Engine) (list later : DisplayList) (ending : Ending)
    (fetches : List (Address × Word)) (told : List Event) (raised : List Interrupt)
    : Prop where
  told : told = (successions fetches).filterMap Succession.told?
  raised
    : raised
      = if 0 ≤ list.channel ∧ engine.interrupts.enabled then
          (successions fetches).filterMap (Succession.interrupt? list)
        else
          []
  /-- Only the last two words can finish the list. -/
  last : ∀ succession ∈ (successions fetches).dropLast, ¬succession.Finishes
  finished : ending = .completed ↔ ∃ succession ∈ successions fetches, succession.Finishes
  completed
    : later.state = .completed
      ↔ list.state = .completed ∨ ∃ succession ∈ successions fetches, succession.Finishes

/-- A list whose words are not fetched makes nothing known. -/
theorem announces_of_plain (plain : seen.all Occurrence.isPlain) (unfinished : ending ≠ .completed)
    : engine.Announces list list ending (seen.filterMap Occurrence.fetch?)
        (Occurrence.announced seen) (seen.filterMap Occurrence.raised?) := by
  have none : successions (seen.filterMap Occurrence.fetch?) = [] := by
    rw [Occurrence.fetches_of_plain plain]
    rfl
  exact {
    told := by rw [none, Occurrence.announced_of_plain plain, List.filterMap_nil]
    raised := by rw [none, Occurrence.raised_of_plain plain, List.filterMap_nil, ite_self]
    last := by simp [none]
    finished := by simp [none, unfinished]
    completed := by simp [none] }

/-- A list at the front raises what comes with what is told, if it has a channel and interrupts are
enabled.
-/
theorem filterMap_raised? (engine : Engine) (list : DisplayList) (succeeding : List Succession)
    : succeeding.filterMap (Succession.raised? ((engine.present list).launch list))
      = if 0 ≤ list.channel ∧ engine.interrupts.enabled then
          succeeding.filterMap (Succession.interrupt? list)
        else
          [] := by
  have rings : Succession.raised? ((engine.present list).launch list)
      = fun succession =>
          if 0 ≤ list.channel ∧ engine.interrupts.enabled then succession.interrupt? list
          else none := rfl
  rw [rings]
  split
  · rfl
  · exact List.filterMap_eq_nil_iff.mpr fun _ _ => rfl

/-- A list makes known over its time at the front what its words in a row make of each other. -/
theorem Visits.announces (visits : Visits host engine list ending later after seen)
    : engine.Announces list later ending (seen.filterMap Occurrence.fetch?)
        (Occurrence.announced seen) (seen.filterMap Occurrence.raised?) := by
  cases visits with
  | skips => exact announces_of_plain rfl nofun
  | misses => exact announces_of_plain rfl nofun
  | @runs waiting _ _ last seen ran =>
      obtain ⟨told, raised, final, finished⟩ := Execution.Runs.announces ran
      have followed : ((engine.present list).launch list).followed seen
          = following 0 (seen.filterMap Occurrence.fetch?) := rfl
      rw [followed] at told raised final finished
      rw [filterMap_following_zero Succession.told?_first] at told
      rw [filterMap_raised?, filterMap_following_zero fun pc word => by
        rw [Succession.interrupt?, Succession.told?_first]; rfl] at raised
      have fetches := filterMap_stalled
        (fun notice => (rfl : Occurrence.fetch? (.notice notice) = none)) ending seen list.id
      have events := filterMap_stalled
        (fun notice => (rfl : Occurrence.event? (.notice notice) = none)) ending seen list.id
      have raises := filterMap_stalled
        (fun notice => (rfl : Occurrence.raised? (.notice notice) = none)) ending seen list.id
      rw [Occurrence.announced, fetches, events, raises]
      rw [finishes_following_zero] at finished
      exact {
        told := told
        raised := raised
        last := fun succession member => final succession (mem_dropLast_following_zero member)
        finished := finished
        completed := by
          rw [Execution.Runs.completed_iff ran rfl, finished]
          simp [waiting] }

/-- What a list tells the renderer of its SIGNALs and FINISHes over its time at the front, which
interrupts it raises and whether it is completed is just what its words make of each other that were
fetched one right after the other.
-/
theorem visit_announces {trace : Trace} {visit : Visit}
    (visited : engine.visit host list trace = some visit)
    : ∃ seen : Trace,
        visit.trace = trace ++ seen
        ∧ engine.Announces list visit.list visit.ending seen.fetches
          (seen.events.filter Event.isAnnounced) seen.raised := by
  obtain ⟨seen, visits, traced⟩ := visit_eq_some_iff.mp visited
  refine ⟨seen.toArray, traced.trans (Trace.append_eq_append_toArray trace seen), ?_⟩
  rw [Trace.fetches_toArray, Trace.events_toArray, Trace.raised_toArray]
  exact visits.announces

/-- A list at the beginning of the scratchpad that raises interrupts on its third channel. -/
def ringing : DisplayList :=
  .fresh 1 0x00010000 0x00010100 3

/-- A SIGNAL that is carried out at once, one that a NOP comes after, and a FINISH. -/
def announcing : List Word :=
  [0x0E021234, 0x0C005678, 0x0E010001, 0x00000000, 0x0C000000, 0x0F00BEEF, 0x0C000000]

/-- Of two SIGNALs only the one right before an END is carried out, and so is the FINISH. -/
theorem visit_announces_signal_and_finish
    : ∃ visit,
        (initial {}).visit (hostWith announcing) ringing #[] = some visit
        ∧ visit.ending = .completed
        ∧ visit.list.state = .completed
        ∧ visit.trace.events.filter Event.isAnnounced
          = [.signal 0x02 0x1234 0x5678, .finish 0xBEEF]
        ∧ visit.trace.raised = [⟨1, 0x00010004, 3, 0x1234⟩, ⟨1, 0x00010018, 3, 0xBEEF⟩] := by
  have fetched : ((initial {}).visit (hostWith announcing) ringing #[]).map (·.trace.fetches)
      = some [(0x00010000, 0x0E021234), (0x00010004, 0x0C005678), (0x00010008, 0x0E010001),
        (0x0001000C, 0x00000000), (0x00010010, 0x0C000000), (0x00010014, 0x0F00BEEF),
        (0x00010018, 0x0C000000)] := by decide +kernel
  obtain ⟨visit, visited, fetches⟩ := Option.map_eq_some_iff.mp fetched
  obtain ⟨seen, traced, announces⟩ := visit_announces visited
  have all : visit.trace = seen := traced.trans (by simp)
  rw [← all, fetches] at announces
  have finishes := announces.finished.mpr (by decide)
  exact ⟨visit, visited, finishes, announces.completed.mpr (by decide), announces.told,
    announces.raised⟩

end Engine

end GraphicsEngine
