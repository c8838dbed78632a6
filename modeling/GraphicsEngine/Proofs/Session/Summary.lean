import GraphicsEngine.Proofs.Engine.Clocks
import GraphicsEngine.Session.Summary
import Mathlib.Data.List.Basic

/-! What the summaries of two sessions have to do with the summary of one session that does what
both have done.
-/

namespace GraphicsEngine.Session

-----------------------------------------------------------------------------------------
-- Tallies
-----------------------------------------------------------------------------------------

/-- Every key of a map is listed once. -/
theorem lookup_toList {α : Type} (counts : Std.TreeMap String α) (name : String)
    : counts.toList.lookup name = counts[name]? := by
  cases found : counts[name]? with
  | none =>
      refine List.lookup_eq_none_iff.mpr fun entry member => ?_
      rw [bne_iff_ne]
      rintro rfl
      cases found.symm.trans (Std.TreeMap.mem_toList_iff_getElem?_eq_some.mp member)
  | some count =>
      have member := Std.TreeMap.mem_toList_iff_getElem?_eq_some.mpr found
      obtain ⟨earlier, later, same⟩ := List.append_of_mem member
      have distinct := Std.TreeMap.distinct_keys_toList (t := counts)
      rw [same, List.pairwise_append] at distinct
      refine List.lookup_eq_some_iff.mpr ⟨earlier, later, same, fun entry before => ?_⟩
      have apart := distinct.2.2 entry before _ List.mem_cons_self
      rw [bne_iff_ne]
      rintro rfl
      exact apart (Std.compare_self)

/-- Names are counted on from what has been counted, one by one. -/
theorem getD_foldl_insert (names : List String) (counts : Std.TreeMap String Nat) (name : String)
    : (names.foldl (fun counts name => counts.insert name (counts.getD name 0 + 1)) counts).getD
        name 0
      = counts.getD name 0 + names.count name := by
  induction names generalizing counts with
  | nil => rfl
  | cons first rest ih =>
      rw [List.foldl_cons, ih, Std.TreeMap.getD_insert, List.count_cons]
      by_cases same : first = name
      · subst same
        simp [Nat.add_assoc, Nat.add_comm]
      · simp [same]

/-- The names that have been counted in the end are those from before and those counted since. -/
theorem mem_foldl_insert (names : List String) (counts : Std.TreeMap String Nat) (name : String)
    : name ∈ names.foldl (fun counts name => counts.insert name (counts.getD name 0 + 1)) counts
      ↔ name ∈ names ∨ name ∈ counts := by
  induction names generalizing counts with
  | nil => simp
  | cons first rest ih =>
      rw [List.foldl_cons, ih, Std.TreeMap.mem_insert, List.mem_cons,
        Std.LawfulEqCmp.compare_eq_iff_eq, eq_comm, or_assoc, or_left_comm]

/-- A tally has just the names that occur, each with how often it does. -/
theorem lookup_tally (names : List String) (name : String)
    : (tally names).lookup name = if name ∈ names then some (names.count name) else none := by
  rw [tally, lookup_toList]
  have counted := getD_foldl_insert names ∅ name
  rw [Std.TreeMap.getD_emptyc, Nat.zero_add] at counted
  split
  · next occurs =>
    have member := (mem_foldl_insert names ∅ name).mpr (.inl occurs)
    exact (Std.TreeMap.getElem?_eq_some_getD member).trans (congrArg some counted)
  · next absent =>
    refine Std.TreeMap.getElem?_eq_none fun member => ?_
    rcases (mem_foldl_insert names ∅ name).mp member with occurs | none
    · exact absent occurs
    · exact absurd none Std.TreeMap.not_mem_emptyc

/-- The tallies of two stretches of time add up name by name. -/
theorem lookup_tally_append (names more : List String) (name : String)
    : (tally (names ++ more)).lookup name
      = Option.merge (· + ·) ((tally names).lookup name) ((tally more).lookup name) := by
  simp only [lookup_tally, List.mem_append, List.count_append]
  by_cases first : name ∈ names <;> by_cases second : name ∈ more
    <;> simp [first, second, List.count_eq_zero_of_not_mem]

-----------------------------------------------------------------------------------------
-- Summaries of sessions one after the other
-----------------------------------------------------------------------------------------

namespace Summary

/-- One summary says of a session that does it all what two others say of two sessions, of which the
second one goes on where the first one has stopped.
-/
structure Joins (first second whole : Summary)
    : Prop where
  list : second.list = whole.list
  listStatus : second.listStatus = whole.listStatus
  drawStatus : second.drawStatus = whole.drawStatus
  current : second.current = whole.current
  queue : second.queue = whole.queue
  cycles : second.cycles = whole.cycles
  interrupts : whole.interrupts = first.interrupts ++ second.interrupts
  forwarded (name : String)
    : whole.forwarded.lookup name
      = Option.merge (· + ·) (first.forwarded.lookup name) (second.forwarded.lookup name)
  stats : whole.stats = first.stats.add second.stats

variable {past engine other : Engine} {before trace all : Trace}

/-- The summaries of an engine in the past and of one that has gone on from there join to that of an
engine that has done it all.
-/
theorem joins_collect (alike : engine.Alike (.clocks past.stats) other)
    (queue : other.queue = engine.queue)
    (effects : Occurrence.effects all.toList
      = Occurrence.effects before.toList ++ Occurrence.effects trace.toList)
    (first list : Option ListId)
    : (collect past first before).Joins (collect other list trace) (collect engine list all) where
  list := rfl
  listStatus := by
    simp only [collect, Operation.listSync_alike queue]
  drawStatus := by
    simp only [collect, Operation.drawSync_alike alike queue]
  current := alike.current
  queue := queue
  cycles := by
    have same : other.registers
        = { engine.registers with startingTicks := other.registers.startingTicks } :=
      alike.registers
    simp only [collect]
    rw [same]
  interrupts := Trace.filterMap_of_effects Occurrence.delivered? (fun _ => rfl) effects
  forwarded name := by
    have events : all.events = before.events ++ trace.events :=
      Trace.filterMap_of_effects Occurrence.event? (fun _ => rfl) effects
    simp only [collect, events, List.filterMap_append, List.map_append, lookup_tally_append]
  stats := alike.stats

end Summary

end GraphicsEngine.Session
