import GraphicsEngine.Proofs.Engine.Nesting
import GraphicsEngine.Proofs.Engine.Restoration
import GraphicsEngine.ReturnStack

/-! Slots for return addresses keep what the stack of a display list holds. They begin with the
return addresses in use, and what stands behind these is never seen: calls, returns, records and
whole times at the front leave the slots in step with the list.
-/

namespace GraphicsEngine

namespace ReturnStack

variable {stack other : ReturnStack} {addresses : List Address} {address : Address}

/-- The slots in use are the return addresses of a list, which has its innermost call first. -/
def Keeps (stack : ReturnStack) (addresses : List Address)
    : Prop :=
  stack.calls = addresses.reverse

theorem length_calls (stack : ReturnStack)
    : stack.calls.length = stack.depth := by
  rw [calls, List.length_take, Vector.length_toList]
  exact Nat.min_eq_left stack.depth_le

/-- As many calls are open as the list has return addresses. -/
theorem Keeps.depth (keeps : stack.Keeps addresses)
    : stack.depth = addresses.length := by
  rw [← length_calls, keeps, List.length_reverse]

-----------------------------------------------------------------------------------------
-- Calls and returns
-----------------------------------------------------------------------------------------

/-- A list that has not run yet has no slot in use. -/
theorem empty_keeps (id : ListId) (start stall : Address) (channel : Int32)
    : empty.Keeps (DisplayList.fresh id start stall channel).stack :=
  rfl

/-- A call is put behind the calls that are open, and what stood in its slot is gone. -/
theorem calls_of_push (pushed : stack.push? address = some other)
    : other.calls = stack.calls ++ [address.mask] := by
  rw [push?] at pushed
  split at pushed
  · cases pushed
  · next full =>
    cases pushed
    have room : stack.depth < stack.slots.toList.length := by
      rw [Vector.length_toList]
      exact Nat.lt_of_le_of_ne stack.depth_le full
    rw [calls, calls, Vector.toList_set, List.take_add_one, List.take_set_of_le (Nat.le_refl _),
      List.getElem?_set_self room, Option.toList_some]

/-- A return takes the last call that is open. Its slot is not in use any more, and not changed. -/
theorem calls_of_pop (popped : stack.pop? = some (address, other))
    : stack.calls = other.calls ++ [address] ∧ other.slots = stack.slots := by
  rw [pop?] at popped
  split at popped
  · next used =>
    cases popped
    have inside : stack.depth - 1 < stack.slots.toList.length := by
      rw [Vector.length_toList]
      exact Nat.lt_of_lt_of_le (Nat.sub_one_lt_of_lt used) stack.depth_le
    have all := List.take_add_one (l := stack.slots.toList) (i := stack.depth - 1)
    rw [Nat.sub_add_cancel used, List.getElem?_eq_getElem inside, Option.toList_some,
      Vector.getElem_toList] at all
    exact ⟨all, rfl⟩
  · cases popped

theorem Keeps.push_of_room (keeps : stack.Keeps addresses)
    (room : addresses.length < DisplayList.stackCapacity) (address : Address)
    : ∃ next, stack.push? address = some next ∧ next.Keeps (address.mask :: addresses) := by
  rw [← keeps.depth] at room
  obtain ⟨next, pushed⟩ : ∃ next, stack.push? address = some next :=
    ⟨_, dif_neg (Nat.ne_of_lt room)⟩
  refine ⟨next, pushed, ?_⟩
  rw [Keeps, calls_of_push pushed, keeps, List.reverse_cons]

theorem Keeps.push_of_full (keeps : stack.Keeps addresses)
    (full : ¬addresses.length < DisplayList.stackCapacity) (address : Address)
    : stack.push? address = none := by
  rw [← keeps.depth, Nat.not_lt] at full
  exact dif_pos (Nat.le_antisymm stack.depth_le full)

theorem Keeps.pop_nil (keeps : stack.Keeps [])
    : stack.pop? = none :=
  dif_neg (by rw [keeps.depth]; exact Nat.lt_irrefl 0)

theorem Keeps.pop_cons (keeps : stack.Keeps (address :: addresses))
    : ∃ next, stack.pop? = some (address, next) ∧ next.Keeps addresses := by
  have used : 0 < stack.depth := keeps.depth ▸ Nat.zero_lt_succ _
  obtain ⟨⟨top, next⟩, popped⟩ : ∃ taken, stack.pop? = some taken := ⟨_, dif_pos used⟩
  have same := (calls_of_pop popped).1
  rw [keeps, List.reverse_cons] at same
  obtain ⟨below, above⟩ := List.append_inj' same rfl
  cases above
  exact ⟨next, popped, below.symm⟩

/-- Slots and list open a call alike, and refuse to alike. -/
theorem Keeps.push {list : DisplayList} (keeps : stack.Keeps list.stack) (address : Address)
    : Option.Rel (fun slots list => slots.Keeps list.stack) (stack.push? address)
        (list.push? address) := by
  rw [DisplayList.push?]
  split
  · next room =>
    obtain ⟨next, pushed, kept⟩ := keeps.push_of_room room address
    rw [pushed]
    exact .some kept
  · next full =>
    rw [keeps.push_of_full full]
    exact .none

/-- Slots and list close a call alike and give the same return address, or neither has one. -/
theorem Keeps.pop {list : DisplayList} (keeps : stack.Keeps list.stack)
    : Option.Rel (fun slots list => slots.1 = list.1 ∧ slots.2.Keeps list.2.stack) stack.pop?
        list.pop? := by
  rw [DisplayList.pop?]
  split
  · next none =>
    rw [none] at keeps
    rw [keeps.pop_nil]
    exact .none
  · next address outer held =>
    rw [held] at keeps
    obtain ⟨next, popped, kept⟩ := keeps.pop_cons
    rw [popped]
    exact .some ⟨rfl, kept⟩

-----------------------------------------------------------------------------------------
-- Records
-----------------------------------------------------------------------------------------

/-- There are enough slots for all return addresses but those of a stack that is too deep. -/
theorem ofCalls?_eq_none_iff
    : ofCalls? addresses = none ↔ DisplayList.stackCapacity < addresses.length := by
  rw [ofCalls?]
  split <;> simp_all

theorem calls_of_ofCalls? (kept : ofCalls? addresses = some stack)
    : stack.calls = addresses := by
  rw [ofCalls?] at kept
  split at kept
  · cases kept
    exact List.take_left' rfl
  · cases kept

/-- The record of a list holds the slots in use, and nothing of the others. -/
theorem Keeps.record {list : DisplayList} (keeps : stack.Keeps list.stack)
    : list.toRecord.stack = stack.calls :=
  keeps.symm

/-- The slots filled from the record of a list keep its stack. -/
theorem exists_of_ofRecord {record : Snapshot.ListRecord} {list : DisplayList}
    (described : DisplayList.ofRecord record = .ok list)
    : ∃ stack, ofCalls? record.stack = some stack ∧ stack.Keeps list.stack := by
  obtain ⟨sound, rfl⟩ := DisplayList.ofRecord_eq_ok_iff.mp described
  cases kept : ofCalls? list.toRecord.stack with
  | none =>
      have deep := ofCalls?_eq_none_iff.mp kept
      rw [DisplayList.toRecord, List.length_reverse] at deep
      exact absurd sound.shallow (Nat.not_le.mpr deep)
  | some stack => exact ⟨stack, rfl, calls_of_ofCalls? kept⟩

-----------------------------------------------------------------------------------------
-- Times at the front
-----------------------------------------------------------------------------------------

/-- The slots after an event: a call opens one, and a return closes the one that it leads to. None
if the event could not have been.
-/
def follow? (stack : ReturnStack)
    : Event → Option ReturnStack
  | .call _ returnAddress => stack.push? returnAddress
  | .ret target =>
      match stack.pop? with
      | none => none
      | some (top, outer) => if top = target then some outer else none
  | .execute .. | .jump .. | .signal .. | .finish .. | .reset => some stack

/-- The slots after events in a row; none if one of them could not have been. -/
def followAll? (stack : ReturnStack)
    : List Event → Option ReturnStack
  | [] => some stack
  | event :: events =>
      match stack.follow? event with
      | none => none
      | some next => next.followAll? events

/-- Slots and list follow an event alike, if it is no call that returns to a segment. -/
theorem Keeps.follow (keeps : stack.Keeps addresses) {event : Event}
    (masked : ∀ target back, event = .call target back → back.IsMasked)
    : Option.Rel Keeps (stack.follow? event) (event.nest? addresses) := by
  cases event with
  | call target back =>
      rw [follow?, Event.nest?]
      split
      · next room =>
        obtain ⟨next, pushed, kept⟩ := keeps.push_of_room room back
        rw [masked target back rfl] at kept
        rw [pushed]
        exact .some kept
      · next full =>
        rw [keeps.push_of_full full]
        exact .none
  | ret target =>
      cases addresses with
      | nil =>
          rw [follow?, keeps.pop_nil]
          exact .none
      | cons top outer =>
          obtain ⟨next, popped, kept⟩ := keeps.pop_cons
          rw [follow?, popped, Event.nest?]
          dsimp only
          split
          · exact .some kept
          · exact .none
  | execute | jump | signal | finish | reset => exact .some keeps

/-- Slots and list follow events in a row alike, by induction on them. -/
theorem Keeps.followAll (keeps : stack.Keeps addresses) {events : List Event}
    (masked : ∀ target back, .call target back ∈ events → back.IsMasked)
    : Option.Rel Keeps (stack.followAll? events) (replay? addresses events) := by
  induction events generalizing stack addresses with
  | nil => exact .some keeps
  | cons event events ih =>
      have first := keeps.follow fun target back same =>
        masked target back (same ▸ List.mem_cons_self)
      rw [followAll?, replay?]
      generalize stack.follow? event = slots, event.nest? addresses = list at first
      cases first with
      | none => exact .none
      | some kept =>
          exact ih kept fun target back later =>
            masked target back (List.mem_cons_of_mem event later)

/-- Slots that keep what a list holds follow events to where the list gets. -/
theorem Keeps.followed (keeps : stack.Keeps addresses) {events : List Event}
    {left : List Address} (masked : ∀ target back, .call target back ∈ events → back.IsMasked)
    (replayed : replay? addresses events = some left)
    : ∃ later, stack.followAll? events = some later ∧ later.Keeps left := by
  have all := keeps.followAll masked
  rw [replayed] at all
  generalize stack.followAll? events = slots at all
  cases all with
  | some kept => exact ⟨_, rfl, kept⟩

end ReturnStack

namespace Engine

variable {host : Host} {engine after : Engine} {list later : DisplayList} {ending : Ending}
  {head : Execution} {seen : List Occurrence} {stack : ReturnStack}

/-- Up to every loop head the slots follow what is told of calls and returns, and keep the calls
that are open there.
-/
theorem Reaches.follows (reaches : engine.Reaches host list head seen) (placed : list.Placed)
    (keeps : stack.Keeps list.stack)
    : ∃ reached, stack.followAll? (seen.filterMap Occurrence.event?) = some reached
        ∧ reached.Keeps head.list.stack := by
  refine keeps.followed (fun target back told => ?_) (reaches.replay placed).1
  obtain ⟨waiting, mapped, _, passage⟩ := reaches
  have nesting : .call target back ∈ Occurrence.nestings seen := List.mem_filter.mpr ⟨told, rfl⟩
  obtain ⟨heads, early, caller, before, told⟩ := passage.told nesting
  have reached : engine.Reaches host list caller early := ⟨waiting, mapped, heads, before⟩
  obtain ⟨word, -, -, -, rfl, -⟩ := Execution.called_of_told (reached.replay placed).2 told
  exact Address.isMasked_mask _

/-- Behind a list's time at the front the slots keep the calls that are open, once the return
address that the list may have lost is taken from them as well.
-/
theorem Visits.follows (visits : Visits host engine list ending later after seen)
    (placed : list.Placed) (keeps : stack.Keeps list.stack)
    : ∃ left, stack.followAll? (seen.filterMap Occurrence.event?) = some left
        ∧ ((¬engine.LosesReturn host list ∧ left.Keeps later.stack)
          ∨ (engine.LosesReturn host list ∧ ending = .aborted
            ∧ ∃ address outer, left.pop? = some (address, outer) ∧ outer.Keeps later.stack
              ∧ ¬host.memory.isMapped address)) := by
  obtain ⟨addresses, replayed, outcome⟩ := visits.replay placed
  have masked (target back : Address) (told : .call target back ∈ seen.filterMap Occurrence.event?)
      : back.IsMasked := by
    obtain ⟨_, _, _, _, _, _, _, rfl, _⟩ := visits.called placed told
    exact Address.isMasked_mask _
  obtain ⟨left, followed, kept⟩ := keeps.followed masked replayed
  refine ⟨left, followed, ?_⟩
  rcases outcome with ⟨loses, rfl⟩ | ⟨loses, aborted, address, rfl, unmapped⟩
  · exact .inl ⟨loses, kept⟩
  · obtain ⟨outer, popped, kept⟩ := kept.pop_cons
    exact .inr ⟨loses, aborted, address, outer, popped, kept, unmapped⟩

end Engine

end GraphicsEngine
