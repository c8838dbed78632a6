import GraphicsEngine.DisplayList

/-! The return addresses of a display list as they lie in memory: in a row of slots, one for every
call that may be open at once. A return leaves its address behind in the slot, and the next call at
the same depth puts its own over it.
-/

namespace GraphicsEngine

/-- Slots for return addresses, of which the first ones are in use. -/
structure ReturnStack where
  slots : Vector Address DisplayList.stackCapacity
  /-- The number of calls that are open. -/
  depth : Nat
  depth_le : depth ≤ DisplayList.stackCapacity
deriving DecidableEq, Repr

namespace ReturnStack

def empty : ReturnStack where
  slots := .replicate _ 0
  depth := 0
  depth_le := Nat.zero_le _

/-- The return addresses of the calls that are open, outermost call first. -/
def calls (stack : ReturnStack)
    : List Address :=
  stack.slots.toList.take stack.depth

/-- Slots that begin with return addresses, outermost call first, if there are enough slots. -/
def ofCalls? (calls : List Address)
    : Option ReturnStack :=
  if fits : calls.length ≤ DisplayList.stackCapacity then
    some {
      slots :=
        { toArray := (calls ++ .replicate (DisplayList.stackCapacity - calls.length) 0).toArray
          size_toArray := by
            rw [List.size_toArray, List.length_append, List.length_replicate]
            exact Nat.add_sub_cancel' fits }
      depth := calls.length
      depth_le := fits }
  else
    none

/-- Opens a call that returns to an address, unless all slots are in use. -/
def push? (stack : ReturnStack) (address : Address)
    : Option ReturnStack :=
  if full : stack.depth = DisplayList.stackCapacity then
    none
  else
    have room : stack.depth < DisplayList.stackCapacity := Nat.lt_of_le_of_ne stack.depth_le full
    some {
      slots := stack.slots.set stack.depth address.mask
      depth := stack.depth + 1
      depth_le := room }

/-- Closes the innermost call and gives its return address, which stays in its slot. -/
def pop? (stack : ReturnStack)
    : Option (Address × ReturnStack) :=
  if used : 0 < stack.depth then
    have inside : stack.depth - 1 < DisplayList.stackCapacity :=
      Nat.lt_of_lt_of_le (Nat.sub_one_lt_of_lt used) stack.depth_le
    some (stack.slots[stack.depth - 1],
      { stack with depth := stack.depth - 1, depth_le := Nat.le_of_lt inside })
  else
    none

end ReturnStack

end GraphicsEngine
