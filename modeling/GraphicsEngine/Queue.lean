import GraphicsEngine.DisplayList

/-! Display lists in the order in which they run. Lists join at either end; what stands between
keeps its order.
-/

namespace GraphicsEngine

/-- Display lists, the next one to run first. -/
abbrev Queue := List DisplayList

namespace Queue

def pushBack (queue : Queue) (list : DisplayList)
    : Queue :=
  queue ++ [list]

/-- A list joins in front of all others. -/
def pushFront (queue : Queue) (list : DisplayList)
    : Queue :=
  list :: queue

/-- The numbers of the lists, in order. -/
def ids (queue : Queue)
    : List ListId :=
  queue.map (·.id)

/-- How many lists stand before the first one with the number. -/
def position? (queue : Queue) (id : ListId)
    : Option Nat :=
  queue.findIdx? (·.id == id)

def get? (queue : Queue) (id : ListId)
    : Option DisplayList :=
  queue.find? (·.id == id)

/-- Every list with the number waits at another address from now on. -/
def moveStall (queue : Queue) (id : ListId) (stall : Address)
    : Queue :=
  queue.map fun list => if list.id == id then list.withStall stall else list

/-- The first list with the number changes where it stands. -/
def replace (queue : Queue) (id : ListId) (list : DisplayList)
    : Queue :=
  match position? queue id with
  | none => queue
  | some index => queue.set index list

/-- The first list with the number leaves the queue. -/
def remove (queue : Queue) (id : ListId)
    : Queue :=
  queue.eraseP (·.id == id)

@[simp] theorem ids_pushBack (queue : Queue) (list : DisplayList)
    : ids (pushBack queue list) = ids queue ++ [list.id] := by
  simp [ids, pushBack]

@[simp] theorem ids_pushFront (queue : Queue) (list : DisplayList)
    : ids (pushFront queue list) = list.id :: ids queue :=
  rfl

/-- Moving a stall address moves no list, case by case on whether a list is meant. -/
@[simp] theorem ids_moveStall (queue : Queue) (id : ListId) (stall : Address)
    : ids (moveStall queue id stall) = ids queue := by
  simp only [ids, moveStall, List.map_map]
  apply List.map_congr_left
  intro list _
  simp only [Function.comp_apply]
  split <;> rfl

/-- By its number the front list is the first one to be found, even if others have the same. -/
@[simp] theorem get?_front (list : DisplayList) (rest : Queue)
    : get? (list :: rest) list.id = some list := by
  simp [get?]

@[simp] theorem replace_front (list later : DisplayList) (rest : Queue)
    : replace (list :: rest) list.id later = later :: rest := by
  simp [replace, position?, List.findIdx?_cons]

@[simp] theorem remove_front (list : DisplayList) (rest : Queue)
    : remove (list :: rest) list.id = rest := by
  simp [remove]

theorem position?_isSome (queue : Queue) (id : ListId)
    : (position? queue id).isSome ↔ id ∈ ids queue := by
  simp [position?, ids]

theorem get?_eq_none_iff (queue : Queue) (id : ListId)
    : get? queue id = none ↔ id ∉ ids queue := by
  simp [get?, ids]

end Queue

end GraphicsEngine
