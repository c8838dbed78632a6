import GraphicsEngine.Proofs.Memory
import Mathlib.Data.List.Nodup

/-! The regions of memory seen as one flat map of bytes. Each region has bytes of its own, counted
from its base. Since no two regions have an address in common, every address still belongs to one
byte, and an access that stays in a region is one to the bytes that follow each other in the map.
-/

namespace GraphicsEngine

-----------------------------------------------------------------------------------------
-- The bytes of one region
-----------------------------------------------------------------------------------------

namespace Block

/-- The bytes one after the other. -/
def bytes (data : ByteArray)
    : Bytes :=
  data.data.toList

theorem length_bytes (data : ByteArray)
    : (bytes data).length = data.size :=
  Array.length_toList

/-- Bytes that are read from an index on follow each other in the block. -/
theorem slice_eq (data : ByteArray) (start length : Nat) (within : start + length ≤ data.size)
    : slice data start length within
      = (List.range length).map fun index => ((bytes data)[start + index]?).getD 0 := by
  induction length generalizing start with
  | zero => rfl
  | succ length ih =>
      have inside : start < (bytes data).length := by
        rw [length_bytes]
        omega
      rw [slice, ih, List.range_succ_eq_map, List.map_cons, List.map_map]
      refine congrArg₂ List.cons ?_ (List.map_congr_left fun index _ => ?_)
      · rw [Nat.add_zero, List.getElem?_eq_getElem inside]
        rfl
      · rw [Function.comp_apply, Nat.succ_add_eq_add_succ]

/-- Bytes that are put from an index on replace those that they cover, by induction on them. -/
theorem getElem?_splice (data : ByteArray) (start : Nat) (bytes : Bytes)
    (within : start + bytes.length ≤ data.size) (index : Nat)
    : (Block.bytes (splice data start bytes within))[index]?
      = if start ≤ index then
          bytes[index - start]?.or (Block.bytes data)[index]?
        else
          (Block.bytes data)[index]? := by
  induction bytes generalizing data start with
  | nil =>
      rw [splice, List.getElem?_nil, Option.none_or, ite_self]
  | cons byte rest ih =>
      have inside : start < (Block.bytes data).length := by
        rw [List.length_cons] at within
        rw [length_bytes]
        omega
      have set : Block.bytes (data.set start byte (by rw [← length_bytes]; exact inside))
          = (Block.bytes data).set start byte := by
        rw [Block.bytes, ByteArray.data_set, Array.toList_set]
        rfl
      rw [splice, ih, set]
      rcases Nat.lt_trichotomy index start with before | rfl | behind
      · rw [if_neg (by omega), if_neg (by omega), List.getElem?_set_ne (by omega)]
      · rw [if_neg (by omega), if_pos (Nat.le_refl _), List.getElem?_set_self inside, Nat.sub_self,
          List.getElem?_cons_zero, Option.some_or]
      · rw [if_pos (by omega), if_pos (by omega), List.getElem?_set_ne (by omega),
          show index - start = index - (start + 1) + 1 by omega, List.getElem?_cons_succ]

/-- Bytes that fit into the block are written over those that they cover. -/
theorem exists_write {block : Block} {address : Address} {content : Bytes}
    (within : (address - block.region.base).toNat + content.length ≤ block.region.size.toNat)
    : ∃ later, block.write address content = .ok later
        ∧ later.region = block.region
        ∧ ∀ index, (bytes later.data)[index]?
            = if (address - block.region.base).toNat ≤ index then
                content[index - (address - block.region.base).toNat]?.or (bytes block.data)[index]?
              else
                (bytes block.data)[index]? := by
  have room := Nat.le_trans within (Nat.le_of_eq block.size_data.symm)
  refine ⟨{ block with data := splice block.data _ content room, size_data := ?_ }, ?_, rfl, ?_⟩
  · exact (size_splice _ _ _ room).trans block.size_data
  · simp only [write, range, dif_pos within]
  · exact getElem?_splice block.data _ content room

end Block

-----------------------------------------------------------------------------------------
-- Which region holds an address
-----------------------------------------------------------------------------------------

/-- A region holds the addresses from its base on, for as many as its size. -/
theorem Region.contains_iff {region : Region} {address : Address}
    : region.contains address
      ↔ region.base.toNat ≤ address.toNat
        ∧ address.toNat < region.base.toNat + region.size.toNat := by
  rw [contains, Bool.and_eq_true, decide_eq_true_eq, decide_eq_true_eq,
    UInt32.le_iff_toNat_le, UInt32.lt_iff_toNat_lt]
  refine and_congr_right fun starts => ?_
  rw [UInt32.toNat_sub_of_le _ _ (UInt32.le_iff_toNat_le.mpr starts)]
  omega

namespace Memory

variable {memory : Memory} {address : Address} {region : Region} {block : Block}

/-- No address lies in two regions, region by region. -/
theorem eq_of_contains {other : Region} (listed : region ∈ memory.regions)
    (listed' : other ∈ memory.regions) (contains : region.contains address)
    (contains' : other.contains address)
    : other = region := by
  rw [Region.contains_iff] at contains contains'
  have base : ramBase.toNat = 0x08000000 := rfl
  rw [mem_regions_iff] at listed listed'
  rcases listed with rfl | rfl | rfl <;> rcases listed' with rfl | rfl | rfl <;> try rfl
  all_goals
    simp only [scratchpad, vram, ram, UInt32.reduceToNat, base] at contains contains'
    omega

/-- A region is found for an address exactly if it is the one that holds the address. -/
theorem region?_eq_some_iff
    : memory.region? address = some region
      ↔ region ∈ memory.regions ∧ region.contains address := by
  constructor
  · intro found
    have contains := List.find?_some found
    exact ⟨List.mem_of_find?_eq_some found, contains⟩
  · rintro ⟨listed, contains⟩
    cases found : memory.region? address with
    | none =>
        have none := List.find?_eq_none.mp found region listed
        exact absurd contains none
    | some other =>
        have contains' := List.find?_some found
        rw [eq_of_contains listed (List.mem_of_find?_eq_some found) contains contains']

/-- The bytes of a region are held once. -/
theorem eq_of_region {other : Block} (listed : block ∈ memory.blocks)
    (listed' : other ∈ memory.blocks) (same : other.region = block.region)
    : other = block := by
  have distinct : (memory.blocks.map Block.region).Nodup := by
    rw [memory.layout]
    simp [scratchpad, vram, ram]
  exact List.inj_on_of_nodup_map distinct listed' listed same

/-- All addresses of a region find the same bytes. -/
theorem block?_of_contains {other : Address} (found : memory.block? address = some block)
    (contains : block.region.contains other)
    : memory.block? other = some block := by
  have listed := List.mem_of_find?_eq_some found
  cases found' : memory.block? other with
  | none =>
      have none := List.find?_eq_none.mp found' block listed
      exact absurd contains none
  | some block' =>
      have listed' := List.mem_of_find?_eq_some found'
      have contains' := List.find?_some found'
      have same : block'.region = block.region :=
        eq_of_contains (List.mem_map_of_mem listed) (List.mem_map_of_mem listed') contains contains'
      rw [eq_of_region listed listed' same]

/-- A region that holds an address begins there or before, and ends well below the largest one. -/
theorem bounds_of_block (found : memory.block? address = some block)
    : block.region.base.toNat ≤ address.toNat
      ∧ block.region.base.toNat + block.region.size.toNat ≤ 0x0C000000
      ∧ (address - block.region.base).toNat = address.toNat - block.region.base.toNat := by
  have listed : memory.region? address = some block.region := by
    rw [region?_eq, found]
    rfl
  obtain ⟨-, starts, ends⟩ := bounds_of_region listed
  exact ⟨starts, ends, UInt32.toNat_sub_of_le _ _ (UInt32.le_iff_toNat_le.mpr starts)⟩

theorem block?_put (memory : Memory) (later : Block) (address : Address)
    : (memory.put later).block? address = (memory.block? address).map later.renew := by
  have same : (fun block => block.region.contains address) ∘ later.renew
      = fun block => block.region.contains address := by
    funext block
    rw [Function.comp_apply, Block.region_renew]
  rw [block?, put, List.find?_map, same, block?]

-----------------------------------------------------------------------------------------
-- The flat map
-----------------------------------------------------------------------------------------

/-- The byte of an address as it stands, without masking; zero where there is no memory. -/
def byteAt (memory : Memory) (address : Address)
    : UInt8 :=
  match memory.block? address with
  | some block => ((Block.bytes block.data)[(address - block.region.base).toNat]?).getD 0
  | none => 0

/-- An address in a region finds its byte by its distance from the base. -/
theorem byteAt_of_block (found : memory.block? address = some block)
    : memory.byteAt address
      = ((Block.bytes block.data)[address.toNat - block.region.base.toNat]?).getD 0 := by
  obtain ⟨-, -, offset⟩ := bounds_of_block found
  rw [byteAt, found]
  exact congrArg (fun index => ((Block.bytes block.data)[index]?).getD 0) offset

def bytesFrom (memory : Memory) (start : Address) (length : Nat)
    : Bytes :=
  (List.range length).map fun index => memory.byteAt (start + UInt32.ofNat index)

/-- The masked start of an access whose bytes all lie in one region. -/
def locate (memory : Memory) (address : Address) (length : Nat)
    : Except Error Address :=
  match memory.region? address.mask with
  | none => .error (.outOfBounds address.mask length)
  | some region =>
      if (address.mask - region.base).toNat + length ≤ region.size.toNat then
        .ok address.mask
      else
        .error (.crossesRegion address.mask length)

/-- An access that is located begins at the masked address. -/
theorem start_of_locate {start : Address} {length : Nat}
    (located : memory.locate address length = .ok start)
    : start = address.mask := by
  unfold locate at located
  split at located
  · cases located
  · split at located <;> cases located
    rfl

/-- New memory holds nothing but zeros. -/
theorem byteAt_blank (size : UInt32) (address : Address)
    : (blank size).byteAt address = 0 := by
  rw [byteAt]
  split
  · next block found =>
    have listed := List.mem_of_find?_eq_some found
    have zeros : Block.bytes block.data = List.replicate block.region.size.toNat 0 := by
      simp only [blank, List.mem_cons, List.not_mem_nil, or_false] at listed
      rcases listed with rfl | rfl | rfl <;> exact Block.toList_zeros 10 _
    rw [zeros, List.getElem?_replicate]
    split <;> rfl
  · rfl

/-- What is read is what the flat map holds from the masked address on. -/
theorem read_eq (memory : Memory) (address : Address) (length : Nat)
    : memory.read address length
      = (memory.locate address length).map (memory.bytesFrom · length) := by
  rw [Memory.read, locate, region?_eq]
  cases found : memory.block? address.mask with
  | none => rfl
  | some block =>
      obtain ⟨starts, ends, offset⟩ := bounds_of_block found
      simp only [Option.map_some, Block.read, Block.range]
      by_cases within
          : (address.mask - block.region.base).toNat + length ≤ block.region.size.toNat
      · simp only [dif_pos within, if_pos within, Except.map, Block.slice_eq, bytesFrom]
        refine congrArg Except.ok (List.map_congr_left fun index listed => ?_)
        have inside := List.mem_range.mp listed
        have reached : (address.mask + UInt32.ofNat index).toNat = address.mask.toNat + index := by
          rw [UInt32.toNat_add, UInt32.toNat_ofNat']
          omega
        have contains : block.region.contains (address.mask + UInt32.ofNat index) := by
          rw [Region.contains_iff, reached]
          omega
        rw [byteAt_of_block (block?_of_contains found contains), reached, offset,
          Nat.sub_add_comm starts]
      · simp only [dif_neg within, if_neg within, Except.map]

/-- Memory with other bytes for a region shows them at the addresses of that region. -/
theorem byteAt_put {later : Block} (found : memory.block? address = some block)
    (same : later.region = block.region) (other : Address)
    : (memory.put later).byteAt other
      = if block.region.contains other then
          ((Block.bytes later.data)[other.toNat - block.region.base.toNat]?).getD 0
        else
          memory.byteAt other := by
  have renewed := block?_put memory later other
  split
  · next contains =>
    rw [block?_of_contains found contains, Option.map_some, Block.renew, if_pos same.symm]
      at renewed
    rw [byteAt_of_block renewed, same]
  · next misses =>
    cases found' : memory.block? other with
    | none =>
        rw [found'] at renewed
        rw [byteAt, byteAt, renewed, found']
        rfl
    | some block' =>
        have differs : block'.region ≠ later.region := by
          intro equal
          have contains := List.find?_some found'
          exact misses (equal.trans same ▸ contains)
        rw [found', Option.map_some, Block.renew, if_neg differs] at renewed
        rw [byteAt_of_block renewed, byteAt_of_block found']

/-- New memory shows a NOP wherever a word can be read. -/
theorem readWord_blank {size : UInt32} (located : (blank size).locate address 4 = .ok address.mask)
    : (blank size).readWord address = .ok 0 := by
  rw [readWord, read_eq, located]
  simp only [Except.map, bytesFrom, byteAt_blank]
  rfl

/-- A write that is located changes the flat map from the masked address on, and nothing else. -/
theorem write_of_locate {bytes : Bytes} {start : Address}
    (located : memory.locate address bytes.length = .ok start)
    : ∃ later, memory.write address bytes = .ok later
        ∧ later.ramSize = memory.ramSize
        ∧ ∀ other, later.byteAt other
            = if start.toNat ≤ other.toNat then
                (bytes[other.toNat - start.toNat]?).getD (memory.byteAt other)
              else
                memory.byteAt other := by
  rw [locate, region?_eq] at located
  cases found : memory.block? address.mask with
  | none =>
      rw [found] at located
      cases located
  | some block =>
      rw [found] at located
      simp only [Option.map_some] at located
      split at located
      · next within =>
        cases located
        obtain ⟨starts, -, offset⟩ := bounds_of_block found
        obtain ⟨later, written, same, held⟩ := Block.exists_write within
        refine ⟨memory.put later, by simp only [write, found, written], rfl, fun other => ?_⟩
        rw [byteAt_put found same, held, offset]
        rw [offset] at within
        by_cases contains : block.region.contains other
        · have inside := Region.contains_iff.mp contains
          rw [if_pos contains, byteAt_of_block (block?_of_contains found contains)]
          by_cases before : other.toNat < address.mask.toNat
          · rw [if_neg (by omega), if_neg (by omega)]
          · rw [if_pos (by omega), if_pos (Nat.le_of_not_lt before),
              Nat.sub_sub_sub_cancel_right starts, Option.getD_or]
        · have outside := mt Region.contains_iff.mpr contains
          rw [if_neg contains]
          split
          · rw [List.getElem?_eq_none (by omega)]
            rfl
          · rfl
      · cases located

/-- A write that is not located is refused for the same reason. -/
theorem write_of_not_located {bytes : Bytes} {error : Error}
    (refused : memory.locate address bytes.length = .error error)
    : memory.write address bytes = .error error := by
  rw [locate, region?_eq] at refused
  rw [write]
  cases found : memory.block? address.mask with
  | none =>
      rw [found] at refused
      exact congrArg Except.error (Except.error.inj refused)
  | some block =>
      rw [found] at refused
      simp only [Option.map_some] at refused
      split at refused
      · cases refused
      · next beyond =>
        cases refused
        simp only [Block.write, Block.range, dif_neg beyond]

end Memory

end GraphicsEngine
