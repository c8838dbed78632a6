import GraphicsEngine.Memory

/-! Where memory is: every mapped address lies between the first and the last byte of the address
map, and all that is read lies in one region.
-/

namespace GraphicsEngine

/-- Masking keeps the rest by the size of the address map. -/
theorem Address.toNat_mask (address : Address)
    : address.mask.toNat = address.toNat % 0x10000000 := by
  rw [mask, UInt32.toNat_and]
  exact Nat.and_two_pow_sub_one_eq_mod address.toNat 28

/-- The addresses that name no segment are those of the address map. -/
theorem Address.isMasked_iff (address : Address)
    : address.IsMasked ↔ address.toNat < 0x10000000 := by
  rw [IsMasked, ← UInt32.toNat_inj, toNat_mask]
  exact Nat.mod_eq_iff_lt (by decide)

/-- A masked address names no segment that another one could be returned to in. -/
theorem Address.segment_eq_zero {address : Address} (masked : address.IsMasked)
    : address &&& 0xF0000000 = 0 := by
  rw [← masked, mask, UInt32.and_assoc]
  exact UInt32.and_zero

/-- A list at a masked address returns to just the address that it has remembered. -/
theorem Address.return_eq {pc address : Address} (masked : pc.IsMasked)
    (remembered : address.IsMasked)
    : (pc &&& 0xF0000000) ||| address.mask = address := by
  rw [segment_eq_zero masked, UInt32.zero_or]
  exact remembered

/-- Bytes from an address on lie in the region as they stand, without masking. -/
def Region.Holds (region : Region) (address : Address) (length : Nat)
    : Prop :=
  region.base.toNat ≤ address.toNat
  ∧ address.toNat + length ≤ region.base.toNat + region.size.toNat

namespace Memory

variable {memory : Memory} {address : Address} {region : Region} {word : UInt32}

/-- The region that holds an address as it stands, without masking. -/
def region? (memory : Memory) (address : Address)
    : Option Region :=
  memory.regions.find? (·.contains address)

/-- A region is found by its place alone, whatever its bytes are. -/
theorem region?_eq (memory : Memory) (address : Address)
    : memory.region? address = (memory.block? address).map Block.region :=
  List.find?_map

theorem isMapped_eq (memory : Memory) (address : Address)
    : memory.isMapped address = (memory.region? address.mask).isSome := by
  rw [isMapped, region?_eq, Option.isSome_map]

theorem mem_regions_iff
    : region ∈ memory.regions
      ↔ region = scratchpad ∨ region = vram ∨ region = ram memory.ramSize := by
  rw [regions, memory.layout]
  simp only [List.mem_cons, List.not_mem_nil, or_false]

/-- A region that holds an address begins at it or before it, by the address map not at zero, and
ends well below the largest address; region by region.
-/
theorem bounds_of_region (found : memory.region? address = some region)
    : 0x00010000 ≤ region.base.toNat
      ∧ region.base.toNat ≤ address.toNat
      ∧ region.base.toNat + region.size.toNat ≤ 0x0C000000 := by
  have contains := List.find?_some found
  have listed := mem_regions_iff.mp (List.mem_of_find?_eq_some found)
  have starts : region.base ≤ address := by
    simp only [Region.contains, Bool.and_eq_true, decide_eq_true_eq] at contains
    exact contains.1
  have size := UInt32.le_iff_toNat_le.mp memory.ramSize_le
  have base : ramBase.toNat = 0x08000000 := rfl
  have maximum : maximumRamSize.toNat = 0x04000000 := rfl
  refine ⟨?_, UInt32.le_iff_toNat_le.mp starts, ?_⟩
  · rcases listed with rfl | rfl | rfl
    · decide
    · decide
    · rw [Memory.ram, base]
      decide
  · rcases listed with rfl | rfl | rfl
    · decide
    · decide
    · simp only [Memory.ram, base]
      omega

/-- A mapped address is not among the first ones. -/
theorem le_of_isMapped (mapped : memory.isMapped address)
    : 0x00010000 ≤ address.mask.toNat := by
  rw [isMapped_eq] at mapped
  obtain ⟨region, found⟩ := Option.isSome_iff_exists.mp mapped
  obtain ⟨low, starts, -⟩ := bounds_of_region found
  exact Nat.le_trans low starts

/-- The bytes of a word that can be read lie in the region of the first one. -/
theorem region_of_readWord (read : memory.readWord address = .ok word)
    : ∃ region, memory.region? address.mask = some region ∧ region.Holds address.mask 4 := by
  unfold readWord Memory.read at read
  cases found : memory.block? address.mask with
  | none => simp [found] at read
  | some block =>
      have region : memory.region? address.mask = some block.region := by
        rw [region?_eq, found]
        rfl
      obtain ⟨-, starts, -⟩ := bounds_of_region region
      refine ⟨block.region, region, starts, ?_⟩
      rw [found] at read
      by_cases within : (address.mask - block.region.base).toNat + 4 ≤ block.region.size.toNat
      · rw [UInt32.toNat_sub_of_le _ _ (UInt32.le_iff_toNat_le.mpr starts)] at within
        omega
      · simp [Block.read, Block.range, within] at read

/-- Where a word can be read there is memory, and it ends behind the word at the earliest. -/
theorem of_readWord (read : memory.readWord address = .ok word)
    : memory.isMapped address ∧ address.mask.toNat + 4 ≤ 0x0C000000 := by
  obtain ⟨region, found, -, within⟩ := region_of_readWord read
  obtain ⟨-, -, ends⟩ := bounds_of_region found
  refine ⟨?_, Nat.le_trans within ends⟩
  rw [isMapped_eq, found]
  rfl

/-- Memories with the same regions map the same addresses. -/
theorem isMapped_of_regions {other : Memory} (same : other.regions = memory.regions)
    : other.isMapped = memory.isMapped := by
  funext address
  rw [isMapped_eq, isMapped_eq, region?, region?, same]

end Memory

end GraphicsEngine
