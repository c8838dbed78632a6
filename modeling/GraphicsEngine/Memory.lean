import GraphicsEngine.Address
import GraphicsEngine.LittleEndian
import GraphicsEngine.Text.Hex

/-! Guest memory: three regions, found by masked address, each with its own bytes counted from the
base of the region. All bytes are zero at first.
-/

namespace GraphicsEngine

/-- A contiguous block of guest memory. -/
structure Region where
  name : String
  base : Address
  size : UInt32
deriving DecidableEq, Repr

/-- The address lies in the region as it stands, without masking. -/
def Region.contains (region : Region) (address : Address)
    : Bool :=
  region.base ≤ address && address - region.base < region.size

namespace Memory

/-- The largest main memory that the address map has room for: 64 MiB. -/
def maximumRamSize : UInt32 := 0x04000000

/-- The main memory of a machine that asks for no other size: 32 MiB. -/
def defaultRamSize : UInt32 := 0x02000000

def ramBase : Address := 0x08000000

def scratchpad : Region := ⟨"scratchpad", 0x00010000, 0x00004000⟩

def vram : Region := ⟨"vram", 0x04000000, 0x00200000⟩

def ram (size : UInt32)
    : Region :=
  ⟨"ram", ramBase, size⟩

/-- Why an access failed; both name the masked start and the number of bytes asked for. -/
inductive Error where
  | outOfBounds (address : Address) (length : Nat)
  | crossesRegion (address : Address) (length : Nat)
deriving DecidableEq, Repr

def Error.message
    : Error → String
  | .outOfBounds address length =>
      "guest memory access out of bounds (addr=" ++ Text.hex 8 address.toNat
        ++ ", len=" ++ toString length ++ ")"
  | .crossesRegion address length =>
      "guest memory access at " ++ Text.hex 8 address.toNat
        ++ " crosses a region boundary (len=" ++ toString length ++ ")"

end Memory

/-- A region together with its bytes, as many as it has room for. -/
structure Block where
  region : Region
  data : ByteArray
  size_data : data.size = region.size.toNat

namespace Block

/-- So many zero bytes, put together from halves for the sake of speed. -/
def zeros
    : (halvings : Nat) → (count : Nat) → ByteArray
  | 0, count => ⟨Array.replicate count 0⟩
  | halvings + 1, count =>
      let half := zeros halvings (count / 2)
      if count % 2 = 0 then half ++ half else (half ++ half).push 0

/-- The zeros are the same however often they are halved, by induction on that. -/
theorem toList_zeros (halvings count : Nat)
    : (zeros halvings count).data.toList = List.replicate count 0 := by
  induction halvings generalizing count with
  | zero => exact Array.toList_replicate
  | succ halvings ih =>
      rw [zeros]
      split
      · next even =>
        rw [ByteArray.toList_data_append, ih, List.replicate_append_replicate]
        congr 1
        omega
      · next odd =>
        rw [ByteArray.data_push, Array.toList_push, ByteArray.toList_data_append, ih,
          List.replicate_append_replicate, ← List.replicate_succ']
        congr 1
        omega

theorem size_zeros (halvings count : Nat)
    : (zeros halvings count).size = count := by
  rw [ByteArray.size, ← Array.length_toList, toList_zeros, List.length_replicate]

/-- The bytes of a region that nothing has been written to yet. -/
def blank (region : Region)
    : Block :=
  { region, data := zeros 10 region.size.toNat, size_data := size_zeros 10 _ }

/-- The index of the first of so many bytes from an address on. They must not pass the end. -/
def range (block : Block) (address : Address) (length : Nat)
    : Except Memory.Error { start : Nat // start + length ≤ block.data.size } :=
  let start := (address - block.region.base).toNat
  -- The sum has no bound of its own, since no run of bytes comes near 2^64 of them.
  if within : start + length ≤ block.region.size.toNat then
    .ok ⟨start, Nat.le_trans within (Nat.le_of_eq block.size_data.symm)⟩
  else
    .error (.crossesRegion address length)

/-- So many bytes from an index on. -/
def slice (data : ByteArray) (start : Nat)
    : (length : Nat) → start + length ≤ data.size → Bytes
  | 0, _ => []
  | length + 1, within =>
      data[start] :: slice data (start + 1) length (by omega)

theorem size_set (data : ByteArray) (index : Nat) (byte : UInt8) (inside : index < data.size)
    : (data.set index byte inside).size = data.size := by
  rw [ByteArray.size, ByteArray.data_set]
  exact Array.size_set inside

/-- Puts bytes in the place of those from an index on. -/
def splice (data : ByteArray) (start : Nat)
    : (bytes : Bytes) → start + bytes.length ≤ data.size → ByteArray
  | [], _ => data
  | byte :: rest, within =>
      have within := Nat.succ_add_eq_add_succ start rest.length ▸ within
      splice (data.set start byte (by omega)) (start + 1) rest (by rw [size_set]; exact within)

/-- As many bytes are there as before, by induction on those that are put. -/
theorem size_splice (data : ByteArray) (start : Nat) (bytes : Bytes)
    (within : start + bytes.length ≤ data.size)
    : (splice data start bytes within).size = data.size := by
  induction bytes generalizing data start with
  | nil => rfl
  | cons byte rest ih => rw [splice, ih, size_set]

/-- Reads so many bytes from an address in the region on. -/
def read (block : Block) (address : Address) (length : Nat)
    : Except Memory.Error Bytes :=
  match block.range address length with
  | .ok ⟨start, within⟩ => .ok (slice block.data start length within)
  | .error error => .error error

/-- Writes bytes from an address in the region on. -/
def write (block : Block) (address : Address) (bytes : Bytes)
    : Except Memory.Error Block :=
  match block.range address bytes.length with
  | .ok ⟨start, within⟩ =>
      .ok { block with
        data := splice block.data start bytes within
        size_data := (size_splice _ _ _ within).trans block.size_data }
  | .error error => .error error

/-- The later one of two blocks of one region. Any other block stays as it is. -/
def renew (later block : Block)
    : Block :=
  if block.region = later.region then later else block

theorem region_renew (later block : Block)
    : (later.renew block).region = block.region := by
  rw [renew]
  split
  · next same => exact same.symm
  · rfl

end Block

/-- Guest memory: the regions of the address map, in the order in which they are looked through. -/
structure Memory where
  /-- Size of main memory in bytes. -/
  ramSize : UInt32
  blocks : List Block
  layout : blocks.map Block.region = [Memory.scratchpad, Memory.vram, Memory.ram ramSize]
  /-- Main memory fits into the address map. -/
  ramSize_le : ramSize ≤ Memory.maximumRamSize

namespace Memory

/-- Every size is brought into the range from one word to the largest main memory. -/
def clampRamSize (size : UInt32)
    : UInt32 :=
  if size < 4 then 4 else if maximumRamSize < size then maximumRamSize else size

/-- A clamped size fits, in each of the three cases. -/
theorem clampRamSize_le (size : UInt32)
    : clampRamSize size ≤ maximumRamSize := by
  unfold clampRamSize
  split
  · decide
  · split
    · exact UInt32.le_refl _
    · exact UInt32.not_lt.mp ‹_›

/-- Memory in which nothing has been written yet. -/
def blank (size : UInt32)
    : Memory :=
  { ramSize := clampRamSize size
    blocks := [.blank scratchpad, .blank vram, .blank (ram (clampRamSize size))]
    layout := rfl
    ramSize_le := clampRamSize_le size }

def regions (memory : Memory)
    : List Region :=
  memory.blocks.map Block.region

/-- The first region, with its bytes, that holds an address as it stands, without masking. -/
def block? (memory : Memory) (address : Address)
    : Option Block :=
  memory.blocks.find? (·.region.contains address)

def isMapped (memory : Memory) (address : Address)
    : Bool :=
  (memory.block? address.mask).isSome

/-- Memory in which a region has other bytes. -/
def put (memory : Memory) (later : Block)
    : Memory :=
  { memory with
    blocks := memory.blocks.map later.renew
    layout := by
      rw [List.map_map, ← memory.layout]
      exact List.map_congr_left fun block _ => later.region_renew block }

/-- Reads a run of bytes that must lie in one region. -/
def read (memory : Memory) (address : Address) (length : Nat)
    : Except Error Bytes :=
  match memory.block? address.mask with
  | none => .error (.outOfBounds address.mask length)
  | some block => block.read address.mask length

def readWord (memory : Memory) (address : Address)
    : Except Error UInt32 :=
  match memory.read address 4 with
  | .ok bytes => .ok (UInt32.ofNat (LittleEndian.value bytes))
  | .error error => .error error

/-- Writes a run of bytes that must lie in one region; a refused write changes nothing. -/
def write (memory : Memory) (address : Address) (bytes : Bytes)
    : Except Error Memory :=
  match memory.block? address.mask with
  | none => .error (.outOfBounds address.mask bytes.length)
  | some block =>
      match block.write address.mask bytes with
      | .ok later => .ok (memory.put later)
      | .error error => .error error

def wordBytes (words : List UInt32)
    : Bytes :=
  words.flatMap fun word => LittleEndian.bytes 4 word.toNat

def writeWord (memory : Memory) (address : Address) (word : UInt32)
    : Except Error Memory :=
  memory.write address (LittleEndian.bytes 4 word.toNat)

def writeWords (memory : Memory) (address : Address) (words : List UInt32)
    : Except Error Memory :=
  memory.write address (wordBytes words)

end Memory

end GraphicsEngine
