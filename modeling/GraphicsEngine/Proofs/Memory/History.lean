import GraphicsEngine.Proofs.Memory.Flat
import Mathlib.Data.List.Induction

/-! What memory holds after any history of writes, refused ones included. It is one flat map of
bytes that shows in every segment: a byte is the one that was written to its place last. Which
accesses succeed does not depend on the history.
-/

namespace GraphicsEngine

/-- Where an address lies in the address map, whatever segment it names. -/
def Address.place (address : Address)
    : Nat :=
  address.toNat % 0x10000000

theorem Address.toNat_mask_eq_place (address : Address)
    : address.mask.toNat = address.place :=
  toNat_mask address

/-- The mask takes an address to its place. -/
theorem Address.mask_eq_of_place {address other : Address} (same : other.place = address.place)
    : other.mask = address.mask := by
  rw [← UInt32.toNat_inj, toNat_mask_eq_place, toNat_mask_eq_place, same]

-----------------------------------------------------------------------------------------
-- Histories
-----------------------------------------------------------------------------------------

/-- A request to write, in each of the forms that memory takes it in. -/
inductive Store where
  | bytes (start : Address) (content : Bytes)
  | word (start : Address) (content : UInt32)
  | words (start : Address) (content : List UInt32)
deriving DecidableEq, Repr

namespace Store

def start
    : Store → Address
  | bytes start _ => start
  | word start _ => start
  | words start _ => start

/-- The bytes that are to be written, one after the other. -/
def payload
    : Store → Bytes
  | bytes _ content => content
  | word _ content => LittleEndian.bytes 4 content.toNat
  | words _ content => content.flatMap fun word => LittleEndian.bytes 4 word.toNat

end Store

namespace Memory

/-- Where the regions begin and end in memory that a size was asked for. -/
def extents (size : UInt32)
    : List (Nat × Nat) :=
  [(0x00010000, 0x00014000), (0x04000000, 0x04200000),
    (0x08000000, 0x08000000 + min (max size.toNat 4) 0x04000000)]

/-- The place lies in one of the regions. -/
def Mapped (size : UInt32) (place : Nat)
    : Prop :=
  ∃ extent ∈ extents size, extent.1 ≤ place ∧ place < extent.2

/-- The place lies in one of the regions, and so many bytes from it on do not pass the end of that
region.
-/
def Fits (size : UInt32) (place length : Nat)
    : Prop :=
  ∃ extent ∈ extents size, extent.1 ≤ place ∧ place < extent.2 ∧ place + length ≤ extent.2

instance (size : UInt32) (place : Nat) : Decidable (Mapped size place) :=
  inferInstanceAs (Decidable (∃ extent ∈ extents size, _))

instance (size : UInt32) (place length : Nat) : Decidable (Fits size place length) :=
  inferInstanceAs (Decidable (∃ extent ∈ extents size, _))

/-- The byte that a request writes to a place, if it is not refused and covers the place. -/
def written? (size : UInt32) (place : Nat) (store : Store)
    : Option UInt8 :=
  if Fits size store.start.place store.payload.length ∧ store.start.place ≤ place then
    store.payload[place - store.start.place]?
  else
    none

/-- The byte that was written to a place last, zero if none was. -/
def lastWritten (size : UInt32) (history : List Store) (place : Nat)
    : UInt8 :=
  (history.reverse.findSome? (written? size place)).getD 0

/-- Carries out a request to write. -/
def perform (memory : Memory)
    : Store → Except Error Memory
  | .bytes start content => memory.write start content
  | .word start content => memory.writeWord start content
  | .words start content => memory.writeWords start content

/-- Memory after a request, which leaves it as it was where it is refused. -/
def afterStore (memory : Memory) (store : Store)
    : Memory :=
  match memory.perform store with
  | .ok later => later
  | .error _ => memory

/-- New memory of a size after a history of requests. -/
def afterAll (size : UInt32) (history : List Store)
    : Memory :=
  history.foldl afterStore (.blank size)

-----------------------------------------------------------------------------------------
-- Which accesses succeed
-----------------------------------------------------------------------------------------

variable {memory : Memory} {size : UInt32} {address : Address}

theorem toNat_clampRamSize (size : UInt32)
    : (clampRamSize size).toNat = min (max size.toNat 4) 0x04000000 := by
  have maximum : maximumRamSize.toNat = 0x04000000 := rfl
  unfold clampRamSize
  split
  · next small =>
    have small := UInt32.lt_iff_toNat_lt.mp small
    simp only [UInt32.reduceToNat] at small ⊢
    omega
  · next enough =>
    have enough := UInt32.le_iff_toNat_le.mp (UInt32.not_lt.mp enough)
    simp only [UInt32.reduceToNat] at enough
    split
    · next large =>
      have large := UInt32.lt_iff_toNat_lt.mp large
      omega
    · next fits =>
      have fits := UInt32.le_iff_toNat_le.mp (UInt32.not_lt.mp fits)
      omega

variable (sized : memory.ramSize = clampRamSize size)

include sized

/-- The regions begin and end as the size says. -/
theorem extents_eq_map
    : extents size
      = memory.regions.map fun region =>
          (region.base.toNat, region.base.toNat + region.size.toNat) := by
  have base : ramBase.toNat = 0x08000000 := rfl
  rw [regions, memory.layout, sized]
  simp only [extents, ram, List.map_cons, List.map_nil, toNat_clampRamSize, base]
  rfl

theorem mapped_iff (address : Address)
    : Mapped size address.place ↔ ∃ region, memory.region? address.mask = some region := by
  simp only [Mapped, extents_eq_map sized, List.mem_map, exists_exists_and_eq_and,
    region?_eq_some_iff, Region.contains_iff, Address.toNat_mask_eq_place]

theorem isMapped_iff (address : Address)
    : memory.isMapped address ↔ Mapped size address.place := by
  rw [isMapped_eq, Option.isSome_iff_exists, mapped_iff sized]

theorem fits_iff (address : Address) (length : Nat)
    : Fits size address.place length
      ↔ ∃ region, memory.region? address.mask = some region
          ∧ address.place + length ≤ region.base.toNat + region.size.toNat := by
  simp only [Fits, extents_eq_map sized, List.mem_map, exists_exists_and_eq_and,
    region?_eq_some_iff, Region.contains_iff, Address.toNat_mask_eq_place, and_assoc]

/-- An access succeeds where it fits, and says why where it does not. -/
theorem locate_eq (length : Nat)
    : memory.locate address length
      = if Fits size address.place length then
          .ok address.mask
        else if Mapped size address.place then
          .error (.crossesRegion address.mask length)
        else
          .error (.outOfBounds address.mask length) := by
  have fits := fits_iff sized address length
  have mapped := mapped_iff sized address
  rw [locate]
  cases found : memory.region? address.mask with
  | none =>
      rw [found] at fits mapped
      rw [if_neg (by simp [fits]), if_neg (by simp [mapped])]
  | some region =>
      rw [found] at fits mapped
      have starts := (bounds_of_region found).2.1
      have distance : (address.mask - region.base).toNat
          = address.place - region.base.toNat := by
        rw [UInt32.toNat_sub_of_le _ _ (UInt32.le_iff_toNat_le.mpr starts),
          Address.toNat_mask_eq_place]
      rw [Address.toNat_mask_eq_place] at starts
      have within : (address.mask - region.base).toNat + length ≤ region.size.toNat
          ↔ Fits size address.place length := by
        simp only [fits, Option.some.injEq, exists_eq_left']
        omega
      rw [if_pos (mapped.mpr ⟨region, rfl⟩)]
      simp only [within]

omit sized

/-- What fits ends far below the largest address. -/
theorem lt_of_fits {place length : Nat} (fits : Fits size place length)
    : place + length < 0x10000000 := by
  obtain ⟨extent, listed, -, -, ends⟩ := fits
  simp only [extents, List.mem_cons, List.not_mem_nil, or_false] at listed
  rcases listed with rfl | rfl | rfl <;> dsimp only at ends <;> omega

-----------------------------------------------------------------------------------------
-- What is held
-----------------------------------------------------------------------------------------

/-- A request writes its payload from its start on. -/
theorem perform_eq_write (memory : Memory) (store : Store)
    : memory.perform store = memory.write store.start store.payload := by
  cases store <;> rfl

/-- A request that fits is carried out and changes the bytes that it covers. -/
theorem perform_of_fits (sized : memory.ramSize = clampRamSize size) {store : Store}
    (fits : Fits size store.start.place store.payload.length)
    : ∃ later, memory.perform store = .ok later
        ∧ later.ramSize = memory.ramSize
        ∧ ∀ address, later.byteAt address
            = (written? size address.toNat store).getD (memory.byteAt address) := by
  have located : memory.locate store.start store.payload.length = .ok store.start.mask := by
    rw [locate_eq sized, if_pos fits]
  obtain ⟨later, performed, same, held⟩ := write_of_locate located
  refine ⟨later, (perform_eq_write memory store).trans performed, same, fun address => ?_⟩
  rw [held, Address.toNat_mask_eq_place, written?]
  simp only [fits, true_and]
  split <;> rfl

/-- Any other request is refused. -/
theorem perform_of_misses (sized : memory.ramSize = clampRamSize size) {store : Store}
    (misses : ¬Fits size store.start.place store.payload.length)
    : memory.perform store
      = .error (
          if Mapped size store.start.place then
            .crossesRegion store.start.mask store.payload.length
          else
            .outOfBounds store.start.mask store.payload.length) := by
  rw [perform_eq_write]
  apply write_of_not_located
  rw [locate_eq sized, if_neg misses]
  split <;> rfl

/-- A later request goes before all earlier ones. -/
theorem lastWritten_append (size : UInt32) (history : List Store) (store : Store) (place : Nat)
    : lastWritten size (history ++ [store]) place
      = (written? size place store).getD (lastWritten size history place) := by
  rw [lastWritten, List.reverse_append, List.reverse_singleton, List.singleton_append,
    List.findSome?_cons, lastWritten]
  cases written? size place store <;> rfl

theorem afterAll_append (size : UInt32) (history : List Store) (store : Store)
    : afterAll size (history ++ [store]) = (afterAll size history).afterStore store := by
  rw [afterAll, List.foldl_append]
  rfl

/-- After a request memory has the same size, and a byte is the one that it writes, or else the one
from before.
-/
theorem afterStore_eq (sized : memory.ramSize = clampRamSize size) (store : Store)
    : (memory.afterStore store).ramSize = memory.ramSize
      ∧ ∀ address, (memory.afterStore store).byteAt address
          = (written? size address.toNat store).getD (memory.byteAt address) := by
  by_cases fits : Fits size store.start.place store.payload.length
  · obtain ⟨later, performed, same, held⟩ := perform_of_fits sized fits
    rw [afterStore, performed]
    exact ⟨same, held⟩
  · rw [afterStore, perform_of_misses sized fits]
    refine ⟨rfl, fun address => ?_⟩
    have unwritten : written? size address.toNat store = none :=
      if_neg fun covers => fits covers.1
    rw [unwritten]
    rfl

/-- A byte is the one that was written to its place last, by induction on the history. -/
theorem afterAll_eq (size : UInt32) (history : List Store)
    : (afterAll size history).ramSize = clampRamSize size
      ∧ ∀ address, (afterAll size history).byteAt address
          = lastWritten size history address.toNat := by
  induction history using List.reverseRecOn with
  | nil => exact ⟨rfl, byteAt_blank size⟩
  | append_singleton history store ih =>
      obtain ⟨sized, held⟩ := ih
      obtain ⟨same, held'⟩ := afterStore_eq sized store
      rw [afterAll_append]
      refine ⟨same.trans sized, fun address => ?_⟩
      rw [held', held, lastWritten_append]

/-- What fits is read byte by byte, each as it was written last. -/
theorem read_afterAll (size : UInt32) (history : List Store) (address : Address) (length : Nat)
    : (afterAll size history).read address length
      = if Fits size address.place length then
          .ok ((List.range length).map fun index =>
            lastWritten size history (address.place + index))
        else if Mapped size address.place then
          .error (.crossesRegion address.mask length)
        else
          .error (.outOfBounds address.mask length) := by
  obtain ⟨sized, held⟩ := afterAll_eq size history
  rw [read_eq, locate_eq sized]
  by_cases fits : Fits size address.place length
  · simp only [if_pos fits, Except.map, bytesFrom, Except.ok.injEq]
    refine List.map_congr_left fun index listed => ?_
    have inside := List.mem_range.mp listed
    have room := lt_of_fits fits
    have reached : (address.mask + UInt32.ofNat index).toNat = address.place + index := by
      rw [UInt32.toNat_add, UInt32.toNat_ofNat', Address.toNat_mask_eq_place]
      omega
    rw [held, reached]
  · by_cases mapped : Mapped size address.place
    · simp only [if_neg fits, if_pos mapped, Except.map]
    · simp only [if_neg fits, if_neg mapped, Except.map]

-----------------------------------------------------------------------------------------
-- Flat memory
-----------------------------------------------------------------------------------------

/-- Memory of a size that a reader takes for one flat map of bytes, seen in every segment. -/
structure Flat (memory : Memory) (size : UInt32) (held : Nat → UInt8)
    : Prop where
  /-- A read succeeds exactly if it fits, and gives what is held, byte by byte. -/
  read
    : ∀ address length bytes,
        memory.read address length = .ok bytes
        ↔ Fits size address.place length
          ∧ bytes.length = length
          ∧ ∀ index < length, bytes[index]? = some (held (address.place + index))
  outOfBounds
    : ∀ address length start asked,
        memory.read address length = .error (.outOfBounds start asked)
        ↔ ¬Mapped size address.place ∧ start = address.mask ∧ asked = length
  crossesRegion
    : ∀ address length start asked,
        memory.read address length = .error (.crossesRegion start asked)
        ↔ Mapped size address.place ∧ ¬Fits size address.place length
          ∧ start = address.mask ∧ asked = length
  word
    : ∀ address word,
        memory.readWord address = .ok word
        ↔ Fits size address.place 4
          ∧ word.toNat
            = (held address.place).toNat + 0x100 * (held (address.place + 1)).toNat
              + 0x10000 * (held (address.place + 2)).toNat
              + 0x1000000 * (held (address.place + 3)).toNat
  wordError
    : ∀ address error, memory.readWord address = .error error ↔ memory.read address 4 = .error error
  mapped : ∀ address, memory.isMapped address ↔ ∃ byte, memory.read address 1 = .ok [byte]
  /-- Addresses that differ in nothing but their segment are as good as each other. -/
  mirrors
    : ∀ address other, other.place = address.place
        → memory.read other = memory.read address
          ∧ memory.readWord other = memory.readWord address
          ∧ memory.isMapped other = memory.isMapped address
          ∧ memory.write other = memory.write address
          ∧ memory.writeWord other = memory.writeWord address
          ∧ memory.writeWords other = memory.writeWords address

theorem mapped_of_fits {place length : Nat} (fits : Fits size place length)
    : Mapped size place := by
  obtain ⟨extent, listed, starts, inside, -⟩ := fits
  exact ⟨extent, listed, starts, inside⟩

/-- One byte fits wherever there is memory. -/
theorem fits_one_iff {place : Nat}
    : Fits size place 1 ↔ Mapped size place := by
  refine ⟨mapped_of_fits, ?_⟩
  rintro ⟨extent, listed, starts, inside⟩
  exact ⟨extent, listed, starts, inside, inside⟩

/-- Bytes that are held one after the other are those of their places. -/
theorem eq_map_range_iff {held : Nat → UInt8} {place length : Nat} {bytes : Bytes}
    : (List.range length).map (fun index => held (place + index)) = bytes
      ↔ bytes.length = length ∧ ∀ index < length, bytes[index]? = some (held (place + index)) := by
  constructor
  · rintro rfl
    refine ⟨by simp, fun index inside => ?_⟩
    simp [inside]
  · rintro ⟨rfl, each⟩
    refine List.ext_getElem (by simp) fun index _ inside => ?_
    have found := each index inside
    rw [List.getElem?_eq_getElem inside, Option.some.injEq] at found
    simp [found]

/-- Memory is flat if its reads are those of one map of bytes. -/
theorem flat_of_read {held : Nat → UInt8} (sized : memory.ramSize = clampRamSize size)
    (reads : ∀ address length, memory.read address length
      = if Fits size address.place length then
          .ok ((List.range length).map fun index => held (address.place + index))
        else if Mapped size address.place then
          .error (.crossesRegion address.mask length)
        else
          .error (.outOfBounds address.mask length))
    : memory.Flat size held where
  read address length bytes := by
    rw [reads, ← eq_map_range_iff]
    split
    · next fits => simp [fits]
    · next misses => split <;> simp [misses]
  outOfBounds address length start asked := by
    rw [reads]
    split
    · next fits => simp [mapped_of_fits fits]
    · split
      · next mapped => simp [mapped]
      · next unmapped => simp [unmapped, eq_comm]
  crossesRegion address length start asked := by
    rw [reads]
    split
    · next fits => simp [fits]
    · next misses =>
      split
      · next mapped => simp [mapped, misses, eq_comm]
      · next unmapped => simp [unmapped]
  word address word := by
    have first := (held address.place).toNat_lt
    have second := (held (address.place + 1)).toNat_lt
    have third := (held (address.place + 2)).toNat_lt
    have fourth := (held (address.place + 3)).toNat_lt
    rw [readWord, reads]
    by_cases fits : Fits size address.place 4
    · rw [if_pos fits]
      simp only [fits, true_and, Except.ok.injEq, ← UInt32.toNat_inj, UInt32.toNat_ofNat',
        List.range_succ, List.range_zero, List.nil_append, List.cons_append, List.map_cons,
        List.map_nil, LittleEndian.value, Nat.add_zero]
      omega
    · by_cases mapped : Mapped size address.place
      · simp [fits, mapped]
      · simp [fits, mapped]
  wordError address error := by
    rw [readWord]
    split
    · next read => simp [read]
    · next read => simp [read]
  mapped address := by
    rw [isMapped_iff sized, ← fits_one_iff, reads]
    by_cases fits : Fits size address.place 1
    · simp [fits]
    · by_cases mapped : Mapped size address.place
      · simp [fits, mapped]
      · simp [fits, mapped]
  mirrors address other same := by
    have masked := Address.mask_eq_of_place same
    have read : memory.read other = memory.read address := by
      funext length
      rw [Memory.read, Memory.read, masked]
    have write : memory.write other = memory.write address := by
      funext bytes
      rw [Memory.write, Memory.write, masked]
    refine ⟨read, ?_, ?_, write, ?_, ?_⟩
    · rw [readWord, readWord, read]
    · rw [isMapped, isMapped, masked]
    · funext word
      rw [writeWord, writeWord, write]
    · funext words
      rw [writeWords, writeWords, write]

/-- Memory of any size asked for is flat after any history of requests to write: a byte is the one
that was written to its place last by a request that was not refused. A request is carried out
exactly if its payload fits, and one that is refused changes no byte.
-/
theorem flat_afterAll (size : UInt32) (history : List Store)
    : (afterAll size history).Flat size (lastWritten size history)
      ∧ (∀ store,
          (∃ later, (afterAll size history).perform store = .ok later)
          ↔ Fits size store.start.place store.payload.length)
      ∧ ∀ store error,
          (afterAll size history).perform store = .error error
          → ∀ address length,
              (afterAll size (history ++ [store])).read address length
              = (afterAll size history).read address length := by
  have sized := (afterAll_eq size history).1
  refine ⟨flat_of_read sized (read_afterAll size history), fun store => ⟨?_, fun fits => ?_⟩, ?_⟩
  · rintro ⟨later, performed⟩
    by_contra misses
    rw [perform_of_misses sized misses] at performed
    cases performed
  · obtain ⟨later, performed, -⟩ := perform_of_fits sized fits
    exact ⟨later, performed⟩
  · intro store error refused address length
    rw [afterAll_append, afterStore, refused]

/-- Memory of the least size, written to in every form. The two requests in the middle are refused:
one passes the end of the region, the other one lies outside.
-/
def scribbles : List Store :=
  [.word 0x48000000 0xDEADBEEF, .bytes 0x08000002 [1, 2, 3], .words 0x00014000 [7],
    .bytes 0x88000001 [0x55]]

/-- The word is the first one written, but for the byte that was written over it. -/
theorem flat_after_scribbles
    : (afterAll 0 scribbles).readWord 0x08000000 = .ok 0xDEAD55EF
      ∧ (afterAll 0 scribbles).read 0xC8000002 2 = .ok [0xAD, 0xDE]
      ∧ (afterAll 0 scribbles).read 0xC8000002 3 = .error (.crossesRegion 0x08000002 3) := by
  obtain ⟨flat, -, -⟩ := flat_afterAll 0 scribbles
  refine ⟨(flat.word _ _).mpr ?_, (flat.read _ _ _).mpr ?_, (flat.crossesRegion _ _ _ _).mpr ?_⟩
  all_goals decide +kernel

end Memory

end GraphicsEngine
