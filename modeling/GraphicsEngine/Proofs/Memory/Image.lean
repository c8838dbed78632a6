import GraphicsEngine.Command
import GraphicsEngine.Proofs.Memory.History

/-! Memory with an image in it. From where the image was put on memory shows its words one after the
other, and zeros behind the last of them.
-/

namespace GraphicsEngine

/-- The words of an image with their addresses. Bytes at the end that make up no whole word are left
out.
-/
def wordsFrom (address : Address)
    : Bytes → List (Address × Word)
  | first :: second :: third :: fourth :: rest =>
      (address, UInt32.ofNat (LittleEndian.value [first, second, third, fourth]))
        :: wordsFrom (address + 4) rest
  | _ => []

/-- No four bytes in a row, wherever in the image, are the word of a JUMP, a CALL or a RET. -/
def Straight (image : Bytes)
    : Prop :=
  ∀ front word back, image = front ++ LittleEndian.bytes 4 word.toNat ++ back
    → Word.opcode word ∉ [Opcode.jump, Opcode.call, Opcode.ret]

/-- Four bytes are those of the word that they spell. -/
theorem bytes_ofNat_value (spelt : Bytes) (length : spelt.length = 4)
    : LittleEndian.bytes 4 (UInt32.ofNat (LittleEndian.value spelt)).toNat = spelt := by
  have inside := LittleEndian.value_lt spelt
  rw [length] at inside
  rw [UInt32.toNat_ofNat_of_lt' inside, ← length]
  exact LittleEndian.bytes_value spelt

/-- What stands at the end of an image without such words has none either. -/
theorem Straight.of_append {front back : Bytes} (straight : Straight (front ++ back))
    : Straight back := by
  intro before word behind same
  apply straight (front ++ before) word behind
  rw [same]
  simp only [List.append_assoc]

/-- The byte that selects the command is one of those of the word. -/
theorem opcode_mem_bytes (word : Word)
    : word.opcode ∈ LittleEndian.bytes 4 word.toNat := by
  have inside := word.toNat_lt
  have last : word.opcode = UInt8.ofNat (word.toNat / 256 / 256 / 256 % 256) := by
    rw [Word.opcode, ← UInt8.toNat_inj]
    simp only [UInt32.toNat_toUInt8, UInt32.toNat_shiftRight, UInt8.toNat_ofNat',
      UInt32.reduceToNat, Nat.shiftRight_eq_div_pow, Nat.reduceMod, Nat.reducePow]
    omega
  rw [last]
  simp [LittleEndian.bytes]

/-- An image has no such words if it has no such bytes. -/
theorem straight_of_absent {image : Bytes}
    (absent : ∀ byte ∈ image, byte ∉ [Opcode.jump, Opcode.call, Opcode.ret])
    : Straight image := by
  rintro front word back rfl
  apply absent
  exact List.mem_append_left back (List.mem_append_right front (opcode_mem_bytes word))

/-- The words of an image lie in it, by recursion on the words. -/
theorem inside_of_mem_wordsFrom {address : Address} {image : Bytes}
    (room : address.toNat + image.length < UInt32.size) {fetch : Address × Word}
    (member : fetch ∈ wordsFrom address image)
    : address.toNat ≤ fetch.1.toNat
      ∧ fetch.1.toNat + 4 ≤ address.toNat + image.length := by
  induction address, image using wordsFrom.induct with
  | case1 address first second third fourth rest ih =>
      simp only [List.length_cons, UInt32.size] at room ih ⊢
      have next : (address + 4).toNat = address.toNat + 4 := by
        rw [UInt32.toNat_add]
        simp only [UInt32.reduceToNat]
        omega
      rw [wordsFrom] at member
      rcases List.mem_cons.mp member with rfl | member
      · dsimp only
        omega
      · have inside := ih (by omega) member
        omega
  | case2 image address broken =>
      rw [wordsFrom] at member
      · cases member
      · exact broken

namespace Memory

/-- Memory of a size shows the bytes from a place on, all of them in one region, and zeros behind
them.
-/
structure Shows (memory : Memory) (size : UInt32) (place : Nat) (bytes : Bytes)
    : Prop where
  sized : memory.ramSize = clampRamSize size
  room : ∃ extent ∈ extents size, extent.1 ≤ place ∧ place + bytes.length ≤ extent.2
  byteAt
    : ∀ address, place ≤ address.toNat
        → memory.byteAt address = (bytes[address.toNat - place]?).getD 0

variable {memory : Memory} {size : UInt32}

/-- New memory shows what was written to it. -/
theorem shows_of_write {address : Address} {bytes : Bytes}
    (written : (blank size).write address bytes = .ok memory)
    : memory.Shows size address.place bytes := by
  let store := Store.bytes address bytes
  have performed : (blank size).perform store = .ok memory := written
  have later : (blank size).afterStore store = memory := by
    rw [afterStore, performed]
  have sized : (blank size).ramSize = clampRamSize size := rfl
  have fits : Fits size store.start.place store.payload.length := by
    by_contra misses
    rw [perform_of_misses sized misses] at performed
    cases performed
  obtain ⟨extent, listed, starts, -, ends⟩ := id fits
  obtain ⟨same, held⟩ := afterStore_eq sized store
  rw [later] at same held
  refine ⟨same.trans sized, ⟨extent, listed, starts, ends⟩, fun other behind => ?_⟩
  rw [held, byteAt_blank, written?, if_pos ⟨fits, behind⟩]
  rfl

/-- Behind the first bytes memory shows the others. -/
theorem Shows.of_append {place : Nat} {front back : Bytes}
    (shows : memory.Shows size place (front ++ back))
    : memory.Shows size (place + front.length) back := by
  obtain ⟨sized, ⟨extent, listed, starts, ends⟩, held⟩ := shows
  rw [List.length_append] at ends
  refine ⟨sized, ⟨extent, listed, by omega, by omega⟩, ?_⟩
  intro address behind
  rw [held address (by omega), List.getElem?_append_right (by omega), Nat.sub_sub]

/-- A word that memory shows is read. -/
theorem Shows.readWord {address : Address} {word : Word} {rest : Bytes}
    (masked : address.IsMasked)
    (shows : memory.Shows size address.toNat (LittleEndian.bytes 4 word.toNat ++ rest))
    : memory.readWord address = .ok word := by
  obtain ⟨sized, ⟨extent, listed, starts, ends⟩, held⟩ := shows
  rw [List.length_append, LittleEndian.length_bytes] at ends
  have place : address.place = address.toNat := by
    rw [← Address.toNat_mask_eq_place, masked]
  have fits : Fits size address.place 4 := by
    rw [place]
    exact ⟨extent, listed, starts, by omega, by omega⟩
  have room := lt_of_fits fits
  rw [place] at room
  have spelt : memory.bytesFrom address 4 = LittleEndian.bytes 4 word.toNat := by
    apply List.ext_getElem
    · simp [bytesFrom]
    · intro index _ within
      have inside := within
      rw [LittleEndian.length_bytes] at inside
      have reached : (address + UInt32.ofNat index).toNat = address.toNat + index := by
        rw [UInt32.toNat_add, UInt32.toNat_ofNat']
        omega
      have byte := held (address + UInt32.ofNat index) (by omega)
      rw [reached, Nat.add_sub_cancel_left, List.getElem?_append_left within,
        List.getElem?_eq_getElem within, Option.getD_some] at byte
      simp [bytesFrom, byte]
  have whole : word.toNat < LittleEndian.span 4 := word.toNat_lt
  rw [Memory.readWord, read_eq, locate_eq sized, if_pos fits, masked]
  simp only [Except.map]
  rw [spelt, LittleEndian.value_bytes, Nat.mod_eq_of_lt whole]
  exact congrArg Except.ok UInt32.ofNat_toNat

/-- Behind what memory shows all bytes are zero. -/
theorem Shows.byteAt_behind {place : Nat} {bytes : Bytes} (shows : memory.Shows size place bytes)
    {address : Address} (behind : place + bytes.length ≤ address.toNat)
    : memory.byteAt address = 0 := by
  rw [shows.byteAt address (by omega), List.getElem?_eq_none (by omega)]
  rfl

end Memory

end GraphicsEngine
