import GraphicsEngine.Command

/-! The last word seen of every opcode. All lists share it, so a list starts from what the list
before it left behind.
-/

namespace GraphicsEngine

/-- One word for each of the 256 opcodes. -/
structure CommandCache where
  words : Vector Word 256
deriving DecidableEq

namespace CommandCache

/-- The cache before any command: every word is zero. -/
def blank : CommandCache :=
  ⟨Vector.replicate 256 0⟩

/-- The cache that holds the given words in order of opcode; opcodes past their end hold zero. -/
def ofWords (words : List Word)
    : CommandCache :=
  let array := words.toArray
  ⟨Vector.ofFn fun index => array.getD index 0⟩

def get (cache : CommandCache) (opcode : Opcode)
    : Word :=
  have bounded : opcode.toNat < 256 := opcode.toNat_lt
  cache.words[opcode.toNat]

/-- Stores a word as the last one of its opcode. -/
def put (cache : CommandCache) (word : Word)
    : CommandCache :=
  ⟨cache.words.set word.opcode.toNat word (Word.opcode word).toNat_lt⟩

/-- The bits in which a word differs from the last one of its opcode. -/
def difference (cache : CommandCache) (word : Word)
    : Word :=
  word ^^^ cache.get word.opcode

/-- The upper bits that the last BASE command gives to targets. -/
def base (cache : CommandCache)
    : Address :=
  (cache.get Opcode.base &&& 0x000F0000) <<< 8

@[simp] theorem get_blank (opcode : Opcode)
    : blank.get opcode = 0 := by
  simp [blank, get]

/-- Storing a word changes the word of its own opcode and no other, by the law of a single slot. -/
theorem get_put (cache : CommandCache) (word : Word) (opcode : Opcode)
    : (cache.put word).get opcode
      = if opcode = word.opcode then word else cache.get opcode := by
  have same : word.opcode.toNat = opcode.toNat ↔ opcode = word.opcode :=
    ⟨fun equal => UInt8.toNat_inj.mp equal.symm, fun equal => equal ▸ rfl⟩
  simp only [get, put, Vector.getElem_set, same]

end CommandCache

end GraphicsEngine
