import GraphicsEngine.Snapshot.Error
import GraphicsEngine.LittleEndian

/-! Readers take values from the front of the bytes that are left. A reader that refuses a value
has taken the bytes that it refused.
-/

namespace GraphicsEngine.Snapshot

/-- Reads a value from the front of the bytes and keeps the rest. -/
abbrev Reader := EStateM Error Bytes

namespace Reader

def take (count : Nat)
    : Reader Bytes :=
  fun bytes =>
    let chunk := bytes.take count
    if chunk.length = count then .ok chunk (bytes.drop count) else .error .unexpectedEnd bytes

def number (width : Nat)
    : Reader Nat := do
  let chunk ← take width
  return LittleEndian.value chunk

def uint8 : Reader UInt8 := do
  return UInt8.ofNat (← number 1)

/-- The truth value in the next byte, which has to be zero or one. -/
def bool : Reader Bool := do
  match ← uint8 with
  | 0 => return false
  | 1 => return true
  | _ => throw (.corrupt .invalidBool)

def uint16 : Reader UInt16 := do
  return UInt16.ofNat (← number 2)

def uint32 : Reader UInt32 := do
  return UInt32.ofNat (← number 4)

/-- The two's complement number in the next four bytes. -/
def int32 : Reader Int32 := do
  return (← uint32).toInt32

def uint64 : Reader UInt64 := do
  return UInt64.ofNat (← number 8)

/-- So many values of one kind, one after the other. -/
def many {α : Type} (item : Reader α)
    : Nat → Reader (List α)
  | 0 => return []
  | count + 1 => do
      let first ← item
      let rest ← many item count
      return first :: rest

/-- So many values as the next four bytes say, unless that is more than the limit. -/
def counted {α : Type} (limit : Nat) (excess : Flaw) (item : Reader α)
    : Reader (List α) := do
  let count ← uint32
  if limit < count.toNat then
    throw (.corrupt excess)
  else
    many item count.toNat

def words (limit : Nat)
    : Reader (List UInt32) :=
  counted limit .longWordList uint32

/-- Taking bytes succeeds exactly where there are so many in front, by splitting at the count. -/
theorem take_run_ok_iff {count : Nat} {bytes chunk rest : Bytes}
    : (take count).run bytes = .ok chunk rest
      ↔ bytes = chunk ++ rest ∧ chunk.length = count := by
  simp only [EStateM.run, take]
  constructor
  · intro taken
    split at taken
    · next full =>
      cases taken
      exact ⟨(List.take_append_drop count bytes).symm, full⟩
    · cases taken
  · intro holds
    obtain ⟨rfl, rfl⟩ := holds
    simp

/-- Two readers in a row succeed exactly where the second one succeeds on what the first one leaves,
by cases on the first.
-/
theorem bind_run_ok_iff {α β : Type} {reader : Reader α} {next : α → Reader β}
    {bytes rest : Bytes} {value : β}
    : (reader >>= next).run bytes = .ok value rest
      ↔ ∃ first middle, reader.run bytes = .ok first middle
          ∧ (next first).run middle = .ok value rest := by
  simp only [EStateM.run, bind, EStateM.bind]
  cases reader bytes with
  | error failure left => simp
  | ok first middle =>
      constructor
      · exact fun later => ⟨first, middle, rfl, later⟩
      · intro holds
        obtain ⟨_, _, equal, later⟩ := holds
        cases equal
        exact later

end Reader

end GraphicsEngine.Snapshot
