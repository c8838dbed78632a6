import GraphicsEngine.Snapshot.Section

/-! Reading a snapshot. Sections are handed on one by one as they are read, so the receiver of a
snapshot that turns out to be broken has been given the sections before the break.
-/

namespace GraphicsEngine.Snapshot

/-- What was read: the sections in the order in which they were handed on, and the end. -/
structure Reading where
  sections : List Section
  outcome : Except Error Unit

/-- Reads sections until the bytes end or a section is broken. A payload may be longer than what
is read of it; one that is shorter than its header says is noticed after it was handed on.
-/
def readSections (bytes : Bytes) (found : Array Section)
    : Array Section × Except Error Unit :=
  if bytes = [] then
    (found, .ok ())
  else
    match Header.decode.run (bytes.take Header.size) with
    | .error error _ => (found, .error error)
    | .ok header _ =>
        if header.tag = Tag.lists ∧ listsLengthLimit < header.length then
          (found, .error (.corrupt .largeLists))
        else
          let rest := bytes.drop Header.size
          let payload := rest.take header.length.toNat
          match (Section.decode header).run payload with
          | .error error _ => (found, .error error)
          | .ok read _ =>
              let found := found ++ read.toList
              if payload.length < header.length.toNat then
                (found, .error .truncatedPayload)
              else
                readSections (rest.drop header.length.toNat) found
termination_by bytes.length
decreasing_by
  have : bytes.length ≠ 0 := by simpa using ‹¬bytes = []›
  simp only [List.length_drop, Header.size]
  omega

/-- Reads a snapshot. An engine record and a section of lists have to be among the sections; where
the cache is missing an empty one is handed on last.
-/
def read (bytes : Bytes)
    : Reading :=
  match readFileHeader.run bytes with
  | .error error _ => ⟨[], .error error⟩
  | .ok _ rest =>
      match readSections rest #[] with
      | (found, .error error) => ⟨found.toList, .error error⟩
      | (found, .ok _) =>
          let sections := found.toList
          if ¬sections.any Section.isEngine then
            ⟨sections, .error (.corrupt .noEngine)⟩
          else if ¬sections.any Section.isLists then
            ⟨sections, .error (.corrupt .noLists)⟩
          else if sections.any Section.isCache then
            ⟨sections, .ok ()⟩
          else
            ⟨sections ++ [.cache .blank], .ok ()⟩

/-- A call made on the receiver of a snapshot. -/
inductive Call where
  /-- A section is handed on. -/
  | receive (contents : Section)
  /-- All sections were handed on: the receiver checks what it was given. -/
  | finish
deriving DecidableEq

/-- Reads a snapshot for a receiver that has the last word on what it was given. Gives the calls
made on the receiver, those before a failure included.
-/
def restore (accept : List Section → Except Error Unit) (bytes : Bytes)
    : List Call × Except Error Unit :=
  let reading := read bytes
  let received := reading.sections.map Call.receive
  match reading.outcome with
  | .error error => (received, .error error)
  | .ok _ => (received ++ [.finish], accept reading.sections)

end GraphicsEngine.Snapshot
