import FreeSpace.SlotPage

/-!
# Rows of a slot page

Rows are claimed, given a location and a size, and released.  The count in the header moves with
every row that turns from vacant to in use or back; a count that cannot follow is refused as
corruption before anything is written.
-/

namespace FreeSpace.SlotPage

/-- The offset at which a row of the page starts. -/
def offsetOf (row : UInt16) (p : SlotPage) : Result UInt16 :=
  if p.capacity ≤ row then .error (.refused (.slotOutOfRange row p.capacity))
  else layout.offsetOf row

/-- The row of the page that starts at an offset. -/
def rowAt (offset : UInt16) (p : SlotPage) : Result UInt16 :=
  let distance := offset - layout.base
  if offset < layout.base ∨ distance % layout.stride ≠ 0
      ∨ p.capacity ≤ distance / layout.stride then
    .error (.refused (.invalidRowOffset offset))
  else layout.rowAt offset

/-- The count once a vacant row is in use. -/
def countUp (row : UInt16) (p : SlotPage) : Result UInt16 := do
  let count ← p.count
  if p.capacity ≤ count then
    .error (.refused (.corruption (.countAtCapacity p.record.id count p.capacity row)))
  else Word.add16 count 1

/-- The count once a row in use is vacant. -/
def countDown (row : UInt16) (p : SlotPage) : Result UInt16 := do
  let count ← p.count
  if count = 0 then .error (.refused (.corruption (.countAtZero p.record.id row)))
  else .ok (count - 1)

/-- The count once the size of a row has changed, if the count has to change with it. -/
def countFor (row : UInt16) (old new : UInt32) (p : SlotPage) : Result (Option UInt16) :=
  if old = 0 ∧ new ≠ 0 then (p.countUp row).map some
  else if old ≠ 0 ∧ new = 0 then (p.countDown row).map some
  else .ok none

/-! ## Reading -/

/-- The location of a row. -/
def location (row : UInt16) (p : SlotPage) : Result Location := do
  let offset ← p.offsetOf row
  let record ← p.record.locationRecord offset
  return ⟨record, ← p.record.locationOffset offset⟩

/-- The size of the row that starts at an offset. -/
def sizeAt (offset : UInt16) : Action SlotPage UInt32 := do
  readSize (← .view (rowAt offset))

def isInUse (row : UInt16) : Action SlotPage Bool := do
  let _ ← .view (offsetOf row)
  return (← readSize row) ≠ 0

/-- The lowest vacant row. -/
def firstVacant : Action SlotPage (Option UInt16) := do
  (← .get rows).findM? fun row => return (← readSize row) = 0

/-- The sizes of all rows, in order. -/
def allSizes : Action SlotPage (List UInt32) := do
  (← .get rows).mapM readSize

/-! ## Writing -/

/-- Writes a location at any offset, also one at which no row starts. -/
def setLocation (offset : UInt16) (l : Location) : Action SlotPage Unit :=
  onRecord (Record.writeLocation offset l)

/-- Writes the size of the row that starts at an offset, and moves the count if it has to. -/
def setSizeAt (offset : UInt16) (size : UInt32) : Action SlotPage Unit := do
  let row ← .view (rowAt offset)
  let old ← readSize row
  let count ← .view (countFor row old size)
  writeSize row size
  match count with
  | none => return ()
  | some count =>
      setCount count
      .report fun p => .countMoved row p.record.id count

/-- What a claimed row holds until its owner writes a location and a size. -/
def placeholder : Location := ⟨1, 1⟩

def placeholderSize : UInt32 := 1

/-- Puts a vacant row in use and gives its offset. -/
def claim (row : UInt16) : Action SlotPage UInt16 := do
  let offset ← .view (offsetOf row)
  if (← readSize row) ≠ 0 then
    .refuse (.slotInUse row)
  else
    let count ← .view (countUp row)
    writeSize row placeholderSize
    setLocation offset placeholder
    setCount count
    .report fun p => .rowClaimed row p.record.id count
    return offset

/-- Makes a row in use vacant and gives its offset. -/
def release (row : UInt16) : Action SlotPage UInt16 := do
  let offset ← .view (offsetOf row)
  if (← readSize row) = 0 then
    .refuse (.slotVacant row)
  else
    let count ← .view (countDown row)
    writeSize row 0
    setLocation offset ⟨0, 0⟩
    setCount count
    .report fun p => .rowReleased row p.record.id count
    return offset

end FreeSpace.SlotPage
