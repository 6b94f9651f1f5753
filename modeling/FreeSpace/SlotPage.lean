import FreeSpace.Record.Header
import FreeSpace.RowLayout

/-!
# Slot pages

A slot page is a record that remembers where unused byte ranges lie and how large they are.

```text
offset 0   page tag                 2 bytes
offset 2   number of rows in use    2 bytes
offset 4   row 0: location          6 bytes
                  size              4 bytes
offset 14  row 1 ...
```

A row of size 0 is vacant, since a tracked range is never empty.  The page keeps the sizes that it
has read, so that each row is decoded at most once; `readSize` and `writeSize` are the only two
places that touch them.
-/

namespace FreeSpace

/-- A record in use as a page, with the row sizes read so far. -/
structure SlotPage where
  record : Record
  /-- For each row its size, once it has been read. -/
  sizes : Array (Option UInt32)
  deriving DecidableEq, Repr

namespace SlotPage

/-- Where the number of rows in use lies. -/
def countPosition : Nat := Record.headerLength

/-- Bytes of a row's size. -/
def sizeWidth : Nat := 4

/-- Rows of a location and a size, behind the tag and the count. -/
def layout : RowLayout := ⟨4, 10⟩

/-- Rows that fit into a record whole. -/
def rowsIn (length : Nat) : Nat :=
  (length - layout.base.toNat) / layout.stride.toNat

/-- The length of the shortest record with this many rows. -/
def lengthFor (rows : UInt16) : Nat :=
  layout.base.toNat + rows.toNat * layout.stride.toNat

/-- The page as it is when no row has been read. -/
def unread (r : Record) : SlotPage :=
  ⟨r, Array.replicate (rowsIn r.length) none⟩

/-- Number of rows, vacant or not. -/
def capacity (p : SlotPage) : UInt16 :=
  .ofNat (rowsIn p.record.length)

/-- The rows in order. -/
def rows (p : SlotPage) : List UInt16 :=
  (List.range (rowsIn p.record.length)).map .ofNat

/-- The waste that a search does not accept any more: a quarter of the record. -/
def wasteLimit (p : SlotPage) : UInt32 :=
  .ofNat (p.record.length / 4)

/-- Number of rows in use, as the header has it. -/
def count (p : SlotPage) : Result UInt16 :=
  p.record.read16 countPosition

/-- Work on the record alone, which does not touch the sizes read so far. -/
def onRecord {α : Type} (a : Action Record α) : Action SlotPage α where
  run := fun ⟨record, sizes⟩ =>
    match a.run record with
    | ⟨result, record, events⟩ => ⟨result, ⟨record, sizes⟩, events⟩

def setCount (count : UInt16) : Action SlotPage Unit :=
  onRecord (Record.write16 countPosition count)

/-! ## From a record to a page -/

/-- Refuses a record whose length no page has. -/
def requireLength : Action Record Unit where
  run r :=
    let least := layout.base.toNat
    if r.length < least ∨ Record.maxLength < r.length then
      ⟨.error (.refused (.invalidInput (.recordLength r.length least Record.maxLength))), r,
        [.unusableLength r.id r.length]⟩
    else
      ⟨.ok (), r, []⟩

/-- Refuses a record without the tag of a slot page, and reports that. -/
def requireTag : Action Record Unit where
  run r :=
    match r.requireType .freePhysicalSlot with
    | .error (.refused e) => ⟨.error (.refused e), r, [.notSlotPage r.id e]⟩
    | result => ⟨result, r, []⟩

/-- Takes a record that already is a slot page; its bytes are kept as they are. -/
def ofRecord : Action Record SlotPage := do
  requireTag
  requireLength
  .report fun r => .pageOpened r.id (.ofNat (rowsIn r.length))
  .get unread

/-- Makes a record an empty slot page, whatever its bytes were. -/
def format : Action Record SlotPage := do
  requireLength
  Record.clear
  Record.stamp .freePhysicalSlot
  Record.write16 countPosition 0
  ofRecord

/-! ## Row sizes -/

/-- Where the size of a row lies. -/
def sizePosition (row : UInt16) : Result Nat :=
  (layout.offsetOf row).map (·.toNat + Location.width)

/-- The size of a row, if it has been read; a row that the page does not have is a fault. -/
def sizeRead? (row : UInt16) (p : SlotPage) : Result (Option UInt32) :=
  match p.sizes[row.toNat]? with
  | some size => .ok size
  | none => .error (.fault .outOfBounds)

/-- Keeps the size of a row. -/
def keepSize (row : UInt16) (size : UInt32) : Action SlotPage Unit where
  run p :=
    if row.toNat < p.sizes.size then
      ⟨.ok (), { p with sizes := p.sizes.setIfInBounds row.toNat (some size) }, []⟩
    else
      ⟨.error (.fault .outOfBounds), p, []⟩

/-- The size of a row, from the record if it has not been read yet. -/
def readSize (row : UInt16) : Action SlotPage UInt32 := do
  match ← .view (sizeRead? row) with
  | some size => return size
  | none =>
      let position ← .lift (sizePosition row)
      let size ← .view (·.record.read32 position)
      .report fun p => .sizeCached size row p.record.id
      keepSize row size
      return size

/-- Writes the size of a row, and nothing else of the page. -/
def writeSize (row : UInt16) (size : UInt32) : Action SlotPage Unit := do
  let position ← .lift (sizePosition row)
  onRecord (Record.write32 position size)
  keepSize row size

end SlotPage

end FreeSpace
