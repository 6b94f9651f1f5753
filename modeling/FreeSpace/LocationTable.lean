import FreeSpace.RowLayout

/-!
# Location tables

The least that a page of rows can be: a record under a row layout, whose rows hold a location and
nothing else that the table would have to keep.
-/

namespace FreeSpace

structure LocationTable where
  layout : RowLayout
  record : Record
  deriving DecidableEq, Repr

namespace LocationTable

/-- A table over a new record of zeros. -/
def make (layout : RowLayout) (id : UInt64) (length : Nat) : Result LocationTable := do
  return ⟨layout, ← Record.make id length⟩

/-- What can be asked of a table. -/
inductive Call
  | offsetOf (row : UInt16)
  | rowAt (offset : UInt16)
  | recordAt (offset : UInt16)
  | offsetAt (offset : UInt16)
  | write (offset : UInt16) (l : Location)
  | bytes
  deriving DecidableEq, Repr

inductive Reply
  | done
  | number (n : Nat)
  | bytes (data : Array UInt8)
  deriving DecidableEq, Repr

/-- Writes a location at an offset, which need not be the start of a row. -/
def write (offset : UInt16) (l : Location) : Action LocationTable Unit where
  run := fun ⟨layout, record⟩ =>
    match (Record.writeLocation offset l).run record with
    | ⟨result, record, events⟩ => ⟨result, ⟨layout, record⟩, events⟩

def Call.action : Call → Action LocationTable Reply
  | offsetOf row => .view fun t => (t.layout.offsetOf row).map (.number ·.toNat)
  | rowAt offset => .view fun t => (t.layout.rowAt offset).map (.number ·.toNat)
  | recordAt offset => .view fun t => (t.record.locationRecord offset).map (.number ·.toNat)
  | offsetAt offset => .view fun t => (t.record.locationOffset offset).map (.number ·.toNat)
  | write offset l => do
      LocationTable.write offset l
      return .done
  | bytes => .get (.bytes ·.record.data)

end LocationTable

end FreeSpace
