import FreeSpace.Reply
import FreeSpace.SlotPage.Fill

/-!
# Calls on slot pages

The operations of a page as data, so that a finite run of them is a list.
-/

namespace FreeSpace.SlotPage

inductive Call
  | capacity
  | wasteLimit
  | count
  | firstVacant
  | location (row : UInt16)
  | isInUse (row : UInt16)
  | sizeAt (offset : UInt16)
  | setSizeAt (offset : UInt16) (size : UInt32)
  | claim (row : UInt16)
  | release (row : UInt16)
  | search (request : UInt32)
  | setLocation (offset : UInt16) (l : Location)
  | locationRecord (offset : UInt16)
  | locationOffset (offset : UInt16)
  | allSizes
  deriving DecidableEq, Repr

def Call.action : Call → Action SlotPage Reply
  | capacity => .get (.number ·.capacity.toNat)
  | wasteLimit => .get (.number ·.wasteLimit.toNat)
  | count => .view fun p => p.count.map (.number ·.toNat)
  | firstVacant => return .row (← SlotPage.firstVacant)
  | location row => .view fun p => (p.location row).map .location
  | isInUse row => return .flag (← SlotPage.isInUse row)
  | sizeAt offset => return .number (← SlotPage.sizeAt offset).toNat
  | setSizeAt offset size => do
      SlotPage.setSizeAt offset size
      return .done
  | claim row => return .number (← SlotPage.claim row).toNat
  | release row => return .number (← SlotPage.release row).toNat
  | search request => return .search (← SlotPage.search request)
  | setLocation offset l => do
      SlotPage.setLocation offset l
      return .done
  | locationRecord offset => .view fun p => (p.record.locationRecord offset).map (.number ·.toNat)
  | locationOffset offset => .view fun p => (p.record.locationOffset offset).map (.number ·.toNat)
  | allSizes => return .sizes (← SlotPage.allSizes)

end FreeSpace.SlotPage
