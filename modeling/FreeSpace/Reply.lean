import FreeSpace.SlotPage.Search

/-!
# Replies

The values with which calls on records, pages and stores are answered.
-/

namespace FreeSpace

inductive Reply
  /-- The call was done and has nothing to tell. -/
  | done
  | number (n : Nat)
  | flag (b : Bool)
  | bytes (data : Array UInt8)
  | pageType (t : PageType)
  | row (row : Option UInt16)
  | location (l : Location)
  | search (s : SlotSearch)
  | sizes (sizes : List UInt32)
  deriving DecidableEq, Repr

end FreeSpace
