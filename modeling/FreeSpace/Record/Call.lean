import FreeSpace.Record.Header
import FreeSpace.Reply

/-!
# Calls on records

What can be asked of a record, split by what it needs: a `Query` only looks at the record, also
while a page owns it, and an `Edit` changes it.
-/

namespace FreeSpace.Record

inductive Query
  | id
  | length
  | bytes
  | checksum
  | isDirty
  | read16 (position : Nat)
  | read32 (position : Nat)
  | tag
  | pageType
  | requireType (expected : PageType)
  deriving DecidableEq, Repr

def Query.answer (r : Record) : Query → Result Reply
  | id => .ok (.number r.id.toNat)
  | length => .ok (.number r.length)
  | bytes => .ok (.bytes r.data)
  | checksum => .ok (.number r.checksum.toNat)
  | isDirty => .ok (.flag r.dirty)
  | read16 position => (r.read16 position).map (.number ·.toNat)
  | read32 position => (r.read32 position).map (.number ·.toNat)
  | tag => r.tag.map (.number ·.toNat)
  | pageType => r.pageType.map .pageType
  | requireType expected => (r.requireType expected).map fun () => .done

inductive Edit
  | write16 (position : Nat) (value : UInt16)
  | write32 (position : Nat) (value : UInt32)
  | clear
  | markClean
  | writeLocation (offset : UInt16) (l : Location)
  | stamp (t : PageType)
  deriving DecidableEq, Repr

def Edit.action : Edit → Action Record Unit
  | write16 position value => Record.write16 position value
  | write32 position value => Record.write32 position value
  | clear => Record.clear
  | markClean => Record.markClean
  | writeLocation offset l => Record.writeLocation offset l
  | stamp t => Record.stamp t

end FreeSpace.Record
