import FreeSpace.Action
import FreeSpace.Bytes
import FreeSpace.Checksum
import FreeSpace.Memory
import FreeSpace.Word

/-!
# Records

A record is a byte buffer of fixed length with an id, and it knows whether its bytes changed since
they were last written out.  What the bytes mean is left to the page that is laid over the record:
here they are 16-bit and 32-bit big-endian fields at any position.  A field that does not lie
inside the record is a fault, and a faulty write changes nothing.
-/

namespace FreeSpace

structure Record where
  /-- The record's place in its file. -/
  id : UInt64
  data : Array UInt8
  /-- The bytes changed since the record was made or last written out. -/
  dirty : Bool
  deriving DecidableEq, Repr

namespace Record

/-- The length of a record when the caller has no preference. -/
def defaultLength : Nat := 4096

/-- The longest record whose bytes 16-bit offsets can address. -/
def maxLength : Nat := 65535

/-- A clean record of these bytes. -/
def ofBytes (id : UInt64) (data : Array UInt8) : Record :=
  ⟨id, data, false⟩

/-- A clean record of zeros. -/
def zeroed (id : UInt64) (length : Nat) : Record :=
  ofBytes id (Array.replicate length 0)

/-- A clean record of zeros, if memory can hold one of this length. -/
def make (id : UInt64) (length : Nat) : Result Record := do
  Memory.require length
  return zeroed id length

def length (r : Record) : Nat :=
  r.data.size

def checksum (r : Record) : UInt32 :=
  FreeSpace.checksum r.data

/-- The value of the field of `width` bytes at `position`. -/
def field (r : Record) (position width : Nat) : Result Nat :=
  match Bytes.window r.data position width with
  | some bytes => .ok (Bytes.value bytes)
  | none => .error (.fault .outOfBounds)

def read16 (r : Record) (position : Nat) : Result UInt16 :=
  (r.field position 2).map .ofNat

def read32 (r : Record) (position : Nat) : Result UInt32 :=
  (r.field position 4).map .ofNat

/-- Writes bytes over those from `position` on. -/
def write (position : Nat) (bytes : List UInt8) : Action Record Unit where
  run r :=
    if position + bytes.length ≤ r.length then
      ⟨.ok (), { r with data := Bytes.overlay r.data position bytes, dirty := true }, []⟩
    else
      ⟨.error (.fault .outOfBounds), r, []⟩

def write16 (position : Nat) (value : UInt16) : Action Record Unit :=
  write position (Bytes.digits 2 value.toNat)

def write32 (position : Nat) (value : UInt32) : Action Record Unit :=
  write position (Bytes.digits 4 value.toNat)

/-- Makes every byte 0. -/
def clear : Action Record Unit :=
  .modify fun r => { r with data := Array.replicate r.length 0, dirty := true }

/-- The record now is as it was written out. -/
def markClean : Action Record Unit :=
  .modify fun r => { r with dirty := false }

/-! ## What a write does -/

theorem run_write_of_le {position : Nat} {bytes : List UInt8} {r : Record}
    (h : position + bytes.length ≤ r.length) :
    (write position bytes).run r =
      ⟨.ok (), ⟨r.id, Bytes.overlay r.data position bytes, true⟩, []⟩ :=
  if_pos h

/-- A write that does not fit changes nothing. -/
theorem run_write_of_lt {position : Nat} {bytes : List UInt8} {r : Record}
    (h : r.length < position + bytes.length) :
    (write position bytes).run r = ⟨.error (.fault .outOfBounds), r, []⟩ :=
  if_neg (Nat.not_le.mpr h)

theorem length_write (position : Nat) (bytes : List UInt8) (r : Record) :
    ((write position bytes).run r).state.length = r.length := by
  by_cases h : position + bytes.length ≤ r.length
  · rw [run_write_of_le h]
    exact Bytes.size_overlay ..
  · rw [run_write_of_lt (Nat.not_le.mp h)]

/-- A word written to a field is what the field holds. -/
theorem field_write {position width n : Nat} {r : Record} (h : position + width ≤ r.length)
    (hn : n < Bytes.span width) :
    ((write position (Bytes.digits width n)).run r).state.field position width = .ok n := by
  have hlen : position + (Bytes.digits width n).length ≤ r.length := by
    rwa [Bytes.length_digits]
  have hw := Bytes.window_overlay hlen
  rw [Bytes.length_digits] at hw
  rw [run_write_of_le hlen]
  simp only [field, hw, Bytes.value_digits, Nat.mod_eq_of_lt hn]

end Record

end FreeSpace
