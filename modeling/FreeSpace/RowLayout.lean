import FreeSpace.Location
import FreeSpace.Record

/-!
# Rows of locations

A row array lies in a record from a base offset on, its rows a fixed stride apart.  Every row
starts with a location: the record in four bytes, then the offset in two.  Rows and the offsets at
which they start are 16-bit words, so a row can lie past the last offset, and an offset before the
first row.
-/

namespace FreeSpace

/-- Where the rows of a record lie. -/
structure RowLayout where
  /-- The offset of row 0. -/
  base : UInt16
  /-- From the start of one row to the start of the next. -/
  stride : UInt16
  deriving DecidableEq, Repr

namespace RowLayout

/-- The offset at which a row starts. -/
def offsetOf (layout : RowLayout) (row : UInt16) : Result UInt16 :=
  let offset := row.toNat * layout.stride.toNat + layout.base.toNat
  if layout.stride.toNat < Location.width then .error (.fault .narrowRow)
  else if offset < UInt16.size then .ok (.ofNat offset)
  else .error (.fault (.unaddressableRow row))

/-- The row in which an offset lies. -/
def rowAt (layout : RowLayout) (offset : UInt16) : Result UInt16 :=
  if offset < layout.base then .error (.fault (.offsetBeforeRows offset))
  else if layout.stride = 0 then .error (.fault .emptyRow)
  else .ok ((offset - layout.base) / layout.stride)

/-! ## Where a row starts -/

variable {w : RowLayout} {row other : UInt16}

/-- Where a row starts, whether or not that is a word. -/
def start (w : RowLayout) (row : UInt16) : Nat :=
  row.toNat * w.stride.toNat + w.base.toNat

theorem toNat_ofNat_start (h : w.start row < UInt16.size) :
    (UInt16.ofNat (w.start row)).toNat = w.start row :=
  UInt16.toNat_ofNat_of_lt' h

theorem offsetOf_of_start_lt (hstride : Location.width ≤ w.stride.toNat)
    (h : w.start row < UInt16.size) : w.offsetOf row = .ok (.ofNat (w.start row)) := by
  unfold offsetOf
  simp only
  rw [if_neg (by omega)]
  exact if_pos h

theorem start_add_le_of_lt (w : RowLayout) (h : row < other) :
    w.start row + w.stride.toNat ≤ w.start other := by
  have hmul : (row.toNat + 1) * w.stride.toNat ≤ other.toNat * w.stride.toNat :=
    Nat.mul_le_mul_right _ (UInt16.lt_iff_toNat_lt.mp h)
  rw [Nat.succ_mul] at hmul
  unfold start
  omega

-- Rows that are wide enough for a location keep their locations apart.
theorem start_disjoint (hstride : Location.width ≤ w.stride.toNat) (hne : row ≠ other) :
    w.start row + 6 ≤ w.start other ∨ w.start other + 6 ≤ w.start row := by
  change 6 ≤ w.stride.toNat at hstride
  by_cases hlt : row < other
  · have hle := w.start_add_le_of_lt hlt
    omega
  · have hgt : other < row := UInt16.lt_of_le_of_ne (UInt16.not_lt.mp hlt) hne.symm
    have hle := w.start_add_le_of_lt hgt
    omega

end RowLayout

namespace Record

/-- The record of the location at an offset. -/
def locationRecord (r : Record) (offset : UInt16) : Result UInt32 :=
  r.read32 offset.toNat

/-- The offset of the location at an offset. -/
def locationOffset (r : Record) (offset : UInt16) : Result UInt16 := do
  r.read16 (← Word.add16 offset 4).toNat

/-- Writes a location at an offset: the record first, so it stays if the offset does not fit. -/
def writeLocation (offset : UInt16) (l : Location) : Action Record Unit := do
  write32 offset.toNat l.record
  write16 (← .lift (Word.add16 offset 4)).toNat l.offset

end Record

end FreeSpace
