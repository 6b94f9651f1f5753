import FreeSpace.SlotPage.Call
import Mathlib.Data.Finset.Card
import Mathlib.Data.Finset.Range

/-!
# What the bytes of a slot page say

The header and the rows of a page are read here off the record alone, as total functions of it:
`rowCount` is the count in the header, `rowSize` the size of a row, `inUse` the set of rows whose
size is not 0.  A location may lie at any position, not only in a row.  `put` is a write that fits,
and one lemma for each field says what a write to another field leaves of it.
-/

namespace FreeSpace

namespace Location

def bytes (l : Location) : List UInt8 :=
  Bytes.digits 4 l.record.toNat ++ Bytes.digits 2 l.offset.toNat

@[simp] theorem length_bytes (l : Location) : l.bytes.length = 6 := by
  simp [bytes]

end Location

namespace Record

/-! ## Numbers in a record -/

/-- The number in the `width` bytes from `position` on. -/
def numberAt (r : Record) (position width : Nat) : Nat :=
  Bytes.value (r.data.extract position (position + width)).toList

/-- The record with these bytes from `position` on. -/
def put (r : Record) (position : Nat) (bytes : List UInt8) : Record :=
  ⟨r.id, Bytes.overlay r.data position bytes, true⟩

theorem field_eq_numberAt {r : Record} {position width : Nat} (h : position + width ≤ r.length) :
    r.field position width = .ok (r.numberAt position width) := by
  have hw : Bytes.window r.data position width =
      some (r.data.extract position (position + width)).toList := if_pos h
  unfold field numberAt
  rw [hw]

theorem run_write_eq_put {r : Record} {position : Nat} {bytes : List UInt8}
    (h : position + bytes.length ≤ r.length) :
    (write position bytes).run r = ⟨.ok (), r.put position bytes, []⟩ :=
  run_write_of_le h

theorem run_write16 {r : Record} {position : Nat} (h : position + 2 ≤ r.length) (value : UInt16) :
    (write16 position value).run r = ⟨.ok (), r.put position (Bytes.digits 2 value.toNat), []⟩ :=
  run_write_eq_put (by rwa [Bytes.length_digits])

theorem run_write32 {r : Record} {position : Nat} (h : position + 4 ≤ r.length) (value : UInt32) :
    (write32 position value).run r = ⟨.ok (), r.put position (Bytes.digits 4 value.toNat), []⟩ :=
  run_write_eq_put (by rwa [Bytes.length_digits])

@[simp] theorem length_put (r : Record) (position : Nat) (bytes : List UInt8) :
    (r.put position bytes).length = r.length :=
  Bytes.size_overlay ..

theorem field_put_of_disjoint {r : Record} {position other width : Nat} {bytes : List UInt8}
    (h : other + width ≤ position ∨ position + bytes.length ≤ other) :
    (r.put position bytes).field other width = r.field other width := by
  simp only [field, put, Bytes.window_overlay_of_disjoint h]

theorem numberAt_put {r : Record} {position width n : Nat} (h : position + width ≤ r.length)
    (hn : n < Bytes.span width) :
    (r.put position (Bytes.digits width n)).numberAt position width = n := by
  have hlen : position + (Bytes.digits width n).length ≤ r.length := by
    rwa [Bytes.length_digits]
  have hf := field_write h hn
  rw [run_write_eq_put hlen, field_eq_numberAt (by rwa [length_put])] at hf
  exact Except.ok.inj hf

theorem numberAt_put_of_disjoint {r : Record} {position other width : Nat} {bytes : List UInt8}
    (hin : other + width ≤ r.length)
    (h : other + width ≤ position ∨ position + bytes.length ≤ other) :
    (r.put position bytes).numberAt other width = r.numberAt other width := by
  have hf := field_put_of_disjoint (r := r) h
  rw [field_eq_numberAt (by rwa [length_put]), field_eq_numberAt hin] at hf
  exact Except.ok.inj hf

/-! ## A location at any position -/

/-- The location in the six bytes from `position` on, its parts read as big-endian numbers. -/
def locationAt (r : Record) (position : Nat) : Location :=
  ⟨.ofNat (r.numberAt position 4), .ofNat (r.numberAt (position + 4) 2)⟩

theorem put_append (r : Record) (position : Nat) (bs cs : List UInt8) :
    r.put position (bs ++ cs) = (r.put position bs).put (position + bs.length) cs := by
  simp [put, Bytes.overlay_append]

theorem put_bytes (r : Record) (position : Nat) (l : Location) :
    r.put position l.bytes = (r.put position (Bytes.digits 4 l.record.toNat)).put (position + 4)
      (Bytes.digits 2 l.offset.toNat) := by
  rw [Location.bytes, put_append, Bytes.length_digits]

theorem locationAt_put {r : Record} {i : Nat} (hi : i + 6 ≤ r.length) (l : Location) :
    (r.put i l.bytes).locationAt i = l := by
  have hrecord : l.record.toNat < Bytes.span 4 := l.record.toNat_lt
  have hoffset : l.offset.toNat < Bytes.span 2 := l.offset.toNat_lt
  unfold locationAt
  -- The record stands before the two bytes that are written last.
  rw [put_bytes, numberAt_put_of_disjoint (by rw [length_put]; omega) (by omega),
    numberAt_put (by omega) hrecord, numberAt_put (by rw [length_put]; omega) hoffset]
  simp

theorem locationAt_put_of_disjoint {r : Record} {i j : Nat} {bytes : List UInt8}
    (hj : j + 6 ≤ r.length) (h : j + 6 ≤ i ∨ i + bytes.length ≤ j) :
    (r.put i bytes).locationAt j = r.locationAt j := by
  unfold locationAt
  rw [numberAt_put_of_disjoint (by omega) (by omega),
    numberAt_put_of_disjoint (by omega) (by omega)]

-- In a record that 16-bit offsets can address, the second field of a location has an offset too.
theorem add16_four_of_le {length : Nat} {offset : UInt16} (hlen : length ≤ maxLength)
    (hin : offset.toNat + 6 ≤ length) :
    Word.add16 offset 4 = .ok (offset + 4) ∧ (offset + 4).toNat = offset.toNat + 4 := by
  have hlt : offset.toNat + (4 : UInt16).toNat < UInt16.size := by
    change length ≤ 65535 at hlen
    show offset.toNat + 4 < 65536
    omega
  exact ⟨Word.add16_of_lt hlt, by rw [UInt16.toNat_add, Nat.mod_eq_of_lt hlt]; rfl⟩

theorem run_writeLocation_of_le {r : Record} {offset : UInt16} (hlen : r.length ≤ maxLength)
    (hin : offset.toNat + 6 ≤ r.length) (l : Location) :
    (writeLocation offset l).run r = ⟨.ok (), r.put offset.toNat l.bytes, []⟩ := by
  obtain ⟨hadd, hnext⟩ := add16_four_of_le hlen hin
  have hfst := run_write32 (show offset.toNat + 4 ≤ r.length by omega) l.record
  have hin' : offset.toNat + 4 + 2 ≤
      (r.put offset.toNat (Bytes.digits 4 l.record.toNat)).length := by
    rwa [length_put]
  have hsnd := run_write16 hin' l.offset
  unfold writeLocation
  rw [Action.run_bind_silent hfst, hadd, Action.run_bind_silent (Action.run_lift ..), hnext, hsnd,
    put_bytes]

theorem locationRecord_of_le {r : Record} {offset : UInt16} (hin : offset.toNat + 6 ≤ r.length) :
    r.locationRecord offset = .ok (r.locationAt offset.toNat).record := by
  unfold locationRecord read32
  rw [field_eq_numberAt (by omega)]
  rfl

theorem locationOffset_of_le {r : Record} {offset : UInt16} (hlen : r.length ≤ maxLength)
    (hin : offset.toNat + 6 ≤ r.length) :
    r.locationOffset offset = .ok (r.locationAt offset.toNat).offset := by
  obtain ⟨hadd, hnext⟩ := add16_four_of_le hlen hin
  unfold locationOffset read16
  rw [hadd]
  show Except.map _ (r.field (offset + 4).toNat 2) = _
  rw [hnext, field_eq_numberAt (by omega)]
  rfl

end Record

namespace SlotPage

/-! ## Rows within a record -/

/-- Where a row starts. -/
def rowStart (row : Nat) : Nat :=
  layout.base.toNat + row * layout.stride.toNat

theorem rowStart_eq (row : Nat) : rowStart row = 4 + row * 10 := rfl

-- A row of a record ends inside it.
theorem rowStart_add_le {row length : Nat} (h : row < rowsIn length) :
    rowStart row + 10 ≤ length := by
  change row < (length - 4) / 10 at h
  rw [rowStart_eq]
  omega

theorem toNat_rowStart {row length : Nat} (hlen : length ≤ Record.maxLength)
    (h : row < rowsIn length) : (UInt16.ofNat (rowStart row)).toNat = rowStart row := by
  have hend := rowStart_add_le h
  apply UInt16.toNat_ofNat_of_lt'
  change length ≤ 65535 at hlen
  change rowStart row < 65536
  omega

theorem rowsIn_lt {length : Nat} (h : length ≤ Record.maxLength) : rowsIn length < 65536 := by
  change length ≤ 65535 at h
  change (length - 4) / 10 < 65536
  omega

end SlotPage

namespace Record

open SlotPage (rowStart rowStart_eq rowStart_add_le rowsIn)

/-- The size of a row as the record has it. -/
def rowSize (r : Record) (row : Nat) : UInt32 :=
  .ofNat (r.numberAt (rowStart row + Location.width) SlotPage.sizeWidth)

/-- The location of a row as the record has it. -/
def rowLocation (r : Record) (row : Nat) : Location :=
  ⟨.ofNat (r.numberAt (rowStart row) 4), .ofNat (r.numberAt (rowStart row + 4) 2)⟩

-- At the start of a row its location is found.
theorem location_of_start {r : Record} (hlen : r.length ≤ maxLength) {row : Nat}
    (hrow : row < rowsIn r.length) {offset : UInt16} (hstart : offset.toNat = rowStart row) :
    r.locationRecord offset = .ok (r.rowLocation row).record ∧
      r.locationOffset offset = .ok (r.rowLocation row).offset := by
  have hend := rowStart_add_le hrow
  have hin : offset.toNat + 6 ≤ r.length := by omega
  rw [locationRecord_of_le hin, locationOffset_of_le hlen hin, hstart]
  exact ⟨rfl, rfl⟩

/-- The number of rows in use, as the header has it. -/
def rowCount (r : Record) : UInt16 :=
  .ofNat (r.numberAt SlotPage.countPosition 2)

/-- The rows whose size is not 0. -/
def inUse (r : Record) : Finset Nat :=
  (Finset.range (rowsIn r.length)).filter fun row => r.rowSize row ≠ 0

theorem mem_inUse {r : Record} {row : Nat} :
    row ∈ r.inUse ↔ row < rowsIn r.length ∧ r.rowSize row ≠ 0 := by
  rw [inUse, Finset.mem_filter, Finset.mem_range]

-- With a vacant row there are fewer rows in use than rows.
theorem card_inUse_lt {r : Record} {row : Nat} (hrow : row < rowsIn r.length)
    (h : r.rowSize row = 0) : r.inUse.card < rowsIn r.length := by
  -- The vacant row is the one that the rows in use lack.
  have hsub : r.inUse ⊂ Finset.range (rowsIn r.length) := by
    refine Finset.filter_ssubset.mpr ⟨row, Finset.mem_range.mpr hrow, ?_⟩
    simp only [h, ne_eq, not_true_eq_false, not_false_eq_true]
  have hc := Finset.card_lt_card hsub
  rwa [Finset.card_range] at hc

/-! ## Writes to one field -/

def putSize (r : Record) (row : Nat) (size : UInt32) : Record :=
  r.put (rowStart row + Location.width) (Bytes.digits SlotPage.sizeWidth size.toNat)

/-- The location takes two writes, the record first. -/
def putLocation (r : Record) (row : Nat) (l : Location) : Record :=
  (r.put (rowStart row) (Bytes.digits 4 l.record.toNat)).put (rowStart row + 4)
    (Bytes.digits 2 l.offset.toNat)

def putCount (r : Record) (count : UInt16) : Record :=
  r.put SlotPage.countPosition (Bytes.digits 2 count.toNat)

@[simp] theorem length_putSize (r : Record) (row : Nat) (size : UInt32) :
    (r.putSize row size).length = r.length :=
  length_put ..

@[simp] theorem length_putLocation (r : Record) (row : Nat) (l : Location) :
    (r.putLocation row l).length = r.length := by
  rw [putLocation, length_put, length_put]

@[simp] theorem length_putCount (r : Record) (count : UInt16) :
    (r.putCount count).length = r.length :=
  length_put ..

-- A location at the start of a row is written whole.
theorem run_writeLocation {r : Record} (hlen : r.length ≤ maxLength) {row : Nat}
    (hrow : row < rowsIn r.length) {offset : UInt16} (hoff : offset.toNat = rowStart row)
    (l : Location) :
    (writeLocation offset l).run r = ⟨.ok (), r.putLocation row l, []⟩ := by
  have hend := rowStart_add_le hrow
  rw [run_writeLocation_of_le hlen (by omega), hoff, put_bytes]
  rfl

-- Bytes written outside the size of a row leave that size.
theorem rowSize_put_of_disjoint {r : Record} {position row : Nat} {bytes : List UInt8}
    (hrow : row < rowsIn r.length)
    (h : rowStart row + 10 ≤ position ∨ position + bytes.length ≤ rowStart row + 6) :
    (r.put position bytes).rowSize row = r.rowSize row := by
  have hend := rowStart_add_le hrow
  unfold rowSize
  rw [numberAt_put_of_disjoint]
  · change rowStart row + 6 + 4 ≤ r.length
    omega
  · change rowStart row + 6 + 4 ≤ position ∨ position + bytes.length ≤ rowStart row + 6
    omega

theorem rowSize_putSize {r : Record} {row other : Nat} {size : UInt32}
    (hrow : row < rowsIn r.length) (hother : other < rowsIn r.length) :
    (r.putSize row size).rowSize other = if other = row then size else r.rowSize other := by
  have hend := rowStart_add_le hrow
  split
  · rename_i he
    subst he
    have hlt : size.toNat < Bytes.span SlotPage.sizeWidth := size.toNat_lt
    have hin : rowStart other + Location.width + SlotPage.sizeWidth ≤ r.length := hend
    unfold rowSize putSize
    rw [numberAt_put hin hlt, UInt32.ofNat_toNat]
  · rename_i hne
    -- Rows are ten bytes each, so different rows do not meet.
    have ho := rowStart_eq other
    have hr := rowStart_eq row
    apply rowSize_put_of_disjoint hother
    rw [Bytes.length_digits]
    change rowStart other + 10 ≤ rowStart row + 6 ∨ rowStart row + 6 + 4 ≤ rowStart other + 6
    omega

theorem rowSize_putLocation {r : Record} {row other : Nat} {l : Location}
    (hother : other < rowsIn r.length) :
    (r.putLocation row l).rowSize other = r.rowSize other := by
  have ho := rowStart_eq other
  have hr := rowStart_eq row
  unfold putLocation
  -- Both parts of the location stand before the size of their own row.
  rw [rowSize_put_of_disjoint, rowSize_put_of_disjoint hother]
  · rw [Bytes.length_digits]
    omega
  · rwa [length_put]
  · rw [Bytes.length_digits]
    omega

theorem rowSize_putCount {r : Record} {count : UInt16} {row : Nat} (hrow : row < rowsIn r.length) :
    (r.putCount count).rowSize row = r.rowSize row := by
  have hr := rowStart_eq row
  apply rowSize_put_of_disjoint hrow
  rw [Bytes.length_digits]
  change rowStart row + 10 ≤ 2 ∨ 2 + 2 ≤ rowStart row + 6
  omega

theorem rowSize_turned {r : Record} {row other : Nat} {size : UInt32} {count : UInt16}
    (hrow : row < rowsIn r.length) (hother : other < rowsIn r.length) :
    ((r.putSize row size).putCount count).rowSize other =
      if other = row then size else r.rowSize other := by
  rw [rowSize_putCount (by rwa [length_putSize]), rowSize_putSize hrow hother]

theorem rowSize_rewritten {r : Record} {row other : Nat} {size : UInt32} {l : Location}
    {count : UInt16} (hrow : row < rowsIn r.length) (hother : other < rowsIn r.length) :
    (((r.putSize row size).putLocation row l).putCount count).rowSize other =
      if other = row then size else r.rowSize other := by
  rw [rowSize_putCount (by rwa [length_putLocation, length_putSize]),
    rowSize_putLocation (by rwa [length_putSize]),
    rowSize_putSize hrow hother]

-- Bytes written behind the header leave the count.
theorem rowCount_put_of_le {r : Record} {position : Nat} {bytes : List UInt8}
    (hlen : 4 ≤ r.length) (h : 4 ≤ position) :
    (r.put position bytes).rowCount = r.rowCount := by
  have hin : SlotPage.countPosition + 2 ≤ r.length := hlen
  unfold rowCount
  rw [numberAt_put_of_disjoint hin (.inl h)]

theorem rowCount_putSize {r : Record} {row : Nat} {size : UInt32} (hrow : row < rowsIn r.length) :
    (r.putSize row size).rowCount = r.rowCount := by
  have hend := rowStart_add_le hrow
  have hr := rowStart_eq row
  apply rowCount_put_of_le (by omega)
  change 4 ≤ rowStart row + 6
  omega

theorem rowCount_putLocation {r : Record} {row : Nat} {l : Location}
    (hrow : row < rowsIn r.length) : (r.putLocation row l).rowCount = r.rowCount := by
  have hend := rowStart_add_le hrow
  have hr := rowStart_eq row
  unfold putLocation
  rw [rowCount_put_of_le _ (by omega), rowCount_put_of_le (by omega) (by omega)]
  rw [length_put]
  omega

theorem rowCount_putCount {r : Record} {count : UInt16} (h : 4 ≤ r.length) :
    (r.putCount count).rowCount = count := by
  have hlt : count.toNat < Bytes.span 2 := count.toNat_lt
  have hin : SlotPage.countPosition + 2 ≤ r.length := h
  unfold rowCount putCount
  rw [numberAt_put hin hlt, UInt16.ofNat_toNat]

-- Bytes written behind the tag leave the tag.
theorem tag_put_of_le {r : Record} {position : Nat} {bytes : List UInt8} (h : 2 ≤ position) :
    (r.put position bytes).tag = r.tag := by
  have hfield : (r.put position bytes).field tagPosition 2 = r.field tagPosition 2 :=
    field_put_of_disjoint (.inl h)
  unfold tag read16
  rw [hfield]

end Record

end FreeSpace
