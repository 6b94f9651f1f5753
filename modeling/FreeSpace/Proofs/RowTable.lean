import FreeSpace.Proofs.Opening
import FreeSpace.SlotPage.Call

/-!
# The table that a record is

The rows of a record, read as locations and sizes, are its table; the bytes of a row are its
location and its size written out (`window_row`).  A write to one field of a row changes that field
in the table and nothing else, and a write of the count leaves the table.
-/

namespace FreeSpace

/-- What a row says: where a byte range lies, and how long it is. -/
structure Row where
  location : Location
  size : UInt32
  deriving DecidableEq, Repr

namespace Row

/-- The row as it is when it has not been used, and when it has been released. -/
def blank : Row := ⟨⟨0, 0⟩, 0⟩

/-- The ten bytes of a row. -/
def bytes (w : Row) : List UInt8 :=
  Bytes.digits 4 w.location.record.toNat ++ Bytes.digits 2 w.location.offset.toNat ++
    Bytes.digits SlotPage.sizeWidth w.size.toNat

end Row

namespace Record

open SlotPage (rowStart rowStart_eq rowStart_add_le rowsIn)

variable {r : Record}

/-- What a row of the record says. -/
def row (r : Record) (i : Nat) : Row :=
  ⟨r.rowLocation i, r.rowSize i⟩

/-- The rows of the record in order. -/
def table (r : Record) : List Row :=
  (List.range (rowsIn r.length)).map r.row

@[simp] theorem length_table (r : Record) : r.table.length = rowsIn r.length := by
  simp [table]

theorem getElem?_table (r : Record) (i : Nat) :
    r.table[i]? = if i < rowsIn r.length then some (r.row i) else none := by
  rw [table, List.getElem?_map]
  by_cases hi : i < rowsIn r.length
  · rw [List.getElem?_range hi, if_pos hi, Option.map_some]
  · rw [if_neg hi, List.getElem?_eq_none (by simpa using hi), Option.map_none]

theorem table_congr {r' : Record} (hlen : r'.length = r.length)
    (h : ∀ i < rowsIn r.length, r'.row i = r.row i) : r'.table = r.table := by
  unfold table
  rw [hlen]
  exact List.map_congr_left fun i hi => h i (List.mem_range.mp hi)

/-! ## A row is its bytes -/

theorem digits_numberAt {position width : Nat} (h : position + width ≤ r.length) :
    Bytes.digits width (r.numberAt position width) =
      (r.data.extract position (position + width)).toList := by
  have hlen : (r.data.extract position (position + width)).toList.length = width := by
    change position + width ≤ r.data.size at h
    simp only [Array.length_toList, Array.size_extract]
    omega
  have hdigits := Bytes.digits_value (r.data.extract position (position + width)).toList
  rwa [hlen] at hdigits

theorem numberAt_lt (r : Record) (position width : Nat) :
    r.numberAt position width < Bytes.span width := by
  refine Nat.lt_of_lt_of_le (Bytes.value_lt _) (Bytes.span_le_span ?_)
  simp only [Array.length_toList, Array.size_extract]
  omega

theorem toList_extract_append {data : Array UInt8} {i j k : Nat} (hij : i ≤ j) (hjk : j ≤ k) :
    (data.extract i j).toList ++ (data.extract j k).toList = (data.extract i k).toList := by
  rw [← Array.toList_append, Array.extract_append_extract, Nat.min_eq_left hij,
    Nat.max_eq_right hjk]

theorem window_count (h : 4 ≤ r.length) :
    Bytes.window r.data SlotPage.countPosition 2 = some (Bytes.digits 2 r.rowCount.toNat) := by
  have hcount := numberAt_lt r SlotPage.countPosition 2
  unfold rowCount
  rw [UInt16.toNat_ofNat_of_lt' hcount, digits_numberAt h]
  exact if_pos h

/-- The bytes of a row write out what it says. -/
theorem window_row {i : Nat} (hi : i < rowsIn r.length) :
    Bytes.window r.data (rowStart i) 10 = some (r.row i).bytes := by
  have hend := rowStart_add_le hi
  have hrecord := numberAt_lt r (rowStart i) 4
  have hoffset := numberAt_lt r (rowStart i + 4) 2
  have hsize := numberAt_lt r (rowStart i + Location.width) SlotPage.sizeWidth
  -- Each field is a word of its width, so nothing is lost by reading it as one.
  have hbytes : (r.row i).bytes =
      Bytes.digits 4 (r.numberAt (rowStart i) 4) ++
        Bytes.digits 2 (r.numberAt (rowStart i + 4) 2) ++
        Bytes.digits 4 (r.numberAt (rowStart i + 6) 4) := by
    unfold Row.bytes row rowLocation rowSize
    dsimp only
    rw [UInt32.toNat_ofNat_of_lt' hrecord, UInt16.toNat_ofNat_of_lt' hoffset,
      UInt32.toNat_ofNat_of_lt' hsize]
    rfl
  rw [hbytes, digits_numberAt (by omega), digits_numberAt (by omega), digits_numberAt (by omega),
    toList_extract_append (by omega) (by omega), toList_extract_append (by omega) (by omega)]
  exact if_pos hend

/-- The count, the rows and the bytes outside them are all the bytes of a page's record. -/
theorem data_ext {r' : Record} (hl : 4 ≤ r.length) (hlen : r'.length = r.length)
    (hcount : r'.rowCount = r.rowCount)
    (hrows : ∀ i < rowsIn r.length,
      Bytes.window r'.data (rowStart i) 10 = Bytes.window r.data (rowStart i) 10)
    (hout : ∀ i, i < 2 ∨ rowStart (rowsIn r.length) ≤ i → r'.data[i]? = r.data[i]?) :
    r'.data = r.data := by
  -- The same bytes in the same place read the same.
  have hrun : ∀ {position width : Nat} {bs : List UInt8} {i : Nat},
      Bytes.window r'.data position width = some bs → Bytes.window r.data position width = some bs →
      position ≤ i → i < position + width → r'.data[i]? = r.data[i]? := by
    intro position width bs i hw' hw hle hlt
    have hb' := Bytes.getElem?_of_window hw' (i - position)
    have hb := Bytes.getElem?_of_window hw (i - position)
    rw [if_pos (by omega), Nat.add_sub_cancel' hle] at hb' hb
    rw [← hb', ← hb]
  apply Array.ext_getElem?
  intro i
  by_cases hi : i < 2 ∨ rowStart (rowsIn r.length) ≤ i
  · exact hout i hi
  · have hn := rowStart_eq (rowsIn r.length)
    by_cases h4 : i < 4
    · have hw' := window_count (r := r') (by rwa [hlen])
      rw [hcount] at hw'
      exact hrun hw' (window_count hl) (show 2 ≤ i by omega) (show i < 2 + 2 by omega)
    · -- The byte lies in a row.
      have hs := rowStart_eq ((i - 4) / 10)
      have hrow : (i - 4) / 10 < rowsIn r.length := by omega
      have hw := window_row hrow
      exact hrun ((hrows _ hrow).trans hw) hw (by omega) (by omega)

/-! ## Writes to one field -/

theorem id_put (r : Record) (position : Nat) (bytes : List UInt8) :
    (r.put position bytes).id = r.id := rfl

/-- Bytes outside the run that is written stay. -/
theorem getElem?_put_of_outside {position i : Nat} {bytes : List UInt8}
    (h : i < position ∨ position + bytes.length ≤ i) :
    (r.put position bytes).data[i]? = r.data[i]? := by
  unfold put
  rw [Bytes.getElem?_overlay, if_neg (by omega)]

theorem getElem?_put_of_inside {position i : Nat} {bytes : List UInt8}
    (hin : position + bytes.length ≤ r.length) (hlow : position ≤ i)
    (hhigh : i < position + bytes.length) :
    (r.put position bytes).data[i]? = bytes[i - position]? := by
  change position + bytes.length ≤ r.data.size at hin
  unfold put
  rw [Bytes.getElem?_overlay, if_pos (by omega)]

theorem rowLocation_put_of_disjoint {position i : Nat} {bytes : List UInt8}
    (hi : i < rowsIn r.length)
    (h : rowStart i + 6 ≤ position ∨ position + bytes.length ≤ rowStart i) :
    (r.put position bytes).rowLocation i = r.rowLocation i := by
  have hend := rowStart_add_le hi
  exact locationAt_put_of_disjoint (by omega) h

theorem rowLocation_putSize {i j : Nat} {size : UInt32} (hj : j < rowsIn r.length) :
    (r.putSize i size).rowLocation j = r.rowLocation j := by
  have hs := rowStart_eq i
  have ht := rowStart_eq j
  apply rowLocation_put_of_disjoint hj
  rw [Bytes.length_digits]
  change rowStart j + 6 ≤ rowStart i + 6 ∨ rowStart i + 6 + 4 ≤ rowStart j
  omega

theorem rowLocation_putCount {j : Nat} {count : UInt16} (hj : j < rowsIn r.length) :
    (r.putCount count).rowLocation j = r.rowLocation j := by
  have ht := rowStart_eq j
  apply rowLocation_put_of_disjoint hj
  rw [Bytes.length_digits]
  change rowStart j + 6 ≤ 2 ∨ 2 + 2 ≤ rowStart j
  omega

theorem rowLocation_putLocation {i j : Nat} {l : Location} (hi : i < rowsIn r.length)
    (hj : j < rowsIn r.length) :
    (r.putLocation i l).rowLocation j = if j = i then l else r.rowLocation j := by
  have hend := rowStart_add_le hi
  unfold putLocation
  rw [← put_bytes]
  split
  · rename_i he
    subst he
    exact locationAt_put (by omega) l
  · rename_i hne
    have hs := rowStart_eq i
    have ht := rowStart_eq j
    apply rowLocation_put_of_disjoint hj
    rw [Location.length_bytes]
    omega

/-! ## What a write does to the table -/

theorem row_putCount {j : Nat} {count : UInt16} (hj : j < rowsIn r.length) :
    (r.putCount count).row j = r.row j := by
  unfold row
  rw [rowLocation_putCount hj, rowSize_putCount hj]

theorem row_putSize {i j : Nat} {size : UInt32} (hi : i < rowsIn r.length)
    (hj : j < rowsIn r.length) :
    (r.putSize i size).row j = if j = i then { r.row i with size := size } else r.row j := by
  unfold row
  rw [rowLocation_putSize hj, rowSize_putSize hi hj]
  split
  · rename_i he
    rw [he]
  · rfl

theorem row_putLocation {i j : Nat} {l : Location} (hi : i < rowsIn r.length)
    (hj : j < rowsIn r.length) :
    (r.putLocation i l).row j = if j = i then { r.row i with location := l } else r.row j := by
  unfold row
  rw [rowLocation_putLocation hi hj, rowSize_putLocation hj]
  split
  · rename_i he
    rw [he]
  · rfl

theorem table_putCount (r : Record) (count : UInt16) : (r.putCount count).table = r.table :=
  table_congr (length_putCount ..) fun _ hi => row_putCount hi

-- A write that changes one row like this changes that entry.
theorem table_eq_modify {r' : Record} {i : Nat} {f : Row → Row} (hlen : r'.length = r.length)
    (h : ∀ j < rowsIn r.length, r'.row j = if j = i then f (r.row i) else r.row j) :
    r'.table = r.table.modify i f := by
  apply List.ext_getElem?
  intro j
  rw [getElem?_table, List.getElem?_modify, getElem?_table, hlen]
  by_cases hj : j < rowsIn r.length
  · rw [if_pos hj, if_pos hj, h j hj]
    by_cases he : j = i
    · simp [he]
    · simp [he, Ne.symm he]
  · simp [hj]

theorem table_putSize {i : Nat} (hi : i < rowsIn r.length) (size : UInt32) :
    (r.putSize i size).table = r.table.modify i fun w => { w with size := size } :=
  table_eq_modify (length_putSize ..) fun _ hj => row_putSize hi hj

theorem table_putLocation {i : Nat} (hi : i < rowsIn r.length) (l : Location) :
    (r.putLocation i l).table = r.table.modify i fun w => { w with location := l } :=
  table_eq_modify (length_putLocation ..) fun _ hj => row_putLocation hi hj

/-- A row rewritten whole is set, whatever it was. -/
theorem table_rewritten {i : Nat} (hi : i < rowsIn r.length) (l : Location) (size : UInt32)
    (count : UInt16) :
    (((r.putSize i size).putLocation i l).putCount count).table = r.table.set i ⟨l, size⟩ := by
  rw [table_putCount, table_putLocation (by rwa [length_putSize]), table_putSize hi]
  apply List.ext_getElem?
  intro j
  rw [List.getElem?_modify, List.getElem?_modify, List.getElem?_set]
  by_cases he : i = j
  · subst he
    have hlt : i < r.table.length := by rwa [length_table]
    rw [if_pos rfl, if_pos hlt, List.getElem?_eq_getElem hlt]
    simp
  · simp [he]

@[simp] theorem id_formatted (r : Record) : r.formatted.id = r.id := by
  rw [formatted, putCount, id_put, id_put]
  rfl

theorem table_formatted (r : Record) :
    r.formatted.table = List.replicate (rowsIn r.length) .blank := by
  have hblank : ∀ i < rowsIn r.length, r.formatted.row i = .blank := by
    intro i hi
    have hend := rowStart_add_le hi
    have hs := rowStart_eq i
    unfold row rowLocation
    rw [rowSize_formatted hi, numberAt_formatted (by omega) (by omega),
      numberAt_formatted (by omega) (by omega)]
    rfl
  apply List.ext_getElem?
  intro j
  rw [getElem?_table, length_formatted, List.getElem?_replicate]
  split
  · rename_i hj
    rw [hblank j hj]
  · rfl

end Record

end FreeSpace
