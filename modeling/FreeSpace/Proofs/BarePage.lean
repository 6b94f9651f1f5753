import FreeSpace.Proofs.Opening

/-!
# Pages that keep no sizes

The calls of a slot page once more, as functions of its record alone: a size is decoded from the
bytes whenever it is asked for, so there is nothing that could differ from them.  A call gives its
answer and the record after it.
-/

namespace FreeSpace.BarePage

open SlotPage (Call Seen rowStart rowsIn)

/-! ## Rows -/

def capacity (r : Record) : UInt16 :=
  .ofNat (rowsIn r.length)

def wasteLimit (r : Record) : UInt32 :=
  .ofNat (r.length / 4)

def rows (r : Record) : List UInt16 :=
  (List.range (rowsIn r.length)).map .ofNat

def offsetOf (row : UInt16) (r : Record) : Result UInt16 :=
  if capacity r ≤ row then .error (.refused (.slotOutOfRange row (capacity r)))
  else .ok (.ofNat (rowStart row.toNat))

/-- The row in which an offset behind the header lies. -/
def rowOver (offset : UInt16) : Nat :=
  (offset.toNat - 4) / 10

def rowAt (offset : UInt16) (r : Record) : Result UInt16 :=
  if rowOver offset < rowsIn r.length ∧ offset.toNat = rowStart (rowOver offset) then
    .ok (.ofNat (rowOver offset))
  else .error (.refused (.invalidRowOffset offset))

theorem lt_of_not_capacity_le {r : Record} (h : r.IsSlotPage) {row : UInt16}
    (hc : ¬ capacity r ≤ row) : row.toNat < rowsIn r.length := by
  rw [← h.toNat_capacity]
  exact UInt16.lt_iff_toNat_lt.mp (UInt16.not_le.mp hc)

theorem lt_of_mem_rows {r : Record} (h : r.IsSlotPage) {row : UInt16} (hrow : row ∈ rows r) :
    row.toNat < rowsIn r.length := by
  obtain ⟨i, hi, rfl⟩ := List.mem_map.mp hrow
  have hi' := List.mem_range.mp hi
  rwa [UInt16.toNat_ofNat_of_lt' (h.rows_lt hi')]

theorem offsetOf_eq_ok {r : Record} (h : r.IsSlotPage) {row offset : UInt16}
    (ho : offsetOf row r = .ok offset) :
    row.toNat < rowsIn r.length ∧ offset.toNat = rowStart row.toNat := by
  unfold offsetOf at ho
  split at ho
  · exact absurd ho nofun
  · rename_i hc
    have hrow := lt_of_not_capacity_le h hc
    refine ⟨hrow, ?_⟩
    rw [← Except.ok.inj ho, SlotPage.toNat_rowStart h.greatest hrow]

theorem rowAt_eq_ok {r : Record} (h : r.IsSlotPage) {row offset : UInt16}
    (ho : rowAt offset r = .ok row) :
    row.toNat < rowsIn r.length ∧ offset.toNat = rowStart row.toNat := by
  unfold rowAt at ho
  split at ho
  · rename_i hin
    rw [← Except.ok.inj ho, UInt16.toNat_ofNat_of_lt' (h.rows_lt hin.1)]
    exact hin
  · exact absurd ho nofun

/-! ## The count -/

def countUp (row : UInt16) (r : Record) : Result UInt16 :=
  if capacity r ≤ r.rowCount then
    .error (.refused (.corruption (.countAtCapacity r.id r.rowCount (capacity r) row)))
  else .ok (r.rowCount + 1)

def countDown (row : UInt16) (r : Record) : Result UInt16 :=
  if r.rowCount = 0 then .error (.refused (.corruption (.countAtZero r.id row)))
  else .ok (r.rowCount - 1)

/-! ## Reading -/

def location (row : UInt16) (r : Record) : Result Location :=
  (offsetOf row r).map fun _ => r.rowLocation row.toNat

def sizeAt (offset : UInt16) (r : Record) : Result UInt32 :=
  (rowAt offset r).map fun row => r.rowSize row.toNat

def isInUse (row : UInt16) (r : Record) : Result Bool :=
  (offsetOf row r).map fun _ => r.rowSize row.toNat ≠ 0

def firstVacant (r : Record) : Option UInt16 :=
  (rows r).find? fun row => r.rowSize row.toNat = 0

def sizes (r : Record) : List UInt32 :=
  (rows r).map fun row => r.rowSize row.toNat

/-- The answer of a search that goes on with these rows and their sizes. -/
def searchSizes (request limit : UInt32) (seen : Seen) : List (UInt16 × UInt32) → SlotSearch
  | [] =>
      match seen.acceptable? limit with
      | some row => .found row
      | none => .exhausted seen.largest
  | (row, size) :: rest =>
      let seen := seen.addSize size
      if size = 0 ∨ size < request then searchSizes request limit seen rest
      else if size - request < SlotPage.optimalWaste then .found row
      else searchSizes request limit (seen.addCandidate row (size - request)) rest

def search (request : UInt32) (r : Record) : SlotSearch :=
  searchSizes request (wasteLimit r) .nothing
    ((rows r).map fun row => (row, r.rowSize row.toNat))

/-! ## Writing -/

/-- Goes on with what was found in the record; if that failed, the record stays as it is. -/
def andThen {α β : Type} (found : Result α) (r : Record) (f : α → Result β × Record) :
    Result β × Record :=
  match found with
  | .ok a => f a
  | .error e => (.error e, r)

/-- The record with a row of this location and size, and with this count. -/
def withRow (r : Record) (row : UInt16) (l : Location) (size : UInt32) (count : UInt16) : Record :=
  ((r.putSize row.toNat size).putLocation row.toNat l).putCount count

def claim (row : UInt16) (r : Record) : Result UInt16 × Record :=
  andThen (offsetOf row r) r fun offset =>
    if r.rowSize row.toNat ≠ 0 then (.error (.refused (.slotInUse row)), r)
    else andThen (countUp row r) r fun count => (.ok offset, withRow r row ⟨1, 1⟩ 1 count)

def release (row : UInt16) (r : Record) : Result UInt16 × Record :=
  andThen (offsetOf row r) r fun offset =>
    if r.rowSize row.toNat = 0 then (.error (.refused (.slotVacant row)), r)
    else andThen (countDown row r) r fun count => (.ok offset, withRow r row ⟨0, 0⟩ 0 count)

/-- The count after a change of size, if the row turns from vacant to in use or back. -/
def countFor (row : UInt16) (old new : UInt32) (r : Record) : Result (Option UInt16) :=
  if old = 0 ∧ new ≠ 0 then (countUp row r).map some
  else if old ≠ 0 ∧ new = 0 then (countDown row r).map some
  else .ok none

def resized (row : UInt16) (size : UInt32) (r : Record) : Option UInt16 → Record
  | none => r.putSize row.toNat size
  | some count => (r.putSize row.toNat size).putCount count

def setSizeAt (offset : UInt16) (size : UInt32) (r : Record) : Result Unit × Record :=
  andThen (rowAt offset r) r fun row =>
    andThen (countFor row (r.rowSize row.toNat) size r) r fun count =>
      (.ok (), resized row size r count)

/-! ## Calls and runs -/

/-- The call writes locations only where a row of a record of this length starts. -/
def AtRowStarts (length : Nat) : Call → Prop
  | .setLocation offset _ => ∃ row < rowsIn length, offset.toNat = rowStart row
  | _ => True

instance (length : Nat) : DecidablePred (AtRowStarts length)
  | .setLocation offset _ =>
      inferInstanceAs (Decidable (∃ row < rowsIn length, offset.toNat = rowStart row))
  | .capacity | .wasteLimit | .count | .firstVacant | .location _ | .isInUse _ | .sizeAt _
  | .setSizeAt .. | .claim _ | .release _ | .search _ | .locationRecord _ | .locationOffset _
  | .allSizes => isTrue trivial

/-- The answer to a call, and the record after it. -/
def respond : Call → Record → Result Reply × Record
  | .capacity, r => (.ok (.number (capacity r).toNat), r)
  | .wasteLimit, r => (.ok (.number (wasteLimit r).toNat), r)
  | .count, r => (.ok (.number r.rowCount.toNat), r)
  | .firstVacant, r => (.ok (.row (firstVacant r)), r)
  | .location row, r => ((location row r).map .location, r)
  | .isInUse row, r => ((isInUse row r).map .flag, r)
  | .sizeAt offset, r => ((sizeAt offset r).map (.number ·.toNat), r)
  | .setSizeAt offset size, r =>
      ((setSizeAt offset size r).1.map fun () => .done, (setSizeAt offset size r).2)
  | .claim row, r => ((claim row r).1.map (.number ·.toNat), (claim row r).2)
  | .release row, r => ((release row r).1.map (.number ·.toNat), (release row r).2)
  | .search request, r => (.ok (.search (search request r)), r)
  | .setLocation offset l, r =>
      let o := (Record.writeLocation offset l).run r
      (o.result.map fun () => .done, o.state)
  | .locationRecord offset, r => ((r.locationRecord offset).map (.number ·.toNat), r)
  | .locationOffset offset, r => ((r.locationOffset offset).map (.number ·.toNat), r)
  | .allSizes, r => (.ok (.sizes (sizes r)), r)

/-- What is seen of a step: the answer to a call and the record after it, or that the page is
lost. -/
inductive Sight
  | answered (answer : Result Reply) (record : Record)
  | lost (reason : Failure)

def observe : List Call → Record → List Sight
  | [], _ => []
  | c :: rest, r => .answered (respond c r).1 (respond c r).2 :: observe rest (respond c r).2

end FreeSpace.BarePage
