import FreeSpace.Proofs.ReportedSizes
import FreeSpace.Proofs.TableRuns

/-!
# What a page has of a row

`Entry` is all that a page has of one row: what the record says of it, and the size that is kept.
`Counted` says that the count in the header is the number of rows that the page reports as in use.
A write to one row leaves the entries of the others (`Within`), and a count that moves with the row
stays right.  As with `Shaped`, the bytes may be any and the kept sizes may be others.
-/

namespace FreeSpace.SlotPage

open BarePage (Outside)

variable {n : Nat} {p q : SlotPage}

structure Entry where
  row : Row
  /-- The size that the page keeps for the row. -/
  kept : Option UInt32
  deriving DecidableEq, Repr

/-- The size that the page reports. -/
def Entry.size (e : Entry) : UInt32 :=
  e.kept.getD e.row.size

def entry (p : SlotPage) (i : Nat) : Entry :=
  ⟨p.record.row i, p.kept? i⟩

theorem size_entry (p : SlotPage) (i : Nat) : (p.entry i).size = p.reported i := rfl

theorem entry_mk (r : Record) (sizes : Array (Option UInt32)) (i : Nat) :
    (SlotPage.mk r sizes).entry i = ⟨r.row i, sizes[i]?.join⟩ := rfl

/-! ## The count -/

/-- The rows that the page reports as in use. -/
def occupied (p : SlotPage) : Finset Nat :=
  (Finset.range (rowsIn p.record.length)).filter fun i => p.reported i ≠ 0

/-- The count in the header is the number of rows in use. -/
def Counted (p : SlotPage) : Prop :=
  p.record.rowCount.toNat = p.occupied.card

theorem Sound.reported_eq (h : Sound p) (i : Nat) : p.reported i = p.record.rowSize i := by
  unfold reported
  cases hk : p.kept? i with
  | none => rfl
  | some size =>
    have hsome : p.sizes[i]? = some (some size) := Option.join_eq_some_iff.mp hk
    exact h.kept i size hsome

theorem Sound.counted_iff (h : Sound p) : Counted p ↔ p.record.drift = 0 := by
  have hsame : p.occupied = p.record.inUse := by
    unfold occupied Record.inUse
    simp only [h.reported_eq]
  unfold Counted Record.drift
  rw [hsame]
  omega

theorem Unmoved.counted (h : Unmoved p q) (hc : Counted p) : Counted q := by
  unfold Counted occupied at hc ⊢
  simp only [h.record, h.reported]
  exact hc

theorem Shaped.count_eq (h : Shaped n p) : p.count = .ok p.record.rowCount := by
  have hl : countPosition + 2 ≤ p.record.length := by
    rw [h.length_eq]
    exact h.least
  unfold count Record.read16
  rw [Record.field_eq_numberAt hl]
  rfl

theorem Shaped.countUp_eq (h : Shaped n p) (row : UInt16) :
    p.countUp row =
      if p.capacity ≤ p.record.rowCount then
        .error (.refused
          (.corruption (.countAtCapacity p.record.id p.record.rowCount p.capacity row)))
      else .ok (p.record.rowCount + 1) := by
  unfold countUp
  rw [h.count_eq, Result.ok_bind]
  split
  · rfl
  · rename_i hroom
    have hlt := UInt16.lt_iff_toNat_lt.mp (UInt16.not_le.mp hroom)
    have hcap := p.capacity.toNat_lt
    apply Word.add16_of_lt
    change p.record.rowCount.toNat + 1 < 65536
    omega

theorem Shaped.countDown_eq (h : Shaped n p) (row : UInt16) :
    p.countDown row =
      if p.record.rowCount = 0 then
        .error (.refused (.corruption (.countAtZero p.record.id row)))
      else .ok (p.record.rowCount - 1) := by
  unfold countDown
  rw [h.count_eq]
  rfl

-- With a vacant row a right count is below the capacity.
theorem Counted.countUp (hc : Counted p) (h : Shaped n p) {row : UInt16}
    (hrow : row.toNat < rowsIn n) (hvacant : p.reported row.toNat = 0) :
    p.countUp row = .ok (p.record.rowCount + 1) ∧
      (p.record.rowCount + 1).toNat = p.record.rowCount.toNat + 1 := by
  have hlt : p.occupied.card < rowsIn n := by
    have hsub : p.occupied ⊂ Finset.range (rowsIn n) := by
      unfold occupied
      rw [h.length_eq]
      exact Finset.filter_ssubset.mpr ⟨row.toNat, Finset.mem_range.mpr hrow, not_not.mpr hvacant⟩
    have hcard := Finset.card_lt_card hsub
    rwa [Finset.card_range] at hcard
  have hcap := h.toNat_capacity
  have hrows := rowsIn_lt h.greatest
  have hcount : p.record.rowCount.toNat = p.occupied.card := hc
  have hroom : ¬ p.capacity ≤ p.record.rowCount := by
    rw [UInt16.le_iff_toNat_le]
    omega
  exact ⟨(h.countUp_eq row).trans (if_neg hroom), Word.toNat_add_one (by omega)⟩

-- With a row in use a right count is not 0.
theorem Counted.countDown (hc : Counted p) (h : Shaped n p) {row : UInt16}
    (hrow : row.toNat < rowsIn n) (hused : p.reported row.toNat ≠ 0) :
    p.countDown row = .ok (p.record.rowCount - 1) ∧
      (p.record.rowCount - 1).toNat + 1 = p.record.rowCount.toNat := by
  have hpos : 0 < p.occupied.card := by
    refine Finset.card_pos.mpr ⟨row.toNat, Finset.mem_filter.mpr ⟨?_, hused⟩⟩
    rwa [Finset.mem_range, h.length_eq]
  have hcount : p.record.rowCount.toNat = p.occupied.card := hc
  have hne : p.record.rowCount ≠ 0 := by
    intro hz
    rw [hz] at hcount
    change 0 = _ at hcount
    omega
  exact ⟨(h.countDown_eq row).trans (if_neg hne), Word.toNat_sub_one hne⟩

/-! ## One row and the count -/

/-- The second page is the first but for row `i`, the count, and whether it is dirty. -/
structure Within (i : Nat) (p q : SlotPage) : Prop where
  id_eq : q.record.id = p.record.id
  length_eq : q.record.length = p.record.length
  size_sizes : q.sizes.size = p.sizes.size
  entry : ∀ j < rowsIn p.record.length, j ≠ i → q.entry j = p.entry j
  outside : ∀ k, Outside p.record k → q.record.data[k]? = p.record.data[k]?

namespace Within

variable {i : Nat} {s : SlotPage}

theorem of_parts {r : Record} {sizes : Array (Option UInt32)} (hid : r.id = p.record.id)
    (hlen : r.length = p.record.length) (hsizes : sizes.size = p.sizes.size)
    (hentry : ∀ j < rowsIn p.record.length, j ≠ i → (SlotPage.mk r sizes).entry j = p.entry j)
    (hout : ∀ k, Outside p.record k → r.data[k]? = p.record.data[k]?) : Within i p ⟨r, sizes⟩ :=
  ⟨hid, hlen, hsizes, hentry, hout⟩

theorem trans (h : Within i p q) (h' : Within i q s) : Within i p s where
  id_eq := h'.id_eq.trans h.id_eq
  length_eq := h'.length_eq.trans h.length_eq
  size_sizes := h'.size_sizes.trans h.size_sizes
  entry j hj hne := (h'.entry j (by rwa [h.length_eq]) hne).trans (h.entry j hj hne)
  outside k hk :=
    (h'.outside k ((BarePage.outside_congr h.length_eq).mpr hk)).trans (h.outside k hk)

theorem shaped (h : Within i p q) (hp : Shaped n p) : Shaped n q where
  least := hp.least
  greatest := hp.greatest
  length_eq := h.length_eq.trans hp.length_eq
  size_sizes := h.size_sizes.trans hp.size_sizes

/-- A count that follows the row stays right. -/
theorem counted (h : Within i p q) (hc : Counted p) (hi : i < rowsIn p.record.length)
    (hcount : q.record.rowCount.toNat + (if p.reported i = 0 then 0 else 1) =
      p.record.rowCount.toNat + (if q.reported i = 0 then 0 else 1)) : Counted q := by
  have hcard := Record.card_sizes_add hi (f := p.reported) (g := q.reported)
    fun j hj hne => congrArg Entry.size (h.entry j hj hne)
  unfold Counted occupied at hc ⊢
  rw [h.length_eq]
  omega

end Within

/-! ## Single writes -/

/-- The page with this size for a row, in the record and kept. -/
def putSize (p : SlotPage) (i : Nat) (size : UInt32) : SlotPage :=
  ⟨p.record.putSize i size, p.sizes.setIfInBounds i (some size)⟩

def putLocation (p : SlotPage) (i : Nat) (l : Location) : SlotPage :=
  ⟨p.record.putLocation i l, p.sizes⟩

def putCount (p : SlotPage) (count : UInt16) : SlotPage :=
  ⟨p.record.putCount count, p.sizes⟩

section

variable {i : Nat} {row offset : UInt16}

theorem entry_keep (h : Shaped n p) (hi : i < rowsIn n) (size : UInt32) (j : Nat) :
    (p.keep i size).entry j = if j = i then ⟨p.record.row i, some size⟩ else p.entry j := by
  unfold entry
  rw [kept?_keep h hi]
  split
  · rename_i he
    rw [he]
    rfl
  · rfl

theorem within_keep (h : Shaped n p) (hi : i < rowsIn n) (size : UInt32) :
    Within i p (p.keep i size) := by
  refine .of_parts rfl rfl Array.size_setIfInBounds (fun j _ hne => ?_) fun _ _ => rfl
  exact (entry_keep h hi size j).trans (if_neg hne)

theorem entry_putSize (h : Shaped n p) (hi : i < rowsIn n) (size : UInt32) {j : Nat}
    (hj : j < rowsIn n) :
    (p.putSize i size).entry j =
      if j = i then ⟨⟨p.record.rowLocation i, size⟩, some size⟩ else p.entry j := by
  have hrow : (p.record.putSize i size).row j = _ :=
    Record.row_putSize (by rwa [h.length_eq]) (by rwa [h.length_eq])
  have hkept := kept?_keep h hi size j
  unfold kept? keep at hkept
  unfold putSize
  rw [entry_mk, hrow, hkept]
  split <;> rfl

theorem within_putSize (h : Shaped n p) (hi : i < rowsIn n) (size : UInt32) :
    Within i p (p.putSize i size) := by
  refine .of_parts (Record.id_put ..) (Record.length_putSize ..) Array.size_setIfInBounds
    (fun j hj hne => ?_) fun k hk => ?_
  · rw [h.length_eq] at hj
    exact (entry_putSize h hi size hj).trans (if_neg hne)
  · exact BarePage.getElem?_putSize_of_outside (by rwa [h.length_eq]) hk size

theorem entry_putLocation (h : Shaped n p) (hi : i < rowsIn n) (l : Location) {j : Nat}
    (hj : j < rowsIn n) :
    (p.putLocation i l).entry j =
      if j = i then ⟨⟨l, p.record.rowSize i⟩, p.kept? i⟩ else p.entry j := by
  have hrow : (p.record.putLocation i l).row j = _ :=
    Record.row_putLocation (by rwa [h.length_eq]) (by rwa [h.length_eq])
  unfold putLocation
  rw [entry_mk, hrow]
  split
  · rename_i he
    rw [he]
    rfl
  · rfl

theorem within_putLocation (h : Shaped n p) (hi : i < rowsIn n) (l : Location) :
    Within i p (p.putLocation i l) := by
  refine .of_parts ((Record.id_put ..).trans (Record.id_put ..)) (Record.length_putLocation ..) rfl
    (fun j hj hne => ?_) fun k hk => ?_
  · rw [h.length_eq] at hj
    exact (entry_putLocation h hi l hj).trans (if_neg hne)
  · exact BarePage.getElem?_putLocation_of_outside (by rwa [h.length_eq]) hk l

theorem entry_putCount (h : Shaped n p) (count : UInt16) {j : Nat} (hj : j < rowsIn n) :
    (p.putCount count).entry j = p.entry j := by
  unfold putCount
  rw [entry_mk, Record.row_putCount (by rwa [h.length_eq])]
  rfl

theorem within_putCount (h : Shaped n p) (i : Nat) (count : UInt16) :
    Within i p (p.putCount count) := by
  refine .of_parts (Record.id_put ..) (Record.length_putCount ..) rfl (fun j hj _ => ?_)
    fun k hk => BarePage.getElem?_putCount_of_outside hk count
  exact entry_putCount h count (by rwa [h.length_eq] at hj)

theorem run_writeSize (h : Shaped n p) (hrow : row.toNat < rowsIn n) (size : UInt32) :
    (writeSize row size).run p = ⟨.ok (), p.putSize row.toNat size, []⟩ := by
  have hpos : (Action.lift (sizePosition row)).run p =
      ⟨.ok (rowStart row.toNat + Location.width), p, []⟩ := by
    rw [Action.run_lift, sizePosition_of_lt h.greatest hrow]
  have hin : rowStart row.toNat + Location.width + 4 ≤ p.record.length := by
    rw [h.length_eq]
    exact rowStart_add_le hrow
  have hwrite : (onRecord (Record.write32 (rowStart row.toNat + Location.width) size)).run p =
      ⟨.ok (), ⟨p.record.putSize row.toNat size, p.sizes⟩, []⟩ := by
    rw [run_onRecord, Record.run_write32 hin]
    rfl
  unfold writeSize
  rw [Action.run_bind_silent hpos, Action.run_bind_silent hwrite]
  exact if_pos (by rwa [h.size_sizes])

theorem run_setLocation (h : Shaped n p) (hi : i < rowsIn n) (hoff : offset.toNat = rowStart i)
    (l : Location) : (setLocation offset l).run p = ⟨.ok (), p.putLocation i l, []⟩ := by
  rw [setLocation, run_onRecord, Record.run_writeLocation (by rw [h.length_eq]; exact h.greatest)
    (by rwa [h.length_eq]) hoff]
  rfl

theorem run_setCount (h : Shaped n p) (count : UInt16) :
    (setCount count).run p = ⟨.ok (), p.putCount count, []⟩ := by
  have hin : countPosition + 2 ≤ p.record.length := by
    rw [h.length_eq]
    exact h.least
  rw [setCount, run_onRecord, Record.run_write16 hin]
  rfl

/-! ## Rewriting a row -/

/-- The page with this row and this count. -/
def rewritten (p : SlotPage) (i : Nat) (w : Row) (count : UInt16) : SlotPage :=
  ((p.putSize i w.size).putLocation i w.location).putCount count

-- Claiming and releasing end with the same writes.
theorem run_writeRow (h : Shaped n p) (hrow : row.toNat < rowsIn n)
    (hoff : offset.toNat = rowStart row.toNat) (w : Row) (count : UInt16)
    (event : SlotPage → Event) :
    ∃ es, (do
        writeSize row w.size
        setLocation offset w.location
        setCount count
        .report event
        return offset : Action SlotPage UInt16).run p =
      ⟨.ok offset, p.rewritten row.toNat w count, es⟩ := by
  have h₁ := (within_putSize h hrow w.size).shaped h
  have h₂ := (within_putLocation h₁ hrow w.location).shaped h₁
  rw [Action.run_bind_silent (run_writeSize h hrow w.size),
    Action.run_bind_silent (run_setLocation h₁ hrow hoff w.location),
    Action.run_bind_silent (run_setCount h₂ count), Action.run_bind_ok (Action.run_report ..)]
  exact ⟨_, rfl⟩

theorem within_rewritten (h : Shaped n p) (hi : i < rowsIn n) (w : Row) (count : UInt16) :
    Within i p (p.rewritten i w count) := by
  have hsize := within_putSize h hi w.size
  have h₁ := hsize.shaped h
  have hlocation := within_putLocation h₁ hi w.location
  exact (hsize.trans hlocation).trans (within_putCount (hlocation.shaped h₁) i count)

theorem entry_rewritten (h : Shaped n p) (hi : i < rowsIn n) (w : Row) (count : UInt16) :
    (p.rewritten i w count).entry i = ⟨w, some w.size⟩ := by
  have h₁ := (within_putSize h hi w.size).shaped h
  have h₂ := (within_putLocation h₁ hi w.location).shaped h₁
  have hsize := entry_putSize h hi w.size hi
  rw [if_pos rfl] at hsize
  unfold rewritten
  rw [entry_putCount h₂ count hi, entry_putLocation h₁ hi w.location hi, if_pos rfl]
  change Entry.mk ⟨w.location, ((p.putSize i w.size).entry i).row.size⟩
    ((p.putSize i w.size).entry i).kept = _
  rw [hsize]

theorem rowCount_putCount (h : Shaped n p) (count : UInt16) :
    (p.putCount count).record.rowCount = count :=
  Record.rowCount_putCount (by rw [h.length_eq]; exact h.least)

theorem rowCount_rewritten (h : Shaped n p) (hi : i < rowsIn n) (w : Row) (count : UInt16) :
    (p.rewritten i w count).record.rowCount = count := by
  have h₁ := (within_putSize h hi w.size).shaped h
  exact rowCount_putCount ((within_putLocation h₁ hi w.location).shaped h₁) count

end

end FreeSpace.SlotPage
