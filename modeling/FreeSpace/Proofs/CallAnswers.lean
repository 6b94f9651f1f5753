import FreeSpace.Proofs.SizeCache

/-!
# A page answers as its record does

Each call of a sound page ends as the page without kept sizes says, and the page is sound still
(`ends_call`).  The exception is a location written where no row starts, which can reach into a
size.
-/

namespace FreeSpace.SlotPage

variable {p : SlotPage}

/-! ## Rows and offsets -/

theorem offsetOf_eq (h : Sound p) (row : UInt16) :
    p.offsetOf row = BarePage.offsetOf row p.record := by
  unfold offsetOf BarePage.offsetOf
  change (if BarePage.capacity p.record ≤ row then _ else layout.offsetOf row) = _
  by_cases hc : BarePage.capacity p.record ≤ row
  · rw [if_pos hc, if_pos hc]
    rfl
  · rw [if_neg hc, if_neg hc]
    exact offsetOf_of_lt h.isPage.greatest (BarePage.lt_of_not_capacity_le h.isPage hc)

theorem rowAt_eq (h : Sound p) (offset : UInt16) :
    p.rowAt offset = BarePage.rowAt offset p.record := by
  have hcap : p.capacity.toNat = rowsIn p.record.length := h.isPage.toNat_capacity
  unfold rowAt BarePage.rowAt BarePage.rowOver
  by_cases hb : offset < layout.base
  · have hb' : offset.toNat < 4 := UInt16.lt_iff_toNat_lt.mp hb
    rw [if_pos (Or.inl hb), if_neg]
    rintro ⟨-, hs⟩
    rw [rowStart_eq] at hs
    omega
  · have hb' : 4 ≤ offset.toNat := UInt16.le_iff_toNat_le.mp (UInt16.not_lt.mp hb)
    have hd : (offset - layout.base).toNat = offset.toNat - 4 :=
      UInt16.toNat_sub_of_le _ _ (UInt16.not_lt.mp hb)
    have hmod : (offset - layout.base) % layout.stride ≠ 0 ↔ (offset.toNat - 4) % 10 ≠ 0 := by
      rw [ne_eq, ← UInt16.toNat_inj, UInt16.toNat_mod, hd]
      rfl
    have hdiv : p.capacity ≤ (offset - layout.base) / layout.stride ↔
        rowsIn p.record.length ≤ (offset.toNat - 4) / 10 := by
      rw [UInt16.le_iff_toNat_le, hcap, UInt16.toNat_div, hd]
      rfl
    have hs := rowStart_eq ((offset.toNat - 4) / 10)
    by_cases hin : (offset.toNat - 4) / 10 < rowsIn p.record.length ∧
        offset.toNat = rowStart ((offset.toNat - 4) / 10)
    · rw [if_neg, if_pos hin]
      · unfold RowLayout.rowAt
        rw [if_neg hb, if_neg (by decide)]
        congr 1
        apply UInt16.toNat_inj.mp
        rw [UInt16.toNat_div, hd, UInt16.toNat_ofNat_of_lt' (h.isPage.rows_lt hin.1)]
        rfl
      · rw [hmod, hdiv]
        rintro (hl | hm | hc)
        · exact hb hl
        · omega
        · omega
    · rw [if_pos, if_neg hin]
      rw [hmod, hdiv]
      right
      by_contra hcon
      rw [not_or] at hcon
      exact hin ⟨by omega, by omega⟩

/-! ## The count -/

theorem count_eq (h : Sound p) : p.count = .ok p.record.rowCount := by
  unfold count Record.read16
  rw [Record.field_eq_numberAt h.isPage.least]
  rfl

theorem countUp_eq (h : Sound p) (row : UInt16) :
    p.countUp row = BarePage.countUp row p.record := by
  have hcap := h.isPage.toNat_capacity
  have hlt := rowsIn_lt h.isPage.greatest
  unfold countUp BarePage.countUp
  rw [count_eq h]
  change (if p.capacity ≤ p.record.rowCount then _ else Word.add16 p.record.rowCount 1) =
    if p.capacity ≤ p.record.rowCount then _ else _
  by_cases hc : p.capacity ≤ p.record.rowCount
  · rw [if_pos hc, if_pos hc]
    rfl
  · have hc' : p.record.rowCount.toNat < p.capacity.toNat :=
      UInt16.lt_iff_toNat_lt.mp (UInt16.not_le.mp hc)
    change p.record.rowCount.toNat < (UInt16.ofNat (rowsIn p.record.length)).toNat at hc'
    rw [if_neg hc, if_neg hc]
    apply Word.add16_of_lt
    change p.record.rowCount.toNat + 1 < 65536
    omega

theorem countDown_eq (h : Sound p) (row : UInt16) :
    p.countDown row = BarePage.countDown row p.record := by
  unfold countDown
  rw [count_eq h]
  rfl

theorem countFor_eq (h : Sound p) (row : UInt16) (old new : UInt32) :
    p.countFor row old new = BarePage.countFor row old new p.record := by
  rw [countFor, countUp_eq h, countDown_eq h]
  rfl

/-! ## Reading -/

theorem location_eq (h : Sound p) (row : UInt16) :
    p.location row = BarePage.location row p.record := by
  unfold location BarePage.location
  rw [offsetOf_eq h]
  cases ho : BarePage.offsetOf row p.record with
  | error e => rfl
  | ok offset =>
    obtain ⟨hrow, hstart⟩ := BarePage.offsetOf_eq_ok h.isPage ho
    obtain ⟨hrec, hoff⟩ := Record.location_of_start h.isPage.greatest hrow hstart
    change (p.record.locationRecord offset >>= fun record =>
      p.record.locationOffset offset >>= fun o => Pure.pure (Location.mk record o)) = _
    rw [hrec, hoff]
    rfl

theorem ends_sizeAt (h : Sound p) (offset : UInt16) :
    Ends ((sizeAt offset).run p) (BarePage.sizeAt offset p.record) p.record := by
  have ho := Ends.view h (rowAt offset)
  rw [rowAt_eq h] at ho
  unfold sizeAt BarePage.sizeAt
  cases hat : BarePage.rowAt offset p.record with
  | error e =>
    rw [hat] at ho
    exact ho.bind_error
  | ok row =>
    rw [hat] at ho
    refine ho.bind_ok fun q hq hr => ?_
    rw [← hr] at hat ⊢
    exact ends_readSize hq (BarePage.rowAt_eq_ok hq.isPage hat).1

theorem ends_isInUse (h : Sound p) (row : UInt16) :
    Ends ((isInUse row).run p) (BarePage.isInUse row p.record) p.record := by
  have ho := Ends.view h (offsetOf row)
  rw [offsetOf_eq h] at ho
  unfold isInUse BarePage.isInUse
  cases hoff : BarePage.offsetOf row p.record with
  | error e =>
    rw [hoff] at ho
    exact ho.bind_error
  | ok offset =>
    rw [hoff] at ho
    refine ho.bind_ok fun q hq hr => ?_
    rw [← hr] at hoff ⊢
    exact (ends_readSize hq (BarePage.offsetOf_eq_ok hq.isPage hoff).1).map _

theorem ends_findVacant (h : Sound p) (rows : List UInt16)
    (hrows : ∀ row ∈ rows, row.toNat < rowsIn p.record.length) :
    Ends ((rows.findM? fun row => return (← readSize row) = 0 : Action SlotPage _).run p)
      (.ok (rows.find? fun row => p.record.rowSize row.toNat = 0)) p.record := by
  -- Each row read may change what the page keeps, so the page is not fixed.
  induction rows generalizing p with
  | nil => exact Ends.pure h none
  | cons row rest ih =>
    have hread := (ends_readSize h (hrows row List.mem_cons_self)).map fun size => decide (size = 0)
    rw [List.find?_cons]
    refine hread.bind_ok fun q hq hr => ?_
    rw [← hr] at hrows ⊢
    by_cases hz : q.record.rowSize row.toNat = 0
    · simp only [hz, decide_true]
      exact Ends.pure hq (some row)
    · simp only [hz, decide_false]
      exact ih hq fun other ho => hrows other (List.mem_cons_of_mem row ho)

theorem ends_firstVacant (h : Sound p) :
    Ends (firstVacant.run p) (.ok (BarePage.firstVacant p.record)) p.record := by
  refine (Ends.view h fun p => .ok p.rows).bind_ok fun q hq hr => ?_
  have hrows : p.rows = BarePage.rows q.record := by rw [hr]; rfl
  rw [hrows, ← hr]
  exact ends_findVacant hq _ fun row => BarePage.lt_of_mem_rows hq.isPage

-- the sizes read so far are in the accumulator of the loop, the last one first
theorem ends_readSizes (h : Sound p) (rows : List UInt16) (read : List UInt32)
    (hrows : ∀ row ∈ rows, row.toNat < rowsIn p.record.length) :
    Ends ((List.mapM.loop readSize rows read).run p)
      (.ok (read.reverse ++ rows.map fun row => p.record.rowSize row.toNat)) p.record := by
  induction rows generalizing p read with
  | nil =>
    rw [List.map_nil, List.append_nil]
    exact Ends.pure h read.reverse
  | cons row rest ih =>
    refine (ends_readSize h (hrows row List.mem_cons_self)).bind_ok fun q hq hr => ?_
    rw [← hr] at hrows ⊢
    have hrest := ih hq (q.record.rowSize row.toNat :: read)
      fun other ho => hrows other (List.mem_cons_of_mem row ho)
    rwa [List.reverse_cons, List.append_assoc] at hrest

theorem ends_allSizes (h : Sound p) :
    Ends (allSizes.run p) (.ok (BarePage.sizes p.record)) p.record := by
  refine (Ends.view h fun p => .ok p.rows).bind_ok fun q hq hr => ?_
  have hrows : p.rows = BarePage.rows q.record := by rw [hr]; rfl
  rw [hrows, ← hr]
  exact ends_readSizes hq _ [] fun row => BarePage.lt_of_mem_rows hq.isPage

theorem ends_conclude (h : Sound p) (request : UInt32) (seen : Seen) :
    Ends ((conclude request seen).run p)
      (.ok (BarePage.searchSizes request (BarePage.wasteLimit p.record) seen [])) p.record := by
  refine (Ends.view h fun p => .ok p.wasteLimit).bind_ok fun q hq hr => ?_
  have hlimit : p.wasteLimit = BarePage.wasteLimit p.record := rfl
  rw [hlimit, BarePage.searchSizes, ← hr]
  cases seen.acceptable? (BarePage.wasteLimit q.record) with
  | some row => exact Ends.pure hq _
  | none =>
    refine (Ends.report hq _).bind_ok fun q' hq' hr' => ?_
    rw [← hr']
    exact Ends.pure hq' _

theorem ends_searchRows (h : Sound p) (request : UInt32) (seen : Seen) (rows : List UInt16)
    (hrows : ∀ row ∈ rows, row.toNat < rowsIn p.record.length) :
    Ends ((searchRows request seen rows).run p)
      (.ok (BarePage.searchSizes request (BarePage.wasteLimit p.record) seen
        (rows.map fun row => (row, p.record.rowSize row.toNat)))) p.record := by
  induction rows generalizing p seen with
  | nil => exact ends_conclude h request seen
  | cons row rest ih =>
    rw [List.map_cons, BarePage.searchSizes]
    refine (ends_readSize h (hrows row List.mem_cons_self)).bind_ok fun q hq hr => ?_
    rw [← hr] at hrows ⊢
    have hrest := fun other ho => hrows other (List.mem_cons_of_mem row ho)
    by_cases hskip : q.record.rowSize row.toNat = 0 ∨ q.record.rowSize row.toNat < request
    · simp only [if_pos hskip]
      exact ih hq _ hrest
    · -- a row that is not skipped is as large as the request, so the waste does not wrap
      have hle : request ≤ q.record.rowSize row.toNat :=
        UInt32.not_lt.mp fun hlt => hskip (Or.inr hlt)
      have hwaste : Ends ((Action.lift (Word.sub32 (q.record.rowSize row.toNat) request)).run q)
          (.ok (q.record.rowSize row.toNat - request)) q.record := by
        rw [Word.sub32_of_le hle]
        exact Ends.view hq _
      simp only [if_neg hskip]
      refine hwaste.bind_ok fun q' hq' hr' => ?_
      rw [← hr'] at hrest ⊢
      by_cases hopt : q'.record.rowSize row.toNat - request < optimalWaste
      · simp only [if_pos hopt]
        exact Ends.pure hq' _
      · simp only [if_neg hopt]
        exact ih hq' _ hrest

theorem ends_search (h : Sound p) (request : UInt32) :
    Ends ((search request).run p) (.ok (BarePage.search request p.record)) p.record := by
  refine (Ends.view h fun p => .ok p.rows).bind_ok fun q hq hr => ?_
  have hrows : p.rows = BarePage.rows q.record := by rw [hr]; rfl
  rw [hrows, ← hr]
  exact ends_searchRows hq request .nothing _ fun row => BarePage.lt_of_mem_rows hq.isPage

/-! ## Writing -/

-- Claiming and releasing end with the same three writes.
theorem ends_writeRow (h : Sound p) {row offset : UInt16}
    (hrow : row.toNat < rowsIn p.record.length)
    (hoff : offset.toNat = rowStart row.toNat) (size : UInt32) (l : Location) (count : UInt16)
    (event : SlotPage → Event) :
    Ends ((do
        writeSize row size
        setLocation offset l
        setCount count
        .report event
        return offset : Action SlotPage UInt16).run p)
      (.ok offset) (BarePage.withRow p.record row l size count) := by
  -- None of the writes changes the length, so the row stays a row.
  refine (ends_writeSize h hrow size).bind_ok fun q hq hr => ?_
  have hrow' : row.toNat < rowsIn q.record.length := by rwa [hr, Record.length_putSize]
  refine (ends_setLocation hq hrow' hoff l).bind_ok fun q₁ hq₁ hr₁ => ?_
  refine (ends_setCount hq₁ count).bind_ok fun q₂ hq₂ hr₂ => ?_
  refine (Ends.report hq₂ event).bind_ok fun q₃ hq₃ hr₃ => ?_
  have hend : q₃.record = BarePage.withRow p.record row l size count := by
    rw [hr₃, hr₂, hr₁, hr]
    rfl
  rw [← hend]
  exact Ends.pure hq₃ offset

theorem ends_claim (h : Sound p) (row : UInt16) :
    Ends ((claim row).run p) (BarePage.claim row p.record).1 (BarePage.claim row p.record).2 := by
  refine Ends.andThen h (offsetOf_eq h row) fun offset q ho hq hr => ?_
  rw [← hr] at ho ⊢
  obtain ⟨hrow, hstart⟩ := BarePage.offsetOf_eq_ok hq.isPage ho
  refine (ends_readSize hq hrow).bind_ok fun q₁ hq₁ hr₁ => ?_
  rw [← hr₁] at hrow ⊢
  by_cases hs : q₁.record.rowSize row.toNat ≠ 0
  · simp only [if_pos hs]
    exact Ends.refuse hq₁ _
  · simp only [if_neg hs]
    refine Ends.andThen hq₁ (countUp_eq hq₁ row) fun count q₂ _ hq₂ hr₂ => ?_
    rw [← hr₂] at hrow ⊢
    exact ends_writeRow hq₂ hrow hstart _ _ _ _

theorem ends_release (h : Sound p) (row : UInt16) :
    Ends ((release row).run p) (BarePage.release row p.record).1
      (BarePage.release row p.record).2 := by
  refine Ends.andThen h (offsetOf_eq h row) fun offset q ho hq hr => ?_
  rw [← hr] at ho ⊢
  obtain ⟨hrow, hstart⟩ := BarePage.offsetOf_eq_ok hq.isPage ho
  refine (ends_readSize hq hrow).bind_ok fun q₁ hq₁ hr₁ => ?_
  rw [← hr₁] at hrow ⊢
  by_cases hs : q₁.record.rowSize row.toNat = 0
  · simp only [if_pos hs]
    exact Ends.refuse hq₁ _
  · simp only [if_neg hs]
    refine Ends.andThen hq₁ (countDown_eq hq₁ row) fun count q₂ _ hq₂ hr₂ => ?_
    rw [← hr₂] at hrow ⊢
    exact ends_writeRow hq₂ hrow hstart _ _ _ _

theorem ends_setSizeAt (h : Sound p) (offset : UInt16) (size : UInt32) :
    Ends ((setSizeAt offset size).run p) (BarePage.setSizeAt offset size p.record).1
      (BarePage.setSizeAt offset size p.record).2 := by
  refine Ends.andThen h (rowAt_eq h offset) fun row q ho hq hr => ?_
  rw [← hr] at ho ⊢
  obtain ⟨hrow, -⟩ := BarePage.rowAt_eq_ok hq.isPage ho
  refine (ends_readSize hq hrow).bind_ok fun q₁ hq₁ hr₁ => ?_
  rw [← hr₁] at hrow ⊢
  refine Ends.andThen hq₁ (countFor_eq hq₁ row _ size) fun count q₂ _ hq₂ hr₂ => ?_
  rw [← hr₂] at hrow ⊢
  refine (ends_writeSize hq₂ hrow size).bind_ok fun q₃ hq₃ hr₃ => ?_
  cases count with
  | none =>
    have hend : q₃.record = BarePage.resized row size q₂.record none := hr₃
    rw [← hend]
    exact Ends.pure hq₃ ()
  | some count =>
    refine (ends_setCount hq₃ count).bind_ok fun q₄ hq₄ hr₄ => ?_
    have hend : q₄.record = BarePage.resized row size q₂.record (some count) := by
      rw [hr₄, hr₃]
      rfl
    rw [← hend]
    exact Ends.report hq₄ _

/-! ## Calls -/

theorem ends_setLocation_call (h : Sound p) {offset : UInt16}
    (hc : ∃ row < rowsIn p.record.length, offset.toNat = rowStart row) (l : Location) :
    Ends ((setLocation offset l).run p) ((Record.writeLocation offset l).run p.record).result
      ((Record.writeLocation offset l).run p.record).state := by
  obtain ⟨row, hrow, hoff⟩ := hc
  have he := ends_setLocation h hrow hoff l
  have hrun : (setLocation offset l).run p = ⟨_, ⟨_, p.sizes⟩, _⟩ :=
    run_onRecord (Record.writeLocation offset l) p
  exact ⟨by rw [hrun], by rw [hrun], he.sound⟩

theorem ends_call (h : Sound p) {c : Call} (hc : BarePage.AtRowStarts p.record.length c) :
    Ends (c.action.run p) (BarePage.respond c p.record).1 (BarePage.respond c p.record).2 := by
  cases c with
  | capacity => exact Ends.view h _
  | wasteLimit => exact Ends.view h _
  | count =>
    refine ⟨?_, rfl, h⟩
    change (p.count.map fun n => Reply.number n.toNat) = _
    rw [count_eq h]
    rfl
  | firstVacant => exact (ends_firstVacant h).map _
  | location row =>
    refine ⟨?_, rfl, h⟩
    change (p.location row).map Reply.location = _
    rw [location_eq h]
    rfl
  | isInUse row => exact (ends_isInUse h row).map _
  | sizeAt offset => exact (ends_sizeAt h offset).map _
  | setSizeAt offset size => exact (ends_setSizeAt h offset size).map _
  | claim row => exact (ends_claim h row).map _
  | release row => exact (ends_release h row).map _
  | search request => exact (ends_search h request).map _
  | setLocation offset l => exact (ends_setLocation_call h hc l).map _
  | locationRecord offset => exact Ends.view h _
  | locationOffset offset => exact Ends.view h _
  | allSizes => exact (ends_allSizes h).map _

end FreeSpace.SlotPage
