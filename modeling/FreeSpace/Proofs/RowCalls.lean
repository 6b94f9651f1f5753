import FreeSpace.Proofs.RowEntries

/-!
# What a call does to its row

On a page whose count is right, a call that writes a row answers by what the page has of that row,
and changes that, the count and nothing else (`served`).  A call whose row the page does not have
fails, and changes nothing at all (`run_call_elsewhere`).
-/

namespace FreeSpace.SlotPage

open BarePage (AtRowStarts)

variable {n : Nat} {p q : SlotPage}

/-- What a call answers that finds this in its row, and what it makes of it. -/
def Entry.respond (e : Entry) : Call → Result Reply × Entry
  | .claim row =>
      if e.size ≠ 0 then (.error (.refused (.slotInUse row)), ⟨e.row, some e.size⟩)
      else (.ok (.number (rowStart row.toNat)),
        ⟨⟨placeholder, placeholderSize⟩, some placeholderSize⟩)
  | .release row =>
      if e.size = 0 then (.error (.refused (.slotVacant row)), ⟨e.row, some e.size⟩)
      else (.ok (.number (rowStart row.toNat)), ⟨.blank, some 0⟩)
  | .setSizeAt _ size => (.ok .done, ⟨⟨e.row.location, size⟩, some size⟩)
  | .setLocation _ l => (.ok .done, ⟨⟨l, e.row.size⟩, e.kept⟩)
  | _ => (.ok .done, e)

/-- The call answered by its row alone, and changed the row, the count and nothing else. -/
structure Served (c : Call) (i : Nat) (p : SlotPage) (o : Outcome SlotPage Reply) : Prop where
  result : o.result = ((p.entry i).respond c).1
  entry : o.state.entry i = ((p.entry i).respond c).2
  within : Within i p o.state
  counted : Counted o.state
  dirty : o.state.record.dirty = (p.record.dirty || o.result.isOk)

section

variable {c : Call} {i : Nat} {row offset : UInt16}

theorem Shaped.offsetOf_of_lt (h : Shaped n p) (hrow : row.toNat < rowsIn n) :
    p.offsetOf row = .ok (.ofNat (rowStart row.toNat)) := by
  have hin : ¬ p.capacity ≤ row := by
    rw [UInt16.le_iff_toNat_le, h.toNat_capacity]
    omega
  unfold offsetOf
  rw [if_neg hin, SlotPage.offsetOf_of_lt h.greatest hrow]

theorem Shaped.offsetOf_of_le (h : Shaped n p) (hrow : rowsIn n ≤ row.toNat) :
    p.offsetOf row = .error (.refused (.slotOutOfRange row (.ofNat (rowsIn n)))) := by
  have hout : p.capacity ≤ row := by
    rw [UInt16.le_iff_toNat_le, h.toNat_capacity]
    exact hrow
  unfold offsetOf
  rw [if_pos hout, h.capacity_eq]

-- A size that was kept before a write of the same size is lost with it.
theorem putSize_keep (p : SlotPage) (i : Nat) (old size : UInt32) :
    (p.keep i old).putSize i size = p.putSize i size := by
  unfold putSize keep
  rw [Array.setIfInBounds_setIfInBounds]

theorem rewritten_keep (p : SlotPage) (i : Nat) (old : UInt32) (w : Row) (count : UInt16) :
    (p.keep i old).rewritten i w count = p.rewritten i w count := by
  unfold rewritten
  rw [putSize_keep]

/-- A claim or a release that is refused has read the size of its row. -/
theorem Served.refused (h : Shaped n p) (hc : Counted p) (hi : i < rowsIn n)
    {x : Action SlotPage UInt16} {e : Failure} {es : List Event}
    (hrun : x.run p = ⟨.error e, p.keep i (p.reported i), es⟩)
    (hrespond : (p.entry i).respond c = (.error e, ⟨p.record.row i, some (p.reported i)⟩)) :
    Served c i p ((x >>= fun a => pure (Reply.number a.toNat)).run p) := by
  have hentry := entry_keep h hi (p.reported i) i
  rw [if_pos rfl] at hentry
  have hwithin := within_keep h hi (p.reported i)
  have hcounted : Counted (p.keep i (p.reported i)) := by
    refine hwithin.counted hc (by rwa [h.length_eq]) ?_
    rw [reported_keep h hi]
    rfl
  rw [Action.run_bind_error hrun]
  refine ⟨?_, ?_, hwithin, hcounted, (Bool.or_false _).symm⟩
  · rw [hrespond]
  · rw [hrespond, hentry]

/-- A claim or a release that is not refused has written its row anew. -/
theorem Served.rewritten (h : Shaped n p) (hc : Counted p) (hi : i < rowsIn n)
    {x : Action SlotPage UInt16} {offset count : UInt16} {w : Row} {es : List Event}
    (hrun : x.run p = ⟨.ok offset, p.rewritten i w count, es⟩)
    (hrespond : (p.entry i).respond c = (.ok (.number offset.toNat), ⟨w, some w.size⟩))
    (hcount : count.toNat + (if p.reported i = 0 then 0 else 1) =
      p.record.rowCount.toNat + (if w.size = 0 then 0 else 1)) :
    Served c i p ((x >>= fun a => pure (Reply.number a.toNat)).run p) := by
  have hentry := entry_rewritten h hi w count
  have hreported : (p.rewritten i w count).reported i = w.size := congrArg Entry.size hentry
  have hwithin := within_rewritten h hi w count
  have hcounted : Counted (p.rewritten i w count) := by
    refine hwithin.counted hc (by rwa [h.length_eq]) ?_
    rw [rowCount_rewritten h hi, hreported]
    exact hcount
  rw [Action.run_bind_ok hrun]
  refine ⟨?_, ?_, hwithin, hcounted, (Bool.or_true _).symm⟩
  · rw [hrespond]
    rfl
  · rw [hrespond]
    exact hentry

theorem run_claim_of_used (h : Shaped n p) (hrow : row.toNat < rowsIn n)
    (hused : p.reported row.toNat ≠ 0) :
    ∃ es, (claim row).run p =
      ⟨.error (.refused (.slotInUse row)), p.keep row.toNat (p.reported row.toNat), es⟩ := by
  obtain ⟨es, hread⟩ := run_readSize h hrow
  unfold claim
  rw [Action.run_bind_view (h.offsetOf_of_lt hrow), Action.run_bind_ok hread]
  simp [hused]

theorem claim_of_used (h : Shaped n p) (hrow : row.toNat < rowsIn n)
    (hused : p.reported row.toNat ≠ 0) :
    ((Call.claim row).action.run p).result = .error (.refused (.slotInUse row)) ∧
      Unmoved p ((Call.claim row).action.run p).state := by
  obtain ⟨es, hrun⟩ := run_claim_of_used h hrow hused
  have haction : (Call.claim row).action.run p = _ :=
    Action.run_bind_error hrun fun a => pure (Reply.number a.toNat)
  rw [haction]
  exact ⟨rfl, unmoved_keep h hrow⟩

/-- How a claim or a release ends that finds its row in the right state: the row is written anew, or
the count cannot follow it and only the size that was read is kept. -/
def turned (p : SlotPage) (row : UInt16) (w : Row) (es : List Event) :
    Result UInt16 → Outcome SlotPage UInt16
  | .ok count => ⟨.ok (.ofNat (rowStart row.toNat)), p.rewritten row.toNat w count, es⟩
  | .error e => ⟨.error e, p.keep row.toNat (p.reported row.toNat), es⟩

theorem run_claim_of_vacant (h : Shaped n p) (hrow : row.toNat < rowsIn n)
    (hvacant : p.reported row.toNat = 0) :
    ∃ es, (claim row).run p =
      p.turned row ⟨placeholder, placeholderSize⟩ es (p.countUp row) := by
  obtain ⟨es, hread⟩ := run_readSize h hrow
  unfold claim
  rw [Action.run_bind_view (h.offsetOf_of_lt hrow), Action.run_bind_ok hread]
  simp only [hvacant, ne_eq, not_true_eq_false, if_false]
  rw [← hvacant]
  -- Keeping the size that was read leaves the count.
  cases hcount : p.countUp row with
  | error e =>
    rw [Action.run_bind_view_error (f := countUp row) (s := p.keep _ _) hcount]
    exact ⟨_, rfl⟩
  | ok count =>
    obtain ⟨fs, hwrite⟩ := run_writeRow (h.keep row.toNat (p.reported row.toNat)) hrow
      (toNat_rowStart h.greatest hrow) ⟨placeholder, placeholderSize⟩ count
      fun q => .rowClaimed row q.record.id count
    rw [rewritten_keep] at hwrite
    rw [Action.run_bind_view (f := countUp row) (s := p.keep _ _) hcount, hwrite]
    exact ⟨_, rfl⟩

theorem served_claim (h : Shaped n p) (hc : Counted p) (hrow : row.toNat < rowsIn n) :
    Served (.claim row) row.toNat p ((Call.claim row).action.run p) := by
  by_cases hused : p.reported row.toNat ≠ 0
  · obtain ⟨es, hrun⟩ := run_claim_of_used h hrow hused
    exact .refused h hc hrow hrun (if_pos hused)
  · have hvacant := not_not.mp hused
    obtain ⟨hup, hnext⟩ := hc.countUp h hrow hvacant
    obtain ⟨es, hrun⟩ := run_claim_of_vacant h hrow hvacant
    rw [hup] at hrun
    refine .rewritten h hc hrow hrun ?_ ?_
    · rw [toNat_rowStart h.greatest hrow]
      exact if_neg hused
    · rw [hnext, if_pos hvacant]
      rfl

theorem result_claim_of_vacant (h : Shaped n p) (hc : Counted p) (hrow : row.toNat < rowsIn n)
    (hvacant : p.reported row.toNat = 0) :
    ((Call.claim row).action.run p).result = .ok (.number (rowStart row.toNat)) := by
  have hrespond : (p.entry row.toNat).respond (.claim row) = _ := if_neg (not_not.mpr hvacant)
  rw [(served_claim h hc hrow).result, hrespond]

theorem run_release_of_vacant (h : Shaped n p) (hrow : row.toNat < rowsIn n)
    (hvacant : p.reported row.toNat = 0) :
    ∃ es, (release row).run p =
      ⟨.error (.refused (.slotVacant row)), p.keep row.toNat (p.reported row.toNat), es⟩ := by
  obtain ⟨es, hread⟩ := run_readSize h hrow
  unfold release
  rw [Action.run_bind_view (h.offsetOf_of_lt hrow), Action.run_bind_ok hread]
  simp [hvacant]

theorem run_release_of_used (h : Shaped n p) (hrow : row.toNat < rowsIn n)
    (hused : p.reported row.toNat ≠ 0) :
    ∃ es, (release row).run p = p.turned row .blank es (p.countDown row) := by
  obtain ⟨es, hread⟩ := run_readSize h hrow
  unfold release
  rw [Action.run_bind_view (h.offsetOf_of_lt hrow), Action.run_bind_ok hread]
  simp only [if_neg hused]
  cases hcount : p.countDown row with
  | error e =>
    rw [Action.run_bind_view_error (f := countDown row) (s := p.keep _ _) hcount]
    exact ⟨_, rfl⟩
  | ok count =>
    obtain ⟨fs, hwrite⟩ := run_writeRow (h.keep row.toNat (p.reported row.toNat)) hrow
      (toNat_rowStart h.greatest hrow) .blank count fun q => .rowReleased row q.record.id count
    rw [rewritten_keep] at hwrite
    rw [Action.run_bind_view (f := countDown row) (s := p.keep _ _) hcount]
    exact ⟨_, congrArg (fun o => Outcome.mk o.result o.state (es ++ o.events)) hwrite⟩

theorem served_release (h : Shaped n p) (hc : Counted p) (hrow : row.toNat < rowsIn n) :
    Served (.release row) row.toNat p ((Call.release row).action.run p) := by
  by_cases hvacant : p.reported row.toNat = 0
  · obtain ⟨es, hrun⟩ := run_release_of_vacant h hrow hvacant
    exact .refused h hc hrow hrun (if_pos hvacant)
  · obtain ⟨hdown, hnext⟩ := hc.countDown h hrow hvacant
    obtain ⟨es, hrun⟩ := run_release_of_used h hrow hvacant
    rw [hdown] at hrun
    refine .rewritten h hc hrow hrun ?_ ?_
    · rw [toNat_rowStart h.greatest hrow]
      exact if_neg hvacant
    · rw [if_neg hvacant, hnext]
      rfl

/-! ## A new size -/

/-- A right count can follow a row to any size. -/
theorem Counted.countFor (hc : Counted p) (h : Shaped n p) (hrow : row.toNat < rowsIn n)
    (size : UInt32) :
    ∃ count, p.countFor row (p.reported row.toNat) size = .ok count ∧
      (count.getD p.record.rowCount).toNat + (if p.reported row.toNat = 0 then 0 else 1) =
        p.record.rowCount.toNat + (if size = 0 then 0 else 1) := by
  unfold SlotPage.countFor
  by_cases hvacant : p.reported row.toNat = 0
  · by_cases hsize : size = 0
    · exact ⟨none, by simp [hvacant, hsize], by simp [hvacant, hsize]⟩
    · obtain ⟨hup, hnext⟩ := hc.countUp h hrow hvacant
      refine ⟨some (p.record.rowCount + 1), ?_, ?_⟩
      · rw [if_pos ⟨hvacant, hsize⟩, hup]
        rfl
      · simp [hvacant, hsize, hnext]
  · by_cases hsize : size = 0
    · obtain ⟨hdown, hnext⟩ := hc.countDown h hrow hvacant
      refine ⟨some (p.record.rowCount - 1), ?_, ?_⟩
      · rw [if_neg fun hboth => hvacant hboth.1, if_pos ⟨hvacant, hsize⟩, hdown]
        rfl
      · simp [hvacant, hsize, hnext]
    · exact ⟨none, by simp [hvacant, hsize], by simp [hvacant, hsize]⟩

/-- The page with this size for a row, and with this count if there is one. -/
def resized (p : SlotPage) (i : Nat) (size : UInt32) : Option UInt16 → SlotPage
  | none => p.putSize i size
  | some count => (p.putSize i size).putCount count

theorem run_setSizeAt (h : Shaped n p) (hrow : row.toNat < rowsIn n)
    (hoff : offset.toNat = rowStart row.toNat) {size : UInt32} {count : Option UInt16}
    (hcount : p.countFor row (p.reported row.toNat) size = .ok count) :
    ∃ es, (setSizeAt offset size).run p = ⟨.ok (), p.resized row.toNat size count, es⟩ := by
  obtain ⟨es, hread⟩ := run_readSize h hrow
  have hshape := h.keep row.toNat (p.reported row.toNat)
  have hwrite := run_writeSize hshape hrow size
  rw [putSize_keep] at hwrite
  unfold setSizeAt
  rw [Action.run_bind_view (h.rowAt_of_start hrow hoff), Action.run_bind_ok hread,
    Action.run_bind_view (f := SlotPage.countFor row _ size) (s := p.keep _ _) hcount,
    Action.run_bind_silent hwrite]
  cases count with
  | none => exact ⟨_, rfl⟩
  | some count =>
    rw [Action.run_bind_silent (run_setCount ((within_putSize h hrow size).shaped h) count)]
    exact ⟨_, rfl⟩

theorem run_setSizeAt_of_error (h : Shaped n p) (hrow : row.toNat < rowsIn n)
    (hoff : offset.toNat = rowStart row.toNat) {size : UInt32} {e : Failure}
    (hcount : p.countFor row (p.reported row.toNat) size = .error e) :
    ∃ es, (setSizeAt offset size).run p =
      ⟨.error e, p.keep row.toNat (p.reported row.toNat), es⟩ := by
  obtain ⟨es, hread⟩ := run_readSize h hrow
  unfold setSizeAt
  rw [Action.run_bind_view (h.rowAt_of_start hrow hoff), Action.run_bind_ok hread,
    Action.run_bind_view_error (f := SlotPage.countFor row _ size) (s := p.keep _ _) hcount]
  exact ⟨_, rfl⟩

theorem within_resized (h : Shaped n p) (hi : i < rowsIn n) (size : UInt32)
    (count : Option UInt16) : Within i p (p.resized i size count) := by
  have hsize := within_putSize h hi size
  cases count with
  | none => exact hsize
  | some count => exact hsize.trans (within_putCount (hsize.shaped h) i count)

theorem entry_resized (h : Shaped n p) (hi : i < rowsIn n) (size : UInt32)
    (count : Option UInt16) :
    (p.resized i size count).entry i = ⟨⟨p.record.rowLocation i, size⟩, some size⟩ := by
  have hsize := entry_putSize h hi size hi
  rw [if_pos rfl] at hsize
  cases count with
  | none => exact hsize
  | some count => exact (entry_putCount ((within_putSize h hi size).shaped h) count hi).trans hsize

theorem rowCount_resized (h : Shaped n p) (hi : i < rowsIn n) (size : UInt32)
    (count : Option UInt16) :
    (p.resized i size count).record.rowCount = count.getD p.record.rowCount := by
  cases count with
  | none => exact Record.rowCount_putSize (by rwa [h.length_eq])
  | some count => exact rowCount_putCount ((within_putSize h hi size).shaped h) count

theorem dirty_resized (p : SlotPage) (i : Nat) (size : UInt32) (count : Option UInt16) :
    (p.resized i size count).record.dirty = true := by
  cases count <;> rfl

theorem served_setSizeAt (h : Shaped n p) (hc : Counted p) (hrow : row.toNat < rowsIn n)
    (hoff : offset.toNat = rowStart row.toNat) (size : UInt32) :
    Served (.setSizeAt offset size) row.toNat p ((Call.setSizeAt offset size).action.run p) := by
  obtain ⟨count, hcount, hnext⟩ := hc.countFor h hrow size
  obtain ⟨es, hrun⟩ := run_setSizeAt h hrow hoff hcount
  have hentry := entry_resized h hrow size count
  have hwithin := within_resized h hrow size count
  have hreported : (p.resized row.toNat size count).reported row.toNat = size :=
    congrArg Entry.size hentry
  change Served _ _ _ ((setSizeAt offset size >>= fun _ => pure Reply.done).run p)
  rw [Action.run_bind_ok hrun]
  refine ⟨rfl, hentry, hwithin, ?_, ?_⟩
  · refine hwithin.counted hc (by rwa [h.length_eq]) ?_
    rw [rowCount_resized h hrow, hreported]
    exact hnext
  · exact (dirty_resized p _ size count).trans (Bool.or_true _).symm

theorem served_setLocation (h : Shaped n p) (hc : Counted p) (hi : i < rowsIn n)
    (hoff : offset.toNat = rowStart i) (l : Location) :
    Served (.setLocation offset l) i p ((Call.setLocation offset l).action.run p) := by
  have hrun := run_setLocation h hi hoff l
  have hentry := entry_putLocation h hi l hi
  rw [if_pos rfl] at hentry
  have hwithin := within_putLocation h hi l
  have hreported : (p.putLocation i l).reported i = p.reported i := congrArg Entry.size hentry
  have hcount : (p.putLocation i l).record.rowCount = p.record.rowCount :=
    Record.rowCount_putLocation (by rwa [h.length_eq])
  have hcounted : Counted (p.putLocation i l) := by
    refine hwithin.counted hc (by rwa [h.length_eq]) ?_
    rw [hcount, hreported]
  change Served _ _ _ ((setLocation offset l >>= fun _ => pure Reply.done).run p)
  rw [Action.run_bind_ok hrun]
  exact ⟨rfl, hentry, hwithin, hcounted, (Bool.or_true _).symm⟩

/-- **A call is served by its row.**  On a page whose count is right, the answer to a call that
writes a row depends on that row alone, and so does what the row is afterwards. -/
theorem served (h : Shaped n p) (hc : Counted p) {c : Call} {i : Nat} (hi : i < rowsIn n)
    (ht : c.target? = some (rowStart i)) : Served c i p (c.action.run p) := by
  have hrow : ∀ {row : UInt16}, some (rowStart row.toNat) = some (rowStart i) →
      row.toNat = i := by
    intro row hs
    have hs := Option.some.inj hs
    rw [rowStart_eq, rowStart_eq] at hs
    omega
  cases c with
  | claim row =>
    obtain rfl := hrow ht
    exact served_claim h hc hi
  | release row =>
    obtain rfl := hrow ht
    exact served_release h hc hi
  | setSizeAt offset size =>
    have hword := h.toNat_ofNat hi
    have hoff : offset.toNat = rowStart (UInt16.ofNat i).toNat := by
      rw [hword]
      exact Option.some.inj ht
    have hserved := served_setSizeAt h hc (by rwa [hword]) hoff size
    rwa [hword] at hserved
  | setLocation offset l => exact served_setLocation h hc hi (Option.some.inj ht) l
  | _ => exact absurd ht nofun

/-- A call for a row that the page does not have fails, and leaves the page. -/
theorem run_call_elsewhere {c : Call} {t : Nat} (ht : c.target? = some t)
    (hs : AtRowStarts n c) (hno : ∀ i < rowsIn n, t ≠ rowStart i) :
    ∃ e, ∀ p, Shaped n p → c.action.run p = ⟨.error e, p, []⟩ := by
  have hrow : ∀ {row : UInt16}, some (rowStart row.toNat) = some t → rowsIn n ≤ row.toNat := by
    intro row hs
    by_contra hlt
    exact hno row.toNat (Nat.not_le.mp hlt) (Option.some.inj hs).symm
  cases c with
  | claim row =>
    refine ⟨.refused (.slotOutOfRange row (.ofNat (rowsIn n))), fun p h => ?_⟩
    have hout := h.offsetOf_of_le (hrow ht)
    exact Action.run_bind_error (Action.run_bind_view_error hout _) _
  | release row =>
    refine ⟨.refused (.slotOutOfRange row (.ofNat (rowsIn n))), fun p h => ?_⟩
    have hout := h.offsetOf_of_le (hrow ht)
    exact Action.run_bind_error (Action.run_bind_view_error hout _) _
  | setSizeAt offset size =>
    refine ⟨.refused (.invalidRowOffset offset), fun p h => ?_⟩
    have hout := h.rowAt_of_no_start fun i hi he => hno i hi ((Option.some.inj ht).symm.trans he)
    exact Action.run_bind_error (Action.run_bind_view_error hout _) _
  | setLocation offset l =>
    obtain ⟨i, hi, hoff⟩ := hs
    exact absurd ((Option.some.inj ht).symm.trans hoff) (hno i hi)
  | _ => exact absurd ht nofun

end

end FreeSpace.SlotPage
