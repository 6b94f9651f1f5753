import FreeSpace.Proofs.PageRuns

/-!
# The count and the rows in use

How far the count in the header is off the number of rows in use is the same in all states of a
run.  On a page whose count is right it therefore stays right, and no call finds it in the way.
-/

namespace FreeSpace

namespace Record

open SlotPage (rowsIn)

/-- How far the count in the header is off the number of rows in use. -/
def drift (r : Record) : Int :=
  r.rowCount.toNat - r.inUse.card

-- When one row changes, the rows whose size is not 0 change by that row at most.
theorem card_sizes_add {n row : Nat} (hrow : row < n) {f g : Nat → UInt32}
    (hother : ∀ other < n, other ≠ row → g other = f other) :
    ((Finset.range n).filter fun i => g i ≠ 0).card + (if f row = 0 then 0 else 1) =
      ((Finset.range n).filter fun i => f i ≠ 0).card + (if g row = 0 then 0 else 1) := by
  -- Without the row that changes, these rows are the same before and after.
  have herase : ((Finset.range n).filter fun i => g i ≠ 0).erase row =
      ((Finset.range n).filter fun i => f i ≠ 0).erase row := by
    ext other
    simp only [Finset.mem_erase, Finset.mem_filter, Finset.mem_range]
    constructor
    · rintro ⟨hne, hlt, hs⟩
      exact ⟨hne, hlt, by rwa [hother other hlt hne] at hs⟩
    · rintro ⟨hne, hlt, hs⟩
      exact ⟨hne, hlt, by rwa [hother other hlt hne]⟩
  have hsplit : ∀ s : Nat → UInt32, ((Finset.range n).filter fun i => s i ≠ 0).card =
      (((Finset.range n).filter fun i => s i ≠ 0).erase row).card +
        (if s row = 0 then 0 else 1) := by
    intro s
    by_cases hz : s row = 0
    · have hnot : row ∉ (Finset.range n).filter fun i => s i ≠ 0 :=
        fun hmem => (Finset.mem_filter.mp hmem).2 hz
      rw [if_pos hz, Finset.erase_eq_of_notMem hnot]
      rfl
    · rw [if_neg hz, Finset.card_erase_add_one
        (Finset.mem_filter.mpr ⟨Finset.mem_range.mpr hrow, hz⟩)]
  have hf := hsplit f
  have hg := hsplit g
  rw [herase] at hg
  omega

theorem card_inUse_add {r r' : Record} {row : Nat} (hlen : r'.length = r.length)
    (hrow : row < rowsIn r.length)
    (hother : ∀ other < rowsIn r.length, other ≠ row → r'.rowSize other = r.rowSize other) :
    r'.inUse.card + (if r.rowSize row = 0 then 0 else 1) =
      r.inUse.card + (if r'.rowSize row = 0 then 0 else 1) := by
  unfold inUse
  rw [hlen]
  exact card_sizes_add hrow hother

-- The count does not drift if it follows the one row that changes.
theorem drift_eq {r r' : Record} {row : Nat} (hlen : r'.length = r.length)
    (hrow : row < rowsIn r.length) (size : UInt32)
    (hsize : ∀ other < rowsIn r.length,
      r'.rowSize other = if other = row then size else r.rowSize other)
    (hcount : r'.rowCount.toNat + (if r.rowSize row = 0 then 0 else 1) =
      r.rowCount.toNat + (if size = 0 then 0 else 1)) :
    r'.drift = r.drift := by
  have hcard := card_inUse_add hlen hrow fun other ho hne => by rw [hsize other ho, if_neg hne]
  rw [hsize row hrow, if_pos rfl] at hcard
  unfold drift
  omega

end Record

namespace BarePage

open SlotPage (Call rowsIn)

variable {r r' : Record}

/-! ## No call makes the count drift -/

-- A count that follows its row neither wraps nor drifts.
theorem CountFollows.toNat_add {row : Nat} {size : UInt32} {count : UInt16}
    (h : CountFollows r row size count) (hlen : r.length ≤ Record.maxLength) :
    count.toNat + (if r.rowSize row = 0 then 0 else 1) =
      r.rowCount.toNat + (if size = 0 then 0 else 1) := by
  have hrows := SlotPage.rowsIn_lt hlen
  cases h with
  | up hold hnew hroom =>
    rw [if_pos hold, if_neg hnew, Word.toNat_add_one (by omega)]
  | down hold hnew hpos =>
    rw [if_neg hold, if_pos hnew, Word.toNat_sub_one hpos]
    rfl

theorem Effect.drift_eq (h : Effect r r') (hr : r.IsSlotPage) : r'.drift = r.drift := by
  have hlen := h.length_eq
  cases h with
  | none => rfl
  | @moved row hrow l =>
    refine Record.drift_eq hlen hrow (r.rowSize row) (fun other ho => ?_) ?_
    · rw [Record.rowSize_putLocation ho]
      split
      · rename_i he
        rw [he]
      · rfl
    · rw [Record.rowCount_putLocation hrow]
  | resized hrow hsame =>
    refine Record.drift_eq hlen hrow _ (fun other ho => Record.rowSize_putSize hrow ho) ?_
    rw [Record.rowCount_putSize hrow]
    simp only [hsame]
  | turned hrow hcount =>
    refine Record.drift_eq hlen hrow _ (fun other ho => Record.rowSize_turned hrow ho) ?_
    rw [Record.rowCount_putCount (by rw [Record.length_putSize]; exact hr.least)]
    exact hcount.toNat_add hr.greatest
  | rewritten hrow l hcount =>
    refine Record.drift_eq hlen hrow _ (fun other ho => Record.rowSize_rewritten hrow ho) ?_
    rw [Record.rowCount_putCount
      (by rw [Record.length_putLocation, Record.length_putSize]; exact hr.least)]
    exact hcount.toNat_add hr.greatest

/-! ## A right count is never in the way -/

/-- Not the refusal of data that contradict themselves. -/
def Uncorrupted {α : Type} (x : Result α) : Prop :=
  ∀ cause, x ≠ .error (.refused (.corruption cause))

theorem uncorrupted_ok {α : Type} (a : α) : Uncorrupted (.ok a : Result α) :=
  fun _ => nofun

theorem Uncorrupted.map {α β : Type} {x : Result α} (h : Uncorrupted x) (f : α → β) :
    Uncorrupted (x.map f) := by
  cases x with
  | ok a => exact uncorrupted_ok (f a)
  | error e =>
    intro cause he
    obtain rfl : e = _ := Except.error.inj he
    exact h cause rfl

theorem Uncorrupted.andThen {α β : Type} {found : Result α} (h : Uncorrupted found)
    {f : α → Result β × Record} (hf : ∀ a, found = .ok a → Uncorrupted (f a).1) :
    Uncorrupted (andThen found r f).1 := by
  cases found with
  | ok a => exact hf a rfl
  | error e =>
    intro cause he
    obtain rfl : e = _ := Except.error.inj he
    exact h cause rfl

theorem uncorrupted_offsetOf (row : UInt16) (r : Record) : Uncorrupted (offsetOf row r) := by
  intro cause
  unfold offsetOf
  split <;> exact nofun

theorem uncorrupted_rowAt (offset : UInt16) (r : Record) : Uncorrupted (rowAt offset r) := by
  intro cause
  unfold rowAt
  split <;> exact nofun

theorem uncorrupted_field (r : Record) (position width : Nat) :
    Uncorrupted (r.field position width) := by
  intro cause
  unfold Record.field
  split <;> exact nofun

theorem uncorrupted_locationOffset (r : Record) (offset : UInt16) :
    Uncorrupted (r.locationOffset offset) := by
  unfold Record.locationOffset Word.add16 Word.narrow16
  split
  · exact (uncorrupted_field r _ _).map _
  · exact fun _ => nofun

-- With a vacant row a right count is below the capacity.
theorem uncorrupted_countUp (h : r.IsSlotPage) (hd : r.drift = 0) {row : UInt16}
    (hrow : row.toNat < rowsIn r.length) (hs : r.rowSize row.toNat = 0) :
    Uncorrupted (countUp row r) := by
  have hcard := Record.card_inUse_lt hrow hs
  have hcap := h.toNat_capacity
  unfold Record.drift at hd
  -- The count is the number of rows in use, and the vacant row is not one of them.
  have hroom : ¬ capacity r ≤ r.rowCount := by
    rw [UInt16.le_iff_toNat_le]
    change ¬ (UInt16.ofNat (rowsIn r.length)).toNat ≤ _
    omega
  unfold countUp
  rw [if_neg hroom]
  exact uncorrupted_ok _

-- With a row in use a right count is not 0.
theorem uncorrupted_countDown (hd : r.drift = 0) {row : UInt16}
    (hrow : row.toNat < rowsIn r.length) (hs : r.rowSize row.toNat ≠ 0) :
    Uncorrupted (countDown row r) := by
  have hcard := Finset.card_pos.mpr ⟨row.toNat, Record.mem_inUse.mpr ⟨hrow, hs⟩⟩
  unfold Record.drift at hd
  have hpos : r.rowCount ≠ 0 := by
    intro hz
    rw [hz] at hd
    change (0 : Int) - _ = 0 at hd
    omega
  unfold countDown
  rw [if_neg hpos]
  exact uncorrupted_ok _

theorem uncorrupted_claim (h : r.IsSlotPage) (hd : r.drift = 0) (row : UInt16) :
    Uncorrupted (claim row r).1 := by
  refine (uncorrupted_offsetOf row r).andThen fun offset ho => ?_
  obtain ⟨hrow, -⟩ := offsetOf_eq_ok h ho
  by_cases hs : r.rowSize row.toNat ≠ 0
  · rw [if_pos hs]
    exact fun _ => nofun
  · rw [if_neg hs]
    exact (uncorrupted_countUp h hd hrow (not_not.mp hs)).andThen fun _ _ => uncorrupted_ok _

theorem uncorrupted_release (h : r.IsSlotPage) (hd : r.drift = 0) (row : UInt16) :
    Uncorrupted (release row r).1 := by
  refine (uncorrupted_offsetOf row r).andThen fun offset ho => ?_
  obtain ⟨hrow, -⟩ := offsetOf_eq_ok h ho
  by_cases hs : r.rowSize row.toNat = 0
  · rw [if_pos hs]
    exact fun _ => nofun
  · rw [if_neg hs]
    exact (uncorrupted_countDown hd hrow hs).andThen fun _ _ => uncorrupted_ok _

theorem uncorrupted_setSizeAt (h : r.IsSlotPage) (hd : r.drift = 0) (offset : UInt16)
    (size : UInt32) : Uncorrupted (setSizeAt offset size r).1 := by
  refine (uncorrupted_rowAt offset r).andThen fun row ho => ?_
  obtain ⟨hrow, -⟩ := rowAt_eq_ok h ho
  have hcount : Uncorrupted (countFor row (r.rowSize row.toNat) size r) := by
    unfold countFor
    split
    · rename_i hup
      exact (uncorrupted_countUp h hd hrow hup.1).map _
    · split
      · rename_i hdown
        exact (uncorrupted_countDown hd hrow hdown.1).map _
      · exact uncorrupted_ok _
  exact hcount.andThen fun _ _ => uncorrupted_ok _

theorem uncorrupted_respond (h : r.IsSlotPage) (hd : r.drift = 0) {c : Call}
    (hc : AtRowStarts r.length c) : Uncorrupted (respond c r).1 := by
  cases c with
  | location row => exact ((uncorrupted_offsetOf row r).map _).map _
  | isInUse row => exact ((uncorrupted_offsetOf row r).map _).map _
  | sizeAt offset => exact ((uncorrupted_rowAt offset r).map _).map _
  | setSizeAt offset size => exact (uncorrupted_setSizeAt h hd offset size).map _
  | claim row => exact (uncorrupted_claim h hd row).map _
  | release row => exact (uncorrupted_release h hd row).map _
  | setLocation offset l =>
    obtain ⟨row, hrow, hoff⟩ := hc
    change Uncorrupted (((Record.writeLocation offset l).run r).result.map _)
    rw [Record.run_writeLocation h.greatest hrow hoff]
    exact uncorrupted_ok _
  | locationRecord offset => exact ((uncorrupted_field r _ _).map _).map _
  | locationOffset offset => exact (uncorrupted_locationOffset r offset).map _
  | _ => exact uncorrupted_ok _

/-! ## Runs -/

/-- In all states of a run the count is as far off as in its first, and where it was right no call
is refused for the data of the page. -/
theorem drift_of_mem_observe (h : r.IsSlotPage) {cs : List Call}
    (hc : ∀ c ∈ cs, AtRowStarts r.length c) {s : Sight} (hs : s ∈ observe cs r) :
    ∃ answer after, s = .answered answer after ∧ after.drift = r.drift ∧
      (r.drift = 0 → Uncorrupted answer) := by
  induction cs generalizing r with
  | nil => exact absurd hs List.not_mem_nil
  | cons c rest ih =>
    have hfirst := hc c List.mem_cons_self
    have heff := effect_respond h hfirst
    -- What the first call keeps is all that the rest of the run starts from.
    have hdrift := heff.drift_eq h
    rcases List.mem_cons.mp hs with rfl | hs
    · exact ⟨_, _, rfl, hdrift, fun hd => uncorrupted_respond h hd hfirst⟩
    · have hrest := ih (heff.isSlotPage h)
        (fun d hd => by rw [heff.length_eq]; exact hc d (List.mem_cons_of_mem c hd)) hs
      rwa [hdrift] at hrest

end BarePage

namespace SlotPage

open BarePage (AtRowStarts Uncorrupted)

theorem drift_formatted {r : Record} (hl : 4 ≤ r.length) : r.formatted.drift = 0 := by
  have hempty : r.formatted.inUse = ∅ := by
    apply Finset.eq_empty_of_forall_notMem
    intro row hmem
    obtain ⟨hrow, hs⟩ := Record.mem_inUse.mp hmem
    rw [Record.length_formatted] at hrow
    exact hs (Record.rowSize_formatted hrow)
  unfold Record.drift
  rw [hempty, Record.rowCount_formatted hl]
  rfl

/-- **The count never drifts.**  Whatever bytes a page was opened on, in each state of each run its
count is off the number of rows in use by as much as at the start, so it never wraps; and a page
whose count is right, as after formatting, never refuses a call for a count that contradicts its
rows. -/
theorem drift_observe {r : Record} {p : SlotPage}
    (hp : (ofRecord.run r).result = .ok p ∨ (format.run r).result = .ok p) {moves : List Move}
    (hm : ∀ c ∈ calls moves, AtRowStarts p.record.length c) :
    ((format.run r).result = .ok p → p.record.drift = 0) ∧
      ∀ s ∈ observe moves p, ∃ answer after, s = .answered answer after ∧
        after.drift = p.record.drift ∧
        (p.record.drift = 0 → after.rowCount.toNat = after.inUse.card ∧ Uncorrupted answer) := by
  have hsound : Sound p := by
    rcases hp with hp | hp
    · obtain ⟨hpage, rfl⟩ := ofRecord_eq_ok hp
      exact sound_unread hpage
    · obtain ⟨hl, hg, rfl⟩ := format_eq_ok hp
      exact sound_unread (Record.isSlotPage_formatted hl hg)
  constructor
  · intro hf
    obtain ⟨hl, -, rfl⟩ := format_eq_ok hf
    exact drift_formatted hl
  · intro s hs
    rw [observe_eq_observe_bare hsound hm] at hs
    obtain ⟨answer, after, rfl, hdrift, hok⟩ :=
      BarePage.drift_of_mem_observe hsound.isPage hm hs
    refine ⟨answer, after, rfl, hdrift, fun hz => ⟨?_, hok hz⟩⟩
    rw [hz] at hdrift
    unfold Record.drift at hdrift
    omega

/-- A count of 2 with one row in use: it stays 1 too high, and stands in the way of the vacant row
until a row is released. -/
theorem drift_observe_wrong_count :
    let r := Record.ofBytes 7 #[0x19, 0x93, 0, 2, 0, 0, 0, 5, 0, 64, 0, 0, 1, 0,
      0, 0, 0, 0, 0, 0, 0, 0, 0, 0]
    let moves := [.call (.claim 1), .reopen, .call (.release 0), .call (.claim 1),
      .call (.setLocation 14 ⟨3, 9⟩), .call (.setSizeAt 14 0)]
    (ofRecord.run r).result = .ok (unread r) ∧
      (∀ c ∈ calls moves, AtRowStarts r.length c) ∧ r.drift = 1 ∧
      ∀ s ∈ observe moves (unread r), ∃ answer after, s = .answered answer after ∧
        after.drift = r.drift := by
  intro r moves
  have hpage : r.IsSlotPage := ⟨by decide, by decide, by decide +kernel⟩
  have hp : (ofRecord.run r).result = .ok (unread r) := by rw [run_ofRecord hpage]
  have hm : ∀ c ∈ calls moves, AtRowStarts r.length c := by decide
  refine ⟨hp, hm, by decide, fun s hs => ?_⟩
  obtain ⟨answer, after, hseen, hdrift, -⟩ := (drift_observe (Or.inl hp) hm).2 s hs
  exact ⟨answer, after, hseen, hdrift⟩

end SlotPage

end FreeSpace
