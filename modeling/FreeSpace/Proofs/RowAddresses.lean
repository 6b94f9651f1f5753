import FreeSpace.Proofs.CountRange
import FreeSpace.Proofs.LocationRows
import FreeSpace.Proofs.PagesOfSizes

/-!
# Rows and the offsets at which they start

A row is addressed by its number or by the offset at which it starts.  Under any layout whose rows
are wide enough for a location the two are inverse as far as 16-bit words reach (`rowAt_of_start`),
and an offset inside a row leads to the start of that row (`start_add_mod`).  A page checks numbers
and offsets in different places, but both checks let the same rows through, and what is then asked
at the offset is asked of that row (`SharedRow`).
-/

namespace FreeSpace

namespace RowLayout

variable {w : RowLayout} {row offset : UInt16}

theorem offsetOf_of_le_start (hstride : Location.width ≤ w.stride.toNat)
    (h : UInt16.size ≤ w.start row) :
    w.offsetOf row = .error (.fault (.unaddressableRow row)) := by
  unfold offsetOf
  simp only
  rw [if_neg (by omega)]
  exact if_neg (Nat.not_lt.mpr h)

theorem offsetOf_eq_error_iff (hstride : Location.width ≤ w.stride.toNat) :
    w.offsetOf row = .error (.fault (.unaddressableRow row)) ↔ 65535 < w.start row := by
  constructor
  · intro he
    by_contra hle
    have hlt : w.start row < UInt16.size := Nat.lt_succ_of_le (Nat.not_lt.mp hle)
    rw [offsetOf_of_start_lt hstride hlt] at he
    exact absurd he nofun
  · exact fun h => offsetOf_of_le_start hstride h

theorem offsetOf_eq_ok_iff (hstride : Location.width ≤ w.stride.toNat) :
    w.offsetOf row = .ok offset ↔ offset.toNat = w.start row := by
  by_cases hlt : w.start row < UInt16.size
  · rw [offsetOf_of_start_lt hstride hlt, Except.ok.injEq, ← UInt16.toNat_inj,
      toNat_ofNat_start hlt, eq_comm]
  · have hbound := offset.toNat_lt
    rw [offsetOf_of_le_start hstride (Nat.not_lt.mp hlt)]
    constructor
    · nofun
    · intro he
      exact absurd (he ▸ hbound) hlt

/-! ## From an offset to its row -/

theorem rowAt_of_le (hstride : Location.width ≤ w.stride.toNat) (h : w.base ≤ offset) :
    w.rowAt offset = .ok ((offset - w.base) / w.stride) := by
  have hne : w.stride ≠ 0 := by
    intro hz
    rw [hz] at hstride
    exact absurd hstride (by decide)
  unfold rowAt
  rw [if_neg (UInt16.not_lt.mpr h), if_neg hne]

theorem rowAt_eq_error_iff (hstride : Location.width ≤ w.stride.toNat) :
    w.rowAt offset = .error (.fault (.offsetBeforeRows offset)) ↔ offset < w.base := by
  constructor
  · intro he
    by_contra hle
    rw [rowAt_of_le hstride (UInt16.not_lt.mp hle)] at he
    exact absurd he nofun
  · exact fun h => if_pos h

-- Division leaves what lies between the start of the row and the offset.
theorem start_add_mod (h : w.base ≤ offset) :
    w.start ((offset - w.base) / w.stride) +
      (offset.toNat - w.base.toNat) % w.stride.toNat = offset.toNat := by
  have hle := UInt16.le_iff_toNat_le.mp h
  have hdiv := Nat.div_add_mod' (offset.toNat - w.base.toNat) w.stride.toNat
  unfold start
  rw [UInt16.toNat_div, UInt16.toNat_sub_of_le _ _ h]
  omega

theorem rowAt_of_start (hstride : Location.width ≤ w.stride.toNat)
    (hoff : offset.toNat = w.start row) : w.rowAt offset = .ok row := by
  have hpos : 0 < w.stride.toNat := Nat.lt_of_lt_of_le (by decide) hstride
  have hle : w.base ≤ offset := by
    rw [UInt16.le_iff_toNat_le, hoff]
    exact Nat.le_add_left ..
  rw [rowAt_of_le hstride hle, Except.ok.injEq, ← UInt16.toNat_inj, UInt16.toNat_div,
    UInt16.toNat_sub_of_le _ _ hle, hoff, start, Nat.add_sub_cancel, Nat.mul_div_cancel _ hpos]

/-- The start of the row that an offset lies in. -/
theorem offsetOf_rowAt (hstride : Location.width ≤ w.stride.toNat) (h : w.base ≤ offset) :
    ∃ row start, w.rowAt offset = .ok row ∧ w.offsetOf row = .ok start ∧
      start.toNat + (offset.toNat - w.base.toNat) % w.stride.toNat = offset.toNat := by
  have hsplit := start_add_mod h
  have hlt : w.start ((offset - w.base) / w.stride) < UInt16.size :=
    Nat.lt_of_le_of_lt (by omega) offset.toNat_lt
  refine ⟨_, _, rowAt_of_le hstride h, offsetOf_of_start_lt hstride hlt, ?_⟩
  rwa [toNat_ofNat_start hlt]

end RowLayout

namespace SlotPage

variable {n : Nat} {p q : SlotPage} {offset row : UInt16} {old new size : UInt32}

/-! ## The rows that a page lets through -/

theorem start_of_offsetOf (h : layout.offsetOf row = .ok offset) :
    offset.toNat = rowStart row.toNat := by
  rw [(RowLayout.offsetOf_eq_ok_iff (by decide)).mp h]
  exact Nat.add_comm ..

theorem Shaped.exists_offsetOf_iff (h : Shaped n p) :
    (∃ row < p.capacity, layout.offsetOf row = .ok offset) ↔
      ∃ i < rowsIn n, offset.toNat = rowStart i := by
  constructor
  · rintro ⟨row, hrow, hoff⟩
    rw [UInt16.lt_iff_toNat_lt, h.toNat_capacity] at hrow
    exact ⟨row.toNat, hrow, start_of_offsetOf hoff⟩
  · rintro ⟨i, hi, hoff⟩
    have hword := h.toNat_ofNat hi
    refine ⟨.ofNat i, ?_, ?_⟩
    · rwa [UInt16.lt_iff_toNat_lt, h.toNat_capacity, hword]
    · rw [SlotPage.offsetOf_of_lt h.greatest (by rwa [hword]), hword, ← hoff, UInt16.ofNat_toNat]

/-! ## Asking for a size -/

/-- Asked at the offset and asked for the row, the page has the same size in mind. -/
def AnswersSize (offset row : UInt16) (size : UInt32) (q : SlotPage) : Prop :=
  ((sizeAt offset).run q).result = .ok size ∧
    ((isInUse row).run q).result = .ok (decide (size ≠ 0))

theorem Shaped.answers (h : Shaped n p) (hrow : row.toNat < rowsIn n)
    (hoff : offset.toNat = rowStart row.toNat) :
    AnswersSize offset row (p.reported row.toNat) p := by
  obtain ⟨es, hread⟩ := run_readSize h hrow
  refine ⟨result_sizeAt h hrow hoff, ?_⟩
  unfold isInUse
  rw [Action.run_bind_view (h.offsetOf_of_lt hrow), Action.run_bind_ok hread]
  rfl

/-! ## Giving a row another size -/

/-- The row has another size and no other row has changed, or the count cannot follow the row and
nothing has changed. -/
def Gives {α : Type} (answer : α) (offset row : UInt16) (old new : UInt32) (q : SlotPage)
    (o : Outcome SlotPage α) : Prop :=
  (o.result = .ok answer ∧ AnswersSize offset row new o.state ∧ Within row.toNat q o.state) ∨
    ∃ e, q.countFor row old new = .error e ∧ o.result = .error e ∧ Unmoved q o.state

/-- Whether it is addressed by the offset or by its number, the page means this row. -/
structure SharedRow (offset row : UInt16) (size : UInt32) (q : SlotPage) : Prop where
  answers : AnswersSize offset row size q
  setSizeAt : ∀ new, Gives () offset row size new q ((setSizeAt offset new).run q)
  claim : if size = 0 then Gives offset offset row size placeholderSize q ((claim row).run q)
    else ((claim row).run q).result = .error (.refused (.slotInUse row)) ∧
      Unmoved q ((claim row).run q).state
  release : if size = 0 then ((release row).run q).result = .error (.refused (.slotVacant row)) ∧
      Unmoved q ((release row).run q).state
    else Gives offset offset row size 0 q ((release row).run q)

section

variable (h : Shaped n p) (hrow : row.toNat < rowsIn n) (hoff : offset.toNat = rowStart row.toNat)

include h hrow hoff

theorem gives_setSizeAt (new : UInt32) :
    Gives () offset row (p.reported row.toNat) new p ((setSizeAt offset new).run p) := by
  cases hcount : p.countFor row (p.reported row.toNat) new with
  | error e =>
    obtain ⟨es, hrun⟩ := run_setSizeAt_of_error h hrow hoff hcount
    rw [hrun]
    exact .inr ⟨e, hcount, rfl, unmoved_keep h hrow⟩
  | ok count =>
    obtain ⟨es, hrun⟩ := run_setSizeAt h hrow hoff hcount
    have hwithin := within_resized h hrow new count
    have hanswers := (hwithin.shaped h).answers hrow hoff
    have hreported : (p.resized row.toNat new count).reported row.toNat = new :=
      congrArg Entry.size (entry_resized h hrow new count)
    rw [hreported] at hanswers
    rw [hrun]
    exact .inl ⟨rfl, hanswers, hwithin⟩

theorem gives_turned {w : Row} {es : List Event} {found : Result UInt16}
    (hcount : p.countFor row (p.reported row.toNat) w.size = found.map some) :
    Gives offset offset row (p.reported row.toNat) w.size p (p.turned row w es found) := by
  cases found with
  | error e => exact .inr ⟨e, hcount, rfl, unmoved_keep h hrow⟩
  | ok count =>
    have hwithin := within_rewritten h hrow w count
    have hanswers := (hwithin.shaped h).answers hrow hoff
    have hreported : (p.rewritten row.toNat w count).reported row.toNat = w.size :=
      congrArg Entry.size (entry_rewritten h hrow w count)
    rw [hreported] at hanswers
    refine .inl ⟨?_, hanswers, hwithin⟩
    show Except.ok (UInt16.ofNat (rowStart row.toNat)) = _
    rw [← hoff, UInt16.ofNat_toNat]

theorem Shaped.sharedRow : SharedRow offset row (p.reported row.toNat) p where
  answers := h.answers hrow hoff
  setSizeAt := gives_setSizeAt h hrow hoff
  claim := by
    by_cases hvacant : p.reported row.toNat = 0
    · obtain ⟨es, hrun⟩ := run_claim_of_vacant h hrow hvacant
      rw [if_pos hvacant, hrun]
      exact gives_turned h hrow hoff (if_pos ⟨hvacant, by decide⟩)
    · obtain ⟨es, hrun⟩ := run_claim_of_used h hrow hvacant
      rw [if_neg hvacant, hrun]
      exact ⟨rfl, unmoved_keep h hrow⟩
  release := by
    by_cases hvacant : p.reported row.toNat = 0
    · obtain ⟨es, hrun⟩ := run_release_of_vacant h hrow hvacant
      rw [if_pos hvacant, hrun]
      exact ⟨rfl, unmoved_keep h hrow⟩
    · obtain ⟨es, hrun⟩ := run_release_of_used h hrow hvacant
      rw [if_neg hvacant, hrun]
      refine gives_turned h hrow hoff ?_
      exact (if_neg fun hboth => hvacant hboth.1).trans (if_pos ⟨hvacant, rfl⟩)

end

/-! ## Which offsets are taken -/

-- The count is all that a new size can be refused for.
theorem Shaped.corruption_of_countFor (h : Shaped n p) {e : Failure}
    (he : p.countFor row old new = .error e) : ∃ cause, e = .refused (.corruption cause) := by
  unfold countFor at he
  rw [h.countUp_eq, h.countDown_eq] at he
  split at he
  · split at he
    · exact ⟨_, (Except.error.inj he).symm⟩
    · exact absurd he nofun
  · split at he
    · split at he
      · exact ⟨_, (Except.error.inj he).symm⟩
      · exact absurd he nofun
    · exact absurd he nofun

theorem Shaped.takes_offset_iff (h : Shaped n p) :
    (((sizeAt offset).run p).result ≠ .error (.refused (.invalidRowOffset offset)) ↔
      ∃ row < p.capacity, layout.offsetOf row = .ok offset) ∧
    ∀ new, ((setSizeAt offset new).run p).result ≠ .error (.refused (.invalidRowOffset offset)) ↔
      ∃ row < p.capacity, layout.offsetOf row = .ok offset := by
  rw [h.exists_offsetOf_iff]
  by_cases hstart : ∃ i < rowsIn n, offset.toNat = rowStart i
  · simp only [hstart, iff_true]
    obtain ⟨i, hi, hoff⟩ := hstart
    have hword := h.toNat_ofNat hi
    rw [← hword] at hi hoff
    constructor
    · rw [(h.answers hi hoff).1]
      nofun
    · intro new
      obtain ⟨hok, -⟩ | ⟨e, hcount, herror, -⟩ := gives_setSizeAt h hi hoff new
      · rw [hok]
        nofun
      · obtain ⟨cause, rfl⟩ := h.corruption_of_countFor hcount
        rw [herror]
        nofun
  · have hout := h.rowAt_of_no_start fun i hi hoff => hstart ⟨i, hi, hoff⟩
    simp only [hstart, iff_false, not_not]
    constructor
    · rw [sizeAt, Action.run_bind_view_error hout]
    · intro new
      rw [setSizeAt, Action.run_bind_view_error hout]

/-- **Rows and offsets address the same.**  Under any layout with room for a location, a row has an
offset unless that is past the last word, and the offset leads back to it; an offset lies in a row
unless it is before the first, and leads to the last row start at or before it.  A page takes just
the offsets at which its rows start, and what it does there it does to the row of that number. -/
theorem rows_offsets_agree {w : RowLayout} (hstride : Location.width ≤ w.stride.toNat)
    (hq : Reached q) :
    (∀ row, (w.offsetOf row = .error (.fault (.unaddressableRow row)) ↔
        65535 < row.toNat * w.stride.toNat + w.base.toNat) ∧
      (row.toNat * w.stride.toNat + w.base.toNat ≤ 65535 → ∃ offset, w.offsetOf row = .ok offset ∧
        offset.toNat = row.toNat * w.stride.toNat + w.base.toNat ∧
        w.rowAt offset = .ok row)) ∧
    (∀ offset, (w.rowAt offset = .error (.fault (.offsetBeforeRows offset)) ↔ offset < w.base) ∧
      (w.base ≤ offset → ∃ row start, w.rowAt offset = .ok row ∧ w.offsetOf row = .ok start ∧
        start ≤ offset ∧ offset.toNat - start.toNat < w.stride.toNat ∧
        (start = offset ↔ w.stride.toNat ∣ offset.toNat - w.base.toNat))) ∧
    ∀ offset,
      (((sizeAt offset).run q).result ≠ .error (.refused (.invalidRowOffset offset)) ↔
        ∃ row < q.capacity, layout.offsetOf row = .ok offset) ∧
      (∀ new, ((setSizeAt offset new).run q).result ≠ .error (.refused (.invalidRowOffset offset)) ↔
        ∃ row < q.capacity, layout.offsetOf row = .ok offset) ∧
      ∀ row < q.capacity, layout.offsetOf row = .ok offset → ∃ size, SharedRow offset row size q := by
  have h := hq.shaped
  refine ⟨fun row => ⟨?_, ?_⟩, fun offset => ⟨?_, ?_⟩, fun offset => ⟨?_, ?_, ?_⟩⟩
  · exact RowLayout.offsetOf_eq_error_iff hstride
  · intro hle
    have hlt : w.start row < UInt16.size := Nat.lt_succ_of_le hle
    have hoff := RowLayout.toNat_ofNat_start hlt
    exact ⟨_, RowLayout.offsetOf_of_start_lt hstride hlt, hoff,
      RowLayout.rowAt_of_start hstride hoff⟩
  · exact RowLayout.rowAt_eq_error_iff hstride
  · intro hle
    obtain ⟨row, start, hat, hof, hsplit⟩ := RowLayout.offsetOf_rowAt hstride hle
    have hpos : 0 < w.stride.toNat := Nat.lt_of_lt_of_le (by decide) hstride
    have hrest := Nat.mod_lt (offset.toNat - w.base.toNat) hpos
    refine ⟨row, start, hat, hof, ?_, ?_, ?_⟩
    · rw [UInt16.le_iff_toNat_le]
      omega
    · omega
    · rw [← UInt16.toNat_inj, Nat.dvd_iff_mod_eq_zero]
      omega
  · exact h.takes_offset_iff.1
  · exact h.takes_offset_iff.2
  · intro row hrow hoff
    rw [UInt16.lt_iff_toNat_lt, h.toNat_capacity] at hrow
    exact ⟨_, h.sharedRow hrow (start_of_offsetOf hoff)⟩

-- Packed rows behind two bytes, and a page whose row 1 starts at 14 and is in use.
theorem rows_offsets_agree_packed :
    let w : RowLayout := ⟨2, 6⟩
    let q := unread (.ofBytes 7 #[0x19, 0x93, 0, 1, 0, 0, 0, 0, 0, 0, 0, 0, 0, 0,
      0, 0, 0, 5, 0, 64, 0, 0, 1, 0])
    Reached q ∧ w.offsetOf 10923 = .error (.fault (.unaddressableRow 10923)) ∧
      (∃ offset, w.offsetOf 10922 = .ok offset ∧ w.rowAt offset = .ok 10922) ∧
      w.rowAt 1 = .error (.fault (.offsetBeforeRows 1)) ∧
      ((sizeAt 15).run q).result = .error (.refused (.invalidRowOffset 15)) ∧
      ∃ size, SharedRow 14 1 size q := by
  intro w q
  have hpage : (Record.ofBytes 7 #[0x19, 0x93, 0, 1, 0, 0, 0, 0, 0, 0, 0, 0, 0, 0,
      0, 0, 0, 5, 0, 64, 0, 0, 1, 0]).IsSlotPage := ⟨by decide, by decide, by decide +kernel⟩
  have hq : Reached q := ⟨_, q, [], .inl (by rw [run_ofRecord hpage]), rfl⟩
  obtain ⟨hrows, hoffsets, hpages⟩ := rows_offsets_agree (show 6 ≤ w.stride.toNat by decide) hq
  obtain ⟨offset, hoff, -, hrow⟩ := (hrows 10922).2 (by decide)
  have hinside : ¬ ∃ row < q.capacity, layout.offsetOf row = .ok 15 := by
    rw [hq.shaped.exists_offsetOf_iff]
    decide
  refine ⟨hq, (hrows 10923).1.mpr (by decide), ⟨offset, hoff, hrow⟩,
    (hoffsets 1).1.mpr (by decide), ?_, (hpages 14).2.2 1 (by decide +kernel) (by decide)⟩
  exact not_not.mp fun hne => hinside ((hpages 15).1.mp hne)

end SlotPage

end FreeSpace
