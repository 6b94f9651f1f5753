import FreeSpace.Proofs.LocationRows
import FreeSpace.Proofs.SizeCache

/-!
# Where a location may be written

A location can be written at any offset of a slot page, so the write can run over what the page
keeps in other bytes: its tag, its count and the sizes of its rows.  These are the guarded bytes,
and no six bytes in a row miss all of them except where a row starts and behind the last row.
-/

namespace FreeSpace

open SlotPage (rowStart rowStart_eq rowStart_add_le rowsIn)

namespace Record

variable {r s : Record} {position width : Nat}

/-! ## Numbers and their bytes -/

theorem window_eq_digits (h : position + width ≤ r.length) :
    Bytes.window r.data position width = some (Bytes.digits width (r.numberAt position width)) := by
  rw [Bytes.window_of_le h, digits_numberAt h]

/-- Two numbers are equal exactly if they are written with the same bytes. -/
theorem numberAt_eq_iff (hlen : s.length = r.length) (h : position + width ≤ r.length) :
    s.numberAt position width = r.numberAt position width ↔
      ∀ i < width, s.data[position + i]? = r.data[position + i]? := by
  have hr := window_eq_digits h
  have hs := window_eq_digits (hlen ▸ h : position + width ≤ s.length)
  constructor
  · intro he i hi
    have hbr := Bytes.getElem?_of_window hr i
    have hbs := Bytes.getElem?_of_window hs i
    rw [if_pos hi] at hbr hbs
    rw [← hbs, ← hbr, he]
  · intro hbytes
    have hdigits := hs.symm.trans ((Bytes.window_congr hlen hbytes).trans hr)
    have hvalue := congrArg Bytes.value (Option.some.inj hdigits)
    rwa [Bytes.value_digits, Bytes.value_digits, Nat.mod_eq_of_lt (numberAt_lt ..),
      Nat.mod_eq_of_lt (numberAt_lt ..)] at hvalue

theorem ofNat16_numberAt_inj :
    UInt16.ofNat (s.numberAt position 2) = .ofNat (r.numberAt position 2) ↔
      s.numberAt position 2 = r.numberAt position 2 := by
  rw [← UInt16.toNat_inj, UInt16.toNat_ofNat_of_lt' (numberAt_lt s position 2),
    UInt16.toNat_ofNat_of_lt' (numberAt_lt r position 2)]

theorem ofNat32_numberAt_inj :
    UInt32.ofNat (s.numberAt position 4) = .ofNat (r.numberAt position 4) ↔
      s.numberAt position 4 = r.numberAt position 4 := by
  rw [← UInt32.toNat_inj, UInt32.toNat_ofNat_of_lt' (numberAt_lt s position 4),
    UInt32.toNat_ofNat_of_lt' (numberAt_lt r position 4)]

theorem tag_eq_numberAt (h : 2 ≤ r.length) : r.tag = .ok (.ofNat (r.numberAt 0 2)) := by
  unfold tag read16
  rw [field_eq_numberAt (show tagPosition + 2 ≤ r.length from h)]
  rfl

/-! ## The guarded bytes -/

/-- The tag, the count and the size of every row are as they were. -/
structure Spares (r s : Record) : Prop where
  tag_eq : s.tag = r.tag
  rowCount_eq : s.rowCount = r.rowCount
  rowSize_eq : ∀ row < rowsIn r.length, s.rowSize row = r.rowSize row

/-- In a page of this length the byte belongs to the tag, the count or the size of a row. -/
def Guarded (length i : Nat) : Prop :=
  i < 4 ∨ ∃ row < rowsIn length, rowStart row + 6 ≤ i ∧ i < rowStart row + 10

theorem spares_of_bytes (hlen : s.length = r.length) (h4 : 4 ≤ r.length)
    (h : ∀ i, Guarded r.length i → s.data[i]? = r.data[i]?) : Spares r s where
  tag_eq := by
    rw [tag_eq_numberAt (by omega), tag_eq_numberAt (by omega),
      (numberAt_eq_iff hlen (by omega)).mpr fun i hi => h _ (.inl (by omega))]
  rowCount_eq :=
    ofNat16_numberAt_inj.mpr ((numberAt_eq_iff hlen h4).mpr fun i hi => h _ (.inl (by
      show 2 + i < 4
      omega)))
  rowSize_eq row hrow := by
    have hin : rowStart row + Location.width + 4 ≤ r.length := rowStart_add_le hrow
    apply ofNat32_numberAt_inj.mpr
    apply (numberAt_eq_iff hlen hin).mpr
    intro i hi
    apply h _ (.inr ⟨row, hrow, ?_⟩)
    show rowStart row + 6 ≤ rowStart row + 6 + i ∧ rowStart row + 6 + i < rowStart row + 10
    omega

theorem Spares.byte_eq (h : Spares r s) (hlen : s.length = r.length) (h4 : 4 ≤ r.length) {i : Nat}
    (hi : Guarded r.length i) : s.data[i]? = r.data[i]? := by
  obtain hi | ⟨row, hrow, hlow, hhigh⟩ := hi
  · by_cases htag : i < 2
    · have hnum := h.tag_eq
      rw [tag_eq_numberAt (by omega), tag_eq_numberAt (by omega), Except.ok.injEq,
        ofNat16_numberAt_inj, numberAt_eq_iff hlen (by omega)] at hnum
      simpa using hnum i htag
    · have hcount := (numberAt_eq_iff hlen h4).mp (ofNat16_numberAt_inj.mp h.rowCount_eq)
      have hindex : SlotPage.countPosition + (i - 2) = i := by
        show 2 + (i - 2) = i
        omega
      rw [← hindex]
      exact hcount _ (by omega)
  · have hin : rowStart row + Location.width + 4 ≤ r.length := rowStart_add_le hrow
    have hsize := (numberAt_eq_iff hlen hin).mp (ofNat32_numberAt_inj.mp (h.rowSize_eq row hrow))
    have hindex : rowStart row + Location.width + (i - (rowStart row + 6)) = i := by
      show rowStart row + 6 + (i - (rowStart row + 6)) = i
      omega
    rw [← hindex]
    exact hsize _ (by omega)

/-! ## Safe offsets -/

/-- A row starts at the offset, or all rows end before it. -/
def IsSafe (length offset : Nat) : Prop :=
  (∃ row < rowsIn length, offset = rowStart row) ∨ rowStart (rowsIn length) ≤ offset

theorem IsSafe.not_guarded {length offset i : Nat} (h : IsSafe length offset) (hlow : offset ≤ i)
    (hhigh : i < offset + 6) : ¬ Guarded length i := by
  rintro (hi | ⟨row, hrow, hi⟩)
  · obtain ⟨first, -, hfirst⟩ | htail := h
    · rw [rowStart_eq] at hfirst
      omega
    · rw [rowStart_eq] at htail
      omega
  · rw [rowStart_eq] at hi
    obtain ⟨other, -, hother⟩ | htail := h
    · rw [rowStart_eq] at hother
      omega
    · rw [rowStart_eq] at htail
      omega

/-- At any other offset six bytes run over a guarded one. -/
theorem exists_guarded {length offset : Nat} (h : ¬ IsSafe length offset) :
    ∃ i, Guarded length i ∧ offset ≤ i ∧ i < offset + 6 := by
  by_cases hheader : offset < 4
  · exact ⟨offset, .inl hheader, by omega, by omega⟩
  -- The offset lies inside a row, past its start, and sizes are less than six bytes away there.
  have hrows : offset < 4 + rowsIn length * 10 := by
    apply Nat.not_le.mp
    exact fun htail => h (.inr htail)
  have hrow : (offset - 4) / 10 < rowsIn length := by omega
  have hne : offset ≠ rowStart ((offset - 4) / 10) := fun he => h (.inl ⟨_, hrow, he⟩)
  rw [rowStart_eq] at hne
  refine ⟨max offset (rowStart ((offset - 4) / 10) + 6), .inr ⟨_, hrow, ?_⟩, ?_⟩
  · rw [rowStart_eq]
    omega
  · rw [rowStart_eq]
    omega

theorem spares_put_iff {offset : Nat} (hin : offset + 6 ≤ r.length) :
    (∀ l : Location, Spares r (r.put offset l.bytes)) ↔ IsSafe r.length offset := by
  constructor
  · intro h
    by_contra hunsafe
    obtain ⟨i, hi, hlow, hhigh⟩ := exists_guarded hunsafe
    -- The byte would have to be both what the one location and what the other writes there.
    have hbyte : ∀ l : Location, r.data[i]? = l.bytes[i - offset]? := by
      intro l
      rw [← (h l).byte_eq (length_put ..) (by omega) hi]
      apply getElem?_put_of_inside
      · rwa [Location.length_bytes]
      · exact hlow
      · rwa [Location.length_bytes]
    have hzeros : (⟨0, 0⟩ : Location).bytes = List.replicate 6 0 := by decide
    have hones : (⟨0xFFFFFFFF, 0xFFFF⟩ : Location).bytes = List.replicate 6 255 := by decide
    have hboth := (hbyte ⟨0, 0⟩).symm.trans (hbyte ⟨0xFFFFFFFF, 0xFFFF⟩)
    rw [hzeros, hones, List.getElem?_replicate, List.getElem?_replicate, if_pos (by omega),
      if_pos (by omega)] at hboth
    exact absurd hboth (by decide)
  · intro hsafe l
    apply spares_of_bytes (length_put ..) (by omega)
    intro i hi
    apply getElem?_put_of_outside
    rw [Location.length_bytes]
    by_contra hinside
    exact hsafe.not_guarded (by omega) (by omega) hi

end Record

namespace SlotPage

open Record (Spares IsSafe)

variable {q : SlotPage} {offset : UInt16}

theorem run_setLocation_of_le (hlen : q.record.length ≤ Record.maxLength)
    (hin : offset.toNat + 6 ≤ q.record.length) (l : Location) :
    (setLocation offset l).run q =
      ⟨.ok (), ⟨q.record.put offset.toNat l.bytes, q.sizes⟩, []⟩ := by
  rw [setLocation, run_onRecord, Record.run_writeLocation_of_le hlen hin]

/-- A location that fits can be written anywhere, but only where a row starts and behind the last
row does every location spare the tag, the count and the sizes; and where a row starts nothing but
its own location is written. -/
theorem setLocation_spares_iff (hlen : q.record.length ≤ Record.maxLength)
    (hin : offset.toNat + Location.width ≤ q.record.length) :
    (∀ l, ((setLocation offset l).run q).result = .ok ()) ∧
    ((∀ l, Spares q.record ((setLocation offset l).run q).state.record) ↔
      (∃ row < q.capacity.toNat, offset.toNat = rowStart row) ∨
        rowStart q.capacity.toNat ≤ offset.toNat) ∧
    ∀ row < q.capacity.toNat, offset.toNat = rowStart row →
      ∀ l i, i < rowStart row ∨ rowStart row + Location.width ≤ i →
        ((setLocation offset l).run q).state.record.data[i]? = q.record.data[i]? := by
  have hrun := run_setLocation_of_le hlen hin
  have hrows : q.capacity.toNat = rowsIn q.record.length :=
    UInt16.toNat_ofNat_of_lt' (rowsIn_lt hlen)
  refine ⟨?_, ?_, ?_⟩
  · intro l
    rw [hrun]
  · simp only [hrun, hrows]
    exact Record.spares_put_iff hin
  · intro row _ hrow l i hi
    rw [hrun]
    apply Record.getElem?_put_of_outside
    rw [Location.length_bytes, hrow]
    exact hi

-- One row and six bytes behind it: the row's start and the tail are safe, a byte further is not.
theorem setLocation_spares_iff_one_row :
    let q := unread (.ofBytes 7 #[0x19, 0x93, 0, 1, 0, 0, 0, 5, 0, 8, 0, 0, 0, 96,
      0, 0, 0, 0, 0, 0])
    (∀ l, Spares q.record ((setLocation 4 l).run q).state.record) ∧
      (∀ l, Spares q.record ((setLocation 14 l).run q).state.record) ∧
      ¬ ∀ l, Spares q.record ((setLocation 5 l).run q).state.record := by
  intro q
  have hlen : q.record.length ≤ Record.maxLength := by decide
  have hfits : ∀ offset : UInt16, offset.toNat ≤ 14 → offset.toNat + 6 ≤ q.record.length :=
    fun _ h => Nat.add_le_add_right h 6
  have hstart := setLocation_spares_iff hlen (hfits 4 (by decide))
  have htail := setLocation_spares_iff hlen (hfits 14 (by decide))
  have hinside := setLocation_spares_iff hlen (hfits 5 (by decide))
  refine ⟨hstart.2.1.mpr (by decide), htail.2.1.mpr (by decide), ?_⟩
  rw [hinside.2.1]
  decide

end SlotPage

end FreeSpace
