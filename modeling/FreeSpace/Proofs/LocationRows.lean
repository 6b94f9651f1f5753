import FreeSpace.LocationTable
import FreeSpace.Proofs.RowTable

/-!
# Rows as an array of locations

Rows that are wide enough for a location do not meet (`start_disjoint`), so a table over any record
behaves as an array: setting rows one after the other leaves each row at what it was last set to,
and leaves all other bytes (`run_setRows`).
-/

namespace FreeSpace

namespace LocationTable

/-- The six location bytes of the row lie inside the record. -/
def HasRow (t : LocationTable) (row : UInt16) : Prop :=
  t.layout.start row + Location.width ≤ t.record.length

instance (t : LocationTable) (row : UInt16) : Decidable (t.HasRow row) :=
  inferInstanceAs (Decidable (_ ≤ _))

def rowLocation (t : LocationTable) (row : UInt16) : Location :=
  t.record.locationAt (t.layout.start row)

variable {t u v : LocationTable} {row : UInt16} {l : Location} {sets : List (UInt16 × Location)}

theorem start_lt_of_hasRow (hlen : t.record.length ≤ Record.maxLength) (hrow : t.HasRow row) :
    t.layout.start row < UInt16.size := by
  change t.record.length ≤ 65535 at hlen
  change t.layout.start row + 6 ≤ t.record.length at hrow
  show t.layout.start row < 65536
  omega

-- Where a row starts its location is found.
theorem location_of_hasRow (hstride : Location.width ≤ t.layout.stride.toNat)
    (hlen : t.record.length ≤ Record.maxLength) (hrow : t.HasRow row) :
    ∃ offset, t.layout.offsetOf row = .ok offset ∧
      t.record.locationRecord offset = .ok (t.rowLocation row).record ∧
        t.record.locationOffset offset = .ok (t.rowLocation row).offset := by
  have hlt := start_lt_of_hasRow hlen hrow
  have hoffset := RowLayout.toNat_ofNat_start hlt
  have hin : (UInt16.ofNat (t.layout.start row)).toNat + 6 ≤ t.record.length := by
    rw [hoffset]
    exact hrow
  refine ⟨_, RowLayout.offsetOf_of_start_lt hstride hlt, ?_, ?_⟩
  · rw [Record.locationRecord_of_le hin, hoffset]
    rfl
  · rw [Record.locationOffset_of_le hlen hin, hoffset]
    rfl

/-! ## Setting rows -/

def setRow (row : UInt16) (l : Location) : Action LocationTable Unit := do
  write (← .view (·.layout.offsetOf row)) l

def setRows : List (UInt16 × Location) → Action LocationTable Unit
  | [] => return ()
  | (row, l) :: rest => do
      setRow row l
      setRows rest

/-- The location that a row was last set to, if it was set. -/
def lastSet? (sets : List (UInt16 × Location)) (row : UInt16) : Option Location :=
  (sets.filter fun s => s.1 = row).getLast?.map (·.2)

theorem lastSet?_cons (s : UInt16 × Location) (sets : List (UInt16 × Location)) (row : UInt16)
    (old : Location) :
    (lastSet? (s :: sets) row).getD old =
      (lastSet? sets row).getD (if s.1 = row then s.2 else old) := by
  unfold lastSet?
  by_cases h : s.1 = row
  · rw [List.filter_cons_of_pos (by simpa using h), List.getLast?_cons, if_pos h]
    cases (sets.filter fun s => s.1 = row).getLast? <;> rfl
  · rw [List.filter_cons_of_neg (by simpa using h), if_neg h]

/-- What setting these rows in order makes of a table. -/
structure SetsTo (sets : List (UInt16 × Location)) (t u : LocationTable) : Prop where
  layout_eq : u.layout = t.layout
  length_eq : u.record.length = t.record.length
  rowLocation_eq : ∀ row, t.HasRow row →
    u.rowLocation row = (lastSet? sets row).getD (t.rowLocation row)
  byte_eq : ∀ i, (∀ s ∈ sets, i < t.layout.start s.1 ∨ t.layout.start s.1 + Location.width ≤ i) →
    u.record.data[i]? = t.record.data[i]?

theorem SetsTo.hasRow_iff (h : SetsTo sets t u) : u.HasRow row ↔ t.HasRow row := by
  unfold HasRow
  rw [h.layout_eq, h.length_eq]

theorem SetsTo.nil (t : LocationTable) : SetsTo [] t t :=
  ⟨rfl, rfl, fun _ _ => rfl, fun _ _ => rfl⟩

theorem SetsTo.cons (h : SetsTo [(row, l)] t u) (h' : SetsTo sets u v) :
    SetsTo ((row, l) :: sets) t v where
  layout_eq := h'.layout_eq.trans h.layout_eq
  length_eq := h'.length_eq.trans h.length_eq
  rowLocation_eq other hother := by
    have hfst := h.rowLocation_eq other hother
    rw [lastSet?_cons] at hfst ⊢
    rw [h'.rowLocation_eq other (h.hasRow_iff.mpr hother), hfst]
    rfl
  byte_eq i hi := by
    rw [h'.byte_eq i (by rw [h.layout_eq]; exact fun s hs => hi s (.tail _ hs)),
      h.byte_eq i fun s hs => hi s (List.mem_singleton.mp hs ▸ .head _)]

theorem run_write {offset : UInt16} {r : Record}
    (h : (Record.writeLocation offset l).run t.record = ⟨.ok (), r, []⟩) :
    (write offset l).run t = ⟨.ok (), ⟨t.layout, r⟩, []⟩ := by
  unfold write
  simp only [h]

theorem run_setRow (hstride : Location.width ≤ t.layout.stride.toNat)
    (hlen : t.record.length ≤ Record.maxLength) (hrow : t.HasRow row) (l : Location) :
    (setRow row l).run t =
      ⟨.ok (), ⟨t.layout, t.record.put (t.layout.start row) l.bytes⟩, []⟩ := by
  have hlt := start_lt_of_hasRow hlen hrow
  have hoffset := RowLayout.toNat_ofNat_start hlt
  have hin : (UInt16.ofNat (t.layout.start row)).toNat + 6 ≤ t.record.length := by
    rw [hoffset]
    exact hrow
  have hfound := RowLayout.offsetOf_of_start_lt hstride hlt
  unfold setRow
  rw [Action.run_bind_view (f := fun t : LocationTable => t.layout.offsetOf row) hfound,
    run_write (Record.run_writeLocation_of_le hlen hin l), hoffset]

theorem setsTo_setRow (hstride : Location.width ≤ t.layout.stride.toNat) (hrow : t.HasRow row)
    (l : Location) :
    SetsTo [(row, l)] t ⟨t.layout, t.record.put (t.layout.start row) l.bytes⟩ where
  layout_eq := rfl
  length_eq := Record.length_put ..
  rowLocation_eq other hother := by
    rw [lastSet?_cons]
    show (t.record.put _ _).locationAt (t.layout.start other) = if row = other then l else _
    split
    · rename_i he
      rw [he]
      exact Record.locationAt_put (he ▸ hrow) l
    · rename_i hne
      apply Record.locationAt_put_of_disjoint hother
      rw [Location.length_bytes]
      exact (RowLayout.start_disjoint hstride hne).symm
  byte_eq i hi := by
    apply Record.getElem?_put_of_outside
    rw [Location.length_bytes]
    exact hi (row, l) (.head _)

theorem run_setRows (hstride : Location.width ≤ t.layout.stride.toNat)
    (hlen : t.record.length ≤ Record.maxLength) (hsets : ∀ s ∈ sets, t.HasRow s.1) :
    ∃ u, (setRows sets).run t = ⟨.ok (), u, []⟩ ∧ SetsTo sets t u := by
  induction sets generalizing t with
  | nil => exact ⟨t, rfl, .nil t⟩
  | cons s rest ih =>
    obtain ⟨row, l⟩ := s
    have hrow : t.HasRow row := hsets (row, l) (.head _)
    have hfst := setsTo_setRow hstride hrow l
    -- Neither the layout nor the length moves, so the rest runs under the same hypotheses.
    obtain ⟨u, hrun, hrest⟩ := ih (t := ⟨t.layout, t.record.put (t.layout.start row) l.bytes⟩)
      hstride (by rwa [hfst.length_eq]) fun s hs => hfst.hasRow_iff.mpr (hsets s (.tail _ hs))
    refine ⟨u, ?_, hfst.cons hrest⟩
    rw [setRows, Action.run_bind_silent (run_setRow hstride hlen hrow l), hrun]

/-- Setting rows that lie inside the record never fails; afterwards each row inside the record
reads as the location that it was last set to, or as before, and no other byte has changed. -/
theorem setRows_last_set (hstride : Location.width ≤ t.layout.stride.toNat)
    (hlen : t.record.length ≤ Record.maxLength) (hsets : ∀ s ∈ sets, t.HasRow s.1) :
    ∃ u, (setRows sets).run t = ⟨.ok (), u, []⟩ ∧ u.layout = t.layout ∧
      u.record.length = t.record.length ∧
      (∀ row, t.HasRow row → ∃ offset, t.layout.offsetOf row = .ok offset ∧
        u.record.locationRecord offset =
          .ok ((lastSet? sets row).getD (t.rowLocation row)).record ∧
        u.record.locationOffset offset =
          .ok ((lastSet? sets row).getD (t.rowLocation row)).offset) ∧
      ∀ i, (∀ s ∈ sets, i < t.layout.start s.1 ∨ t.layout.start s.1 + Location.width ≤ i) →
        u.record.data[i]? = t.record.data[i]? := by
  obtain ⟨u, hrun, hu⟩ := run_setRows hstride hlen hsets
  refine ⟨u, hrun, hu.layout_eq, hu.length_eq, ?_, hu.byte_eq⟩
  intro row hrow
  have hlocation := location_of_hasRow (t := u) (by rwa [hu.layout_eq]) (by rwa [hu.length_eq])
    (hu.hasRow_iff.mpr hrow)
  rwa [hu.layout_eq, hu.rowLocation_eq row hrow] at hlocation

-- Packed rows: the last of three is set twice, the others not at all.
theorem setRows_last_set_packed :
    let t : LocationTable := ⟨⟨2, 6⟩, .ofBytes 0 #[9, 9, 0, 0, 0, 1, 0, 2, 0, 0, 0, 3, 0, 4,
      0, 0, 0, 0, 0, 0]⟩
    let sets : List (UInt16 × Location) := [(2, ⟨5, 6⟩), (2, ⟨0x0A0B0C0D, 0x1234⟩)]
    ∃ u, (setRows sets).run t = ⟨.ok (), u, []⟩ ∧
      u.record.locationRecord 14 = .ok 0x0A0B0C0D ∧ u.record.locationOffset 14 = .ok 0x1234 ∧
      u.record.locationRecord 8 = .ok 3 ∧ u.record.data[0]? = some 9 := by
  intro t sets
  have hsets : ∀ s ∈ sets, t.HasRow s.1 := by decide
  have hold : t.rowLocation 1 = ⟨3, 4⟩ := by decide +kernel
  obtain ⟨u, hrun, -, -, hrows, hbytes⟩ :=
    setRows_last_set (t := t) (by decide) (by decide) hsets
  obtain ⟨_, hlast, hrecord, hoffset⟩ := hrows 2 (by decide)
  obtain ⟨_, hmiddle, hkept, -⟩ := hrows 1 (by decide)
  rw [hold] at hkept
  cases hlast
  cases hmiddle
  exact ⟨u, hrun, hrecord, hoffset, hkept, hbytes 0 (by decide)⟩

end LocationTable

end FreeSpace
