import FreeSpace.Proofs.StoredRows

/-!
# Which records are slot pages

`IsSlotPage` says of a record what opening it checks: its length and its tag.  A record is opened
exactly if it is a slot page (`run_ofRecord`, `ofRecord_eq_ok`), writes behind the tag leave it one,
and formatting a record of a page's length makes it an empty one.
-/

namespace FreeSpace

namespace Record

structure IsSlotPage (r : Record) : Prop where
  least : 4 ≤ r.length
  greatest : r.length ≤ maxLength
  tag : r.tag = .ok PageType.freePhysicalSlot.tag

namespace IsSlotPage

open SlotPage (rowsIn rowStart_eq)

variable {r : Record}

theorem put (h : r.IsSlotPage) {position : Nat} (hp : 2 ≤ position) (bytes : List UInt8) :
    (r.put position bytes).IsSlotPage where
  least := by rw [length_put]; exact h.least
  greatest := by rw [length_put]; exact h.greatest
  tag := by rw [tag_put_of_le hp]; exact h.tag

theorem putSize (h : r.IsSlotPage) (row : Nat) (size : UInt32) :
    (r.putSize row size).IsSlotPage := by
  apply h.put
  rw [rowStart_eq]
  omega

theorem putLocation (h : r.IsSlotPage) (row : Nat) (l : Location) :
    (r.putLocation row l).IsSlotPage := by
  have hr := rowStart_eq row
  exact (h.put (by omega) _).put (by omega) _

theorem putCount (h : r.IsSlotPage) (count : UInt16) : (r.putCount count).IsSlotPage :=
  h.put (Nat.le_refl 2) _

theorem rows_lt (h : r.IsSlotPage) {row : Nat} (hrow : row < rowsIn r.length) : row < 65536 :=
  Nat.lt_trans hrow (SlotPage.rowsIn_lt h.greatest)

theorem toNat_capacity (h : r.IsSlotPage) :
    (UInt16.ofNat (rowsIn r.length)).toNat = rowsIn r.length :=
  UInt16.toNat_ofNat_of_lt' (SlotPage.rowsIn_lt h.greatest)

end IsSlotPage

/-! ## The tag -/

theorem requireType_of_tag {r : Record} {t : PageType} (hlen : headerLength ≤ r.length)
    (h : r.tag = .ok t.tag) : r.requireType t = .ok () := by
  have hp : r.pageType = .ok t := by
    unfold pageType
    rw [h, Result.ok_bind, PageType.ofTag?_tag]
  unfold requireType
  rw [if_neg (Nat.not_lt.mpr hlen), hp]
  exact if_pos rfl

theorem tag_of_pageType {r : Record} {t : PageType} (h : r.pageType = .ok t) :
    r.tag = .ok t.tag := by
  unfold pageType at h
  cases ht : r.tag with
  | error e =>
    rw [ht] at h
    exact absurd h nofun
  | ok w =>
    rw [ht, Result.ok_bind] at h
    cases ho : PageType.ofTag? w with
    | none =>
      rw [ho] at h
      exact absurd h nofun
    | some u =>
      rw [ho] at h
      have hu : u = t := Except.ok.inj h
      rw [PageType.ofTag?_eq_some_iff.mp ho, hu]

theorem tag_of_requireType {r : Record} {t : PageType} (h : r.requireType t = .ok ()) :
    r.tag = .ok t.tag := by
  unfold requireType at h
  split at h
  · exact absurd h nofun
  · cases hp : r.pageType with
    | error e =>
      rw [hp] at h
      exact absurd h nofun
    | ok u =>
      rw [hp] at h
      change (if u = t then _ else _) = _ at h
      by_cases hu : u = t
      · rw [tag_of_pageType hp, hu]
      · -- the tag was just read, so reading it again does not fail either
        rw [if_neg hu, tag_of_pageType hp] at h
        exact absurd h nofun

end Record

namespace SlotPage

/-! ## Opening -/

theorem run_requireTag {r : Record} (h : r.requireType .freePhysicalSlot = .ok ()) :
    requireTag.run r = ⟨.ok (), r, []⟩ := by
  simp only [requireTag, h]

theorem result_requireTag (r : Record) :
    (requireTag.run r).result = r.requireType .freePhysicalSlot := by
  simp only [requireTag]
  split
  · rename_i e he
    exact he.symm
  · rfl

theorem run_requireLength {r : Record} (hl : 4 ≤ r.length) (hg : r.length ≤ Record.maxLength) :
    requireLength.run r = ⟨.ok (), r, []⟩ := by
  refine if_neg ?_
  change ¬ (r.length < 4 ∨ Record.maxLength < r.length)
  omega

theorem run_requireLength_of_unusable {r : Record}
    (h : r.length < 4 ∨ Record.maxLength < r.length) :
    requireLength.run r = ⟨.error (.refused (.invalidInput (.recordLength r.length 4
      Record.maxLength))), r, [.unusableLength r.id r.length]⟩ :=
  if_pos h

theorem length_of_requireLength {r : Record} (h : (requireLength.run r).result = .ok ()) :
    4 ≤ r.length ∧ r.length ≤ Record.maxLength := by
  by_cases hl : r.length < 4 ∨ Record.maxLength < r.length
  · rw [run_requireLength_of_unusable hl] at h
    exact absurd h nofun
  · omega

theorem run_ofRecord {r : Record} (h : r.IsSlotPage) :
    ofRecord.run r =
      ⟨.ok (unread r), r, [.pageOpened r.id (.ofNat (rowsIn r.length))]⟩ := by
  have hhead : Record.headerLength ≤ r.length := Nat.le_trans (by decide) h.least
  unfold ofRecord
  rw [Action.run_bind_ok (run_requireTag (Record.requireType_of_tag hhead h.tag)),
    Action.run_bind_ok (run_requireLength h.least h.greatest)]
  rfl

/-- Only a slot page is opened, and it is opened as it is. -/
theorem ofRecord_eq_ok {r : Record} {p : SlotPage} (h : (ofRecord.run r).result = .ok p) :
    r.IsSlotPage ∧ p = unread r := by
  -- Opening is two checks in turn, and both must have been passed.
  have htype : r.requireType .freePhysicalSlot = .ok () := by
    cases ht : r.requireType .freePhysicalSlot with
    | ok => rfl
    | error f =>
      unfold ofRecord at h
      rw [Action.run_bind, result_requireTag, ht] at h
      exact absurd h nofun
  have hlen : (requireLength.run r).result = .ok () := by
    cases hr : (requireLength.run r).result with
    | ok => rfl
    | error f =>
      unfold ofRecord at h
      rw [Action.run_bind_ok (run_requireTag htype), Action.run_bind, hr] at h
      exact absurd h nofun
  obtain ⟨hl, hg⟩ := length_of_requireLength hlen
  have hpage : r.IsSlotPage := ⟨hl, hg, Record.tag_of_requireType htype⟩
  rw [run_ofRecord hpage] at h
  exact ⟨hpage, (Except.ok.inj h).symm⟩

end SlotPage

namespace Record

/-! ## Formatting -/

def cleared (r : Record) : Record :=
  ⟨r.id, Array.replicate r.length 0, true⟩

/-- A record of zeros with the tag of a slot page. -/
def formatted (r : Record) : Record :=
  (r.cleared.put tagPosition (Bytes.digits 2 PageType.freePhysicalSlot.tag.toNat)).putCount 0

@[simp] theorem length_cleared (r : Record) : r.cleared.length = r.length :=
  Array.size_replicate

@[simp] theorem length_formatted (r : Record) : r.formatted.length = r.length := by
  rw [formatted, length_putCount, length_put, length_cleared]

theorem isSlotPage_formatted {r : Record} (hl : 4 ≤ r.length) (hg : r.length ≤ maxLength) :
    r.formatted.IsSlotPage where
  least := by rwa [length_formatted]
  greatest := by rwa [length_formatted]
  tag := by
    have hfit : tagPosition + 2 ≤ r.cleared.length := by
      rw [length_cleared]
      exact Nat.le_trans (by decide) hl
    unfold formatted putCount
    rw [tag_put_of_le (show 2 ≤ SlotPage.countPosition from Nat.le_refl 2)]
    unfold tag read16
    rw [field_eq_numberAt (by rwa [length_put]), numberAt_put hfit (by decide)]
    rfl

theorem numberAt_cleared (r : Record) (position width : Nat) :
    r.cleared.numberAt position width = 0 := by
  unfold numberAt cleared
  rw [Array.extract_replicate, Array.toList_replicate]
  exact Bytes.value_replicate_zero _

-- All numbers behind the header are 0.
theorem numberAt_formatted {r : Record} {position width : Nat} (hp : 4 ≤ position)
    (h : position + width ≤ r.length) : r.formatted.numberAt position width = 0 := by
  unfold formatted putCount
  -- The tag and the count are written before position 4.
  rw [numberAt_put_of_disjoint, numberAt_put_of_disjoint, numberAt_cleared]
  · rwa [length_cleared]
  · exact Or.inr (show 0 + 2 ≤ position by omega)
  · rwa [length_put, length_cleared]
  · exact Or.inr hp

theorem rowSize_formatted {r : Record} {row : Nat} (h : row < SlotPage.rowsIn r.length) :
    r.formatted.rowSize row = 0 := by
  have hend := SlotPage.rowStart_add_le h
  have hs := SlotPage.rowStart_eq row
  unfold rowSize
  rw [numberAt_formatted]
  · rfl
  · change 4 ≤ SlotPage.rowStart row + 6
    omega
  · exact hend

theorem rowCount_formatted {r : Record} (h : 4 ≤ r.length) : r.formatted.rowCount = 0 :=
  rowCount_putCount (by rwa [length_put, length_cleared])

end Record

namespace SlotPage

theorem run_format {r : Record} (hl : 4 ≤ r.length) (hg : r.length ≤ Record.maxLength) :
    format.run r = ⟨.ok (unread r.formatted), r.formatted,
      [.pageOpened r.id (.ofNat (rowsIn r.length))]⟩ := by
  -- The length is checked first, so none of the three writes can fail.
  have hclear : Record.clear.run r = ⟨.ok (), r.cleared, []⟩ := rfl
  have hstamp : (Record.stamp .freePhysicalSlot).run r.cleared = ⟨.ok (), _, []⟩ :=
    Record.run_write16 (by
      rw [Record.length_cleared]
      exact Nat.le_trans (by decide) hl) _
  have hcount : (Record.write16 countPosition 0).run _ = ⟨.ok (), r.formatted, []⟩ :=
    Record.run_write16 (by rwa [Record.length_put, Record.length_cleared]) _
  have hopen := run_ofRecord (Record.isSlotPage_formatted hl hg)
  rw [Record.length_formatted] at hopen
  unfold format
  rw [Action.run_bind_silent (run_requireLength hl hg), Action.run_bind_silent hclear,
    Action.run_bind_silent hstamp, Action.run_bind_silent hcount]
  exact hopen

theorem run_format_of_unusable {r : Record} (h : r.length < 4 ∨ Record.maxLength < r.length) :
    format.run r = ⟨.error (.refused (.invalidInput (.recordLength r.length 4
      Record.maxLength))), r, [.unusableLength r.id r.length]⟩ :=
  Action.run_bind_error (run_requireLength_of_unusable h) _

theorem format_eq_ok {r : Record} {p : SlotPage} (h : (format.run r).result = .ok p) :
    4 ≤ r.length ∧ r.length ≤ Record.maxLength ∧ p = unread r.formatted := by
  have hlen : (requireLength.run r).result = .ok () := by
    cases hr : (requireLength.run r).result with
    | ok => rfl
    | error f =>
      unfold format at h
      rw [Action.run_bind, hr] at h
      exact absurd h nofun
  obtain ⟨hl, hg⟩ := length_of_requireLength hlen
  rw [run_format hl hg] at h
  exact ⟨hl, hg, (Except.ok.inj h).symm⟩

end SlotPage

end FreeSpace
