import FreeSpace.Proofs.CallSteps
import FreeSpace.Proofs.FaultFree
import FreeSpace.Proofs.Refusals

/-!
# The sizes a page reports

For each row a page answers the size that it keeps, or else the one in its record (`reported`).  The
two differ once a location was written over a size, so nothing is asked here of a page but its shape.
What only looks at a page leaves its record and all that it reports (`lookSteps`).
-/

namespace FreeSpace.SlotPage

variable {n : Nat} {p q : SlotPage}

/-- The page was opened or formatted, and then used in any way. -/
def Reached (q : SlotPage) : Prop :=
  ∃ r p moves, ((ofRecord.run r).result = .ok p ∨ (format.run r).result = .ok p) ∧
    after moves p = .ok q

theorem Reached.shaped (h : Reached q) : Shaped q.record.length q := by
  obtain ⟨r, p, moves, hp, hq⟩ := h
  have hshape : Shaped p.record.length p := by
    rcases hp with hp | hp
    · obtain ⟨hpage, rfl⟩ := ofRecord_eq_ok hp
      exact shaped_unread hpage
    · obtain ⟨hl, hg, rfl⟩ := format_eq_ok hp
      exact shaped_unread (Record.isSlotPage_formatted hl hg)
  have hq := shaped_after hshape hq
  rwa [hq.length_eq]

/-! ## Rows and offsets -/

-- Where a row starts is said by the length alone, which is that of an empty page.
theorem Shaped.rowAt_eq (h : Shaped n p) (offset : UInt16) :
    p.rowAt offset = BarePage.rowAt offset p.record := by
  have hempty : Sound (unread p.record.formatted) :=
    sound_unread (Record.isSlotPage_formatted (by rw [h.length_eq]; exact h.least)
      (by rw [h.length_eq]; exact h.greatest))
  have hat := SlotPage.rowAt_eq hempty offset
  have hlen : (unread p.record.formatted).record.length = p.record.length :=
    Record.length_formatted p.record
  unfold rowAt capacity BarePage.rowAt at hat ⊢
  rw [hlen] at hat
  exact hat

theorem Shaped.rowAt_of_start (h : Shaped n p) {row offset : UInt16} (hrow : row.toNat < rowsIn n)
    (hoff : offset.toNat = rowStart row.toNat) : p.rowAt offset = .ok row := by
  rw [h.rowAt_eq]
  exact BarePage.rowAt_of_start (by rwa [h.length_eq]) hoff

theorem Shaped.rowAt_of_no_start (h : Shaped n p) {offset : UInt16}
    (hno : ∀ i < rowsIn n, offset.toNat ≠ rowStart i) :
    p.rowAt offset = .error (.refused (.invalidRowOffset offset)) := by
  rw [h.rowAt_eq]
  exact BarePage.rowAt_of_no_start (by rwa [h.length_eq])

/-! ## Reading a size -/

/-- The size that a page keeps for a row, if it has read or written it. -/
def kept? (p : SlotPage) (i : Nat) : Option UInt32 :=
  p.sizes[i]?.join

def reported (p : SlotPage) (i : Nat) : UInt32 :=
  (p.kept? i).getD (p.record.rowSize i)

/-- The page once it keeps this size. -/
def keep (p : SlotPage) (i : Nat) (size : UInt32) : SlotPage :=
  ⟨p.record, p.sizes.setIfInBounds i (some size)⟩

theorem kept?_setIfInBounds {r : Record} {sizes : Array (Option UInt32)} {i : Nat}
    (hi : i < sizes.size) (size : UInt32) (j : Nat) :
    (SlotPage.mk r (sizes.setIfInBounds i (some size))).kept? j =
      if j = i then some size else sizes[j]?.join := by
  unfold kept?
  rw [Array.getElem?_setIfInBounds]
  by_cases hj : i = j
  · subst hj
    simp [hi]
  · simp [hj, Ne.symm hj]

theorem Shaped.keep (h : Shaped n p) (i : Nat) (size : UInt32) : Shaped n (p.keep i size) :=
  ⟨h.least, h.greatest, h.length_eq, Array.size_setIfInBounds.trans h.size_sizes⟩

theorem kept?_keep (h : Shaped n p) {i : Nat} (hi : i < rowsIn n) (size : UInt32) (j : Nat) :
    (p.keep i size).kept? j = if j = i then some size else p.kept? j :=
  kept?_setIfInBounds (by rwa [h.size_sizes]) size j

-- Keeping the size that is reported anyway changes no answer.
theorem reported_keep (h : Shaped n p) {i : Nat} (hi : i < rowsIn n) (j : Nat) :
    (p.keep i (p.reported i)).reported j = p.reported j := by
  unfold reported
  rw [kept?_keep h hi]
  split
  · rename_i hj
    subst hj
    rfl
  · rfl

/-- What reading the size of a row reports: that size, unless the page keeps it. -/
def readEvents (p : SlotPage) (row : UInt16) : List Event :=
  match p.kept? row.toNat with
  | some _ => []
  | none => [.sizeCached (p.record.rowSize row.toNat) row p.record.id]

/-- A size once read is kept, and the size that was kept before is read again. -/
theorem run_readSize_eq (h : Shaped n p) {row : UInt16} (hrow : row.toNat < rowsIn n) :
    (readSize row).run p =
      ⟨.ok (p.reported row.toNat), p.keep row.toNat (p.reported row.toNat), p.readEvents row⟩ := by
  have hlt : row.toNat < p.sizes.size := by rwa [h.size_sizes]
  have hsizes := Array.getElem?_eq_getElem hlt
  have hread : sizeRead? row p = .ok p.sizes[row.toNat] := by
    unfold sizeRead?
    rw [hsizes]
  unfold readSize readEvents
  rw [Action.run_bind_view hread]
  cases hk : p.sizes[row.toNat] with
  | some size =>
    have hkept : p.kept? row.toNat = some size := by simp [kept?, hsizes, hk]
    have hrep : p.reported row.toNat = size := by simp [reported, hkept]
    have hsame : p.keep row.toNat size = p := by
      unfold SlotPage.keep
      rw [← hk, Array.setIfInBounds_def, dif_pos hlt, Array.set_getElem_self]
    rw [hrep, hsame, hkept]
    rfl
  | none =>
    have hkept : p.kept? row.toNat = none := by simp [kept?, hsizes, hk]
    have hrep : p.reported row.toNat = p.record.rowSize row.toNat := by simp [reported, hkept]
    have hposition : (Action.lift (sizePosition row)).run p =
        ⟨.ok (rowStart row.toNat + Location.width), p, []⟩ := by
      rw [Action.run_lift, sizePosition_of_lt h.greatest hrow]
    have hend : rowStart row.toNat + Location.width + 4 ≤ p.record.length := by
      rw [h.length_eq]
      exact rowStart_add_le hrow
    have hfield : p.record.read32 (rowStart row.toNat + Location.width) =
        .ok (p.record.rowSize row.toNat) := by
      unfold Record.read32
      rw [Record.field_eq_numberAt hend]
      rfl
    have hkeep : (keepSize row (p.record.rowSize row.toNat)).run p =
        ⟨.ok (), p.keep row.toNat (p.record.rowSize row.toNat), []⟩ := if_pos hlt
    rw [hrep, hkept, Action.run_bind_silent hposition,
      Action.run_bind_view (f := fun q : SlotPage => q.record.read32 _) (s := p) hfield,
      Action.run_bind_ok (Action.run_report ..), Action.run_bind_silent hkeep]
    rfl

theorem run_readSize (h : Shaped n p) {row : UInt16} (hrow : row.toNat < rowsIn n) :
    ∃ es, (readSize row).run p =
      ⟨.ok (p.reported row.toNat), p.keep row.toNat (p.reported row.toNat), es⟩ :=
  ⟨_, run_readSize_eq h hrow⟩

/-- The page has no such row, so there is nothing to read. -/
theorem run_readSize_of_le (h : Shaped n p) {row : UInt16} (hrow : rowsIn n ≤ row.toNat) :
    (readSize row).run p = ⟨.error (.fault .outOfBounds), p, []⟩ := by
  have hnone : p.sizes[row.toNat]? = none := by
    rwa [Array.getElem?_eq_none_iff, h.size_sizes]
  have hfault : sizeRead? row p = .error (.fault .outOfBounds) := by
    unfold sizeRead?
    rw [hnone]
  unfold readSize
  rw [Action.run_bind_view_error hfault]

/-! ## Looking at a page -/

/-- Nothing that can be asked of the first page is answered otherwise by the second. -/
structure Unmoved (p q : SlotPage) : Prop where
  record : q.record = p.record
  size_sizes : q.sizes.size = p.sizes.size
  reported : ∀ i, q.reported i = p.reported i

namespace Unmoved

theorem refl (p : SlotPage) : Unmoved p p :=
  ⟨rfl, rfl, fun _ => rfl⟩

theorem trans {s : SlotPage} (h : Unmoved p q) (h' : Unmoved q s) : Unmoved p s :=
  ⟨h'.record.trans h.record, h'.size_sizes.trans h.size_sizes,
    fun i => (h'.reported i).trans (h.reported i)⟩

theorem shaped (h : Unmoved p q) (hp : Shaped n p) : Shaped n q where
  least := hp.least
  greatest := hp.greatest
  length_eq := by rw [h.record, hp.length_eq]
  size_sizes := h.size_sizes.trans hp.size_sizes

end Unmoved

theorem unmoved_keep (h : Shaped n p) {i : Nat} (hi : i < rowsIn n) :
    Unmoved p (p.keep i (p.reported i)) :=
  ⟨rfl, Array.size_setIfInBounds, reported_keep h hi⟩

/-- Reading a size, in range or not, moves nothing on a page of this shape; so neither does any call
that only looks. -/
theorem lookSteps (n : Nat) : LookSteps fun p _ q => Shaped n p → Unmoved p q where
  refl p _ := .refl p
  trans h h' hp := (h hp).trans (h' ((h hp).shaped hp))
  event p _ _ _ := .refl p
  readSize row p hp := by
    by_cases hrow : row.toNat < rowsIn n
    · obtain ⟨es, hrun⟩ := run_readSize hp hrow
      rw [hrun]
      exact unmoved_keep hp hrow
    · rw [run_readSize_of_le hp (Nat.not_lt.mp hrow)]
      exact .refl p

end FreeSpace.SlotPage
