import FreeSpace.Proofs.RelatedSearches
import FreeSpace.Proofs.RowEntries

/-!
# Searches as signed numbers

The number that stands for a search tells how it ended, unless it is 0: then the search found row 0
or there was nothing to find (`signed_eq_signed_iff`).  A row that is found is never vacant, so a
search for which nothing was to find saw vacant rows only, and a right count tells the two apart.
-/

namespace FreeSpace

namespace SlotSearch

variable {s t : SlotSearch} {c row : UInt16} {largest : UInt32}

theorem signed_found (row : UInt16) : (found row).signed = row.toNat := rfl

theorem signed_exhausted (largest : UInt32) :
    (exhausted largest).signed = -(largest.toNat : Int) := rfl

theorem found_eq_zero_iff : found row = .found 0 ↔ row.toNat = 0 := by
  rw [found.injEq, ← UInt16.toNat_inj]
  rfl

theorem exhausted_eq_zero_iff : exhausted largest = .exhausted 0 ↔ largest.toNat = 0 := by
  rw [exhausted.injEq, ← UInt32.toNat_inj]
  rfl

/-- Only row 0 and a largest size of 0 share a number. -/
theorem signed_eq_signed_iff : s.signed = t.signed ↔
    s = t ∨ (s = .found 0 ∧ t = .exhausted 0) ∨ (s = .exhausted 0 ∧ t = .found 0) := by
  cases s with
  | found row =>
    cases t with
    | found other =>
      simp only [signed_found, found.injEq, ← UInt16.toNat_inj, reduceCtorEq, false_and, and_false,
        or_false]
      omega
    | exhausted largest =>
      simp only [signed_found, signed_exhausted, found_eq_zero_iff, exhausted_eq_zero_iff,
        reduceCtorEq, false_and, false_or, or_false]
      omega
  | exhausted largest =>
    cases t with
    | found row =>
      simp only [signed_found, signed_exhausted, found_eq_zero_iff, exhausted_eq_zero_iff,
        reduceCtorEq, false_and, false_or]
      omega
    | exhausted other =>
      simp only [signed_exhausted, exhausted.injEq, ← UInt32.toNat_inj, reduceCtorEq, false_and,
        and_false, or_false]
      omega

/-! ## What 0 stands for -/

-- The word `c` is 0 only if there was nothing to find.
theorem exhausted_iff_signed (hc : s = .exhausted 0 ↔ c = 0) :
    (∃ largest, s = .exhausted largest ∧ (largest.toNat : Int) = -s.signed) ↔
      s.signed < 0 ∨ s.signed = 0 ∧ c = 0 := by
  rw [← hc]
  cases s with
  | found row =>
    rw [signed_found]
    refine iff_of_false nofun ?_
    simp
  | exhausted largest =>
    rw [signed_exhausted, exhausted_eq_zero_iff]
    refine iff_of_true ⟨largest, rfl, (Int.neg_neg _).symm⟩ ?_
    omega

theorem found_iff_signed (hc : s = .exhausted 0 ↔ c = 0) :
    (∃ row, s = .found row ∧ (row.toNat : Int) = s.signed) ↔
      0 < s.signed ∨ s.signed = 0 ∧ 0 < c := by
  rw [UInt16.pos_iff_ne_zero, ne_eq, ← hc]
  cases s with
  | found row =>
    rw [signed_found]
    refine iff_of_true ⟨row, rfl, rfl⟩ ?_
    simp only [reduceCtorEq, not_false_eq_true, and_true]
    omega
  | exhausted largest =>
    rw [signed_exhausted, exhausted_eq_zero_iff]
    refine iff_of_false nofun ?_
    omega

end SlotSearch

namespace SlotPage

variable {n : Nat} {p q : SlotPage}

theorem Settles.exhausted_zero_iff {size : Nat → UInt32} {request : UInt32} {rows limit : Nat}
    {s : SlotSearch} (h : Settles size request rows limit s) (hrows : rows ≤ 65536) :
    s = .exhausted 0 ↔ ∀ i < rows, size i = 0 := by
  constructor
  · intro hs i hi
    have hle := size_le_largest (h.toNat_largest hs) hi
    exact UInt32.le_zero_iff.mp hle
  · intro hvacant
    cases hs : s with
    | found row =>
      -- Vacant rows are passed over, even if nothing is requested.
      obtain ⟨hrow, helig, -⟩ := h.found hrows hs
      exact absurd (hvacant _ hrow) helig.1
    | exhausted largest =>
      by_contra hne
      have hpos : largest ≠ 0 := fun hz => hne (congrArg _ hz)
      obtain ⟨i, hi, hsize⟩ := exists_size_eq_largest (h.toNat_largest hs) hpos
      exact hpos (hsize ▸ hvacant i hi)

theorem Counted.rowCount_eq_zero_iff (hc : Counted p) (h : Shaped n p) :
    p.record.rowCount = 0 ↔ ∀ i < rowsIn n, p.reported i = 0 := by
  rw [← UInt16.toNat_inj, hc]
  show p.occupied.card = 0 ↔ _
  rw [Finset.card_eq_zero]
  unfold occupied
  rw [h.length_eq]
  simp [Finset.filter_eq_empty_iff]

/-- **The count decodes a search.**  On a page whose count is the number of rows that it reports as
in use, the number of a search and the count tell how the search ended: below 0 nothing was found,
above 0 a row was, and 0 stands for row 0 if any row is in use and for nothing if none is. -/
theorem search_signed_count (hq : Reached q) (hc : Counted q) (request : UInt32) :
    ∃ s c, ((search request).run q).result = .ok s ∧ q.count = .ok c ∧
      ((∃ largest, s = .exhausted largest ∧ (largest.toNat : Int) = -s.signed) ↔
        s.signed < 0 ∨ s.signed = 0 ∧ c = 0) ∧
      ((∃ row, s = .found row ∧ (row.toNat : Int) = s.signed) ↔
        0 < s.signed ∨ s.signed = 0 ∧ 0 < c) ∧
      (s = .exhausted 0 ↔ c = 0) ∧
      (s = .exhausted 0 ↔ ∀ i < q.capacity.toNat, q.reported i = 0) ∧
      ∀ t : SlotSearch, t ≠ s → t.signed = s.signed → s.signed = 0 := by
  have h := hq.shaped
  have hrows := Nat.le_of_lt (rowsIn_lt h.greatest)
  obtain ⟨s, hs, hsettles⟩ := settles_search h request
  have hvacant := hsettles.exhausted_zero_iff hrows
  have hcount : s = .exhausted 0 ↔ q.record.rowCount = 0 :=
    hvacant.trans (hc.rowCount_eq_zero_iff h).symm
  refine ⟨s, _, hs, h.count_eq, SlotSearch.exhausted_iff_signed hcount,
    SlotSearch.found_iff_signed hcount, hcount, ?_, ?_⟩
  · rwa [h.toNat_capacity]
  · intro t hne hsame
    obtain he | ⟨-, rfl⟩ | ⟨-, rfl⟩ := SlotSearch.signed_eq_signed_iff.mp hsame
    · exact absurd he hne
    · rfl
    · rfl

-- The number is 0 and the count is 1, so the search has found row 0.
theorem search_signed_count_row_zero :
    let q := unread (.ofBytes 7 #[0x19, 0x93, 0, 1, 0, 0, 0, 5, 0, 8, 0, 0, 0, 96])
    Reached q ∧ Counted q ∧ ∃ s c, ((search 90).run q).result = .ok s ∧ q.count = .ok c ∧
      s.signed = 0 ∧ c = 1 ∧ ∃ row, s = .found row ∧ (row.toNat : Int) = s.signed := by
  intro q
  have hpage : (Record.ofBytes 7 #[0x19, 0x93, 0, 1, 0, 0, 0, 5, 0, 8, 0, 0, 0, 96]).IsSlotPage :=
    ⟨by decide, by decide, by decide +kernel⟩
  have hq : Reached q := ⟨_, q, [], .inl (by rw [run_ofRecord hpage]), rfl⟩
  have hc : Counted q := by
    unfold Counted
    decide +kernel
  have hzero : ((search 90).run q).result.map SlotSearch.signed = .ok 0 := by decide +kernel
  have hone : q.count = .ok 1 := by decide +kernel
  obtain ⟨s, c, hs, hcount, -, hfound, -⟩ := search_signed_count hq hc 90
  rw [hs] at hzero
  have hsigned : s.signed = 0 := Except.ok.inj hzero
  obtain rfl := Except.ok.inj (hone.symm.trans hcount)
  exact ⟨hq, hc, s, 1, hs, hcount, hsigned, rfl, hfound.mpr (.inr ⟨hsigned, by decide⟩)⟩

end SlotPage

end FreeSpace
