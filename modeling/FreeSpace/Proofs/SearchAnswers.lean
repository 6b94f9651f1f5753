import FreeSpace.Proofs.ReportedSizes
import Mathlib.Data.Finset.Lattice.Fold
import Mathlib.Order.Bounds.Basic
import Mathlib.Order.Lattice.Nat

/-!
# What a search finds

A search goes through the rows once and may stop early, with a running best row and a running
maximum.  `Settles` says the same of the sizes alone, in no order: the lowest row that wastes less
than the optimal margin, or else the lowest of those that waste least if that is below the limit, or
else the largest size.  The two agree on every page (`search_settles`).
-/

namespace FreeSpace.SlotPage

/-! ## The answer by the sizes alone -/

section

variable (size : Nat → UInt32) (request : UInt32)

/-- The row is in use and holds the request. -/
def Eligible (i : Nat) : Prop :=
  size i ≠ 0 ∧ request ≤ size i

/-- What the request leaves unused of an eligible row. -/
def waste (i : Nat) : Nat :=
  (size i).toNat - request.toNat

/-- What a search among the first `rows` rows has to answer, if it does not accept a waste of
`limit`. -/
inductive Settles (rows limit : Nat) : SlotSearch → Prop
  | tight {i : Nat}
      (hrow : IsLeast {i | i < rows ∧ Eligible size request i ∧ waste size request i < 128} i) :
      Settles rows limit (.found (.ofNat i))
  | least {i w : Nat} (hloose : ∀ i < rows, Eligible size request i → 128 ≤ waste size request i)
      (hleast : IsLeast {w | ∃ i < rows, Eligible size request i ∧ waste size request i = w} w)
      (hlimit : w < limit)
      (hrow : IsLeast {i | i < rows ∧ Eligible size request i ∧ waste size request i = w} i) :
      Settles rows limit (.found (.ofNat i))
  | exhausted {largest : UInt32}
      (hloose : ∀ i < rows, Eligible size request i → 128 ≤ waste size request i)
      (hfar : ∀ i < rows, Eligible size request i → limit ≤ waste size request i)
      (hlargest : largest.toNat = (Finset.range rows).sup fun i => (size i).toNat) :
      Settles rows limit (.exhausted largest)

end

section

variable {size : Nat → UInt32} {request : UInt32}

/-- The sizes leave no choice. -/
theorem Settles.unique {rows limit : Nat} {s t : SlotSearch}
    (hs : Settles size request rows limit s) (ht : Settles size request rows limit t) : s = t := by
  -- Two rules that differ exclude each other; the same rule twice has one least row or one maximum.
  cases hs with
  | tight hrow =>
    obtain ⟨⟨hlt, helig, hwaste⟩, -⟩ := id hrow
    cases ht with
    | tight hrow' => rw [hrow.unique hrow']
    | least hloose => exact absurd hwaste (Nat.not_lt.mpr (hloose _ hlt helig))
    | exhausted hloose => exact absurd hwaste (Nat.not_lt.mpr (hloose _ hlt helig))
  | least hloose hleast hlimit hrow =>
    obtain ⟨⟨hlt, helig, hwaste⟩, -⟩ := id hrow
    cases ht with
    | tight hrow' =>
      obtain ⟨⟨hlt', helig', hwaste'⟩, -⟩ := hrow'
      exact absurd hwaste' (Nat.not_lt.mpr (hloose _ hlt' helig'))
    | least _ hleast' _ hrow' =>
      obtain rfl := hleast.unique hleast'
      rw [hrow.unique hrow']
    | exhausted _ hfar => exact absurd hlimit (Nat.not_lt.mpr (hwaste ▸ hfar _ hlt helig))
  | exhausted hloose hfar hlargest =>
    cases ht with
    | tight hrow' =>
      obtain ⟨⟨hlt', helig', hwaste'⟩, -⟩ := hrow'
      exact absurd hwaste' (Nat.not_lt.mpr (hloose _ hlt' helig'))
    | least _ _ hlimit' hrow' =>
      obtain ⟨⟨hlt', helig', hwaste'⟩, -⟩ := hrow'
      exact absurd hlimit' (Nat.not_lt.mpr (hwaste' ▸ hfar _ hlt' helig'))
    | exhausted _ _ hlargest' => rw [UInt32.toNat_inj.mp (hlargest.trans hlargest'.symm)]

/-! ## What the loop has seen -/

theorem toNat_sub_eq_waste {i : Nat} (h : Eligible size request i) :
    (size i - request).toNat = waste size request i :=
  UInt32.toNat_sub_of_le _ _ h.2

variable (size request) in
/-- The best of the first `k` rows: the lowest of those that waste least. -/
inductive Best (k : Nat) : Option (UInt16 × UInt32) → Prop
  | nothing (hnone : ∀ i < k, ¬ Eligible size request i) : Best k none
  | row {i : Nat} {least : UInt32}
      (hleast : ∀ j < k, Eligible size request j → least.toNat ≤ waste size request j)
      (hrow : IsLeast {j | j < k ∧ Eligible size request j ∧ waste size request j = least.toNat} i) :
      Best k (some (.ofNat i, least))

variable (size request) in
/-- What has been seen once the first `k` rows have been passed without a tight one. -/
structure Surveyed (k : Nat) (seen : Seen) : Prop where
  loose : ∀ i < k, Eligible size request i → 128 ≤ waste size request i
  largest : seen.largest.toNat = (Finset.range k).sup fun i => (size i).toNat
  best : Best size request k seen.best

theorem surveyed_nothing : Surveyed size request 0 .nothing where
  loose _ h := absurd h (Nat.not_lt_zero _)
  largest := rfl
  best := .nothing fun _ h => absurd h (Nat.not_lt_zero _)

theorem largest_addSize {k : Nat} {seen : Seen}
    (h : seen.largest.toNat = (Finset.range k).sup fun i => (size i).toNat) :
    (seen.addSize (size k)).largest.toNat =
      (Finset.range (k + 1)).sup fun i => (size i).toNat := by
  rw [Finset.range_add_one, Finset.sup_insert, ← h]
  change (if seen.largest ≤ size k then size k else seen.largest).toNat =
    max (size k).toNat seen.largest.toNat
  split
  · rename_i hle
    exact (Nat.max_eq_left (UInt32.le_iff_toNat_le.mp hle)).symm
  · rename_i hlt
    have hge := UInt32.le_of_lt (UInt32.not_le.mp hlt)
    exact (Nat.max_eq_right (UInt32.le_iff_toNat_le.mp hge)).symm

-- A row that does not hold the request leaves the best row.
theorem Best.skip {k : Nat} {best : Option (UInt16 × UInt32)} (h : Best size request k best)
    (hk : ¬ Eligible size request k) : Best size request (k + 1) best := by
  have hbelow : ∀ i < k + 1, Eligible size request i → i < k := by
    intro i hi helig
    by_contra hge
    obtain rfl : i = k := by omega
    exact hk helig
  cases h with
  | nothing hnone => exact .nothing fun i hi helig => hnone i (hbelow i hi helig) helig
  | row hleast hrow =>
    refine .row (fun j hj helig => hleast j (hbelow j hj helig) helig) ⟨?_, ?_⟩
    · exact ⟨Nat.lt_succ_of_lt hrow.1.1, hrow.1.2⟩
    · rintro j ⟨hj, helig, hwaste⟩
      exact hrow.2 ⟨hbelow j hj helig, helig, hwaste⟩

/-- A row that holds the request takes the place of the best one before it if it wastes less. -/
theorem Best.add {k : Nat} {seen : Seen} (h : Best size request k seen.best)
    (hk : Eligible size request k) :
    Best size request (k + 1) (seen.addCandidate (.ofNat k) (size k - request)).best := by
  have hw := toNat_sub_eq_waste hk
  obtain ⟨best, largest⟩ := seen
  -- The new row is the best if all eligible rows before it waste more.
  have hnew : (∀ i < k, Eligible size request i → waste size request k < waste size request i) →
      Best size request (k + 1) (some (.ofNat k, size k - request)) := by
    intro hmore
    refine .row (fun j hj helig => ?_) ⟨⟨Nat.lt_succ_self k, hk, hw.symm⟩, ?_⟩
    · rw [hw]
      rcases Nat.lt_succ_iff_lt_or_eq.mp hj with hlt | rfl
      · exact Nat.le_of_lt (hmore j hlt helig)
      · exact Nat.le_refl _
    · rintro j ⟨hj, helig, hwaste⟩
      rw [hw] at hwaste
      by_contra hlt
      have hless := hmore j (Nat.not_le.mp hlt) helig
      omega
  cases h with
  | nothing hnone => exact hnew fun i hi helig => absurd helig (hnone i hi)
  | @row i least hleast hrow =>
    change Best size request (k + 1)
      (if size k - request < least then Seen.mk (some _) largest else Seen.mk (some _) largest).best
    by_cases hless : size k - request < least
    · rw [if_pos hless]
      have hless' := UInt32.lt_iff_toNat_lt.mp hless
      exact hnew fun j hj helig => by
        have hle := hleast j hj helig
        omega
    · rw [if_neg hless]
      have hge := UInt32.le_iff_toNat_le.mp (UInt32.not_lt.mp hless)
      refine .row (fun j hj helig => ?_) ⟨⟨Nat.lt_succ_of_lt hrow.1.1, hrow.1.2⟩, ?_⟩
      · rcases Nat.lt_succ_iff_lt_or_eq.mp hj with hlt | rfl
        · exact hleast j hlt helig
        · rwa [← hw]
      · rintro j ⟨hj, helig, hwaste⟩
        rcases Nat.lt_succ_iff_lt_or_eq.mp hj with hlt | rfl
        · exact hrow.2 ⟨hlt, helig, hwaste⟩
        · exact Nat.le_of_lt hrow.1.1

theorem largest_addCandidate (seen : Seen) (row : UInt16) (w : UInt32) :
    (seen.addCandidate row w).largest = seen.largest := by
  unfold Seen.addCandidate
  split
  · split <;> rfl
  · rfl

theorem Surveyed.skip {k : Nat} {seen : Seen} (h : Surveyed size request k seen)
    (hk : ¬ Eligible size request k) : Surveyed size request (k + 1) (seen.addSize (size k)) where
  loose i hi helig := by
    rcases Nat.lt_succ_iff_lt_or_eq.mp hi with hlt | rfl
    · exact h.loose i hlt helig
    · exact absurd helig hk
  largest := largest_addSize h.largest
  best := h.best.skip hk

theorem Surveyed.add {k : Nat} {seen : Seen} (h : Surveyed size request k seen)
    (hk : Eligible size request k) (hloose : 128 ≤ waste size request k) :
    Surveyed size request (k + 1)
      ((seen.addSize (size k)).addCandidate (.ofNat k) (size k - request)) where
  loose i hi helig := by
    rcases Nat.lt_succ_iff_lt_or_eq.mp hi with hlt | rfl
    · exact h.loose i hlt helig
    · exact hloose
  largest := by
    rw [largest_addCandidate]
    exact largest_addSize h.largest
  best := by
    have hbest : Best size request k (seen.addSize (size k)).best := h.best
    exact hbest.add hk

/-! ## The loop -/

-- A waste below the limit of a page can be recorded, so that test alone refuses no row.
theorem acceptable?_eq (seen : Seen) {limit : UInt32} (h : limit.toNat ≤ 65535) :
    seen.acceptable? limit = (seen.best.filter fun b => b.2 < limit).map (·.1) := by
  unfold Seen.acceptable?
  cases seen.best with
  | none => rfl
  | some b =>
    obtain ⟨row, w⟩ := b
    by_cases hw : w < limit
    · have hrec : w < unrecordableWaste := by
        rw [UInt32.lt_iff_toNat_lt] at hw ⊢
        change w.toNat < 65535
        omega
      simp [hw, hrec]
    · rw [Option.filter_some, decide_eq_false hw]
      exact if_neg fun hboth => hw hboth.1

theorem Surveyed.settles {rows : Nat} {seen : Seen} (h : Surveyed size request rows seen)
    {limit : UInt32} (hlimit : limit.toNat ≤ 65535) :
    Settles size request rows limit.toNat (BarePage.searchSizes request limit seen []) := by
  obtain ⟨best, largest⟩ := seen
  have hbest := h.best
  have hacc := acceptable?_eq ⟨best, largest⟩ hlimit
  unfold BarePage.searchSizes
  rw [hacc]
  cases hbest with
  | nothing hnone =>
    exact .exhausted h.loose (fun i hi helig => absurd helig (hnone i hi)) h.largest
  | @row i least hleast hrow =>
    by_cases hlt : least < limit
    · simp only [Option.filter_some, hlt, decide_true, if_true, Option.map_some]
      refine .least h.loose ⟨?_, ?_⟩ (UInt32.lt_iff_toNat_lt.mp hlt) hrow
      · exact ⟨i, hrow.1⟩
      · rintro w ⟨j, hj, helig, rfl⟩
        exact hleast j hj helig
    · simp only [Option.filter_some, hlt, decide_false, Bool.false_eq_true, if_false,
        Option.map_none]
      refine .exhausted h.loose (fun j hj helig => ?_) h.largest
      have hge := UInt32.le_iff_toNat_le.mp (UInt32.not_lt.mp hlt)
      exact Nat.le_trans hge (hleast j hj helig)

/-- From what has been seen, the rest of the rows settles the search. -/
theorem settles_searchSizes {k m : Nat} {seen : Seen} (h : Surveyed size request k seen)
    {limit : UInt32} (hlimit : limit.toNat ≤ 65535) :
    Settles size request (k + m) limit.toNat
      (BarePage.searchSizes request limit seen
        ((List.range' k m).map fun i => (.ofNat i, size i))) := by
  induction m generalizing k seen with
  | zero => exact h.settles hlimit
  | succ m ih =>
    rw [List.range'_succ, List.map_cons, BarePage.searchSizes]
    have hsum : k + 1 + m = k + (m + 1) := by omega
    by_cases hk : Eligible size request k
    · have hnot : ¬ (size k = 0 ∨ size k < request) := by
        rintro (h0 | hlt)
        · exact hk.1 h0
        · exact UInt32.not_lt.mpr hk.2 hlt
      have hw := toNat_sub_eq_waste hk
      have htight : size k - request < optimalWaste ↔ waste size request k < 128 := by
        rw [UInt32.lt_iff_toNat_lt, hw]
        rfl
      simp only [if_neg hnot]
      by_cases hlt : size k - request < optimalWaste
      · -- No row before this one is tight, so it is the lowest.
        rw [if_pos hlt]
        refine .tight ⟨⟨by omega, hk, htight.mp hlt⟩, ?_⟩
        rintro j ⟨-, helig, hwaste⟩
        by_contra hbelow
        have hge := h.loose j (Nat.not_le.mp hbelow) helig
        omega
      · rw [if_neg hlt, ← hsum]
        exact ih (h.add hk (Nat.not_lt.mp fun hl => hlt (htight.mpr hl)))
    · have hskip : size k = 0 ∨ size k < request := by
        by_contra hno
        rw [not_or] at hno
        exact hk ⟨hno.1, UInt32.not_lt.mp hno.2⟩
      simp only [if_pos hskip]
      rw [← hsum]
      exact ih (h.skip hk)

end

/-! ## Searching a page -/

variable {n : Nat} {p q : SlotPage}

theorem result_conclude (request : UInt32) (seen : Seen) (p : SlotPage) :
    ((conclude request seen).run p).result =
      .ok (BarePage.searchSizes request p.wasteLimit seen []) := by
  unfold conclude BarePage.searchSizes
  rw [Action.run_bind_silent (Action.run_get ..)]
  cases seen.acceptable? p.wasteLimit <;> rfl

/-- A search answers by the sizes that the page reports, and always answers. -/
theorem result_searchRows (h : Shaped n p) (request : UInt32) (seen : Seen) {rows : List UInt16}
    (hrows : ∀ row ∈ rows, row.toNat < rowsIn n) :
    ((searchRows request seen rows).run p).result =
      .ok (BarePage.searchSizes request p.wasteLimit seen
        (rows.map fun row => (row, p.reported row.toNat))) := by
  induction rows generalizing p seen with
  | nil => exact result_conclude request seen p
  | cons row rest ih =>
    have hrow := hrows row List.mem_cons_self
    obtain ⟨es, hrun⟩ := run_readSize h hrow
    -- Keeping the size that was read changes neither the limit nor any size.
    have hrest : ∀ s, ((searchRows request s rest).run
        (p.keep row.toNat (p.reported row.toNat))).result = _ := fun s =>
      ih (h.keep _ _) s fun other ho => hrows other (List.mem_cons_of_mem row ho)
    simp only [reported_keep h hrow] at hrest
    rw [List.map_cons, BarePage.searchSizes, searchRows, Action.run_bind_ok hrun]
    by_cases hskip : p.reported row.toNat = 0 ∨ p.reported row.toNat < request
    · simp only [if_pos hskip]
      exact hrest _
    · have hle : request ≤ p.reported row.toNat :=
        UInt32.not_lt.mp fun hlt => hskip (Or.inr hlt)
      simp only [if_neg hskip, Word.sub32_of_le hle]
      rw [Action.run_bind_silent (Action.run_lift ..)]
      by_cases htight : p.reported row.toNat - request < optimalWaste
      · simp only [if_pos htight]
        rfl
      · simp only [if_neg htight]
        exact hrest _

theorem Shaped.toNat_wasteLimit (h : Shaped n p) : p.wasteLimit.toNat = n / 4 := by
  have hg := h.greatest
  change n ≤ 65535 at hg
  unfold wasteLimit
  rw [h.length_eq]
  apply UInt32.toNat_ofNat_of_lt'
  change n / 4 < 4294967296
  omega

theorem settles_search (h : Shaped n p) (request : UInt32) :
    ∃ s, ((search request).run p).result = .ok s ∧
      Settles p.reported request (rowsIn n) (n / 4) s := by
  have hg := h.greatest
  change n ≤ 65535 at hg
  have hlimit := h.toNat_wasteLimit
  have hresult := result_searchRows h request .nothing fun row => (mem_rows h).mp
  have hsizes : (p.rows.map fun row => (row, p.reported row.toNat)) =
      (List.range' 0 (rowsIn n)).map fun i => (.ofNat i, p.reported i) := by
    rw [h.rows_eq, List.range_eq_range', List.map_map]
    refine List.map_congr_left fun i hi => ?_
    simp only [Function.comp_apply, h.toNat_ofNat (i := i) (by simpa using hi)]
  rw [hsizes] at hresult
  refine ⟨_, hresult, ?_⟩
  have hfit : p.wasteLimit.toNat ≤ 65535 := by omega
  have hnothing : Surveyed p.reported request 0 .nothing := surveyed_nothing
  have hsettles := settles_searchSizes hnothing hfit (m := rowsIn n)
  rwa [Nat.zero_add, hlimit] at hsettles

theorem Settles.found {size : Nat → UInt32} {request : UInt32} {rows limit : Nat} {s : SlotSearch}
    (h : Settles size request rows limit s) (hrows : rows ≤ 65536) {row : UInt16}
    (hs : s = .found row) :
    row.toNat < rows ∧ Eligible size request row.toNat ∧
      (waste size request row.toNat < 128 ∨ waste size request row.toNat < limit) := by
  have htoNat : ∀ i < rows, (UInt16.ofNat i).toNat = i := fun i hi =>
    UInt16.toNat_ofNat_of_lt' (Nat.lt_of_lt_of_le hi hrows)
  cases h with
  | tight hrow =>
    obtain ⟨hlt, helig, hwaste⟩ := hrow.1
    obtain rfl := SlotSearch.found.inj hs
    rw [htoNat _ hlt]
    exact ⟨hlt, helig, .inl hwaste⟩
  | least _ _ hlimit hrow =>
    obtain ⟨hlt, helig, hwaste⟩ := hrow.1
    obtain rfl := SlotSearch.found.inj hs
    rw [htoNat _ hlt, hwaste]
    exact ⟨hlt, helig, .inr hlimit⟩
  | exhausted => exact absurd hs nofun

/-- **A search is decided by the sizes that a page reports.**  On every page, with any request, the
search answers what `Settles` says, which leaves one answer.  A row that is found wastes less than
the optimal margin or less than a quarter of the record, so its waste is always recorded in 16 bits
and that test refuses no row of its own.  The record stays as it is. -/
theorem search_settles (h : Reached q) (request : UInt32) :
    (∀ row < q.capacity,
      ((sizeAt (.ofNat (rowStart row.toNat))).run q).result = .ok (q.reported row.toNat)) ∧
    ∃ s, ((search request).run q).result = .ok s ∧
      (∀ t, Settles q.reported request q.capacity.toNat (q.record.length / 4) t ↔ t = s) ∧
      (∀ row, s = .found row → row < q.capacity ∧ Eligible q.reported request row.toNat ∧
        waste q.reported request row.toNat ≤ max 127 (q.record.length / 4 - 1) ∧
        waste q.reported request row.toNat < UInt16.size) ∧
      (∀ seen : Seen, seen.acceptable? q.wasteLimit =
        (seen.best.filter fun b => b.2 < q.wasteLimit).map (·.1)) ∧
      ((search request).run q).state.record = q.record := by
  have hshape := h.shaped
  have hcap := hshape.toNat_capacity
  have hg := hshape.greatest
  change q.record.length ≤ 65535 at hg
  have hlimit := hshape.toNat_wasteLimit
  obtain ⟨s, hs, hsettles⟩ := settles_search hshape request
  rw [← hcap] at hsettles
  refine ⟨fun row hrow => ?_, s, hs, fun t => ⟨fun ht => ht.unique hsettles, ?_⟩, ?_, ?_, ?_⟩
  · rw [UInt16.lt_iff_toNat_lt, hcap] at hrow
    have hat := hshape.rowAt_of_start hrow (toNat_rowStart hshape.greatest hrow)
    obtain ⟨es, hrun⟩ := run_readSize hshape hrow
    unfold sizeAt
    rw [Action.run_bind_view hat, hrun]
  · rintro rfl
    exact hsettles
  · intro row hfound
    obtain ⟨hlt, helig, hwaste⟩ := hsettles.found (Nat.le_of_lt q.capacity.toNat_lt) hfound
    change _ ∧ _ ∧ _ ∧ _ < 65536
    exact ⟨UInt16.lt_iff_toNat_lt.mpr hlt, helig, by omega, by omega⟩
  · exact fun seen => acceptable?_eq seen (by omega)
  · exact ((lookSteps _).search request q hshape).record

/-- The size of row 0 has a location written over it, and the page reports the one that it keeps.  No
row is tight, and of two rows that waste least the lower one is found. -/
theorem search_settles_overwritten :
    let r := Record.zeroed 1 520
    let p := unread r.formatted
    let moves := [.call (.setSizeAt 4 500), .call (.setSizeAt 14 429), .call (.setSizeAt 34 429),
      .call (.setLocation 8 ⟨0, 64⟩)]
    ∃ q, after moves p = .ok q ∧ Reached q ∧ q.reported 0 = 500 ∧ q.record.rowSize 0 = 64 ∧
      ∀ t, Settles q.reported 300 q.capacity.toNat (q.record.length / 4) t ↔ t = .found 1 := by
  intro r p moves
  have hp : (format.run r).result = .ok p := by
    rw [run_format] <;> simp [r, Record.zeroed, Record.ofBytes, Record.length, Record.maxLength]
  obtain ⟨q, hq⟩ : ∃ q, after moves p = .ok q := ⟨_, rfl⟩
  have hreached : Reached q := ⟨r, p, moves, .inr hp, hq⟩
  have hseen : (after moves p >>= fun q =>
      ((search 300).run q).result.map fun s => (q.reported 0, q.record.rowSize 0, s)) =
        .ok (500, 64, .found 1) := by decide +kernel
  rw [hq] at hseen
  obtain ⟨-, s, hs, hsettles, -⟩ := search_settles hreached 300
  rw [Result.ok_bind, hs] at hseen
  obtain ⟨hkept, hwritten, rfl⟩ : q.reported 0 = 500 ∧ q.record.rowSize 0 = 64 ∧ s = .found 1 := by
    simpa [Except.map] using hseen
  exact ⟨q, hq, hreached, hkept, hwritten, hsettles⟩

end FreeSpace.SlotPage
