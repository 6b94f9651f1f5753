import FreeSpace.Proofs.PageFills
import Mathlib.Data.List.Find

/-!
# Pages made from a list of sizes

A page is formatted with one row for each size and then filled.  No row of it denies its size, so
filling it is done to the end (`run_fill`), and what every row has then is said by the list alone
(`HasSizes`).  A list that no record is long enough for is refused before anything is filled.
-/

namespace FreeSpace.SlotPage

variable {n : Nat} {p : SlotPage} {sizes : List UInt32}

/-- What row `i` of a page says that was made with this size for it. -/
def sizedRow (i : Nat) (size : UInt32) : Row :=
  ⟨⟨if size = 0 then 0 else .ofNat i, 0⟩, size⟩

/-- The page has this id and one row for each of these sizes, and answers so. -/
structure HasSizes (id : UInt64) (sizes : List UInt32) (p : SlotPage) : Prop where
  id_eq : p.record.id = id
  capacity : p.capacity.toNat = sizes.length
  row : ∀ i size, sizes[i]? = some size → p.record.row i = sizedRow i size
  answers : ∀ i size, sizes[i]? = some size → ∃ offset, p.offsetOf (.ofNat i) = .ok offset ∧
    ((sizeAt offset).run p).result = .ok size ∧
      p.location (.ofNat i) = .ok (sizedRow i size).location
  count : ∃ count, p.count = .ok count ∧ count.toNat = sizes.countP (· ≠ 0)
  firstVacant : (firstVacant.run p).result = .ok ((sizes.findIdx? (· = 0)).map .ofNat)

/-! ## How long a record is -/

theorem lengthFor_eq {rows : Nat} (h : rows < UInt16.size) :
    lengthFor (.ofNat rows) = 4 + rows * 10 := by
  show 4 + (UInt16.ofNat rows).toNat * 10 = _
  rw [UInt16.toNat_ofNat_of_lt' h]

theorem rowsIn_lengthFor (rows : Nat) : rowsIn (4 + rows * 10) = rows := by
  show (4 + rows * 10 - 4) / 10 = rows
  omega

/-! ## An empty page -/

-- A page that was just formatted has all of its rows vacant, and has read none of them.
theorem entry_formatted {r : Record} {i : Nat} (hi : i < rowsIn r.length) :
    (unread r.formatted).entry i = ⟨.blank, none⟩ := by
  have hrow := Record.getElem?_table r.formatted i
  rw [Record.table_formatted, List.getElem?_replicate, Record.length_formatted, if_pos hi,
    if_pos hi] at hrow
  have hkept : (unread r.formatted).kept? i = none := by
    unfold kept? unread
    simp [hi]
  unfold entry
  rw [hkept]
  exact congrArg (Entry.mk · none) (Option.some.inj hrow).symm

/-! ## What is asked of a page -/

theorem Shaped.location_eq (h : Shaped n p) {row : UInt16} (hrow : row.toNat < rowsIn n) :
    p.location row = .ok (p.record.row row.toNat).location := by
  have hlen := h.length_eq
  obtain ⟨hrecord, hoffset⟩ := Record.location_of_start (by rw [hlen]; exact h.greatest)
    (by rwa [hlen]) (toNat_rowStart h.greatest hrow)
  unfold location
  rw [h.offsetOf_of_lt hrow, Result.ok_bind, hrecord, Result.ok_bind, hoffset]
  rfl

theorem result_sizeAt (h : Shaped n p) {row offset : UInt16} (hrow : row.toNat < rowsIn n)
    (hoff : offset.toNat = rowStart row.toNat) :
    ((sizeAt offset).run p).result = .ok (p.reported row.toNat) := by
  obtain ⟨es, hread⟩ := run_readSize h hrow
  rw [sizeAt, Action.run_bind_view (h.rowAt_of_start hrow hoff), hread]

/-! ## Sizes by position -/

theorem map_getD_range (sizes : List UInt32) :
    (List.range sizes.length).map (sizes.getD · 0) = sizes := by
  apply List.ext_getElem (by simp)
  intro i _ hi
  rw [List.getElem_map, List.getElem_range, List.getD_eq_getElem _ _ hi]

theorem find?_range_getD (sizes : List UInt32) :
    (List.range sizes.length).find? (fun i => sizes.getD i 0 = 0) = sizes.findIdx? (· = 0) := by
  induction sizes with
  | nil => rfl
  | cons size rest ih =>
    have hrest : (List.range rest.length).find?
        ((fun i => decide ((size :: rest).getD i 0 = 0)) ∘ Nat.succ) = rest.findIdx? (· = 0) := ih
    rw [List.length_cons, List.range_succ_eq_map, List.find?_cons, List.findIdx?_cons,
      List.find?_map, hrest]
    by_cases hsize : size = 0 <;> simp [hsize]

section

variable (h : Shaped n p) (hrows : rowsIn n = sizes.length)
  (hsizes : ∀ i < sizes.length, p.reported i = sizes.getD i 0)

include h hrows hsizes

theorem card_occupied_of_sizes : p.occupied.card = sizes.countP (· ≠ 0) := by
  have hsame : (List.range sizes.length).countP (fun i => p.reported i ≠ 0) =
      ((List.range sizes.length).map (sizes.getD · 0)).countP (· ≠ 0) := by
    rw [List.countP_map]
    refine List.countP_congr fun i hi => ?_
    rw [hsizes i (List.mem_range.mp hi)]
    rfl
  rw [card_occupied h, hrows, hsame, map_getD_range]

theorem result_firstVacant_of_sizes :
    (firstVacant.run p).result = .ok ((sizes.findIdx? (· = 0)).map .ofNat) := by
  have hsame : (List.range sizes.length).find?
      ((fun row : UInt16 => decide (p.reported row.toNat = 0)) ∘ UInt16.ofNat) =
        (List.range sizes.length).find? fun i => sizes.getD i 0 = 0 := by
    refine List.find?_congr fun i hi => ?_
    have hin := List.mem_range.mp hi
    show decide (p.reported (UInt16.ofNat i).toNat = 0) = _
    rw [h.toNat_ofNat (by rwa [hrows]), hsizes i hin]
  rw [result_firstVacant h, vacant, List.head?_filter, h.rows_eq, List.find?_map, hrows, hsame,
    find?_range_getD]

end

/-! ## An empty page that was filled -/

section

variable {r : Record}

theorem not_denies_formatted (hl : 4 ≤ r.length) (hg : r.length ≤ Record.maxLength)
    (hrows : rowsIn r.length = sizes.length) (i : Nat) :
    ¬ (unread r.formatted).Denies sizes i := by
  intro hdenied
  have hin : i < rowsIn r.length := hrows ▸ hdenied.lt_length
  rcases hdenied.2 with hout | hused
  · rw [(shaped_formatted hl hg).toNat_capacity] at hout
    omega
  · apply hused
    rw [← size_entry, entry_formatted hin]
    rfl

theorem given_blank (i : Nat) (size : UInt32) :
    (Entry.mk .blank none).given i size =
      ⟨sizedRow i size, if size = 0 then none else some size⟩ := by
  unfold Entry.given sizedRow
  by_cases hsize : size = 0
  · simp [hsize, Row.blank]
  · simp [hsize]

theorem size_given_blank (i : Nat) (size : UInt32) :
    ((Entry.mk .blank none).given i size).size = size := by
  rw [given_blank]
  by_cases hsize : size = 0
  · simp [Entry.size, sizedRow, hsize]
  · simp [Entry.size, hsize]

theorem Given.hasSizes (h : Given r.length sizes (unread r.formatted) p)
    (hrows : rowsIn r.length = sizes.length) : HasSizes r.id sizes p := by
  have hentry : ∀ i < sizes.length, p.entry i = (Entry.mk .blank none).given i (sizes.getD i 0) := by
    intro i hi
    rw [← hrows] at hi
    rw [h.entry i hi, entry_formatted hi]
  have hsizes : ∀ i < sizes.length, p.reported i = sizes.getD i 0 := by
    intro i hi
    rw [← size_entry, hentry i hi, size_given_blank]
  have hrow : ∀ i < sizes.length, p.record.row i = sizedRow i (sizes.getD i 0) := by
    intro i hi
    have hbytes := congrArg Entry.row (hentry i hi)
    rwa [given_blank] at hbytes
  have hget : ∀ i size, sizes[i]? = some size → i < sizes.length ∧ sizes.getD i 0 = size := by
    intro i size hi
    rw [List.getD_eq_getElem?_getD, hi, Option.getD_some]
    exact ⟨(List.getElem?_eq_some_iff.mp hi).1, rfl⟩
  have hcount := h.counted.trans (card_occupied_of_sizes h.shaped hrows hsizes)
  have hvacant := result_firstVacant_of_sizes h.shaped hrows hsizes
  refine ⟨h.id_eq.trans (Record.id_formatted r), h.shaped.toNat_capacity.trans hrows,
    fun i size hi => ?_, fun i size hi => ?_, ⟨_, h.shaped.count_eq, hcount⟩, hvacant⟩
  · obtain ⟨hin, rfl⟩ := hget i size hi
    exact hrow i hin
  · obtain ⟨hin, rfl⟩ := hget i size hi
    have hword := h.shaped.toNat_ofNat (hrows ▸ hin)
    have hin' : (UInt16.ofNat i).toNat < rowsIn r.length := by rwa [hword, hrows]
    refine ⟨_, h.shaped.offsetOf_of_lt hin', ?_, ?_⟩
    · rw [result_sizeAt h.shaped hin' (toNat_rowStart h.shaped.greatest hin'), hword, hsizes i hin]
    · rw [h.shaped.location_eq hin', hword, hrow i hin]

end

/-! ## Making a page -/

section

variable {σ : Type} (s : σ) (id : UInt64)

-- The record has room for the rows and no byte more.
theorem run_ofSizes (hword : sizes.length < UInt16.size) :
    (ofSizes id sizes).run s =
      (format.runOn (Record.zeroed id (4 + sizes.length * 10)) >>= fun page =>
        (fill sizes).build page).run s := by
  rw [ofSizes, if_pos hword, lengthFor_eq hword]

theorem ofSizes_of_few (hfew : sizes.length ≤ 6553) :
    ∃ p, ((ofSizes id sizes).run s).result = .ok p ∧ HasSizes id sizes p := by
  let r := Record.zeroed id (4 + sizes.length * 10)
  have hword : sizes.length < UInt16.size := Nat.lt_of_le_of_lt hfew (by decide)
  have hmax : Record.maxLength = 65535 := rfl
  have hlen : r.length = 4 + sizes.length * 10 := Array.size_replicate
  have hl : 4 ≤ r.length := by omega
  have hg : r.length ≤ Record.maxLength := by omega
  have hrows : rowsIn r.length = sizes.length := by rw [hlen, rowsIn_lengthFor]
  obtain ⟨p, es, hfill, hgiven⟩ := run_fill (shaped_formatted hl hg) (counted_formatted hl hg)
    (by omega) (not_denies_formatted hl hg hrows)
  refine ⟨p, ?_, hgiven.hasSizes hrows⟩
  have hformat : (format.runOn r).run s = _ := Action.run_runOn ..
  rw [run_format hl hg] at hformat
  rw [run_ofSizes s id hword, Action.run_bind_ok hformat, Action.result_build, hfill]
  rfl

theorem ofSizes_of_many (hmany : 6553 < sizes.length) :
    ((ofSizes id sizes).run s).result = .error (.refused (.invalidInput
      (if sizes.length < UInt16.size then
        .recordLength (4 + sizes.length * 10) 4 Record.maxLength
      else .rowCount sizes.length))) := by
  by_cases hword : sizes.length < UInt16.size
  · let r := Record.zeroed id (4 + sizes.length * 10)
    have hmax : Record.maxLength = 65535 := rfl
    have hlen : r.length = 4 + sizes.length * 10 := Array.size_replicate
    have hformat : (format.runOn r).run s = _ := Action.run_runOn ..
    rw [run_format_of_unusable (.inr (by omega))] at hformat
    rw [run_ofSizes s id hword, Action.run_bind_error hformat, if_pos hword, hlen]
  · rw [ofSizes, if_neg hword, if_neg hword]
    rfl

end

/-- **A page is made exactly as the list says.**  A list of at most 6553 sizes makes a page with this
id and one row for each size: row `i` has size `i` of the list and its own number as its location, or
is blank if that size is 0; the count is the number of sizes that are not 0, and the first vacant row
is at the first 0.  A longer list is refused as invalid input, for the length of the record or, with
65536 sizes or more, for their number. -/
theorem ofSizes_holds {σ : Type} (s : σ) (id : UInt64) (sizes : List UInt32) :
    let o := (ofSizes id sizes).run s
    (sizes.length ≤ 6553 → ∃ p, o.result = .ok p ∧ HasSizes id sizes p) ∧
      (6553 < sizes.length → o.result = .error (.refused (.invalidInput
        (if sizes.length < UInt16.size then
          .recordLength (4 + sizes.length * 10) 4 Record.maxLength
        else .rowCount sizes.length)))) :=
  ⟨ofSizes_of_few s id, ofSizes_of_many s id⟩

/-- Four rows of which the first is left vacant. -/
theorem ofSizes_holds_four_rows :
    let sizes : List UInt32 := [0, 500, 50, 200]
    sizes.length ≤ 6553 ∧ ∃ p, ((ofSizes 3 sizes).run ()).result = .ok p ∧
      p.capacity.toNat = 4 ∧ p.location 2 = .ok ⟨2, 0⟩ ∧
      (∃ count, p.count = .ok count ∧ count.toNat = 3) ∧
      (firstVacant.run p).result = .ok (some 0) := by
  intro sizes
  have hlen : sizes.length ≤ 6553 := by decide
  obtain ⟨p, hp, h⟩ := (ofSizes_holds () 3 sizes).1 hlen
  obtain ⟨-, -, -, hlocation⟩ := h.answers 2 50 rfl
  exact ⟨hlen, p, hp, h.capacity, hlocation, h.count, h.firstVacant⟩

end FreeSpace.SlotPage
