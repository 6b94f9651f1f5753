import FreeSpace.Proofs.CallAnswers
import FreeSpace.Proofs.SafeOffsets

/-!
# Which records are accepted as pages, and why the others are not

Opening looks at the length of a record and at its first two bytes, and at nothing else.  `Refuses`
lists what can be wrong with them, each with the refusal that it leads to: one of them applies to
every record that is no slot page (`isSlotPage_or_refuses`), and no two of them to the same record.
Formatting looks at the length alone, and what it leaves does not depend on the bytes that were
there (`formatted_eq_blank`).
-/

namespace FreeSpace

theorem PageType.ofTag?_eq_none_iff {tag : UInt16} :
    PageType.ofTag? tag = none ↔ tag < 0x1991 ∨ 0x1993 < tag := by
  constructor
  · intro hnone
    by_contra hin
    rw [not_or, UInt16.not_lt, UInt16.not_lt, UInt16.le_iff_toNat_le, UInt16.le_iff_toNat_le] at hin
    have hin' : 0x1991 ≤ tag.toNat ∧ tag.toNat ≤ 0x1993 := hin
    -- The three tags in between are those of the three types.
    have htag : ∃ t : PageType, tag.toNat = t.tag.toNat := by
      obtain h | h | h : tag.toNat = 0x1991 ∨ tag.toNat = 0x1992 ∨ tag.toNat = 0x1993 := by omega
      · exact ⟨.data, h⟩
      · exact ⟨.freeLogicalSlot, h⟩
      · exact ⟨.freePhysicalSlot, h⟩
    obtain ⟨t, ht⟩ := htag
    rw [UInt16.toNat_inj.mp ht, PageType.ofTag?_tag] at hnone
    exact absurd hnone nofun
  · intro hout
    cases h : PageType.ofTag? tag with
    | none => rfl
    | some t =>
      obtain rfl := PageType.ofTag?_eq_some_iff.mp h
      cases t <;> exact absurd hout (by decide)

namespace Record

variable {r : Record} {tag : UInt16}

/-! ## The first two bytes -/

/-- The first two bytes of the record are this word, the high byte first. -/
structure Begins (r : Record) (tag : UInt16) : Prop where
  high : r.data[0]? = some (.ofNat (tag.toNat / 256))
  low : r.data[1]? = some (.ofNat (tag.toNat % 256))

theorem Begins.two_le_length (h : r.Begins tag) : 2 ≤ r.length :=
  (Array.getElem?_eq_some_iff.mp h.low).1

theorem begins_of_tag (h : r.tag = .ok tag) : r.Begins tag := by
  have hlen : 2 ≤ r.length := by
    by_contra hshort
    have hnone : Bytes.window r.data 0 2 = none := Bytes.window_eq_none_iff.mpr (by
      show r.length < 0 + 2
      omega)
    unfold Record.tag read16 field at h
    rw [show tagPosition = 0 from rfl, hnone] at h
    exact absurd h nofun
  rw [tag_eq_numberAt hlen, Except.ok.injEq] at h
  have hnumber : tag.toNat = r.numberAt 0 2 := by
    rw [← h, UInt16.toNat_ofNat_of_lt' (numberAt_lt r 0 2)]
  have hwindow := window_eq_digits (show 0 + 2 ≤ r.length by omega)
  have hhigh := Bytes.getElem?_of_window hwindow 0
  have hlow := Bytes.getElem?_of_window hwindow 1
  rw [← hnumber] at hhigh hlow
  refine ⟨hhigh.symm, hlow.symm.trans ?_⟩
  show some (UInt8.ofNat (tag.toNat / 1)) = _
  rw [Nat.div_one, Option.some.injEq, ← UInt8.toNat_inj, UInt8.toNat_ofNat', UInt8.toNat_ofNat']
  omega

theorem exists_tag (h : 2 ≤ r.length) : ∃ tag, r.tag = .ok tag :=
  ⟨_, tag_eq_numberAt h⟩

theorem begins_iff : r.Begins tag ↔ r.tag = .ok tag := by
  constructor
  · intro h
    obtain ⟨other, hother⟩ := exists_tag h.two_le_length
    have hbytes := begins_of_tag hother
    -- Two words with the same bytes are the same.
    have hhigh := h.high.symm.trans hbytes.high
    have hlow := h.low.symm.trans hbytes.low
    rw [Option.some.injEq, ← UInt8.toNat_inj, UInt8.toNat_ofNat', UInt8.toNat_ofNat'] at hhigh hlow
    have htag := tag.toNat_lt
    have hlt := other.toNat_lt
    rw [hother, Except.ok.injEq, ← UInt16.toNat_inj]
    omega
  · exact begins_of_tag

theorem requireType_of_begins (h : r.Begins tag) (expected : PageType) :
    r.requireType expected =
      match PageType.ofTag? tag with
      | none => .error (.refused (.invalidPageType tag))
      | some t =>
          if t = expected then .ok () else .error (.refused (.unexpectedPageType expected tag)) := by
  have htag := begins_iff.mp h
  have hlen : ¬ r.length < headerLength := Nat.not_lt.mpr h.two_le_length
  unfold requireType pageType
  rw [if_neg hlen, htag, Result.ok_bind]
  cases PageType.ofTag? tag with
  | none => rfl
  | some t =>
    show (if t = expected then _ else _) = if t = expected then _ else _
    split <;> rfl

theorem isSlotPage_iff : r.IsSlotPage ↔
    4 ≤ r.length ∧ r.length ≤ maxLength ∧ r.Begins PageType.freePhysicalSlot.tag :=
  ⟨fun h => ⟨h.least, h.greatest, begins_iff.mpr h.tag⟩,
    fun ⟨hl, hg, h⟩ => ⟨hl, hg, begins_iff.mp h⟩⟩

/-! ## What can be wrong with a record -/

/-- The record is no slot page, for the first reason in this order. -/
inductive Refuses (r : Record) : Error → Prop
  | short (h : r.length < 2) : Refuses r (.invalidInput (.shortForHeader r.id r.length))
  | unknownTag {tag : UInt16} (h : r.Begins tag) (htag : tag < 0x1991 ∨ 0x1993 < tag) :
      Refuses r (.invalidPageType tag)
  | otherTag {tag : UInt16} (h : r.Begins tag) (htag : tag = 0x1991 ∨ tag = 0x1992) :
      Refuses r (.unexpectedPageType .freePhysicalSlot tag)
  | length (h : r.Begins 0x1993) (hlen : r.length = 2 ∨ r.length = 3 ∨ 65535 < r.length) :
      Refuses r (.invalidInput (.recordLength r.length 4 65535))

theorem isSlotPage_or_refuses (r : Record) : r.IsSlotPage ∨ ∃ e, r.Refuses e := by
  by_cases hshort : r.length < 2
  · exact .inr ⟨_, .short hshort⟩
  obtain ⟨tag, htag⟩ := exists_tag (Nat.not_lt.mp hshort)
  have hbegins := begins_of_tag htag
  cases ht : PageType.ofTag? tag with
  | none => exact .inr ⟨_, .unknownTag hbegins (PageType.ofTag?_eq_none_iff.mp ht)⟩
  | some t =>
    obtain rfl := PageType.ofTag?_eq_some_iff.mp ht
    cases t with
    | data => exact .inr ⟨_, .otherTag hbegins (.inl rfl)⟩
    | freeLogicalSlot => exact .inr ⟨_, .otherTag hbegins (.inr rfl)⟩
    | freePhysicalSlot =>
      by_cases hlen : 4 ≤ r.length ∧ r.length ≤ 65535
      · exact .inl ⟨hlen.1, hlen.2, htag⟩
      · exact .inr ⟨_, .length hbegins (by omega)⟩

end Record

namespace SlotPage

open Record (Refuses Begins)

variable {r : Record}

theorem result_ofRecord_of_type_error {e : Failure}
    (h : r.requireType .freePhysicalSlot = .error e) : (ofRecord.run r).result = .error e := by
  unfold ofRecord
  rw [Action.run_bind, result_requireTag, h]

theorem result_ofRecord_of_refuses {e : Error} (h : r.Refuses e) :
    (ofRecord.run r).result = .error (.refused e) := by
  cases h with
  | short h => exact result_ofRecord_of_type_error (if_pos h)
  | unknownTag h htag =>
    apply result_ofRecord_of_type_error
    rw [Record.requireType_of_begins h, PageType.ofTag?_eq_none_iff.mpr htag]
  | otherTag h htag =>
    apply result_ofRecord_of_type_error
    rw [Record.requireType_of_begins h]
    obtain rfl | rfl := htag <;> rfl
  | length h hlen =>
    have htype := Record.requireType_of_begins h .freePhysicalSlot
    have hunusable : r.length < 4 ∨ Record.maxLength < r.length := by
      show r.length < 4 ∨ 65535 < r.length
      omega
    unfold ofRecord
    rw [Action.run_bind_ok (run_requireTag htype),
      Action.run_bind_error (run_requireLength_of_unusable hunusable)]
    rfl

/-! ## What formatting leaves -/

/-- The record of an empty page: its tag, and zeros behind it. -/
def blank (id : UInt64) (length : Nat) : Record :=
  ⟨id, #[0x19, 0x93] ++ Array.replicate (length - 2) 0, true⟩

theorem formatted_eq_blank (h : 4 ≤ r.length) : r.formatted = blank r.id r.length := by
  have htag : Bytes.digits 2 PageType.freePhysicalSlot.tag.toNat = [0x19, 0x93] := by decide
  have hcount : Bytes.digits 2 (0 : UInt16).toNat = List.replicate 2 0 := by decide
  have hdata : Bytes.overlay (Bytes.overlay (Array.replicate r.length 0) 0 [0x19, 0x93]) 2
      (List.replicate 2 0) = #[0x19, 0x93] ++ Array.replicate (r.length - 2) 0 := by
    apply Array.ext_getElem?
    intro i
    rw [Bytes.getElem?_overlay, Bytes.getElem?_overlay, Bytes.size_overlay, Array.size_replicate,
      Array.getElem?_append]
    by_cases hi : i < 2
    · obtain rfl | rfl : i = 0 ∨ i = 1 := by omega
      · rw [if_neg (by omega), if_pos ⟨Nat.le_refl 0, Nat.zero_lt_two, by omega⟩]
        rfl
      · rw [if_neg (by omega), if_pos ⟨Nat.zero_le 1, Nat.one_lt_two, by omega⟩]
        rfl
    · -- Behind the tag there are zeros only, those of the count included.
      have hout : ¬ (0 ≤ i ∧ i < 0 + [(0x19 : UInt8), 0x93].length ∧ i < r.length) := by
        show ¬ (0 ≤ i ∧ i < 2 ∧ i < r.length)
        omega
      rw [List.length_replicate, List.getElem?_replicate, if_neg hout, Array.getElem?_replicate,
        if_neg (show ¬ i < #[(0x19 : UInt8), 0x93].size from hi), Array.getElem?_replicate]
      show _ = if i - 2 < r.length - 2 then some 0 else none
      split
      · rw [if_pos (by omega), if_pos (by omega)]
      · congr 1
        simp only [eq_iff_iff]
        omega
  calc r.formatted = ⟨r.formatted.id, Bytes.overlay (Bytes.overlay (Array.replicate r.length 0) 0
        (Bytes.digits 2 PageType.freePhysicalSlot.tag.toNat)) 2
        (Bytes.digits 2 (0 : UInt16).toNat), true⟩ := rfl
    _ = blank r.id r.length := by rw [htag, hcount, hdata, Record.id_formatted, blank]

theorem isInUse_formatted (hl : 4 ≤ r.length) (hg : r.length ≤ Record.maxLength) {row : UInt16}
    (hrow : row < (unread r.formatted).capacity) :
    ((isInUse row).run (unread r.formatted)).result = .ok false := by
  have hpage := Record.isSlotPage_formatted hl hg
  have hcap : ¬ BarePage.capacity r.formatted ≤ row := UInt16.not_le.mpr hrow
  have hin := BarePage.lt_of_not_capacity_le hpage hcap
  rw [Record.length_formatted] at hin
  rw [(ends_isInUse (sound_unread hpage) row).result]
  show (BarePage.offsetOf row r.formatted).map (fun _ => decide (r.formatted.rowSize _ ≠ 0)) = _
  unfold BarePage.offsetOf
  rw [if_neg hcap, Record.rowSize_formatted hin]
  rfl

/-- The rows are as many as fit behind the header, and another one would not. -/
theorem capacity_unread (hl : 4 ≤ r.length) (hg : r.length ≤ Record.maxLength) :
    4 + 10 * (unread r).capacity.toNat ≤ r.length ∧
      r.length < 4 + 10 * ((unread r).capacity.toNat + 1) := by
  have hrows : (unread r).capacity.toNat = (r.length - 4) / 10 :=
    UInt16.toNat_ofNat_of_lt' (rowsIn_lt hg)
  rw [hrows]
  omega

/-- **Opening and formatting.**  Of all records exactly those of 4 to 65535 bytes that begin with the
tag are opened, unchanged, and the others are refused for the first thing that is wrong with them.
Formatting needs the length alone, and leaves what the id and the length determine: the tag, zeros,
and no row in use.  Both give as many rows as fit. -/
theorem opens_and_formats (r : Record) :
    ((∃ p, (ofRecord.run r).result = .ok p) ↔
      (4 ≤ r.length ∧ r.length ≤ 65535) ∧ r.data[0]? = some 0x19 ∧ r.data[1]? = some 0x93) ∧
    (∀ p, (ofRecord.run r).result = .ok p → p = unread r) ∧
    (∀ f, (ofRecord.run r).result = .error f ↔ ∃ e, f = .refused e ∧ r.Refuses e) ∧
    (format.run r).result =
      (if 4 ≤ r.length ∧ r.length ≤ 65535 then .ok (unread (blank r.id r.length))
      else .error (.refused (.invalidInput (.recordLength r.length 4 65535)))) ∧
    (∀ p, (format.run r).result = .ok p →
      ∀ row < p.capacity, ((isInUse row).run p).result = .ok false) ∧
    ∀ p, (ofRecord.run r).result = .ok p ∨ (format.run r).result = .ok p →
      4 + 10 * p.capacity.toNat ≤ p.record.length ∧
        p.record.length < 4 + 10 * (p.capacity.toNat + 1) := by
  have hopened : r.IsSlotPage → (ofRecord.run r).result = .ok (unread r) := by
    intro h
    rw [run_ofRecord h]
  refine ⟨⟨?_, ?_⟩, fun p hp => (ofRecord_eq_ok hp).2, fun f => ⟨?_, ?_⟩, ?_, ?_, ?_⟩
  · rintro ⟨p, hp⟩
    obtain ⟨hl, hg, hbegins⟩ := Record.isSlotPage_iff.mp (ofRecord_eq_ok hp).1
    exact ⟨⟨hl, hg⟩, hbegins.high, hbegins.low⟩
  · rintro ⟨⟨hl, hg⟩, hhigh, hlow⟩
    exact ⟨_, hopened (Record.isSlotPage_iff.mpr ⟨hl, hg, hhigh, hlow⟩)⟩
  · intro hf
    obtain hpage | ⟨e, he⟩ := Record.isSlotPage_or_refuses r
    · exact absurd ((hopened hpage).symm.trans hf) nofun
    · exact ⟨e, Except.error.inj (hf.symm.trans (result_ofRecord_of_refuses he)), he⟩
  · rintro ⟨e, rfl, he⟩
    exact result_ofRecord_of_refuses he
  · split
    · rename_i hlen
      rw [run_format hlen.1 hlen.2, formatted_eq_blank hlen.1]
    · rename_i hlen
      have hunusable : r.length < 4 ∨ Record.maxLength < r.length := by
        show r.length < 4 ∨ 65535 < r.length
        omega
      rw [run_format_of_unusable hunusable]
      rfl
  · intro p hp row hrow
    obtain ⟨hl, hg, rfl⟩ := format_eq_ok hp
    exact isInUse_formatted hl hg hrow
  · rintro p (hp | hp)
    · obtain ⟨hpage, rfl⟩ := ofRecord_eq_ok hp
      exact capacity_unread hpage.least hpage.greatest
    · obtain ⟨hl, hg, rfl⟩ := format_eq_ok hp
      rw [← Record.length_formatted r] at hl hg
      exact capacity_unread hl hg

/-- A data page of 24 bytes is not opened, and formatting it leaves two vacant rows. -/
theorem opens_and_formats_data_page :
    let r := Record.ofBytes 7 (#[0x19, 0x91] ++ Array.replicate 22 255)
    let p := unread (blank 7 24)
    (ofRecord.run r).result =
        .error (.refused (.unexpectedPageType .freePhysicalSlot 0x1991)) ∧
      (format.run r).result = .ok p ∧ (1 : UInt16) < p.capacity ∧
      ((isInUse 1).run p).result = .ok false ∧ 4 + 10 * p.capacity.toNat ≤ p.record.length := by
  intro r p
  obtain ⟨-, -, hrefused, hformat, hvacant, hrows⟩ := opens_and_formats r
  have hp : (format.run r).result = .ok p := hformat
  have hrow : (1 : UInt16) < p.capacity := by decide +kernel
  have hdata : r.Begins 0x1991 := ⟨by decide +kernel, by decide +kernel⟩
  exact ⟨(hrefused _).mpr ⟨_, rfl, .otherTag hdata (.inl rfl)⟩, hp, hrow, hvacant p hp 1 hrow,
    (hrows p (.inr hp)).1⟩

end SlotPage

end FreeSpace
