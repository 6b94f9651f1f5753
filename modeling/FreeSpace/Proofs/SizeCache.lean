import FreeSpace.Proofs.BarePage

/-!
# The sizes a page keeps are the sizes its record has

`Sound` is the invariant: every kept size is the one that the record has for its row.  `Ends` says
of an outcome what it is answered, which record it leaves, and that the page is sound still; there
is one rule for each way in which the calls of a page are put together.
-/

namespace FreeSpace.SlotPage

/-- The page can be opened again, and each size it keeps is the one in its record. -/
structure Sound (p : SlotPage) : Prop where
  isPage : p.record.IsSlotPage
  size_sizes : p.sizes.size = rowsIn p.record.length
  kept : ∀ row size, p.sizes[row]? = some (some size) → size = p.record.rowSize row

theorem sound_unread {r : Record} (h : r.IsSlotPage) : Sound (unread r) where
  isPage := h
  size_sizes := Array.size_replicate
  kept := by
    intro row size hs
    change (Array.replicate (rowsIn r.length) none)[row]? = _ at hs
    rw [Array.getElem?_replicate] at hs
    split at hs <;> exact absurd hs nofun

-- A change of the record that leaves its length, its tag and its sizes.
theorem Sound.withRecord {p : SlotPage} {r : Record} (h : Sound p) (hr : r.IsSlotPage)
    (hlen : r.length = p.record.length)
    (hsize : ∀ row < rowsIn r.length, r.rowSize row = p.record.rowSize row) :
    Sound ⟨r, p.sizes⟩ where
  isPage := hr
  size_sizes := by
    change p.sizes.size = rowsIn r.length
    rw [hlen]
    exact h.size_sizes
  kept := by
    intro row size hs
    have hs' : p.sizes[row]? = some (some size) := hs
    have hlt : row < p.sizes.size := by
      obtain ⟨hlt, -⟩ := Array.getElem?_eq_some_iff.mp hs'
      exact hlt
    have hrow : row < rowsIn r.length := by
      rw [hlen, ← h.size_sizes]
      exact hlt
    change size = r.rowSize row
    rw [hsize row hrow]
    exact h.kept row size hs'

/-- How an action on a page ended: with this answer, on this record, and sound. -/
structure Ends {α : Type} (o : Outcome SlotPage α) (result : Result α) (r : Record) : Prop where
  result : o.result = result
  record : o.state.record = r
  sound : Sound o.state

namespace Ends

variable {α β : Type} {p : SlotPage} {r r' : Record}

theorem bind_ok {x : Action SlotPage α} {f : α → Action SlotPage β} {a : α} {result : Result β}
    (hx : Ends (x.run p) (.ok a) r)
    (hf : ∀ q : SlotPage, Sound q → q.record = r → Ends ((f a).run q) result r') :
    Ends ((x >>= f).run p) result r' := by
  have hq := hf _ hx.sound hx.record
  rw [Action.run_bind, hx.result]
  exact ⟨hq.result, hq.record, hq.sound⟩

theorem bind_error {x : Action SlotPage α} {f : α → Action SlotPage β} {e : Failure}
    (hx : Ends (x.run p) (.error e) r) : Ends ((x >>= f).run p) (.error e) r := by
  rw [Action.run_bind, hx.result]
  exact ⟨rfl, hx.record, hx.sound⟩

theorem view (h : Sound p) (f : SlotPage → Result α) :
    Ends ((Action.view f).run p) (f p) p.record :=
  ⟨rfl, rfl, h⟩

theorem pure (h : Sound p) (a : α) :
    Ends ((Pure.pure a : Action SlotPage α).run p) (.ok a) p.record :=
  ⟨rfl, rfl, h⟩

theorem refuse (h : Sound p) (e : Error) :
    Ends ((Action.refuse e : Action SlotPage α).run p) (.error (.refused e)) p.record :=
  ⟨rfl, rfl, h⟩

theorem report (h : Sound p) (f : SlotPage → Event) :
    Ends ((Action.report f).run p) (.ok ()) p.record :=
  ⟨rfl, rfl, h⟩

-- Going on with what a look at the page found.
theorem andThen (h : Sound p) {f : SlotPage → Result α} {found : Result α} (hf : f p = found)
    {g : α → Action SlotPage β} {result : α → Result β × Record}
    (hg : ∀ a (q : SlotPage), found = .ok a → Sound q → q.record = p.record →
      Ends ((g a).run q) (result a).1 (result a).2) :
    Ends ((Action.view f >>= g).run p) (BarePage.andThen found p.record result).1
      (BarePage.andThen found p.record result).2 := by
  have hv := view h f
  rw [hf] at hv
  cases found with
  | ok a => exact hv.bind_ok fun q hq hr => hg a q rfl hq hr
  | error e => exact hv.bind_error

-- An answer put into another form.
theorem map {x : Action SlotPage α} {result : Result α} (hx : Ends (x.run p) result r)
    (f : α → β) : Ends ((x >>= fun a => Pure.pure (f a)).run p) (result.map f) r := by
  cases result with
  | ok a => exact hx.bind_ok fun q hq hr => hr ▸ pure hq (f a)
  | error e => exact hx.bind_error

end Ends

/-! ## Reading a size -/

-- The offsets of all rows that a record has are 16-bit words.
theorem offsetOf_of_lt {row : UInt16} {length : Nat} (hlen : length ≤ Record.maxLength)
    (h : row.toNat < rowsIn length) :
    layout.offsetOf row = .ok (.ofNat (rowStart row.toNat)) := by
  have hend := rowStart_add_le h
  have hstart : layout.start row = rowStart row.toNat := Nat.add_comm ..
  have hlt : layout.start row < UInt16.size := by
    change length ≤ 65535 at hlen
    change layout.start row < 65536
    omega
  rw [RowLayout.offsetOf_of_start_lt (by decide) hlt, hstart]

theorem sizePosition_of_lt {row : UInt16} {length : Nat} (hlen : length ≤ Record.maxLength)
    (h : row.toNat < rowsIn length) :
    sizePosition row = .ok (rowStart row.toNat + Location.width) := by
  unfold sizePosition
  rw [offsetOf_of_lt hlen h]
  change Except.ok ((UInt16.ofNat (rowStart row.toNat)).toNat + Location.width) = _
  rw [toNat_rowStart hlen h]

-- The size kept last is sound if it is the record's, whatever was kept for its row before.
theorem ends_keepSize {p : SlotPage} (hpage : p.record.IsSlotPage)
    (hsizes : p.sizes.size = rowsIn p.record.length) (row : UInt16)
    (hrow : row.toNat < rowsIn p.record.length)
    (hkept : ∀ other size, other ≠ row.toNat → p.sizes[other]? = some (some size) →
      size = p.record.rowSize other) :
    Ends ((keepSize row (p.record.rowSize row.toNat)).run p) (.ok ()) p.record := by
  have hlt : row.toNat < p.sizes.size := by rwa [hsizes]
  have hrun : (keepSize row (p.record.rowSize row.toNat)).run p =
      ⟨.ok (), ⟨p.record, p.sizes.setIfInBounds row.toNat (some (p.record.rowSize row.toNat))⟩,
        []⟩ := if_pos hlt
  rw [hrun]
  refine ⟨rfl, rfl, hpage, ?_, ?_⟩
  · exact Array.size_setIfInBounds.trans hsizes
  · intro other size hs
    change (p.sizes.setIfInBounds row.toNat _)[other]? = _ at hs
    rw [Array.getElem?_setIfInBounds] at hs
    split at hs
    · rename_i he
      obtain rfl := he
      exact (Option.some.inj (Option.some.inj hs)).symm
    · rename_i hne
      exact hkept other size (Ne.symm hne) hs

-- Reading the size of a row answers what the record has, whether it was kept or not.
theorem ends_readSize {p : SlotPage} {row : UInt16} (h : Sound p)
    (hrow : row.toNat < rowsIn p.record.length) :
    Ends ((readSize row).run p) (.ok (p.record.rowSize row.toNat)) p.record := by
  have hlt : row.toNat < p.sizes.size := by rwa [h.size_sizes]
  obtain ⟨kept, hk⟩ : ∃ kept, p.sizes[row.toNat]? = some kept :=
    ⟨_, Array.getElem?_eq_getElem hlt⟩
  have hread : sizeRead? row p = .ok kept := by
    unfold sizeRead?
    rw [hk]
  unfold readSize
  -- A kept size is the record's already; one that is not is read from it, and kept.
  cases kept with
  | some size =>
    have hsize := h.kept _ _ hk
    have hv := Ends.view h (sizeRead? row)
    rw [hread] at hv
    refine hv.bind_ok fun q hq hr => ?_
    rw [← hsize, ← hr]
    exact Ends.pure hq size
  | none =>
    have hend := rowStart_add_le hrow
    have hv := Ends.view h (sizeRead? row)
    rw [hread] at hv
    refine hv.bind_ok fun q hq hr => ?_
    rw [← hr] at hrow hend ⊢
    have hpos : Ends ((Action.lift (sizePosition row)).run q)
        (.ok (rowStart row.toNat + Location.width)) q.record := by
      rw [← sizePosition_of_lt hq.isPage.greatest hrow]
      exact Ends.view hq _
    refine hpos.bind_ok fun q' hq' hr' => ?_
    have hfield : q'.record.read32 (rowStart row.toNat + Location.width) =
        .ok (q'.record.rowSize row.toNat) := by
      unfold Record.read32
      rw [Record.field_eq_numberAt (by rw [hr']; exact hend)]
      rfl
    have hsz := Ends.view hq' (·.record.read32 (rowStart row.toNat + Location.width))
    rw [hfield] at hsz
    refine hsz.bind_ok fun q₂ hq₂ hr₂ => ?_
    refine (Ends.report hq₂ _).bind_ok fun q₃ hq₃ hr₃ => ?_
    have hsame : q₃.record = q.record := hr₃.trans (hr₂.trans hr')
    have hkeep := ends_keepSize hq₃.isPage hq₃.size_sizes row (by rwa [hsame])
      fun other size _ hs => hq₃.kept other size hs
    rw [hr', ← hsame]
    refine hkeep.bind_ok fun q₄ hq₄ hr₄ => ?_
    rw [← hr₄]
    exact Ends.pure hq₄ _

/-! ## Writing -/

theorem run_onRecord {α : Type} (a : Action Record α) (p : SlotPage) :
    (onRecord a).run p =
      ⟨(a.run p.record).result, ⟨(a.run p.record).state, p.sizes⟩, (a.run p.record).events⟩ := rfl

theorem ends_writeSize {p : SlotPage} {row : UInt16} (h : Sound p)
    (hrow : row.toNat < rowsIn p.record.length) (size : UInt32) :
    Ends ((writeSize row size).run p) (.ok ()) (p.record.putSize row.toNat size) := by
  have hend := rowStart_add_le hrow
  have hpos : (Action.lift (sizePosition row)).run p =
      ⟨.ok (rowStart row.toNat + Location.width), p, []⟩ := by
    rw [← sizePosition_of_lt h.isPage.greatest hrow]
    rfl
  have hwrite : (onRecord (Record.write32 (rowStart row.toNat + Location.width) size)).run p =
      ⟨.ok (), ⟨p.record.putSize row.toNat size, p.sizes⟩, []⟩ := by
    have hin : rowStart row.toNat + Location.width + 4 ≤ p.record.length := hend
    rw [run_onRecord, Record.run_write32 hin]
    rfl
  -- between the two writes the size kept for this row can differ from the record's
  have hkeep := ends_keepSize (p := ⟨p.record.putSize row.toNat size, p.sizes⟩)
    (h.isPage.putSize _ _) (by rw [Record.length_putSize]; exact h.size_sizes) row
    (by rwa [Record.length_putSize]) (by
      intro other old hne hs
      have hother : other < rowsIn p.record.length := by
        obtain ⟨hlt, -⟩ := Array.getElem?_eq_some_iff.mp hs
        rw [← h.size_sizes]
        exact hlt
      rw [Record.rowSize_putSize hrow hother, if_neg hne]
      exact h.kept other old hs)
  rw [Record.rowSize_putSize hrow hrow, if_pos rfl] at hkeep
  unfold writeSize
  rw [Action.run_bind_silent hpos, Action.run_bind_silent hwrite]
  exact hkeep

theorem ends_setCount {p : SlotPage} (h : Sound p) (count : UInt16) :
    Ends ((setCount count).run p) (.ok ()) (p.record.putCount count) := by
  have hrun : (setCount count).run p = ⟨.ok (), ⟨p.record.putCount count, p.sizes⟩, []⟩ := by
    have hin : countPosition + 2 ≤ p.record.length := h.isPage.least
    rw [setCount, run_onRecord, Record.run_write16 hin]
    rfl
  rw [hrun]
  refine ⟨rfl, rfl, h.withRecord (h.isPage.putCount count) (Record.length_putCount ..) ?_⟩
  intro row hrow
  exact Record.rowSize_putCount (by rwa [Record.length_putCount] at hrow)

-- A location written at the start of a row leaves all sizes.
theorem ends_setLocation {p : SlotPage} {row : Nat} {offset : UInt16} (h : Sound p)
    (hrow : row < rowsIn p.record.length) (hoff : offset.toNat = rowStart row) (l : Location) :
    Ends ((setLocation offset l).run p) (.ok ()) (p.record.putLocation row l) := by
  have hrun : (setLocation offset l).run p =
      ⟨.ok (), ⟨p.record.putLocation row l, p.sizes⟩, []⟩ := by
    rw [setLocation, run_onRecord, Record.run_writeLocation h.isPage.greatest hrow hoff]
  rw [hrun]
  refine ⟨rfl, rfl, h.withRecord (h.isPage.putLocation row l) (Record.length_putLocation ..) ?_⟩
  intro other hother
  exact Record.rowSize_putLocation (by rwa [Record.length_putLocation] at hother)

end FreeSpace.SlotPage
