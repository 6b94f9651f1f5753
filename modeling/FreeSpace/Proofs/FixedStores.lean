import FreeSpace.Proofs.FrameDamage

/-!
# Stores that cannot grow

A fixed store takes what fits of a record and its trailer.  Both writes together leave what one write
of both would, wherever the store ends (`writes_of_fixed`, `run_writeRecord_of_fixed`), so a write
that fails has changed nothing but the frame it failed in, and that frame cannot be read
(`write_to_fixed`).
-/

namespace FreeSpace

namespace Store

variable {s t : Store} {position : Nat} {bs cs : List UInt8}

/-! ## Patches -/

theorem length_patch (position : Nat) (bs : List UInt8) (s : Store) :
    (s.patch position bs).length = s.length :=
  Bytes.size_overlay ..

theorem patch_append (position : Nat) (bs cs : List UInt8) (s : Store) :
    (s.patch position bs).patch (position + bs.length) cs = s.patch position (bs ++ cs) :=
  congrArg (Store.mk s.medium) (Bytes.overlay_append ..).symm

-- Of bytes that the store has no room for, those behind its end make no difference.
theorem patch_of_length_le (h : s.length ≤ position + bs.length) (cs : List UInt8) :
    s.patch position (bs ++ cs) = s.patch position bs := by
  rw [← patch_append]
  have hend : (s.patch position bs).bytes.size ≤ position + bs.length := by
    show (Bytes.overlay ..).size ≤ _
    rwa [Bytes.size_overlay]
  exact congrArg (Store.mk s.medium) (Bytes.overlay_of_size_le hend cs)

/-- Two writes one behind the other leave what there is room for of both, wherever the store ends. -/
theorem writes_of_fixed (hm : s.medium = .fixed) (position : Nat) (bs : List UInt8)
    (hcs : cs ≠ []) :
    (∃ t, (write position bs).run s = ⟨.ok (), t, []⟩ ∧
        (write (position + bs.length) cs).run t =
          ⟨if position + (bs ++ cs).length ≤ s.length then .ok ()
            else .error (.refused (.io .storeFull)), s.patch position (bs ++ cs), []⟩) ∨
      s.length < position + (bs ++ cs).length ∧
        (write position bs).run s =
          ⟨.error (.refused (.io .storeFull)), s.patch position (bs ++ cs), []⟩ := by
  have hfirst := run_write_of_fixed hm position bs
  rw [List.length_append, ← Nat.add_assoc]
  by_cases hfits : bs = [] ∨ position + bs.length ≤ s.length
  · rw [if_pos hfits] at hfirst
    have hmedium : (s.patch position bs).medium = .fixed := hm
    have hsecond := run_write_of_fixed hmedium (position + bs.length) cs
    simp only [hcs, false_or, patch_append, length_patch] at hsecond
    exact .inl ⟨_, hfirst, hsecond⟩
  · -- The store ends within the first run, so the second would stand behind its end.
    have hshort : s.length < position + bs.length := Nat.not_le.mp fun hle => hfits (.inr hle)
    rw [if_neg hfits] at hfirst
    rw [patch_of_length_le (Nat.le_of_lt hshort)]
    exact .inr ⟨by omega, hfirst⟩

/-! ## Reading where nothing was written -/

/-- What a frame is read as depends on nothing but its bytes. -/
theorem result_readRecord_congr {id : UInt64} {length : Nat} (hlen : length ≤ Memory.maxBytes)
    (hm : t.medium = s.medium)
    (h : Bytes.window t.bytes (Frame.start id length) (length + Frame.trailerWidth) =
      Bytes.window s.bytes (Frame.start id length) (length + Frame.trailerWidth)) :
    ((readRecord id length).run t).result = ((readRecord id length).run s).result := by
  have hloc : Frame.locate id length t = Frame.locate id length s := locate_congr hm
  cases hs : Frame.locate id length s with
  | error e =>
    rw [hs] at hloc
    rw [result_readRecord_of_error hloc, result_readRecord_of_error hs]
  | ok position =>
    obtain rfl := Frame.eq_start hs
    rw [hs] at hloc
    rw [result_readRecord_of_le hloc hlen, result_readRecord_of_le hs hlen, h]

end Store

namespace Frame

-- A store that cannot grow can be positioned anywhere.
theorem locate_of_fixed {id : UInt64} {length : Nat} {s : Store} (hm : s.medium = .fixed)
    (hid : finish id length < UInt64.size) : locate id length s = .ok (start id length) := by
  apply locate_of_reaches _ hid
  rw [hm]
  rfl

/-- Bytes written into one frame leave all others as they are. -/
theorem window_patch {id other : UInt64} (hne : other ≠ id) {length : Nat} {bs : List UInt8}
    (hbs : bs.length = length + trailerWidth) (s : Store) :
    Bytes.window (s.patch (start id length) bs).bytes (start other length)
        (length + trailerWidth) =
      Bytes.window s.bytes (start other length) (length + trailerWidth) := by
  have hdisjoint := disjoint hne length
  apply Bytes.window_overlay_of_disjoint
  rw [hbs]
  exact hdisjoint

end Frame

namespace Filing

variable {r : Record} {s : Store}

/-- The store is left with all of the frame that there is room for, also if that is not all. -/
theorem run_writeRecord_of_located (hm : s.medium = .fixed)
    (hloc : Frame.locate r.id r.length s = .ok (Frame.start r.id r.length)) :
    writeRecord.run ⟨r, s⟩ =
      if Frame.finish r.id r.length ≤ s.length then
        ⟨.ok (), ⟨Record.ofBytes r.id r.data,
          s.patch (Frame.start r.id r.length) (Frame.bytes r)⟩, []⟩
      else
        ⟨.error (.refused (.io .storeFull)),
          ⟨r, s.patch (Frame.start r.id r.length) (Frame.bytes r)⟩, []⟩ := by
  have hlen : r.data.toList.length = r.length := Array.length_toList
  have hend : Frame.start r.id r.length + (Frame.bytes r).length = Frame.finish r.id r.length := by
    rw [Frame.length_bytes]
    rfl
  have htrailer : Frame.trailer r ≠ [] := by
    apply List.ne_nil_of_length_pos
    rw [Frame.length_trailer]
    decide
  rw [run_writeRecord_of_locate hloc, ← hend]
  have hwrites := Store.writes_of_fixed hm (Frame.start r.id r.length) r.data.toList htrailer
  rw [hlen, ← Frame.bytes] at hwrites
  rcases hwrites with ⟨t, hdata, hrest⟩ | ⟨hout, hdata⟩
  · by_cases hin : Frame.start r.id r.length + (Frame.bytes r).length ≤ s.length
    · rw [if_pos hin] at hrest ⊢
      exact run_writeAt_of_ok hdata hrest
    · rw [if_neg hin] at hrest ⊢
      exact run_writeAt_of_trailer_error hdata hrest
  · rw [if_neg (Nat.not_le.mpr hout)]
    exact run_writeAt_of_data_error hdata

theorem run_writeRecord_of_fixed (hm : s.medium = .fixed)
    (hid : Frame.finish r.id r.length < UInt64.size) :
    writeRecord.run ⟨r, s⟩ =
      if Frame.finish r.id r.length ≤ s.length then
        ⟨.ok (), ⟨Record.ofBytes r.id r.data,
          s.patch (Frame.start r.id r.length) (Frame.bytes r)⟩, []⟩
      else
        ⟨.error (.refused (.io .storeFull)),
          ⟨r, s.patch (Frame.start r.id r.length) (Frame.bytes r)⟩, []⟩ :=
  run_writeRecord_of_located hm (Frame.locate_of_fixed hm hid)

/-- **A failed write is not taken for a success.**  Writing a record to a store that cannot grow
succeeds exactly if the store has all of its frame.  Either way no byte outside the frame changes, and
every other id is read as before.  A write that fails is refused by the medium and leaves the record
as it is, dirty if it was; what the store has of the frame is the beginning of the record and its
trailer, and reading the frame is refused too. -/
theorem write_to_fixed (hm : s.medium = .fixed) (hlen : r.length ≤ Memory.maxBytes)
    (hid : Frame.finish r.id r.length < UInt64.size) :
    let o := writeRecord.run ⟨r, s⟩
    let t := o.state.store
    (o.result = .ok () ↔ Frame.finish r.id r.length ≤ s.length) ∧
      (t.medium = s.medium ∧ t.length = s.length ∧
        ∀ i, i < Frame.start r.id r.length ∨ Frame.finish r.id r.length ≤ i →
          t.bytes[i]? = s.bytes[i]?) ∧
      (∀ other, other ≠ r.id →
        ((Store.readRecord other r.length).run t).result =
          ((Store.readRecord other r.length).run s).result) ∧
      (o.result ≠ .ok () →
        (∃ cause, o.result = .error (.refused (.io cause))) ∧ o.state.record = r ∧
        (∀ i < (Frame.bytes r).length, Frame.start r.id r.length + i < s.length →
          t.bytes[Frame.start r.id r.length + i]? = (Frame.bytes r)[i]?) ∧
        ∃ cause, ((Store.readRecord r.id r.length).run t).result =
          .error (.refused (.io cause))) := by
  intro o t
  have hbytes := Frame.length_bytes r
  have hfinish : Frame.finish r.id r.length =
      Frame.start r.id r.length + (r.length + Frame.trailerWidth) := rfl
  have hrun : o = _ := run_writeRecord_of_fixed hm hid
  have hstore : t = s.patch (Frame.start r.id r.length) (Frame.bytes r) := by
    show o.state.store = _
    rw [hrun]
    split <;> rfl
  have hresult : o.result = .ok () ↔ Frame.finish r.id r.length ≤ s.length := by
    rw [hrun]
    split
    · rename_i hin
      exact ⟨fun _ => hin, fun _ => rfl⟩
    · rename_i hout
      exact ⟨nofun, fun hin => absurd hin hout⟩
  have hmedium : t.medium = s.medium := by rw [hstore]; rfl
  have hlength : t.length = s.length := by rw [hstore, Store.length_patch]
  refine ⟨hresult, ⟨hmedium, hlength, fun i hi => ?_⟩, fun other hne => ?_, fun hfailed => ?_⟩
  · rw [hstore]
    show (Bytes.overlay ..)[i]? = _
    rw [Bytes.getElem?_overlay, if_neg (by omega)]
  · apply Store.result_readRecord_congr hlen hmedium
    rw [hstore]
    exact Frame.window_patch hne hbytes s
  · have hout : ¬ Frame.finish r.id r.length ≤ s.length := fun hin => hfailed (hresult.mpr hin)
    rw [if_neg hout] at hrun
    refine ⟨⟨.storeFull, by rw [hrun]⟩, by rw [hrun], fun i hi hin => ?_,
      _, Store.result_readRecord_of_outside hlen hid (by omega)⟩
    rw [hstore]
    show (Bytes.overlay ..)[_]? = _
    have hbyte : Frame.start r.id r.length + i < s.bytes.size := hin
    rw [Bytes.getElem?_overlay, if_pos (by omega), Nat.add_sub_cancel_left]

/-- The store ends after the first byte of the trailer of record 1. -/
theorem write_to_fixed_torn_trailer :
    let r : Record := ⟨1, #[3, 1, 4, 1, 5, 9], true⟩
    let s : Store := ⟨.fixed, #[2, 7, 1, 8, 2, 8, 196, 104, 0, 213, 7, 7, 7, 7, 7, 7, 7]⟩
    r.length ≤ Memory.maxBytes ∧ Frame.finish r.id r.length < UInt64.size ∧
      (writeRecord.run ⟨r, s⟩).result ≠ .ok () ∧ (writeRecord.run ⟨r, s⟩).state.record = r ∧
      (writeRecord.run ⟨r, s⟩).state.store.bytes =
        #[2, 7, 1, 8, 2, 8, 196, 104, 0, 213, 3, 1, 4, 1, 5, 9, 128] ∧
      ((Store.readRecord 0 r.length).run (writeRecord.run ⟨r, s⟩).state.store).result =
        .ok (.ofBytes 0 #[2, 7, 1, 8, 2, 8]) ∧
      ∃ cause, ((Store.readRecord r.id r.length).run (writeRecord.run ⟨r, s⟩).state.store).result =
        .error (.refused (.io cause)) := by
  intro r s
  have hlen : r.length ≤ Memory.maxBytes := by decide
  have hid : Frame.finish r.id r.length < UInt64.size := by decide
  have hshort : ¬ Frame.finish r.id r.length ≤ s.length := by decide
  have hleft : (writeRecord.run ⟨r, s⟩).state.store.bytes =
      #[2, 7, 1, 8, 2, 8, 196, 104, 0, 213, 3, 1, 4, 1, 5, 9, 128] := by
    decide +kernel
  have hother : ((Store.readRecord 0 r.length).run s).result =
      .ok (.ofBytes 0 #[2, 7, 1, 8, 2, 8]) := by
    decide +kernel
  obtain ⟨hresult, -, hothers, herror⟩ := write_to_fixed (s := s) rfl hlen hid
  have hfailed : (writeRecord.run ⟨r, s⟩).result ≠ .ok () := fun hok => hshort (hresult.mp hok)
  obtain ⟨-, hkept, -, hread⟩ := herror hfailed
  exact ⟨hlen, hid, hfailed, hkept, hleft, (hothers 0 (by decide)).trans hother, hread⟩

end Filing

end FreeSpace
