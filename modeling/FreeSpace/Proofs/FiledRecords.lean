import FreeSpace.Proofs.FrameDamage
import FreeSpace.Proofs.RecordChanges

/-!
# A record and the frame it has in its store

`Filed` is what holds of a record and a store once the record was read from it (`Filed.of_read`) or
written to it (`Filed.of_written`), and what lets a clean record be read back (`Filed.read`).  It
outlives changes of the record, which mark it, and writes that fail: as far as such a write gets, it
puts nothing but the record into the frame (`Frame.Torn`).
-/

namespace FreeSpace

namespace Frame

/-- Nothing was written over a frame, and it was not cut off. -/
structure Spared (id : UInt64) (n : Nat) (s t : Store) : Prop where
  medium : t.medium = s.medium
  bytes : ∀ i, start id n ≤ i → i < finish id n → i < s.length → t.bytes[i]? = s.bytes[i]?

theorem spared_patch {id : UInt64} {n position : Nat} {bs : List UInt8}
    (h : position + bs.length ≤ start id n ∨ finish id n ≤ position) (s : Store) :
    Spared id n s (s.patch position bs) where
  medium := rfl
  bytes i hstart hfinish _ := by
    show (Bytes.overlay s.bytes position bs)[i]? = s.bytes[i]?
    rw [Bytes.getElem?_overlay, if_neg (by omega)]

/-- Of the bytes in the frame of a record, some were written again from the record. -/
structure Torn (r : Record) (s t : Store) : Prop where
  medium : t.medium = s.medium
  bytes : ∀ i, start r.id r.length ≤ i → i < finish r.id r.length → i < s.length →
    t.bytes[i]? = s.bytes[i]? ∨ t.bytes[i]? = (bytes r)[i - start r.id r.length]?

-- A frame whose trailer fits its record is the frame of that record.
theorem bytes_of_checksum {id : UInt64} {n : Nat} {bs : List UInt8}
    (hlen : bs.length = n + trailerWidth)
    (h : UInt32.ofNat (Bytes.value (bs.drop n)) = checksum (bs.take n).toArray) :
    bytes (Record.ofBytes id (bs.take n).toArray) = bs := by
  have hdrop : (bs.drop n).length = trailerWidth := by
    rw [List.length_drop, hlen]
    exact Nat.add_sub_cancel_left ..
  have hlt := Bytes.value_lt (bs.drop n)
  rw [hdrop] at hlt
  have htrailer : trailer (Record.ofBytes id (bs.take n).toArray) = bs.drop n := by
    show Bytes.digits trailerWidth (checksum (bs.take n).toArray).toNat = _
    rw [← h, UInt32.toNat_ofNat_of_lt' hlt, ← hdrop, Bytes.digits_value]
  rw [bytes, htrailer]
  exact List.take_append_drop ..

end Frame

/-! ## A write that may fail -/

namespace Store

variable (position : Nat) (bs : List UInt8) (s : Store)

theorem state_write :
    ((write position bs).run s).state = s.patch position bs ∨
      s.Took position bs ((write position bs).run s).state := by
  rcases write_cases position bs s with ⟨t, hrun, ⟨ht, -⟩ | ⟨ht, hroom⟩⟩ | ⟨e, t, hrun, ht⟩ <;>
    rw [hrun]
  · exact .inl ht
  · exact .inr (.inr ⟨bs, List.prefix_rfl, hroom, ht⟩)
  · exact ht

theorem medium_write : ((write position bs).run s).state.medium = s.medium := by
  rcases state_write position bs s with hstate | hstate | ⟨cs, -, -, hstate⟩ <;> rw [hstate]
  · rfl
  · rfl

-- A byte that was there is as it was, or the one that was written there.
theorem getElem?_write {i : Nat} (hi : i < s.length) :
    ((write position bs).run s).state.bytes[i]? = s.bytes[i]? ∨
      position ≤ i ∧ i < position + bs.length ∧
        ((write position bs).run s).state.bytes[i]? = bs[i - position]? := by
  rcases state_write position bs s with hstate | hstate | ⟨cs, ⟨rest, hrest⟩, -, hstate⟩ <;>
    rw [hstate]
  · show (Bytes.overlay ..)[_]? = _ ∨ _ ∧ _ ∧ (Bytes.overlay ..)[_]? = _
    rw [Bytes.getElem?_overlay]
    by_cases hin : position ≤ i ∧ i < position + bs.length
    · exact .inr ⟨hin.1, hin.2, if_pos ⟨hin.1, hin.2, hi⟩⟩
    · exact .inl (if_neg fun h => hin ⟨h.1, h.2.1⟩)
  · exact .inl rfl
  · show (Bytes.place ..)[_]? = _ ∨ _ ∧ _ ∧ (Bytes.place ..)[_]? = _
    rw [Bytes.getElem?_place]
    by_cases hin : position ≤ i ∧ i < position + cs.length
    · right
      subst hrest
      rw [List.length_append, if_pos hin, List.getElem?_append_left (by omega)]
      exact ⟨hin.1, by omega, rfl⟩
    · left
      rw [if_neg hin]
      exact if_pos hi

/-- A part of a record written where it belongs tears its frame at worst. -/
theorem torn_write {r : Record} {k : Nat} (h : bs <+: (Frame.bytes r).drop k) :
    Frame.Torn r s ((write (Frame.start r.id r.length + k) bs).run s).state where
  medium := medium_write ..
  bytes i hstart _ hin := by
    rcases getElem?_write (Frame.start r.id r.length + k) bs s hin with hsame | ⟨hle, hlt, hwritten⟩
    · exact .inl hsame
    · right
      have hindex : k + (i - (Frame.start r.id r.length + k)) = i - Frame.start r.id r.length := by
        omega
      obtain ⟨rest, hrest⟩ := h
      rw [hwritten, ← hindex, ← List.getElem?_drop, ← hrest,
        List.getElem?_append_left (by omega)]

theorem state_readRecord (id : UInt64) (length : Nat) :
    ((readRecord id length).run s).state = s := by
  have hview {α : Type} (f : Store → Result α) : (Action.view f).Keeps Eq := fun s => rfl
  have hreport (f : Store → Event) : (Action.report f).Keeps Eq := fun s => rfl
  have hread : (readRecord id length).Keeps Eq := by
    refine (hview _).bind .trans fun position => (hview _).bind .trans fun _ =>
      (hview _).bind .trans fun bytes => (hview _).bind .trans fun trailer => ?_
    dsimp only
    split
    · exact hview _
    · exact (hreport _).bind .trans fun _ => hview _
  exact (hread s).symm

end Store

/-! ## What stays true of a record and its store -/

/-- The record of this id and length has a frame in the store, and the frame holds it if it is
clean. -/
structure Filed (id : UInt64) (n : Nat) (r : Record) (s : Store) : Prop where
  id_eq : r.id = id
  length_eq : r.length = n
  fits : n ≤ Memory.maxBytes
  located : Frame.locate id n s = .ok (Frame.start id n)
  stored : r.dirty = false →
    Bytes.window s.bytes (Frame.start id n) (n + Frame.trailerWidth) = some (Frame.bytes r)

namespace Filed

variable {id : UInt64} {n : Nat} {r r' : Record} {s t : Store}

theorem read (h : Filed id n r s) (hclean : r.dirty = false) :
    ((Store.readRecord id n).run s).result = .ok r := by
  obtain ⟨rfl, rfl, hfits, hloc, hstored⟩ := h
  rw [Store.result_readRecord_of_le hloc hfits, hstored hclean]
  show (if UInt32.ofNat (Bytes.value ((Frame.bytes r).drop r.length)) = _ then _ else _) = _
  rw [Frame.take_bytes, Frame.drop_bytes, Frame.value_trailer, Array.toArray_toList]
  show (if r.checksum = r.checksum then Except.ok (Record.mk r.id r.data false) else _) = .ok r
  rw [if_pos rfl, ← hclean]

theorem of_read (h : ((Store.readRecord id n).run s).result = .ok r) : Filed id n r s := by
  cases hloc : Frame.locate id n s with
  | error e =>
    rw [Store.result_readRecord_of_error hloc] at h
    cases h
  | ok position =>
    obtain rfl := Frame.eq_start hloc
    have hfits : n ≤ Memory.maxBytes := by
      by_contra hlong
      rw [Store.result_readRecord_of_long hloc (Nat.not_le.mp hlong)] at h
      cases h
    rw [Store.result_readRecord_of_le hloc hfits] at h
    cases hframe : Bytes.window s.bytes (Frame.start id n) (n + Frame.trailerWidth) with
    | none =>
      rw [hframe] at h
      cases h
    | some bs =>
      have hlen := (Bytes.length_of_window hframe).1
      rw [hframe] at h
      change (if _ then _ else _) = _ at h
      split at h
      · rename_i hsum
        obtain rfl := Except.ok.inj h
        refine ⟨rfl, ?_, hfits, hloc, fun _ => ?_⟩
        · show (bs.take n).toArray.size = n
          rw [List.size_toArray, List.length_take, hlen]
          exact Nat.min_eq_left (Nat.le_add_right ..)
        · rw [hframe, Frame.bytes_of_checksum hlen hsum]
      · cases h

-- A record that changed is dirty, so nothing is said of its frame any more.
theorem marked (h : Filed id n r s) (hr : r.Marked r') : Filed id n r' s where
  id_eq := hr.id.trans h.id_eq
  length_eq := hr.length.trans h.length_eq
  fits := h.fits
  located := h.located
  stored hclean := by
    rcases hr.change with rfl | hdirty
    · exact h.stored hclean
    · rw [hclean] at hdirty
      cases hdirty

-- A frame that holds the record holds it also when parts of it are written again.
theorem torn (h : Filed id n r s) (ht : Frame.Torn r s t) : Filed id n r t := by
  obtain ⟨rfl, rfl, hfits, hloc, hstored⟩ := h
  refine ⟨rfl, rfl, hfits, (locate_congr ht.medium).trans hloc, fun hclean => ?_⟩
  have hframe := hstored hclean
  have hin := (Bytes.length_of_window hframe).2
  apply Bytes.window_eq_some (Frame.length_bytes r) (Nat.succ_pos _)
  intro i hi
  have hbyte := Bytes.getElem?_of_window hframe i
  rw [if_pos hi] at hbyte
  have hfinish : Frame.start r.id r.length + i < Frame.finish r.id r.length :=
    Nat.add_lt_add_left hi _
  rcases ht.bytes _ (Nat.le_add_right ..) hfinish (by unfold Store.length; omega) with hold | hnew
  · rw [hold, hbyte]
  · rw [hnew, Nat.add_sub_cancel_left]

theorem spared (h : Filed id n r s) (hs : Frame.Spared id n s t) : Filed id n r t := by
  apply h.torn
  rw [← h.id_eq, ← h.length_eq] at hs
  exact ⟨hs.medium, fun i hstart hfinish hin => .inl (hs.bytes i hstart hfinish hin)⟩

theorem of_written (hfits : r.length ≤ Memory.maxBytes)
    (h : (Filing.writeRecord.run ⟨r, s⟩).result = .ok ()) :
    Filed r.id r.length (Filing.writeRecord.run ⟨r, s⟩).state.record
      (Filing.writeRecord.run ⟨r, s⟩).state.store := by
  rcases hrun : Filing.writeRecord.run ⟨r, s⟩ with ⟨result, f, es⟩
  rw [hrun] at h
  obtain rfl : result = .ok () := h
  obtain ⟨hmedium, hloc, hframe⟩ := Filing.window_of_written hrun
  rw [Filing.run_writeRecord_of_locate hloc] at hrun
  obtain ⟨t, u, -, -, rfl⟩ := Filing.writes_of_writeAt hrun
  exact ⟨rfl, rfl, hfits, (locate_congr hmedium).trans hloc, fun _ => hframe⟩

-- A write that fails keeps the record as it is, and tears its frame at worst.
theorem failed (h : Filed id n r s) {e : Failure}
    (hresult : (Filing.writeRecord.run ⟨r, s⟩).result = .error e) :
    Filed id n (Filing.writeRecord.run ⟨r, s⟩).state.record
      (Filing.writeRecord.run ⟨r, s⟩).state.store := by
  obtain ⟨rfl, rfl⟩ : r.id = id ∧ r.length = n := ⟨h.id_eq, h.length_eq⟩
  rw [Filing.run_writeRecord_of_locate h.located] at hresult ⊢
  have hdata : r.data.toList <+: (Frame.bytes r).drop 0 := List.prefix_append ..
  have htrailer : Frame.trailer r <+: (Frame.bytes r).drop r.length := by
    rw [Frame.drop_bytes]
  have hfirst := h.torn (Store.torn_write r.data.toList s hdata)
  rw [Nat.add_zero] at hfirst
  cases hdone : ((Store.write (Frame.start r.id r.length) r.data.toList).run s).result with
  | error e =>
    rw [Filing.run_writeAt_of_data_error (Store.run_write_of_result hdone)]
    exact hfirst
  | ok _ =>
    have hwritten := Store.run_write_of_result hdone
    generalize ((Store.write (Frame.start r.id r.length) r.data.toList).run s).state = u at *
    have hsecond := hfirst.torn (Store.torn_write (Frame.trailer r) u htrailer)
    cases hdone : ((Store.write (Frame.start r.id r.length + r.length)
        (Frame.trailer r)).run u).result with
    | error e =>
      rw [Filing.run_writeAt_of_trailer_error hwritten (Store.run_write_of_result hdone)]
      exact hsecond
    | ok _ =>
      rw [Filing.run_writeAt_of_ok hwritten (Store.run_write_of_result hdone)] at hresult
      cases hresult

/-- Writing a record keeps it filed, however the write ends. -/
theorem writeRecord (h : Filed id n r s) :
    Filed id n (Filing.writeRecord.run ⟨r, s⟩).state.record
      (Filing.writeRecord.run ⟨r, s⟩).state.store := by
  cases hresult : (Filing.writeRecord.run ⟨r, s⟩).result with
  | ok _ =>
    obtain ⟨rfl, rfl⟩ : r.id = id ∧ r.length = n := ⟨h.id_eq, h.length_eq⟩
    exact of_written h.fits hresult
  | error e => exact h.failed hresult

end Filed

end FreeSpace
