import FreeSpace.Proofs.ChecksumAlgebra
import FreeSpace.Proofs.Frames
import Mathlib.Control.Monad.Basic

/-!
# Damage to a frame

Bytes of a frame that change after its record was written are noticed when it is read, as long as
they lie within four in a row of the record, or all in its trailer: the first change the checksum
of the record, the others what it is compared with.
-/

namespace FreeSpace

/-- A byte of a frame is not what it was. -/
def Changed (id : UInt64) (n : Nat) (before after : Store) (i : Nat) : Prop :=
  before.bytes[Frame.start id n + i]? ≠ after.bytes[Frame.start id n + i]?

instance (id : UInt64) (n : Nat) (before after : Store) (i : Nat) :
    Decidable (Changed id n before after i) :=
  inferInstanceAs (Decidable (_ ≠ _))

/-- Some bytes of the frame of a record of `n` bytes changed, all of them in one place. -/
structure Damaged (id : UInt64) (n : Nat) (before after : Store) : Prop where
  medium : after.medium = before.medium
  length : after.length = before.length
  some : ∃ i < n + Frame.trailerWidth, Changed id n before after i
  narrow :
    (∃ k, ∀ i < n + Frame.trailerWidth, Changed id n before after i → k ≤ i ∧ i < k + 4 ∧ i < n) ∨
      ∀ i < n + Frame.trailerWidth, Changed id n before after i → n ≤ i

theorem locate_congr {id : UInt64} {length : Nat} {s t : Store} (h : t.medium = s.medium) :
    Frame.locate id length t = Frame.locate id length s := by
  unfold Frame.locate Store.seek
  rw [h]

-- A stored checksum that is another four bytes is another checksum.
theorem ofNat_value_ne {bs cs : List UInt8} (hbs : bs.length = 4) (hcs : cs.length = 4)
    (h : bs ≠ cs) : UInt32.ofNat (Bytes.value bs) ≠ UInt32.ofNat (Bytes.value cs) := by
  have hb := Bytes.value_lt bs
  have hc := Bytes.value_lt cs
  rw [hbs] at hb
  rw [hcs] at hc
  intro heq
  rw [← UInt32.toNat_inj, UInt32.toNat_ofNat_of_lt' hb, UInt32.toNat_ofNat_of_lt' hc] at heq
  exact h (Bytes.eq_of_value_eq (hbs.trans hcs.symm) heq)

section

variable {r : Record} {before after : Store} {bs : List UInt8}
  (hwritten : Bytes.window before.bytes (Frame.start r.id r.length)
    (r.length + Frame.trailerWidth) = some (Frame.bytes r))
  (hread : Bytes.window after.bytes (Frame.start r.id r.length)
    (r.length + Frame.trailerWidth) = some bs)

include hwritten hread

-- A byte of the frame differs exactly if it changed in the store.
theorem changed_iff {i : Nat} (hi : i < r.length + Frame.trailerWidth) :
    Changed r.id r.length before after i ↔ (Frame.bytes r)[i]? ≠ bs[i]? := by
  rw [Bytes.getElem?_of_window hwritten, Bytes.getElem?_of_window hread, if_pos hi, if_pos hi]
  rfl

theorem take_eq_of_unchanged (h : ∀ i < r.length, ¬ Changed r.id r.length before after i) :
    r.data.toList = bs.take r.length := by
  rw [← Frame.take_bytes]
  apply List.ext_getElem?
  intro i
  rw [List.getElem?_take, List.getElem?_take]
  by_cases hi : i < r.length
  · have hsame := h i hi
    rw [changed_iff hwritten hread (by omega), not_not] at hsame
    rw [hsame]
  · rw [if_neg hi, if_neg hi]

theorem drop_eq_of_unchanged
    (h : ∀ i < r.length + Frame.trailerWidth, r.length ≤ i →
      ¬ Changed r.id r.length before after i) :
    Frame.trailer r = bs.drop r.length := by
  obtain ⟨hlen, -⟩ := Bytes.length_of_window hread
  have hbytes := Frame.length_bytes r
  rw [← Frame.drop_bytes]
  apply List.ext_getElem?
  intro i
  rw [List.getElem?_drop, List.getElem?_drop]
  by_cases hi : r.length + i < r.length + Frame.trailerWidth
  · have hsame := h (r.length + i) hi (Nat.le_add_right ..)
    rw [changed_iff hwritten hread hi, not_not] at hsame
    rw [hsame]
  · rw [List.getElem?_eq_none (by omega), List.getElem?_eq_none (by omega)]

-- A frame that changed is not the frame that was written.
theorem bytes_ne_of_changed {i : Nat} (hi : i < r.length + Frame.trailerWidth)
    (h : Changed r.id r.length before after i) : Frame.bytes r ≠ bs := by
  rw [changed_iff hwritten hread hi] at h
  intro heq
  exact h (congrArg (·[i]?) heq)

-- The checksum of the changed record is not the one stored for it.
theorem checksum_ne_of_data {k : Nat} (hne : Frame.bytes r ≠ bs)
    (h : ∀ i < r.length + Frame.trailerWidth, Changed r.id r.length before after i →
      k ≤ i ∧ i < k + 4 ∧ i < r.length) :
    UInt32.ofNat (Bytes.value (bs.drop r.length)) ≠ checksum (bs.take r.length).toArray := by
  obtain ⟨hlen, -⟩ := Bytes.length_of_window hread
  have htrailer := drop_eq_of_unchanged hwritten hread fun i hi hle hchanged => by
    have hin := h i hi hchanged
    omega
  rw [← htrailer, Frame.value_trailer]
  have hsize : r.data.size = (bs.take r.length).toArray.size := by
    have htake : (bs.take r.length).length = r.length := by
      rw [List.length_take, hlen]
      exact Nat.min_eq_left (Nat.le_add_right ..)
    exact htake.symm
  apply checksum_ne_of_burst hsize
  · intro hdata
    apply hne
    rw [Frame.bytes, htrailer, hdata]
    exact List.take_append_drop ..
  · intro i hi
    have hin : i < r.length := by
      by_contra hout
      apply hi
      have hsame : r.data.size ≤ i := Nat.not_lt.mp hout
      rw [Array.getElem?_eq_none hsame, Array.getElem?_eq_none (hsize ▸ hsame)]
    have hbyte : (bs.take r.length).toArray[i]? = bs[i]? := by
      rw [← Array.getElem?_toList, List.getElem?_take, if_pos hin]
    have hchanged : Changed r.id r.length before after i := by
      rw [changed_iff hwritten hread (by omega), Frame.bytes, List.getElem?_append_left hin,
        Array.getElem?_toList, ← hbyte]
      exact hi
    have hwhere := h i (by omega) hchanged
    exact ⟨hwhere.1, hwhere.2.1⟩

-- The stored checksum changed, and the record did not.
theorem checksum_ne_of_trailer (hne : Frame.bytes r ≠ bs)
    (h : ∀ i < r.length + Frame.trailerWidth, Changed r.id r.length before after i →
      r.length ≤ i) :
    UInt32.ofNat (Bytes.value (bs.drop r.length)) ≠ checksum (bs.take r.length).toArray := by
  obtain ⟨hlen, -⟩ := Bytes.length_of_window hread
  have hdata := take_eq_of_unchanged hwritten hread fun i hi hchanged => by
    have hin := h i (by omega) hchanged
    omega
  have htrailer : Frame.trailer r ≠ bs.drop r.length := by
    intro htrailer
    apply hne
    rw [Frame.bytes, htrailer, hdata]
    exact List.take_append_drop ..
  have hdrop : (bs.drop r.length).length = 4 := by
    rw [List.length_drop, hlen]
    exact Nat.add_sub_cancel_left ..
  rw [← hdata, Array.toArray_toList]
  show _ ≠ r.checksum
  rw [← Frame.value_trailer]
  exact ofNat_value_ne hdrop (Frame.length_trailer r) htrailer.symm

end

/-- **Damage in one place is noticed.**  However a store changes after a record was written to it,
a frame that changed within four consecutive bytes of its record, or within its trailer, is
refused as corrupt. -/
theorem read_damaged {r : Record} {s t : Store} (hn : r.length ≤ Record.maxLength)
    (hwritten : (Filing.writeRecord.run ⟨r, s⟩).result = .ok ())
    (hdamaged : Damaged r.id r.length (Filing.writeRecord.run ⟨r, s⟩).state.store t) :
    ((Store.readRecord r.id r.length).run t).result =
      .error (.refused (.corruption (.checksum r.id))) := by
  rcases hrun : Filing.writeRecord.run ⟨r, s⟩ with ⟨result, f, es⟩
  rw [hrun] at hwritten hdamaged
  obtain rfl : result = .ok () := hwritten
  obtain ⟨hmedium, hloc, hframe⟩ := Filing.window_of_written hrun
  have hloc' : Frame.locate r.id r.length t = .ok (Frame.start r.id r.length) := by
    rw [locate_congr (hdamaged.medium.trans hmedium), hloc]
  rw [Store.result_readRecord hloc' hn]
  cases hread : Bytes.window t.bytes (Frame.start r.id r.length)
      (r.length + Frame.trailerWidth) with
  | none =>
    -- The frame was inside the store, which is as long as it was.
    have hout := Bytes.window_eq_none_iff.mp hread
    have hin := (Bytes.length_of_window hframe).2
    have hlength : t.bytes.size = f.store.bytes.size := hdamaged.length
    omega
  | some bs =>
    obtain ⟨i, hi, hchanged⟩ := hdamaged.some
    have hne := bytes_ne_of_changed hframe hread hi hchanged
    have hchecksum :
        UInt32.ofNat (Bytes.value (bs.drop r.length)) ≠ checksum (bs.take r.length).toArray := by
      rcases hdamaged.narrow with ⟨k, hdata⟩ | htrailer
      · exact checksum_ne_of_data hframe hread hne hdata
      · exact checksum_ne_of_trailer hframe hread hne htrailer
    exact if_neg hchecksum

/-- Two bytes of the second record of a buffer change. -/
theorem read_damaged_two_bytes :
    let r := Record.ofBytes 1 #[3, 1, 4, 1, 5, 9]
    let s : Store := ⟨.fixed, Array.replicate 22 7⟩
    let t : Store :=
      ⟨.fixed, #[7, 7, 7, 7, 7, 7, 7, 7, 7, 7, 3, 1, 0xFF, 0, 5, 9, 128, 61, 75, 60, 7, 7]⟩
    r.length ≤ Record.maxLength ∧ (Filing.writeRecord.run ⟨r, s⟩).result = .ok () ∧
      Damaged r.id r.length (Filing.writeRecord.run ⟨r, s⟩).state.store t ∧
      ((Store.readRecord r.id r.length).run t).result =
        .error (.refused (.corruption (.checksum r.id))) := by
  intro r s t
  have hn : r.length ≤ Record.maxLength := by decide
  have hwritten : (Filing.writeRecord.run ⟨r, s⟩).result = .ok () := by decide +kernel
  have hleft : (Filing.writeRecord.run ⟨r, s⟩).state.store =
      ⟨.fixed, #[7, 7, 7, 7, 7, 7, 7, 7, 7, 7, 3, 1, 4, 1, 5, 9, 128, 61, 75, 60, 7, 7]⟩ := by
    decide +kernel
  have hdamaged : Damaged r.id r.length (Filing.writeRecord.run ⟨r, s⟩).state.store t := by
    rw [hleft]
    exact {
      medium := rfl
      length := rfl
      some := ⟨2, by decide, by decide⟩
      narrow := .inl ⟨2, by decide⟩ }
  exact ⟨hn, hwritten, hdamaged, read_damaged hn hwritten hdamaged⟩

end FreeSpace
