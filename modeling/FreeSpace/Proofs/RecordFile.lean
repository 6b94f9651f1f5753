import FreeSpace.Proofs.ChecksumOfZeros
import FreeSpace.Proofs.Frames

/-!
# A store of records is a map

Records of one length are written, in any order and over each other, to a store that starts empty
and grows.  `Holds` is what such a store keeps: a frame inside it is that of the last record written
with its id, or else a gap of zeros.  A gap is never taken for a record, because zeros do not have
the checksum 0.
-/

namespace FreeSpace

namespace Frame

/-- Whether a medium that grows has room for a frame. -/
def Fits (medium : Medium) (id : UInt64) (length : Nat) : Prop :=
  finish id length ≤ medium.room

instance (medium : Medium) (id : UInt64) (length : Nat) : Decidable (Fits medium id length) :=
  inferInstanceAs (Decidable (_ ≤ _))

theorem Fits.reaches {medium : Medium} {id : UInt64} {length : Nat} (h : Fits medium id length) :
    medium.reaches (start id length) :=
  Medium.reaches_of_le (Nat.le_trans (Nat.le_add_right ..) h)

end Frame

/-- A store, and the records that were written to it, the last one first. -/
structure RecordFile where
  store : Store
  written : List Record

namespace RecordFile

def empty (medium : Medium) : RecordFile :=
  ⟨⟨medium, #[]⟩, []⟩

/-- Writes a record.  A write that fails does not count, but what it did to the store stays. -/
def write (f : RecordFile) (r : Record) : RecordFile :=
  match Filing.writeRecord.run ⟨r, f.store⟩ with
  | ⟨.ok (), after, _⟩ => ⟨after.store, after.record :: f.written⟩
  | ⟨.error _, after, _⟩ => ⟨after.store, f.written⟩

/-- The record written last with this id. -/
def last (written : List Record) (id : UInt64) : Option Record :=
  written.find? (·.id = id)

/-- What the frame of an id should hold. -/
def content (written : List Record) (length : Nat) (id : UInt64) : List UInt8 :=
  match last written id with
  | some r => Frame.bytes r
  | none => List.replicate (length + Frame.trailerWidth) 0

/-- What a store of records of one length keeps. -/
structure Holds (f : RecordFile) (length : Nat) : Prop where
  grows : f.store.medium ≠ .fixed
  length_le : f.store.length ≤ f.store.medium.room
  written : ∀ r ∈ f.written, r.length = length ∧ r.dirty = false ∧
    Frame.finish r.id length ≤ f.store.length
  frame : ∀ id, Frame.finish id length ≤ f.store.length →
    Bytes.window f.store.bytes (Frame.start id length) (length + Frame.trailerWidth) =
      some (content f.written length id)
  /-- The end of the store cuts no frame but one for which the medium has no room. -/
  whole : ∀ id, Frame.finish id length ≤ f.store.length ∨
    f.store.length ≤ Frame.start id length ∨ f.store.medium.room < Frame.finish id length

theorem mem_of_last {written : List Record} {id : UInt64} {r : Record}
    (h : last written id = some r) : r ∈ written ∧ r.id = id := by
  have hid := List.find?_some h
  exact ⟨List.mem_of_find?_eq_some h, of_decide_eq_true hid⟩

theorem content_cons_self (written : List Record) (length : Nat) (r : Record) :
    content (r :: written) length r.id = Frame.bytes r := by
  have hlast : last (r :: written) r.id = some r := List.find?_cons_of_pos (decide_eq_true rfl)
  unfold content
  rw [hlast]

theorem content_cons_of_ne (written : List Record) (length : Nat) {r : Record} {id : UInt64}
    (h : id ≠ r.id) : content (r :: written) length id = content written length id := by
  have hlast : last (r :: written) id = last written id :=
    List.find?_cons_of_neg fun hid => h (of_decide_eq_true hid).symm
  unfold content
  rw [hlast]

variable {f : RecordFile} {n : Nat} {id : UInt64}

namespace Holds

/-! ## Bytes put into one frame -/

theorem length_content (h : f.Holds n) (id : UInt64) :
    (content f.written n id).length = n + Frame.trailerWidth := by
  unfold content
  split
  · rename_i r hr
    rw [Frame.length_bytes, (h.written r (mem_of_last hr).1).1]
  · exact List.length_replicate

theorem last_eq_none (h : f.Holds n) (hid : f.store.length < Frame.finish id n) :
    last f.written id = none := by
  cases hr : last f.written id with
  | none => rfl
  | some r =>
    obtain ⟨hmem, rfl⟩ := mem_of_last hr
    have hin := (h.written r hmem).2.2
    omega

section

variable {bs : List UInt8} {other : UInt64} (h : f.Holds n)
  (hend : Frame.start id n + bs.length ≤ Frame.finish id n)

include h hend

-- Bytes put into one frame leave every other frame what it was, or make it a gap.
theorem window_put (hroom : Frame.start id n + bs.length ≤ f.store.medium.room) (hne : other ≠ id)
    (hin : Frame.finish other n ≤ (f.store.put (Frame.start id n) bs).length) :
    Bytes.window (f.store.put (Frame.start id n) bs).bytes (Frame.start other n)
      (n + Frame.trailerWidth) = some (content f.written n other) := by
  have hlen := h.length_content other
  have hdisjoint := Frame.disjoint hne n
  have hfinish : Frame.finish other n = Frame.start other n + (n + Frame.trailerWidth) := rfl
  rw [Store.length_put] at hin
  apply Bytes.window_eq_some hlen (Nat.succ_pos _)
  intro i hi
  show (Bytes.place ..)[_]? = _
  rw [Bytes.getElem?_place, if_neg (by omega)]
  -- A frame that was inside is not touched; one that comes inside was not even begun.
  by_cases hold : Frame.finish other n ≤ f.store.length
  · have hthere : Frame.start other n + i < f.store.bytes.size := by
      change _ ≤ f.store.bytes.size at hold
      omega
    rw [if_pos hthere, Bytes.getElem?_of_window (h.frame other hold), if_pos hi]
  · have hbehind : f.store.length ≤ Frame.start other n := by
      have hwhole := h.whole other
      have hlength := h.length_le
      omega
    have hgap : content f.written n other = List.replicate (n + Frame.trailerWidth) 0 := by
      unfold content
      rw [h.last_eq_none (Nat.not_le.mp hold)]
    have hout : ¬ Frame.start other n + i < f.store.bytes.size := by
      change f.store.bytes.size ≤ _ at hbehind
      omega
    rw [if_neg hout, if_pos (by omega), hgap, List.getElem?_replicate, if_pos hi]

theorem whole_put (hne : other ≠ id) :
    Frame.finish other n ≤ (f.store.put (Frame.start id n) bs).length ∨
      (f.store.put (Frame.start id n) bs).length ≤ Frame.start other n ∨
      f.store.medium.room < Frame.finish other n := by
  have hwhole := h.whole other
  have hdisjoint := Frame.disjoint hne n
  rw [Store.length_put]
  omega

/-- Bytes put into one frame leave all that a store keeps, if that frame is then what it should be or
there is no room for it. -/
theorem put (hroom : Frame.start id n + bs.length ≤ f.store.medium.room) {written : List Record}
    (hwritten : ∀ r ∈ written, r ∈ f.written ∨ r.length = n ∧ r.dirty = false ∧
      Frame.finish r.id n ≤ (f.store.put (Frame.start id n) bs).length)
    (hothers : ∀ other, other ≠ id → content written n other = content f.written n other)
    (hself : Frame.finish id n ≤ (f.store.put (Frame.start id n) bs).length ∧
        Bytes.window (f.store.put (Frame.start id n) bs).bytes (Frame.start id n)
          (n + Frame.trailerWidth) = some (content written n id) ∨
      f.store.medium.room < Frame.finish id n) :
    Holds ⟨f.store.put (Frame.start id n) bs, written⟩ n := by
  have hlen := Store.length_put f.store (Frame.start id n) bs
  have hlength := h.length_le
  exact {
    grows := h.grows
    length_le := by
      show (f.store.put ..).length ≤ f.store.medium.room
      omega
    written := by
      intro r hr
      show _ ∧ _ ∧ _ ≤ (f.store.put ..).length
      rcases hwritten r hr with hold | hnew
      · obtain ⟨hrl, hrd, hri⟩ := h.written r hold
        exact ⟨hrl, hrd, by omega⟩
      · exact hnew
    frame := by
      intro other hin
      change _ ≤ (f.store.put ..).length at hin
      by_cases hne : other = id
      · subst hne
        rcases hself with ⟨-, hframe⟩ | hlong
        · exact hframe
        · omega
      · show _ = some (content written n other)
        rw [hothers other hne]
        exact h.window_put hend hroom hne hin
    whole := by
      intro other
      by_cases hne : other = id
      · subst hne
        rcases hself with ⟨hin, -⟩ | hlong
        · exact .inl hin
        · exact .inr (.inr hlong)
      · exact h.whole_put hend hne }

end

variable {r : Record}

-- A record whose frame fits becomes the last one of its id.
theorem put_frame (h : f.Holds n) (hr : r.length = n) (hfit : Frame.Fits f.store.medium r.id n) :
    Holds ⟨f.store.put (Frame.start r.id n) (Frame.bytes r),
      Record.ofBytes r.id r.data :: f.written⟩ n := by
  have hbytes : (Frame.bytes r).length = n + Frame.trailerWidth := by
    rw [Frame.length_bytes, hr]
  have hend : Frame.start r.id n + (Frame.bytes r).length = Frame.finish r.id n := by
    rw [hbytes]
    rfl
  have hin : Frame.finish r.id n ≤
      (f.store.put (Frame.start r.id n) (Frame.bytes r)).length := by
    rw [Store.length_put, hend]
    exact Nat.le_max_right ..
  have hcontent : content (Record.ofBytes r.id r.data :: f.written) n r.id = Frame.bytes r :=
    content_cons_self f.written n (Record.ofBytes r.id r.data)
  refine h.put hend.le (hend.le.trans hfit) (fun w hw => ?_)
    (fun other hne => content_cons_of_ne f.written n hne) (.inl ⟨hin, ?_⟩)
  · rcases List.mem_cons.mp hw with rfl | hw
    · exact .inr ⟨hr, rfl, hin⟩
    · exact .inl hw
  · rw [hcontent, ← hbytes]
    exact Bytes.window_place ..

-- A frame for which there is no room counts for nothing, however much of it is taken.
theorem took (h : f.Holds n) {bs : List UInt8} {t : Store}
    (htook : f.store.Took (Frame.start id n) bs t)
    (hlong : f.store.medium.room < Frame.finish id n) :
    Holds ⟨t, f.written⟩ n ∧ t.medium = f.store.medium := by
  rcases htook with rfl | ⟨cs, -, hroom, rfl⟩
  · exact ⟨h, rfl⟩
  · have hend : Frame.start id n + cs.length ≤ Frame.finish id n := by omega
    exact ⟨h.put hend hroom (fun _ => .inl) (fun _ _ => rfl) (.inr hlong), rfl⟩

/-! ## Writes -/

-- A write keeps what a store keeps, and counts exactly if there is room for its frame.
theorem write (h : f.Holds n) (hr : r.length = n) (hid : Frame.finish r.id n < UInt64.size) :
    (f.write r).Holds n ∧ (f.write r).store.medium = f.store.medium ∧
      (f.write r).written =
        if Frame.Fits f.store.medium r.id n then Record.ofBytes r.id r.data :: f.written
        else f.written := by
  subst hr
  have hm := h.grows
  unfold RecordFile.write
  by_cases hreach : f.store.medium.reaches (Frame.start r.id r.length)
  · have hloc := Frame.locate_of_reaches hreach hid
    by_cases hfit : Frame.Fits f.store.medium r.id r.length
    · rw [if_pos hfit, Filing.run_writeRecord_of_fits hm hloc hfit]
      exact ⟨h.put_frame rfl hfit, rfl, rfl⟩
    · have hlong := Nat.not_le.mp hfit
      obtain ⟨e, t, hrun, htook⟩ := Filing.run_writeRecord_of_long hm hloc hlong
      obtain ⟨hkept, hmedium⟩ := h.took htook hlong
      rw [if_neg hfit, hrun]
      exact ⟨hkept, hmedium, rfl⟩
  · have hloc : Frame.locate r.id r.length f.store = .error (.refused (.io .unseekable)) := by
      rw [Frame.locate_eq hid, if_neg hreach]
    rw [if_neg fun hfit => hreach hfit.reaches, Filing.run_writeRecord_of_error hloc]
    exact ⟨h, rfl, rfl⟩

theorem locate (h : f.Holds n) (hid : Frame.finish id n < UInt64.size)
    (hin : Frame.finish id n ≤ f.store.length) :
    Frame.locate id n f.store = .ok (Frame.start id n) :=
  have hfit : Frame.Fits f.store.medium id n := Nat.le_trans hin h.length_le
  Frame.locate_of_reaches hfit.reaches hid

end Holds

end RecordFile

end FreeSpace
