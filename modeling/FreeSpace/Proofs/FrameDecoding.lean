import FreeSpace.Proofs.FiledRecords
import FreeSpace.Proofs.FixedStores

/-!
# What is read from a frame

A store of any bytes at all is read: whether it has a frame to its end, and whether the last bytes
of the frame are the checksum of those before them, decides what comes back
(`result_readRecord_of_inside`, `result_readRecord_of_outside`).  A record that does come back stands
in its frame already, so writing it changes nothing (`Filed.run_writeRecord`).
-/

namespace FreeSpace

namespace Frame

/-- The bytes of a frame in front of its trailer. -/
def data (id : UInt64) (n : Nat) (s : Store) : Array UInt8 :=
  s.bytes.extract (start id n) (start id n + n)

/-- The checksum that the trailer of a frame says. -/
def stored (id : UInt64) (n : Nat) (s : Store) : UInt32 :=
  .ofNat (Bytes.value (s.bytes.extract (start id n + n) (finish id n)).toList)

end Frame

namespace Store

/-- A store is no longer than its medium can be. -/
def Bounded (s : Store) : Prop :=
  s.length ≤ s.medium.room

instance (s : Store) : Decidable s.Bounded :=
  inferInstanceAs (Decidable (_ ≤ _))

variable {s : Store} {id : UInt64} {n : Nat}

theorem Bounded.locate (h : s.Bounded) (hid : Frame.finish id n < UInt64.size)
    (hin : Frame.finish id n ≤ s.length) : Frame.locate id n s = .ok (Frame.start id n) := by
  have hfinish : Frame.start id n ≤ Frame.finish id n := Nat.le_add_right ..
  have hroom := Nat.le_trans (Nat.le_trans hfinish hin) h
  exact Frame.locate_of_reaches (Medium.reaches_of_le hroom) hid

theorem result_readRecord_of_located (hn : n ≤ Memory.maxBytes)
    (hloc : Frame.locate id n s = .ok (Frame.start id n)) (hin : Frame.finish id n ≤ s.length) :
    ((readRecord id n).run s).result =
      if Frame.stored id n s = checksum (Frame.data id n s) then
        .ok (Record.ofBytes id (Frame.data id n s))
      else .error (.refused (.corruption (.checksum id))) := by
  have hend : Frame.start id n + (n + Frame.trailerWidth) ≤ s.bytes.size := hin
  have hframe := Bytes.window_of_le hend
  obtain ⟨hdata, htrailer⟩ := Bytes.window_split hframe
  rw [Bytes.window_of_le (by omega)] at hdata htrailer
  rw [result_readRecord_of_le hloc hn, hframe]
  dsimp only
  rw [← Option.some.inj hdata, ← Option.some.inj htrailer, Array.toArray_toList, Nat.add_assoc]
  rfl

theorem result_readRecord_of_inside (h : s.Bounded) (hn : n ≤ Memory.maxBytes)
    (hid : Frame.finish id n < UInt64.size) (hin : Frame.finish id n ≤ s.length) :
    ((readRecord id n).run s).result =
      if Frame.stored id n s = checksum (Frame.data id n s) then
        .ok (Record.ofBytes id (Frame.data id n s))
      else .error (.refused (.corruption (.checksum id))) :=
  result_readRecord_of_located hn (h.locate hid hin) hin

end Store

namespace Filed

variable {id : UInt64} {n : Nat} {r : Record} {s : Store}

/-- Writing a record that is in its frame already changes nothing. -/
theorem run_writeRecord (h : Filed id n r s) (hs : s.Bounded)
    (hid : Frame.finish id n < UInt64.size) (hclean : r.dirty = false) :
    Filing.writeRecord.run ⟨r, s⟩ = ⟨.ok (), ⟨r, s⟩, []⟩ := by
  obtain ⟨rfl, rfl⟩ : r.id = id ∧ r.length = n := ⟨h.id_eq, h.length_eq⟩
  have hframe := h.stored hclean
  have hin : Frame.finish r.id r.length ≤ s.length := (Bytes.length_of_window hframe).2
  have hrecord : Record.ofBytes r.id r.data = r := by
    rw [Record.ofBytes, ← hclean]
  by_cases hm : s.medium = .fixed
  · have hpatch : s.patch (Frame.start r.id r.length) (Frame.bytes r) = s :=
      congrArg (Store.mk s.medium) (Bytes.overlay_of_window hframe)
    rw [Filing.run_writeRecord_of_fixed hm hid, if_pos hin, hpatch, hrecord]
  · have hput : s.put (Frame.start r.id r.length) (Frame.bytes r) = s :=
      congrArg (Store.mk s.medium) (Bytes.place_of_window hframe)
    rw [Filing.run_writeRecord_of_fits hm h.located (Nat.le_trans hin hs), hput, hrecord]

end Filed

namespace Store

variable {s : Store} {id : UInt64} {n : Nat}

/-- **Reading accepts exactly what writing leaves.**  A frame that the store does not have to its end
is refused by the medium, one whose trailer is not the checksum of its bytes is refused as corrupt,
and any other is read as a clean record of those bytes.  The store stays as it is, and writing the
record back also leaves it so. -/
theorem read_decodes (hs : s.Bounded) (hn : n ≤ Memory.maxBytes)
    (hid : Frame.finish id n < UInt64.size) :
    let o := (readRecord id n).run s
    o.state = s ∧
      ((∃ cause, o.result = .error (.refused (.io cause))) ↔ ¬ Frame.finish id n ≤ s.length) ∧
      ((∃ cause, o.result = .error (.refused (.corruption cause))) ↔
        Frame.finish id n ≤ s.length ∧ Frame.stored id n s ≠ checksum (Frame.data id n s)) ∧
      ((∃ r, o.result = .ok r) ↔
        Frame.finish id n ≤ s.length ∧ Frame.stored id n s = checksum (Frame.data id n s)) ∧
      ∀ r, o.result = .ok r → r = Record.ofBytes id (Frame.data id n s) ∧
        Filing.writeRecord.run ⟨r, s⟩ = ⟨.ok (), ⟨r, s⟩, []⟩ := by
  intro o
  refine ⟨state_readRecord s id n, ?_⟩
  by_cases hin : Frame.finish id n ≤ s.length
  · have hresult : o.result = _ := result_readRecord_of_inside hs hn hid hin
    by_cases hsum : Frame.stored id n s = checksum (Frame.data id n s)
    · rw [if_pos hsum] at hresult
      have hfiled : Filed id n (Record.ofBytes id (Frame.data id n s)) s := .of_read hresult
      have hback := hfiled.run_writeRecord hs hid rfl
      rw [hresult]
      refine ⟨⟨nofun, (absurd hin ·)⟩, ⟨nofun, fun h => absurd hsum h.2⟩,
        ⟨fun _ => ⟨hin, hsum⟩, fun _ => ⟨_, rfl⟩⟩, fun r hr => ?_⟩
      obtain rfl := Except.ok.inj hr
      exact ⟨rfl, hback⟩
    · rw [if_neg hsum] at hresult
      rw [hresult]
      exact ⟨⟨nofun, (absurd hin ·)⟩, ⟨fun _ => ⟨hin, hsum⟩, fun _ => ⟨_, rfl⟩⟩,
        ⟨nofun, fun h => absurd h.2 hsum⟩, nofun⟩
  · have hresult : o.result = _ := result_readRecord_of_outside hn hid (Nat.not_le.mp hin)
    rw [hresult]
    exact ⟨⟨fun _ => hin, fun _ => ⟨_, rfl⟩⟩, ⟨nofun, fun h => absurd h.1 hin⟩,
      ⟨nofun, fun h => absurd h.1 hin⟩, nofun⟩

/-- Frame 1 of a store that ends with it. -/
theorem read_decodes_last_frame :
    let s : Store := ⟨.fixed, #[7, 7, 7, 7, 7, 7, 7, 3, 1, 4, 227, 113, 146, 19]⟩
    let r : Record := .ofBytes 1 #[3, 1, 4]
    s.Bounded ∧ 3 ≤ Memory.maxBytes ∧ Frame.finish 1 3 < UInt64.size ∧
      ((readRecord 1 3).run s).result = .ok r ∧
      Filing.writeRecord.run ⟨r, s⟩ = ⟨.ok (), ⟨r, s⟩, []⟩ := by
  intro s r
  have hs : s.Bounded := by decide
  have hn : 3 ≤ Memory.maxBytes := by decide
  have hid : Frame.finish 1 3 < UInt64.size := by decide
  have hin : Frame.finish 1 3 ≤ s.length := by decide
  have hsum : Frame.stored 1 3 s = checksum (Frame.data 1 3 s) := by decide +kernel
  obtain ⟨-, -, -, hread, hwritten⟩ := read_decodes hs hn hid
  obtain ⟨r', hr⟩ := hread.mpr ⟨hin, hsum⟩
  obtain ⟨rfl, hback⟩ := hwritten r' hr
  exact ⟨hs, hn, hid, hr, hback⟩

/-- A record as long as no array can be: reading it is a fault, also where no store has its frame. -/
theorem read_too_long :
    let s : Store := ⟨.memory, #[]⟩
    let n := 0x8000000000000000
    s.Bounded ∧ Frame.finish 0 n < UInt64.size ∧ ¬ Frame.finish 0 n ≤ s.length ∧
      ((readRecord 0 n).run s).result = .error (.fault .outOfMemory) := by
  intro s n
  have hid : Frame.finish 0 n < UInt64.size := by decide
  have hloc : Frame.locate 0 n s = .ok (Frame.start 0 n) := Frame.locate_of_reaches rfl hid
  exact ⟨by decide, hid, by decide, result_readRecord_of_long hloc (by decide)⟩

end Store

end FreeSpace
