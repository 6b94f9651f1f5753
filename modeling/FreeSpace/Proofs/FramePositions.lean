import FreeSpace.Proofs.FrameDecoding

/-!
# Ids whose frames have no position

The position of a frame is a product of the id and the width of a frame, and a 64-bit word need not
hold it (`Frame.locate_of_fixed_eq`).  Where it does not, writing and reading a record are faults
before the store is asked for anything; everywhere else a store that cannot grow takes or gives the
record, or refuses it.
-/

namespace FreeSpace

namespace Frame

variable {id : UInt64} {n : Nat}

/-- A store that cannot grow has every position that can be said. -/
theorem locate_of_fixed_eq {s : Store} (hm : s.medium = .fixed)
    (hn : n + trailerWidth < UInt64.size) :
    locate id n s =
      if start id n < UInt64.size then .ok (start id n) else .error (.fault .overflow) := by
  have hseek : ∀ position, s.seek position = .ok () := by
    intro position
    apply if_pos
    rw [hm]
    rfl
  unfold locate
  rw [position_eq_within64 hn]
  unfold Word.within64
  split
  · rw [Result.ok_bind, hseek]
    rfl
  · rfl

end Frame

namespace Filing

variable {n : Nat} {s : Store}

/-- **Which ids are out of reach.**  Of a store that cannot grow, and of records that a page could
have, a record is written or refused by the medium, and read or refused by the medium or as corrupt,
exactly as long as a 64-bit word holds the position of its frame.  If none does, both are a fault,
which leaves the record and the store as they were. -/
theorem fixed_outcomes (hm : s.medium = .fixed) (id : UInt64) (hn : n ≤ Record.maxLength) :
    (∀ r : Record, r.id = id → r.length = n →
      writeRecord.run ⟨r, s⟩ =
        if UInt64.size ≤ id.toNat * (n + 4) then ⟨.error (.fault .overflow), ⟨r, s⟩, []⟩
        else if Frame.finish id n ≤ s.length then
          ⟨.ok (), ⟨.ofBytes id r.data, s.patch (Frame.start id n) (Frame.bytes r)⟩, []⟩
        else
          ⟨.error (.refused (.io .storeFull)),
            ⟨r, s.patch (Frame.start id n) (Frame.bytes r)⟩, []⟩) ∧
    ((Store.readRecord id n).run s).state = s ∧
    ((Store.readRecord id n).run s).result =
      if UInt64.size ≤ id.toNat * (n + 4) then .error (.fault .overflow)
      else if Frame.finish id n ≤ s.length then
        if Frame.stored id n s = checksum (Frame.data id n s) then
          .ok (.ofBytes id (Frame.data id n s))
        else .error (.refused (.corruption (.checksum id)))
      else .error (.refused (.io .endOfStore)) := by
  have hmemory : n ≤ Memory.maxBytes := Nat.le_trans hn (by decide)
  have hwidth : n + Frame.trailerWidth < UInt64.size :=
    Nat.lt_of_le_of_lt (Nat.add_le_add_right hn _) (by decide)
  have hloc : Frame.locate id n s = _ := Frame.locate_of_fixed_eq hm hwidth
  by_cases hfar : UInt64.size ≤ id.toNat * (n + 4)
  · rw [if_neg (show ¬ Frame.start id n < UInt64.size from Nat.not_lt.mpr hfar)] at hloc
    simp only [if_pos hfar]
    refine ⟨?_, Store.state_readRecord s id n, Store.result_readRecord_of_error hloc⟩
    rintro r rfl rfl
    exact run_writeRecord_of_error hloc
  · rw [if_pos (show Frame.start id n < UInt64.size from Nat.not_le.mp hfar)] at hloc
    simp only [if_neg hfar]
    refine ⟨?_, Store.state_readRecord s id n, ?_⟩
    · rintro r rfl rfl
      exact run_writeRecord_of_located hm hloc
    · by_cases hin : Frame.finish id n ≤ s.length
      · rw [if_pos hin]
        exact Store.result_readRecord_of_located hmemory hloc hin
      · have hnone : Bytes.window s.bytes (Frame.start id n) (n + Frame.trailerWidth) = none :=
          Bytes.window_eq_none_iff.mpr (Nat.not_le.mp hin)
        rw [if_neg hin, Store.result_readRecord_of_le hloc hmemory, hnone]

/-- Records of no bytes: the last id of a position that fits, and the first of one that does not. -/
theorem fixed_outcomes_no_bytes :
    let s : Store := ⟨.fixed, #[7, 7, 7, 7]⟩
    s.medium = .fixed ∧ 0 ≤ Record.maxLength ∧
      ((Store.readRecord 0x3FFFFFFFFFFFFFFF 0).run s).result =
        .error (.refused (.io .endOfStore)) ∧
      ((Store.readRecord 0x4000000000000000 0).run s).result = .error (.fault .overflow) ∧
      writeRecord.run ⟨⟨0x4000000000000000, #[], true⟩, s⟩ =
        ⟨.error (.fault .overflow), ⟨⟨0x4000000000000000, #[], true⟩, s⟩, []⟩ := by
  intro s
  have hn : 0 ≤ Record.maxLength := Nat.zero_le _
  have hfits : ¬ UInt64.size ≤ (0x3FFFFFFFFFFFFFFF : UInt64).toNat * (0 + 4) := by decide
  have hover : UInt64.size ≤ (0x4000000000000000 : UInt64).toNat * (0 + 4) := by decide
  have hout : ¬ Frame.finish 0x3FFFFFFFFFFFFFFF 0 ≤ s.length := by decide
  obtain ⟨-, -, hread⟩ := fixed_outcomes (s := s) rfl 0x3FFFFFFFFFFFFFFF hn
  obtain ⟨hwrite, -, hfault⟩ := fixed_outcomes (s := s) rfl 0x4000000000000000 hn
  rw [if_neg hfits, if_neg hout] at hread
  rw [if_pos hover] at hfault
  have hwritten := hwrite ⟨0x4000000000000000, #[], true⟩ rfl rfl
  rw [if_pos hover] at hwritten
  exact ⟨rfl, hn, hread, hfault, hwritten⟩

/-- The last id has no frame of 16 bytes: both ways it is a fault, and not refused. -/
theorem last_id_faults :
    let r := Record.zeroed 0xFFFFFFFFFFFFFFFF 16
    let s : Store := ⟨.fixed, #[7, 7, 7, 7]⟩
    (writeRecord.run ⟨r, s⟩).result = .error (.fault .overflow) ∧
      ((Store.readRecord r.id 16).run s).result = .error (.fault .overflow) := by
  decide +kernel

end Filing

end FreeSpace
