import FreeSpace.Store.Frame

/-!
# What a frame holds

A frame is looked at here as one run of bytes.  What a write to a store can come to is said once
(`Store.write_cases`).  Writing a record puts `Frame.bytes` into its frame, in every medium
(`window_of_written`); reading one splits the frame into record and trailer (`result_readRecord`).
Where the medium grows, the rest of the store is known byte by byte (`getElem?_place`), also where
there is no room for all of a frame (`Store.Took`).
-/

namespace FreeSpace

namespace Frame

/-! ## Where frames lie -/

/-- The first byte of a frame. -/
def start (id : UInt64) (length : Nat) : Nat :=
  id.toNat * (length + trailerWidth)

/-- The end of a frame, behind its trailer. -/
def finish (id : UInt64) (length : Nat) : Nat :=
  start id length + (length + trailerWidth)

/-- What a frame holds after its record was written. -/
def bytes (r : Record) : List UInt8 :=
  r.data.toList ++ trailer r

theorem length_trailer (r : Record) : (trailer r).length = trailerWidth :=
  Bytes.length_digits ..

theorem trailer_ne_nil (r : Record) : trailer r ≠ [] :=
  List.ne_nil_of_length_pos (by rw [length_trailer]; exact Nat.succ_pos _)

theorem length_bytes (r : Record) : (bytes r).length = r.length + trailerWidth := by
  rw [bytes, List.length_append, Array.length_toList, length_trailer]
  rfl

theorem take_bytes (r : Record) : (bytes r).take r.length = r.data.toList :=
  List.take_left' Array.length_toList

theorem drop_bytes (r : Record) : (bytes r).drop r.length = trailer r :=
  List.drop_left' Array.length_toList

theorem value_trailer (r : Record) : UInt32.ofNat (Bytes.value (trailer r)) = r.checksum := by
  have hlt : r.checksum.toNat < Bytes.span trailerWidth := r.checksum.toNat_lt
  rw [trailer, Bytes.value_digits, Nat.mod_eq_of_lt hlt, UInt32.ofNat_toNat]

theorem finish_le_start {id other : UInt64} (h : id < other) (length : Nat) :
    finish id length ≤ start other length := by
  have hle : id.toNat + 1 ≤ other.toNat := UInt64.lt_iff_toNat_lt.mp h
  have hmul := Nat.mul_le_mul_right (length + trailerWidth) hle
  rw [Nat.succ_mul] at hmul
  exact hmul

-- Frames of different ids do not meet.
theorem disjoint {id other : UInt64} (h : id ≠ other) (length : Nat) :
    finish id length ≤ start other length ∨ finish other length ≤ start id length := by
  have hne : id.toNat ≠ other.toNat := fun heq => h (UInt64.toNat_inj.mp heq)
  rcases Nat.lt_or_gt_of_ne hne with hlt | hgt
  · exact .inl (finish_le_start (UInt64.lt_iff_toNat_lt.mpr hlt) length)
  · exact .inr (finish_le_start (UInt64.lt_iff_toNat_lt.mpr hgt) length)

theorem position_eq_within64 {id : UInt64} {length : Nat}
    (h : length + trailerWidth < UInt64.size) :
    position id length = Word.within64 (start id length) := by
  have hwidth : Word.within64 (length + trailerWidth) = .ok (length + trailerWidth) := if_pos h
  unfold position
  rw [hwidth, Result.ok_bind]
  rfl

theorem position_eq {id : UInt64} {length : Nat} (h : finish id length < UInt64.size) :
    position id length = .ok (start id length) := by
  unfold finish at h
  rw [position_eq_within64 (by omega)]
  exact if_pos (by omega)

theorem locate_eq {id : UInt64} {length : Nat} (h : finish id length < UInt64.size) (s : Store) :
    locate id length s =
      if s.medium.reaches (start id length) then .ok (start id length)
      else .error (.refused (.io .unseekable)) := by
  unfold locate
  rw [position_eq h, Result.ok_bind]
  unfold Store.seek
  split <;> rfl

-- A position that the medium has is found.
theorem locate_of_reaches {id : UInt64} {length : Nat} {s : Store}
    (h : s.medium.reaches (start id length)) (hid : finish id length < UInt64.size) :
    locate id length s = .ok (start id length) := by
  rw [locate_eq hid, if_pos h]

theorem eq_start {id : UInt64} {length position : Nat} {s : Store}
    (h : locate id length s = .ok position) : position = start id length := by
  unfold locate Frame.position Word.within64 at h
  -- The width of a frame, its position and the seek were all accepted.
  by_cases hwidth : length + trailerWidth < UInt64.size
  · rw [if_pos hwidth, Result.ok_bind] at h
    by_cases hstart : id.toNat * (length + trailerWidth) < UInt64.size
    · rw [if_pos hstart, Result.ok_bind] at h
      cases hseek : s.seek (id.toNat * (length + trailerWidth)) with
      | ok _ =>
        rw [hseek] at h
        exact (Except.ok.inj h).symm
      | error e =>
        rw [hseek] at h
        cases h
    · rw [if_neg hstart] at h
      cases h
  · rw [if_neg hwidth] at h
    cases h

end Frame

namespace Store

/-! ## Writing to a store -/

/-- The store, grown as far as needed, with these bytes from `position` on. -/
def put (s : Store) (position : Nat) (bs : List UInt8) : Store :=
  ⟨s.medium, Bytes.place s.bytes position bs⟩

theorem length_put (s : Store) (position : Nat) (bs : List UInt8) :
    (s.put position bs).length = max s.length (position + bs.length) :=
  Bytes.size_place ..

theorem put_append (s : Store) (position : Nat) (bs cs : List UInt8) :
    (s.put position bs).put (position + bs.length) cs = s.put position (bs ++ cs) :=
  congrArg (Store.mk s.medium) (Bytes.place_append ..)

/-- Of bytes written from `position` on, a store took none, or a part for which it has room. -/
def Took (s : Store) (position : Nat) (bs : List UInt8) (t : Store) : Prop :=
  t = s ∨ ∃ cs, cs <+: bs ∧ position + cs.length ≤ s.medium.room ∧ t = s.put position cs

variable {s : Store} {position : Nat} {bs : List UInt8}

theorem run_write_nil (position : Nat) (s : Store) :
    (write position []).run s = ⟨.ok (), s, []⟩ := rfl

theorem run_write_of_fixed (hm : s.medium = .fixed) (position : Nat) (bs : List UInt8) :
    (write position bs).run s =
      ⟨if bs = [] ∨ position + bs.length ≤ s.length then .ok ()
        else .error (.refused (.io .storeFull)), s.patch position bs, []⟩ := by
  by_cases hbs : bs = []
  · subst hbs
    rw [if_pos (.inl rfl)]
    exact run_write_nil ..
  · obtain ⟨medium, data⟩ := s
    obtain rfl : medium = .fixed := hm
    unfold write
    dsimp only
    rw [if_neg hbs]
    simp only [hbs, false_or]
    show (if position + bs.length ≤ data.size then _ else _ : Outcome Store Unit) =
      ⟨if position + bs.length ≤ data.size then _ else _, _, _⟩
    split <;> rfl

theorem run_write_of_le (hm : s.medium ≠ .fixed) (hbs : bs ≠ [])
    (h : position + bs.length ≤ s.medium.room) :
    (write position bs).run s = ⟨.ok (), s.put position bs, []⟩ := by
  obtain ⟨medium, data⟩ := s
  unfold write
  dsimp only
  rw [if_neg hbs]
  cases medium with
  | fixed => exact absurd rfl hm
  | memory =>
    dsimp only
    rw [Memory.require_of_le h]
    rfl
  | file room => exact if_pos h

-- Bytes for which a medium that grows has no room are not written, or not all of them.
theorem run_write_of_lt (hm : s.medium ≠ .fixed) (hbs : bs ≠ [])
    (h : s.medium.room < position + bs.length) :
    ∃ e t, (write position bs).run s = ⟨.error e, t, []⟩ ∧ s.Took position bs t := by
  obtain ⟨medium, data⟩ := s
  unfold write
  dsimp only
  rw [if_neg hbs]
  cases medium with
  | fixed => exact absurd rfl hm
  | memory =>
    dsimp only
    rw [Memory.require_of_lt h]
    exact ⟨_, _, rfl, .inl rfl⟩
  | file room =>
    have hlong : ¬ position + bs.length ≤ room := Nat.not_le.mpr h
    dsimp only
    rw [if_neg hlong]
    by_cases hroom : position < room
    · rw [if_pos hroom]
      refine ⟨_, _, rfl, .inr ⟨_, List.take_prefix .., ?_, rfl⟩⟩
      have hfit := List.length_take_le (room - position) bs
      show position + (bs.take (room - position)).length ≤ room
      omega
    · rw [if_neg hroom]
      exact ⟨_, _, rfl, .inl rfl⟩

/-- All that a write can come to: the bytes are there, or at most a part of them is. -/
theorem write_cases (position : Nat) (bs : List UInt8) (s : Store) :
    (∃ t, (write position bs).run s = ⟨.ok (), t, []⟩ ∧
        (t = s.patch position bs ∧ (bs = [] ∨ position + bs.length ≤ s.length) ∨
          t = s.put position bs ∧ position + bs.length ≤ s.medium.room)) ∨
      ∃ e t, (write position bs).run s = ⟨.error e, t, []⟩ ∧
        (t = s.patch position bs ∨ s.Took position bs t) := by
  by_cases hbs : bs = []
  · subst hbs
    exact .inl ⟨s, run_write_nil .., .inl ⟨rfl, .inl rfl⟩⟩
  by_cases hm : s.medium = .fixed
  · rw [run_write_of_fixed hm]
    split
    · rename_i hfit
      exact .inl ⟨_, rfl, .inl ⟨rfl, hfit⟩⟩
    · exact .inr ⟨_, _, rfl, .inl rfl⟩
  by_cases hroom : position + bs.length ≤ s.medium.room
  · exact .inl ⟨_, run_write_of_le hm hbs hroom, .inr ⟨rfl, hroom⟩⟩
  · obtain ⟨e, t, hrun, htook⟩ := run_write_of_lt hm hbs (Nat.not_le.mp hroom)
    exact .inr ⟨e, t, hrun, .inr htook⟩

-- In any medium, bytes that were taken stand where they were written.
theorem bytes_of_write_ok {t : Store} {es : List Event}
    (h : (write position bs).run s = ⟨.ok (), t, es⟩) :
    t.medium = s.medium ∧ (∀ i < bs.length, t.bytes[position + i]? = bs[i]?) ∧
      ∀ i < position, i < s.length → t.bytes[i]? = s.bytes[i]? := by
  rcases write_cases position bs s with ⟨u, hrun, hwritten⟩ | ⟨e, u, hrun, -⟩
  · rw [hrun] at h
    injection h with _ hstate _
    subst hstate
    rcases hwritten with ⟨rfl, hfit⟩ | ⟨rfl, -⟩
    · refine ⟨rfl, fun i hi => ?_, fun i hi _ => ?_⟩
      · have hsize : position + bs.length ≤ s.bytes.size :=
          hfit.resolve_left (List.ne_nil_of_length_pos (by omega))
        show (Bytes.overlay ..)[_]? = _
        rw [Bytes.getElem?_overlay, if_pos (by omega), Nat.add_sub_cancel_left]
      · show (Bytes.overlay ..)[_]? = _
        rw [Bytes.getElem?_overlay, if_neg (by omega)]
    · refine ⟨rfl, fun i hi => ?_, fun i hi hin => ?_⟩
      · show (Bytes.place ..)[_]? = _
        rw [Bytes.getElem?_place, if_pos (by omega), Nat.add_sub_cancel_left]
      · show (Bytes.place ..)[_]? = _
        rw [Bytes.getElem?_place, if_neg (by omega)]
        exact if_pos hin
  · rw [hrun] at h
    cases h

-- Two runs of bytes that were taken one behind the other stand there as one.
theorem window_of_writes {t u : Store} {cs : List UInt8} {es fs : List Event}
    (hfirst : (write position bs).run s = ⟨.ok (), t, es⟩)
    (hsecond : (write (position + bs.length) cs).run t = ⟨.ok (), u, fs⟩)
    (hpos : 0 < bs.length + cs.length) :
    Bytes.window u.bytes position (bs.length + cs.length) = some (bs ++ cs) := by
  obtain ⟨-, hbs, -⟩ := bytes_of_write_ok hfirst
  obtain ⟨-, hcs, hkept⟩ := bytes_of_write_ok hsecond
  apply Bytes.window_eq_some List.length_append hpos
  intro i hi
  rw [List.getElem?_append]
  by_cases hin : i < bs.length
  · have hbyte := hbs i hin
    -- The second write keeps a byte that is there, and this one is: the first write put it there.
    have hthere : position + i < t.length := by
      rw [List.getElem?_eq_getElem hin] at hbyte
      exact (Array.getElem?_eq_some_iff.mp hbyte).1
    rw [if_pos hin, hkept _ (Nat.add_lt_add_left hin _) hthere, hbyte]
  · have hbyte := hcs (i - bs.length) (by omega)
    have hindex : position + bs.length + (i - bs.length) = position + i := by omega
    rw [if_neg hin, ← hbyte, hindex]

-- However a write ends, it reports nothing.
theorem events_write (position : Nat) (bs : List UInt8) (s : Store) :
    ((write position bs).run s).events = [] := by
  rcases write_cases position bs s with ⟨t, hrun, -⟩ | ⟨e, t, hrun, -⟩ <;> rw [hrun]

theorem run_write_of_result {result : Result Unit}
    (h : ((write position bs).run s).result = result) :
    (write position bs).run s = ⟨result, ((write position bs).run s).state, []⟩ := by
  rw [← h, ← events_write position bs s]

/-! ### Where the medium grows -/

section

variable {cs : List UInt8} (hm : s.medium ≠ .fixed) (hcs : cs ≠ [])

include hm hcs

/-- Two writes one behind the other are one, where there is room for both. -/
theorem run_writes_of_le (h : position + (bs ++ cs).length ≤ s.medium.room) :
    ∃ t, (write position bs).run s = ⟨.ok (), t, []⟩ ∧
      (write (position + bs.length) cs).run t = ⟨.ok (), s.put position (bs ++ cs), []⟩ := by
  by_cases hbs : bs = []
  · subst hbs
    exact ⟨s, run_write_nil .., run_write_of_le hm hcs h⟩
  · rw [List.length_append] at h
    have hroom : position + bs.length + cs.length ≤ (s.put position bs).medium.room := by
      show _ ≤ s.medium.room
      omega
    have hsecond := run_write_of_le (s := s.put position bs) hm hcs hroom
    rw [put_append] at hsecond
    exact ⟨_, run_write_of_le hm hbs (by omega), hsecond⟩

/-- Where there is no room for both, one of them fails, and no more than a part of both is taken. -/
theorem run_writes_of_lt (h : s.medium.room < position + (bs ++ cs).length) :
    (∃ e t, (write position bs).run s = ⟨.error e, t, []⟩ ∧ s.Took position (bs ++ cs) t) ∨
      ∃ e t u, (write position bs).run s = ⟨.ok (), t, []⟩ ∧
        (write (position + bs.length) cs).run t = ⟨.error e, u, []⟩ ∧
        s.Took position (bs ++ cs) u := by
  by_cases hbs : bs = []
  · subst hbs
    obtain ⟨e, u, hrun, htook⟩ := run_write_of_lt hm hcs h
    exact .inr ⟨e, s, u, run_write_nil .., hrun, htook⟩
  have hprefix : bs <+: bs ++ cs := List.prefix_append ..
  rw [List.length_append] at h
  by_cases hfirst : position + bs.length ≤ s.medium.room
  · have hlong : (s.put position bs).medium.room < position + bs.length + cs.length := by
      show s.medium.room < _
      omega
    obtain ⟨e, u, hrun, htook⟩ := run_write_of_lt (s := s.put position bs) hm hcs hlong
    refine .inr ⟨e, _, u, run_write_of_le hm hbs hfirst, hrun, .inr ?_⟩
    rcases htook with rfl | ⟨ds, hds, hroom, rfl⟩
    · exact ⟨bs, hprefix, hfirst, rfl⟩
    · refine ⟨bs ++ ds, (List.prefix_append_right_inj bs).mpr hds, ?_, put_append ..⟩
      rw [List.length_append, ← Nat.add_assoc]
      exact hroom
  · obtain ⟨e, t, hrun, htook⟩ := run_write_of_lt hm hbs (Nat.not_le.mp hfirst)
    refine .inl ⟨e, t, hrun, ?_⟩
    rcases htook with rfl | ⟨ds, hds, hroom, rfl⟩
    · exact .inl rfl
    · exact .inr ⟨ds, hds.trans hprefix, hroom, rfl⟩

end

end Store

namespace Filing

/-! ## Writing a record -/

variable {r : Record} {s : Store}

theorem run_onStore {α : Type} (a : Action Store α) (r : Record) (s : Store) :
    (onStore a).run ⟨r, s⟩ = ⟨(a.run s).result, ⟨r, (a.run s).state⟩, (a.run s).events⟩ := rfl

/-- The part of a write that follows once the frame is found. -/
def writeAt (position : Nat) : Action Filing Unit := do
  let bytes ← .get (·.record.data.toList)
  onStore (Store.write position bytes)
  let trailer ← .get (Frame.trailer ·.record)
  onStore (Store.write (position + bytes.length) trailer)
  onRecord Record.markClean

theorem run_writeRecord_of_locate {position : Nat}
    (h : Frame.locate r.id r.length s = .ok position) :
    writeRecord.run ⟨r, s⟩ = (writeAt position).run ⟨r, s⟩ :=
  Action.run_bind_view (f := fun f : Filing => Frame.locate f.record.id f.record.length f.store)
    (s := ⟨r, s⟩) h _

theorem run_writeRecord_of_error {e : Failure} (h : Frame.locate r.id r.length s = .error e) :
    writeRecord.run ⟨r, s⟩ = ⟨.error e, ⟨r, s⟩, []⟩ :=
  Action.run_bind_view_error
    (f := fun f : Filing => Frame.locate f.record.id f.record.length f.store) (s := ⟨r, s⟩) h _

section

variable {position : Nat} {t u : Store} {e : Failure} {es : List Event}

theorem run_writeAt_of_data_error
    (h : (Store.write position r.data.toList).run s = ⟨.error e, t, es⟩) :
    (writeAt position).run ⟨r, s⟩ = ⟨.error e, ⟨r, t⟩, es⟩ := by
  unfold writeAt
  rw [Action.run_bind_silent (Action.run_get ..)]
  apply Action.run_bind_error
  rw [run_onStore, h]

-- Once the bytes of the record are taken, the trailer follows right behind them.
theorem run_writeAt_of_data (h : (Store.write position r.data.toList).run s = ⟨.ok (), t, []⟩) :
    (writeAt position).run ⟨r, s⟩ =
      (onStore (Store.write (position + r.length) (Frame.trailer r)) >>= fun _ =>
        onRecord Record.markClean).run ⟨r, t⟩ := by
  have hdata : (onStore (Store.write position r.data.toList)).run ⟨r, s⟩ =
      ⟨.ok (), ⟨r, t⟩, []⟩ := by
    rw [run_onStore, h]
  have hlen : r.data.toList.length = r.length := Array.length_toList
  unfold writeAt
  rw [Action.run_bind_silent (Action.run_get ..), Action.run_bind_silent hdata,
    Action.run_bind_silent (Action.run_get ..), hlen]

theorem run_writeAt_of_trailer_error
    (hdata : (Store.write position r.data.toList).run s = ⟨.ok (), t, []⟩)
    (h : (Store.write (position + r.length) (Frame.trailer r)).run t = ⟨.error e, u, es⟩) :
    (writeAt position).run ⟨r, s⟩ = ⟨.error e, ⟨r, u⟩, es⟩ := by
  rw [run_writeAt_of_data hdata]
  apply Action.run_bind_error
  rw [run_onStore, h]

theorem run_writeAt_of_ok
    (hdata : (Store.write position r.data.toList).run s = ⟨.ok (), t, []⟩)
    (h : (Store.write (position + r.length) (Frame.trailer r)).run t = ⟨.ok (), u, []⟩) :
    (writeAt position).run ⟨r, s⟩ = ⟨.ok (), ⟨Record.ofBytes r.id r.data, u⟩, []⟩ := by
  have htrailer : (onStore (Store.write (position + r.length) (Frame.trailer r))).run ⟨r, t⟩ =
      ⟨.ok (), ⟨r, u⟩, []⟩ := by
    rw [run_onStore, h]
  rw [run_writeAt_of_data hdata, Action.run_bind_silent htrailer]
  rfl

-- Both writes of a record that was written were taken.
theorem writes_of_writeAt {f : Filing} (h : (writeAt position).run ⟨r, s⟩ = ⟨.ok (), f, es⟩) :
    ∃ t u, (Store.write position r.data.toList).run s = ⟨.ok (), t, []⟩ ∧
      (Store.write (position + r.length) (Frame.trailer r)).run t = ⟨.ok (), u, []⟩ ∧
      f = ⟨Record.ofBytes r.id r.data, u⟩ := by
  cases hdata : ((Store.write position r.data.toList).run s).result with
  | error e =>
    rw [run_writeAt_of_data_error (Store.run_write_of_result hdata)] at h
    cases h
  | ok _ =>
    have hfirst := Store.run_write_of_result hdata
    generalize ((Store.write position r.data.toList).run s).state = t at hfirst
    cases htrailer : ((Store.write (position + r.length) (Frame.trailer r)).run t).result with
    | error e =>
      rw [run_writeAt_of_trailer_error hfirst (Store.run_write_of_result htrailer)] at h
      cases h
    | ok _ =>
      have hsecond := Store.run_write_of_result htrailer
      rw [run_writeAt_of_ok hfirst hsecond] at h
      injection h with _ hstate _
      exact ⟨t, _, hfirst, hsecond, hstate.symm⟩

/-- In any medium, a record that was written stands in its frame. -/
theorem window_of_written {f : Filing} (h : writeRecord.run ⟨r, s⟩ = ⟨.ok (), f, es⟩) :
    f.store.medium = s.medium ∧ Frame.locate r.id r.length s = .ok (Frame.start r.id r.length) ∧
      Bytes.window f.store.bytes (Frame.start r.id r.length) (r.length + Frame.trailerWidth) =
        some (Frame.bytes r) := by
  cases hloc : Frame.locate r.id r.length s with
  | error e =>
    rw [run_writeRecord_of_error hloc] at h
    cases h
  | ok position =>
    obtain rfl := Frame.eq_start hloc
    rw [run_writeRecord_of_locate hloc] at h
    obtain ⟨t, u, hfirst, hsecond, rfl⟩ := writes_of_writeAt h
    have hmedium := (Store.bytes_of_write_ok hsecond).1.trans (Store.bytes_of_write_ok hfirst).1
    have hlen : r.data.toList.length = r.length := Array.length_toList
    have htrailer := Frame.length_trailer r
    rw [← hlen] at hsecond
    have hframe := Store.window_of_writes hfirst hsecond (by rw [htrailer]; exact Nat.succ_pos _)
    rw [hlen, htrailer] at hframe
    exact ⟨hmedium, rfl, hframe⟩

end

/-! ### Where the medium grows -/

section

variable (hm : s.medium ≠ .fixed)
  (hloc : Frame.locate r.id r.length s = .ok (Frame.start r.id r.length))

include hm hloc

theorem run_writeRecord_of_fits (hfit : Frame.finish r.id r.length ≤ s.medium.room) :
    writeRecord.run ⟨r, s⟩ =
      ⟨.ok (), ⟨Record.ofBytes r.id r.data,
        s.put (Frame.start r.id r.length) (Frame.bytes r)⟩, []⟩ := by
  have hlen : r.data.toList.length = r.length := Array.length_toList
  have hend : Frame.start r.id r.length + (Frame.bytes r).length ≤ s.medium.room := by
    rwa [Frame.length_bytes]
  obtain ⟨t, hfirst, hsecond⟩ := Store.run_writes_of_le hm (Frame.trailer_ne_nil r) hend
  rw [hlen] at hsecond
  rw [run_writeRecord_of_locate hloc, run_writeAt_of_ok hfirst hsecond]
  rfl

/-- A medium that has no room for a frame to its end takes a part of it at most. -/
theorem run_writeRecord_of_long (hlong : s.medium.room < Frame.finish r.id r.length) :
    ∃ e t, writeRecord.run ⟨r, s⟩ = ⟨.error e, ⟨r, t⟩, []⟩ ∧
      s.Took (Frame.start r.id r.length) (Frame.bytes r) t := by
  have hlen : r.data.toList.length = r.length := Array.length_toList
  have hend : s.medium.room < Frame.start r.id r.length + (Frame.bytes r).length := by
    rwa [Frame.length_bytes]
  rw [run_writeRecord_of_locate hloc]
  rcases Store.run_writes_of_lt hm (Frame.trailer_ne_nil r) hend with
    ⟨e, t, hfirst, htook⟩ | ⟨e, t, u, hfirst, hsecond, htook⟩
  · exact ⟨e, t, run_writeAt_of_data_error hfirst, htook⟩
  · rw [hlen] at hsecond
    exact ⟨e, u, run_writeAt_of_trailer_error hfirst hsecond, htook⟩

end

end Filing

namespace Store

/-! ## Reading a record -/

variable {position width : Nat} {s : Store} {bs : List UInt8}

theorem read_of_window (h : Bytes.window s.bytes position width = some bs) :
    s.read position width = .ok bs := by
  unfold read
  by_cases hw : width = 0
  · obtain ⟨hlen, -⟩ := Bytes.length_of_window h
    rw [if_pos hw, List.eq_nil_of_length_eq_zero (hlen.trans hw)]
  · rw [if_neg hw, h]

theorem read_of_none (hw : width ≠ 0) (h : Bytes.window s.bytes position width = none) :
    s.read position width = .error (.refused (.io .endOfStore)) := by
  unfold read
  rw [if_neg hw, h]

theorem read_ok_or_end (position width : Nat) (s : Store) :
    (∃ bs, s.read position width = .ok bs) ∨
      s.read position width = .error (.refused (.io .endOfStore)) := by
  unfold read
  by_cases hw : width = 0
  · exact .inl ⟨[], if_pos hw⟩
  · rw [if_neg hw]
    cases Bytes.window s.bytes position width with
    | some bs => exact .inl ⟨bs, rfl⟩
    | none => exact .inr rfl

theorem result_readRecord_of_error {id : UInt64} {length : Nat} {e : Failure}
    (h : Frame.locate id length s = .error e) :
    ((readRecord id length).run s).result = .error e := by
  unfold readRecord
  rw [Action.run_bind_view_error h]

theorem result_readRecord_of_long {id : UInt64} {length : Nat}
    (hloc : Frame.locate id length s = .ok position) (hlen : Memory.maxBytes < length) :
    ((readRecord id length).run s).result = .error (.fault .outOfMemory) := by
  have hmemory : (Action.lift (Memory.require length)).run s =
      ⟨.error (.fault .outOfMemory), s, []⟩ := by
    rw [Action.run_lift, Memory.require_of_lt hlen]
  unfold readRecord
  rw [Action.run_bind_view hloc, Action.run_bind_error hmemory]

/-- What a frame is read as, by what its bytes are. -/
theorem result_readRecord_of_le {id : UInt64} {length : Nat}
    (hloc : Frame.locate id length s = .ok position) (hlen : length ≤ Memory.maxBytes) :
    ((readRecord id length).run s).result =
      match Bytes.window s.bytes position (length + Frame.trailerWidth) with
      | none => .error (.refused (.io .endOfStore))
      | some bs =>
          if UInt32.ofNat (Bytes.value (bs.drop length)) = checksum (bs.take length).toArray then
            .ok (Record.ofBytes id (bs.take length).toArray)
          else .error (.refused (.corruption (.checksum id))) := by
  have hmemory : (Action.lift (Memory.require length)).run s = ⟨.ok (), s, []⟩ := by
    rw [Action.run_lift, Memory.require_of_le hlen]
  unfold readRecord
  rw [Action.run_bind_view hloc, Action.run_bind_silent hmemory]
  cases hframe : Bytes.window s.bytes position (length + Frame.trailerWidth) with
  | none =>
    -- Either the record is not there, or it is and its trailer is not.
    rcases read_ok_or_end position length s with ⟨data, hdata⟩ | hdata
    · have hshort := Bytes.window_eq_none_iff.mp hframe
      have htrailer : s.read (position + length) Frame.trailerWidth =
          .error (.refused (.io .endOfStore)) := by
        apply read_of_none (by decide)
        rw [Bytes.window_eq_none_iff]
        omega
      rw [Action.run_bind_view hdata, Action.run_bind_view_error htrailer]
    · rw [Action.run_bind_view_error hdata]
  | some bs =>
    obtain ⟨hdata, htrailer⟩ := Bytes.window_split hframe
    rw [Action.run_bind_view (read_of_window hdata),
      Action.run_bind_view (read_of_window htrailer)]
    show ((if UInt32.ofNat (Bytes.value (bs.drop length)) = checksum (bs.take length).toArray
      then _ else _ : Action Store Record).run s).result = if _ then _ else _
    split <;> rfl

-- The same for a record whose bytes 16-bit offsets address.
theorem result_readRecord {id : UInt64} {length : Nat}
    (hloc : Frame.locate id length s = .ok position) (hlen : length ≤ Record.maxLength) :
    ((readRecord id length).run s).result =
      match Bytes.window s.bytes position (length + Frame.trailerWidth) with
      | none => .error (.refused (.io .endOfStore))
      | some bs =>
          if UInt32.ofNat (Bytes.value (bs.drop length)) = checksum (bs.take length).toArray then
            .ok (Record.ofBytes id (bs.take length).toArray)
          else .error (.refused (.corruption (.checksum id))) :=
  result_readRecord_of_le hloc (Nat.le_trans hlen (by decide))

/-- A frame that the store does not have to its end is refused by the medium. -/
theorem result_readRecord_of_outside {id : UInt64} {length : Nat}
    (hlen : length ≤ Memory.maxBytes) (hid : Frame.finish id length < UInt64.size)
    (hout : s.length < Frame.finish id length) :
    ((readRecord id length).run s).result =
      .error (.refused (.io
        (if s.medium.reaches (Frame.start id length) then .endOfStore else .unseekable))) := by
  have hloc := Frame.locate_eq hid s
  split at hloc
  · rename_i hnear
    have hnone : Bytes.window s.bytes (Frame.start id length) (length + Frame.trailerWidth) = none :=
      Bytes.window_eq_none_iff.mpr hout
    rw [if_pos hnear, result_readRecord_of_le hloc hlen, hnone]
  · rename_i hfar
    rw [if_neg hfar, result_readRecord_of_error hloc]

end Store

end FreeSpace
