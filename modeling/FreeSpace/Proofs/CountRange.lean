import FreeSpace.Proofs.RowCalls

/-!
# The range of the count

A page may be opened on any count, also on one that its rows contradict.  A call that turns a row
then moves the count by one or is refused as corruption, and of the two only the way up looks at the
capacity: a count that is too high is refused where a row would be put in use, and lowered where one
is made vacant.  So a run never takes the count above what it was at first, if that is more than the
capacity, and otherwise keeps it in range (`rowCount_le_after`).
-/

namespace FreeSpace

-- A call takes the count up to the capacity at most.
theorem BarePage.Effect.rowCount_le {r r' : Record} (h : Effect r r') (hr : r.IsSlotPage) :
    r'.rowCount.toNat ≤ max r.rowCount.toNat (SlotPage.rowsIn r.length) := by
  have hfollows : ∀ {row : Nat} {size : UInt32} {count : UInt16}, CountFollows r row size count →
      count.toNat ≤ max r.rowCount.toNat (SlotPage.rowsIn r.length) := by
    intro row size count hcount
    have hadd := hcount.toNat_add hr.greatest
    cases hcount with
    | up hold hnew hroom =>
      simp only [hold, hnew, if_true, if_false] at hadd
      omega
    | down hold hnew =>
      simp only [hold, hnew, if_true, if_false] at hadd
      omega
  cases h with
  | none => omega
  | moved hrow =>
    rw [Record.rowCount_putLocation hrow]
    omega
  | resized hrow =>
    rw [Record.rowCount_putSize hrow]
    omega
  | turned hrow hcount =>
    rw [Record.rowCount_putCount (by simpa using hr.least)]
    exact hfollows hcount
  | rewritten hrow l hcount =>
    rw [Record.rowCount_putCount (by simpa using hr.least)]
    exact hfollows hcount

namespace SlotPage

open BarePage (AtRowStarts)

variable {n : Nat} {p q : SlotPage}

/-- The size that the call gives its row, if it sets one. -/
def Call.newSize? : Call → Option UInt32
  | .claim _ => some placeholderSize
  | .release _ => some 0
  | .setSizeAt _ size => some size
  | _ => none

/-! ## A call for a row -/

/-- The call failed and left everything; where it would have turned the row, for want of a count. -/
structure Refused (c : Call) (row : UInt16) (p : SlotPage) (o : Outcome SlotPage Reply) : Prop where
  unmoved : Unmoved p o.state
  why : ∃ e, o.result = .error e ∧ ∀ size, c.newSize? = some size →
    (p.reported row.toNat = 0 ↔ size ≠ 0) →
      p.countFor row (p.reported row.toNat) size = .error e

/-- The call wrote the row, the count that goes with it, and nothing else. -/
structure Written (c : Call) (row : UInt16) (p : SlotPage) (o : Outcome SlotPage Reply) : Prop where
  ok : ∃ reply, o.result = .ok reply
  within : Within row.toNat p o.state
  size : ∀ size, c.newSize? = some size → o.state.reported row.toNat = size
  count : ∃ count, p.countFor row (p.reported row.toNat) (o.state.reported row.toNat) = .ok count ∧
    o.state.record.rowCount = count.getD p.record.rowCount

section

variable {c : Call} {row offset : UInt16}

theorem Refused.of_run (h : Shaped n p) (hrow : row.toNat < rowsIn n) {α : Type}
    {x : Action SlotPage α} {f : α → Action SlotPage Reply} {e : Failure} {es : List Event}
    (hrun : x.run p = ⟨.error e, p.keep row.toNat (p.reported row.toNat), es⟩)
    (hwhy : ∀ size, c.newSize? = some size → (p.reported row.toNat = 0 ↔ size ≠ 0) →
      p.countFor row (p.reported row.toNat) size = .error e) :
    Refused c row p ((x >>= f).run p) := by
  rw [Action.run_bind_error hrun]
  exact ⟨unmoved_keep h hrow, e, rfl, hwhy⟩

-- Claims and releases, once the row is in the right state.
theorem refused_or_written_of_turned (h : Shaped n p) (hrow : row.toNat < rowsIn n)
    {x : Action SlotPage UInt16} {f : UInt16 → Reply} {w : Row} {found : Result UInt16}
    {es : List Event} (hrun : x.run p = p.turned row w es found) (hsize : c.newSize? = some w.size)
    (hcount : p.countFor row (p.reported row.toNat) w.size = found.map some) :
    Refused c row p ((x >>= fun a => pure (f a)).run p) ∨
      Written c row p ((x >>= fun a => pure (f a)).run p) := by
  cases found with
  | error e =>
    refine .inl (.of_run h hrow hrun fun size hs _ => ?_)
    obtain rfl := Option.some.inj (hsize.symm.trans hs)
    exact hcount
  | ok count =>
    have hentry : (p.rewritten row.toNat w count).reported row.toNat = w.size :=
      congrArg Entry.size (entry_rewritten h hrow w count)
    rw [Action.run_bind_ok hrun]
    refine .inr ⟨⟨_, rfl⟩, within_rewritten h hrow w count, fun size hs => ?_, some count, ?_, ?_⟩
    · rw [Option.some.inj (hsize.symm.trans hs)] at hentry
      exact hentry
    · dsimp only [Action.run_pure]
      rw [hentry]
      exact hcount
    · exact rowCount_rewritten h hrow w count

theorem refused_or_written (h : Shaped n p) (hrow : row.toNat < rowsIn n)
    (ht : c.target? = some (rowStart row.toNat)) :
    Refused c row p (c.action.run p) ∨ Written c row p (c.action.run p) := by
  have hsame : ∀ {row' : UInt16}, some (rowStart row'.toNat) = some (rowStart row.toNat) →
      row' = row := by
    intro row' he
    have he := Option.some.inj he
    rw [rowStart_eq, rowStart_eq] at he
    exact UInt16.toNat_inj.mp (by omega)
  cases c with
  | claim row' =>
    obtain rfl := hsame ht
    by_cases hused : p.reported row'.toNat = 0
    · obtain ⟨es, hrun⟩ := run_claim_of_vacant h hrow hused
      refine refused_or_written_of_turned h hrow hrun rfl ?_
      exact if_pos ⟨hused, by decide⟩
    · obtain ⟨es, hrun⟩ := run_claim_of_used h hrow hused
      refine .inl (.of_run h hrow hrun fun size hs hturn => ?_)
      obtain rfl := Option.some.inj hs
      exact absurd (hturn.mpr (by decide)) hused
  | release row' =>
    obtain rfl := hsame ht
    by_cases hvacant : p.reported row'.toNat = 0
    · obtain ⟨es, hrun⟩ := run_release_of_vacant h hrow hvacant
      refine .inl (.of_run h hrow hrun fun size hs hturn => ?_)
      obtain rfl := Option.some.inj hs
      exact absurd rfl (hturn.mp hvacant)
    · obtain ⟨es, hrun⟩ := run_release_of_used h hrow hvacant
      refine refused_or_written_of_turned h hrow hrun rfl ?_
      exact (if_neg fun hboth => hvacant hboth.1).trans (if_pos ⟨hvacant, rfl⟩)
  | setSizeAt offset size =>
    have hoff : offset.toNat = rowStart row.toNat := Option.some.inj ht
    cases hcount : p.countFor row (p.reported row.toNat) size with
    | error e =>
      obtain ⟨es, hrun⟩ := run_setSizeAt_of_error h hrow hoff hcount
      refine .inl (.of_run h hrow hrun fun size' hs _ => ?_)
      obtain rfl := Option.some.inj hs
      exact hcount
    | ok count =>
      obtain ⟨es, hrun⟩ := run_setSizeAt h hrow hoff hcount
      have hentry : (p.resized row.toNat size count).reported row.toNat = size :=
        congrArg Entry.size (entry_resized h hrow size count)
      change _ ∨ Written _ _ _ ((setSizeAt offset size >>= fun _ => pure Reply.done).run p)
      rw [Action.run_bind_ok hrun]
      refine .inr ⟨⟨_, rfl⟩, within_resized h hrow size count, fun size' hs => ?_, count, ?_, ?_⟩
      · exact hentry.trans (Option.some.inj hs)
      · dsimp only [Action.run_pure]
        rw [hentry]
        exact hcount
      · exact rowCount_resized h hrow size count
  | setLocation offset l =>
    have hrun := run_setLocation h hrow (Option.some.inj ht) l
    have hentry := entry_putLocation h hrow l hrow
    rw [if_pos rfl] at hentry
    have hreported : (p.putLocation row.toNat l).reported row.toNat = p.reported row.toNat :=
      congrArg Entry.size hentry
    change _ ∨ Written _ _ _ ((setLocation offset l >>= fun _ => pure Reply.done).run p)
    rw [Action.run_bind_ok hrun]
    refine .inr ⟨⟨_, rfl⟩, within_putLocation h hrow l, nofun, none, ?_, ?_⟩
    · -- The size stays, so there is nothing for the count to follow.
      dsimp only [Action.run_pure]
      rw [hreported]
      unfold SlotPage.countFor
      rw [if_neg (by tauto), if_neg (by tauto)]
    · exact Record.rowCount_putLocation (by rwa [h.length_eq])
  | _ => exact absurd ht nofun

/-- A call that would turn its row is decided by the count. -/
theorem refused_of_countFor (h : Shaped n p) (hrow : row.toNat < rowsIn n)
    (ht : c.target? = some (rowStart row.toNat)) {size : UInt32} (hsize : c.newSize? = some size)
    {e : Failure} (hcount : p.countFor row (p.reported row.toNat) size = .error e) :
    (p.reported row.toNat = 0 ↔ size ≠ 0) →
      (c.action.run p).result = .error e ∧ Unmoved p (c.action.run p).state := by
  intro hturn
  rcases refused_or_written h hrow ht with ⟨hunmoved, e', hresult, hwhy⟩ | hwritten
  · have hsame := hwhy size hsize hturn
    rw [hcount] at hsame
    rw [hresult, ← Except.error.inj hsame]
    exact ⟨rfl, hunmoved⟩
  · obtain ⟨count, hok, -⟩ := hwritten.count
    rw [hwritten.size size hsize, hcount] at hok
    exact absurd hok nofun

theorem written_of_countFor (h : Shaped n p) (hrow : row.toNat < rowsIn n)
    (ht : c.target? = some (rowStart row.toNat)) {size : UInt32} (hsize : c.newSize? = some size)
    (hturn : p.reported row.toNat = 0 ↔ size ≠ 0) {count : UInt16}
    (hcount : p.countFor row (p.reported row.toNat) size = .ok (some count)) :
    (∃ reply, (c.action.run p).result = .ok reply) ∧
      (c.action.run p).state.reported row.toNat = size ∧
      (c.action.run p).state.record.rowCount = count := by
  rcases refused_or_written h hrow ht with hrefused | hwritten
  · obtain ⟨e, -, hwhy⟩ := hrefused.why
    rw [hwhy size hsize hturn] at hcount
    exact absurd hcount nofun
  · have hreported := hwritten.size size hsize
    obtain ⟨count', hok, hleft⟩ := hwritten.count
    rw [hreported, hcount] at hok
    rw [← Except.ok.inj hok] at hleft
    exact ⟨hwritten.ok, hreported, hleft⟩

end

/-! ## Turning a row -/

/-- In each state of a run on an opened page the count is within the capacity, or not above what the
page was opened on. -/
theorem rowCount_le_after (h : Sound p) {moves : List Move}
    (hm : ∀ c ∈ calls moves, AtRowStarts p.record.length c) (hq : after moves p = .ok q) :
    q.record.rowCount.toNat ≤ max p.record.rowCount.toNat p.capacity.toNat := by
  have hcap := h.isPage.toNat_capacity
  obtain ⟨s, hs, -, -, hle, -⟩ := exists_after h hm
    (I := fun r => r.rowCount.toNat ≤ max p.record.rowCount.toNat (rowsIn p.record.length) ∧
      r.length = p.record.length)
    ⟨by omega, rfl⟩ fun r r' hr heff ⟨hle, hlen⟩ => by
      have hstep := heff.rowCount_le hr
      rw [hlen] at hstep
      exact ⟨by omega, heff.length_eq.trans hlen⟩
  obtain rfl := Except.ok.inj (hq.symm.trans hs)
  unfold capacity
  rwa [hcap]

/-- **What becomes of the count when a row turns.**  On a page opened on any bytes and used in any
way, a call that puts a vacant row in use moves the count up by one and within the capacity, or is
refused as corruption and leaves everything.  A call that makes a row vacant moves it down by one, or
is refused in the same way if the count is 0; it leaves a count above the capacity exactly if that
was more than one too high.  So a run that writes locations where rows start never takes the count
above the capacity, unless it was there at first. -/
theorem count_turns {r : Record} {moves : List Move} (hp : (ofRecord.run r).result = .ok p)
    (hq : after moves p = .ok q) :
    (∀ (c : Call) (row : UInt16) (size : UInt32), row < q.capacity →
      c.target? = some (rowStart row.toNat) → c.newSize? = some size →
      (q.reported row.toNat = 0 ↔ size ≠ 0) →
      let o := c.action.run q
      let count := o.state.record.rowCount
      if size = 0 then
        if q.record.rowCount = 0 then
          o.result = .error (.refused (.corruption (.countAtZero q.record.id row))) ∧
          Unmoved q o.state
        else
          (∃ reply, o.result = .ok reply) ∧ o.state.reported row.toNat = size ∧
            count.toNat + 1 = q.record.rowCount.toNat ∧
            (count ≤ q.capacity ↔ q.record.rowCount.toNat ≤ q.capacity.toNat + 1)
      else if q.record.rowCount < q.capacity then
        (∃ reply, o.result = .ok reply) ∧ o.state.reported row.toNat = size ∧
          count.toNat = q.record.rowCount.toNat + 1 ∧ count ≤ q.capacity
      else
        o.result = .error (.refused
          (.corruption (.countAtCapacity q.record.id q.record.rowCount q.capacity row))) ∧
        Unmoved q o.state) ∧
    ((∀ c ∈ calls moves, AtRowStarts p.record.length c) →
      q.record.rowCount.toNat ≤ max p.record.rowCount.toNat p.capacity.toNat) := by
  refine ⟨fun c row size hrow ht hsize hturn => ?_, fun hm => ?_⟩
  · have h : Shaped q.record.length q := Reached.shaped ⟨r, p, moves, .inl hp, hq⟩
    rw [UInt16.lt_iff_toNat_lt, h.toNat_capacity] at hrow
    intro o count
    by_cases hnew : size = 0
    · have hdown : q.countFor row (q.reported row.toNat) size = (q.countDown row).map some := by
        unfold countFor
        rw [if_neg (by tauto), if_pos (by tauto)]
      rw [h.countDown_eq] at hdown
      rw [if_pos hnew]
      by_cases hpos : q.record.rowCount = 0
      · rw [if_pos hpos] at hdown
        rw [if_pos hpos]
        exact refused_of_countFor h hrow ht hsize hdown hturn
      · rw [if_neg hpos] at hdown
        rw [if_neg hpos]
        obtain ⟨hok, hreported, hcount⟩ := written_of_countFor h hrow ht hsize hturn hdown
        have hsub : count.toNat + 1 = q.record.rowCount.toNat := by
          rw [← Word.toNat_sub_one hpos, ← hcount]
        refine ⟨hok, hreported, hsub, ?_⟩
        rw [UInt16.le_iff_toNat_le]
        omega
    · have hup : q.countFor row (q.reported row.toNat) size = (q.countUp row).map some := by
        unfold countFor
        rw [if_pos (by tauto)]
      rw [h.countUp_eq] at hup
      rw [if_neg hnew]
      by_cases hroom : q.record.rowCount < q.capacity
      · rw [if_neg (UInt16.not_le.mpr hroom)] at hup
        rw [if_pos hroom]
        obtain ⟨hok, hreported, hcount⟩ := written_of_countFor h hrow ht hsize hturn hup
        rw [UInt16.lt_iff_toNat_lt] at hroom
        have hcap := q.capacity.toNat_lt
        have hadd : count.toNat = q.record.rowCount.toNat + 1 := by
          rw [← Word.toNat_add_one (by omega), ← hcount]
        refine ⟨hok, hreported, hadd, ?_⟩
        rw [UInt16.le_iff_toNat_le]
        omega
      · rw [if_pos (UInt16.not_lt.mp hroom)] at hup
        rw [if_neg hroom]
        exact refused_of_countFor h hrow ht hsize hup hturn
  · obtain ⟨hpage, rfl⟩ := ofRecord_eq_ok hp
    exact rowCount_le_after (sound_unread hpage) hm hq

/-- Two rows and a count of 3, one above the capacity: a claim of the vacant row 1 is refused, and
row 0 vacated by a new size brings the count into range. -/
theorem count_turns_high_count :
    let r := Record.ofBytes 7 #[0x19, 0x93, 0, 3, 0, 0, 0, 5, 0, 64, 0, 0, 1, 0,
      0, 0, 0, 0, 0, 0, 0, 0, 0, 0]
    let q := unread r
    (ofRecord.run r).result = .ok q ∧ after [] q = .ok q ∧ q.reported 0 ≠ 0 ∧ q.reported 1 = 0 ∧
      ((Call.claim 1).action.run q).result =
        .error (.refused (.corruption (.countAtCapacity 7 3 2 1))) ∧
      Unmoved q ((Call.claim 1).action.run q).state ∧
      (∃ reply, ((Call.setSizeAt 4 0).action.run q).result = .ok reply) ∧
      ((Call.setSizeAt 4 0).action.run q).state.record.rowCount ≤ q.capacity := by
  intro r q
  have hpage : r.IsSlotPage := ⟨by decide, by decide, by decide +kernel⟩
  have hp : (ofRecord.run r).result = .ok q := by rw [run_ofRecord hpage]
  have hid : q.record.id = 7 := rfl
  have hcount : q.record.rowCount = 3 := by decide +kernel
  have hcap : q.capacity = 2 := by decide +kernel
  have hused : q.reported 0 ≠ 0 := by decide +kernel
  have hvacant : q.reported 1 = 0 := by decide +kernel
  -- These facts are all that is needed of the page, which would else be computed at every step.
  clear_value q
  have hq : after [] q = .ok q := rfl
  obtain ⟨hturns, -⟩ := count_turns hp hq
  have hclaim := hturns (.claim 1) 1 1 (by rw [hcap]; decide) rfl rfl
    ⟨fun _ => by decide, fun _ => hvacant⟩
  have hvacate := hturns (.setSizeAt 4 0) 0 0 (by rw [hcap]; decide) rfl rfl
    ⟨fun hz => absurd hz hused, fun hne => absurd rfl hne⟩
  dsimp only at hclaim hvacate
  rw [hid, hcount, hcap, if_neg (by decide), if_neg (by decide)] at hclaim
  rw [hcount, hcap, if_pos rfl, if_neg (by decide)] at hvacate
  obtain ⟨hok, -, -, hrange⟩ := hvacate
  refine ⟨hp, hq, hused, hvacant, hclaim.1, hclaim.2, hok, ?_⟩
  rw [hcap]
  exact hrange.mpr (by decide)

/-- Two rows and a count of 5: a release, and likewise a new size of 0, leaves a count of 4. -/
theorem high_count_lowered :
    let r := Record.ofBytes 7 #[0x19, 0x93, 0, 5, 0, 0, 0, 5, 0, 64, 0, 0, 1, 0,
      0, 0, 0, 0, 0, 0, 0, 0, 0, 0]
    let p := unread r
    (ofRecord.run r).result = .ok p ∧ p.capacity = 2 ∧ p.reported 0 ≠ 0 ∧
      ((release 0).run p).result = .ok 4 ∧ ((release 0).run p).state.reported 0 = 0 ∧
      ((release 0).run p).state.record.rowCount = 4 ∧
      ((setSizeAt 4 0).run p).result = .ok () ∧
      ((setSizeAt 4 0).run p).state.record.rowCount = 4 := by
  intro r p
  have hpage : r.IsSlotPage := ⟨by decide, by decide, by decide +kernel⟩
  refine ⟨by rw [run_ofRecord hpage], ?_, ?_, ?_, ?_, ?_, ?_, ?_⟩ <;> decide +kernel

end SlotPage

end FreeSpace
