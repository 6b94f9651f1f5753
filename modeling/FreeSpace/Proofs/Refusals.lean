import FreeSpace.Proofs.ReachedPages

/-!
# What is refused, and what a refused call leaves

`Decides` says for claiming, releasing and resizing which of their refusals a call meets, in the
order in which they are looked for.  A call that fails leaves the record as it was
(`respond_snd_of_error`).  It may have kept a size, and a run that writes locations where rows start
cannot find that out (`observe_congr`).
-/

namespace FreeSpace

namespace BarePage

open SlotPage (Call rowStart rowStart_eq rowsIn)

variable {r : Record}

/-! ## Which refusal -/

theorem rowOver_of_start {row : Nat} {offset : UInt16} (h : offset.toNat = rowStart row) :
    rowOver offset = row := by
  rw [rowStart_eq] at h
  unfold rowOver
  omega

theorem rowAt_of_start {row offset : UInt16} (hrow : row.toNat < rowsIn r.length)
    (hoff : offset.toNat = rowStart row.toNat) : rowAt offset r = .ok row := by
  unfold rowAt
  rw [rowOver_of_start hoff, if_pos ⟨hrow, hoff⟩, UInt16.ofNat_toNat]

theorem rowAt_of_no_start {offset : UInt16}
    (h : ∀ row < rowsIn r.length, offset.toNat ≠ rowStart row) :
    rowAt offset r = .error (.refused (.invalidRowOffset offset)) :=
  if_neg fun hin => h _ hin.1 hin.2

/-- Claims and releases are one operation: a row is found, refused in the wrong state, and otherwise
written anew with a count that follows it. -/
def turn (found : Result UInt16) (r : Record) (wrong : Prop) [Decidable wrong] (why : Failure)
    (count : Result UInt16) (write : UInt16 → Record) : Result UInt16 × Record :=
  andThen found r fun offset =>
    if wrong then (.error why, r) else andThen count r fun n => (.ok offset, write n)

theorem claim_eq_turn (row : UInt16) (r : Record) :
    claim row r = turn (offsetOf row r) r (r.rowSize row.toNat ≠ 0) (.refused (.slotInUse row))
      (countUp row r) (withRow r row ⟨1, 1⟩ 1) := rfl

theorem release_eq_turn (row : UInt16) (r : Record) :
    release row r = turn (offsetOf row r) r (r.rowSize row.toNat = 0) (.refused (.slotVacant row))
      (countDown row r) (withRow r row ⟨0, 0⟩ 0) := rfl

theorem turn_fst (row : UInt16) (r : Record) {wrong : Prop} [Decidable wrong] {why : Failure}
    {count : Result UInt16} {write : UInt16 → Record} :
    (turn (offsetOf row r) r wrong why count write).1 =
      if capacity r ≤ row then .error (.refused (.slotOutOfRange row (capacity r)))
      else if wrong then .error why
      else count.map fun _ => .ofNat (rowStart row.toNat) := by
  unfold turn offsetOf
  by_cases hrange : capacity r ≤ row
  · simp only [if_pos hrange, andThen]
  · by_cases hwrong : wrong
    · simp only [if_neg hrange, if_pos hwrong, andThen]
    · simp only [if_neg hrange, if_neg hwrong, andThen]
      cases count <;> rfl

theorem claim_fst (row : UInt16) (r : Record) :
    (claim row r).1 =
      if capacity r ≤ row then .error (.refused (.slotOutOfRange row (capacity r)))
      else if r.rowSize row.toNat ≠ 0 then .error (.refused (.slotInUse row))
      else if capacity r ≤ r.rowCount then
        .error (.refused (.corruption (.countAtCapacity r.id r.rowCount (capacity r) row)))
      else .ok (.ofNat (rowStart row.toNat)) := by
  rw [claim_eq_turn, turn_fst, countUp, apply_ite (Except.map _)]
  rfl

theorem release_fst (row : UInt16) (r : Record) :
    (release row r).1 =
      if capacity r ≤ row then .error (.refused (.slotOutOfRange row (capacity r)))
      else if r.rowSize row.toNat = 0 then .error (.refused (.slotVacant row))
      else if r.rowCount = 0 then .error (.refused (.corruption (.countAtZero r.id row)))
      else .ok (.ofNat (rowStart row.toNat)) := by
  rw [release_eq_turn, turn_fst, countDown, apply_ite (Except.map _)]
  rfl

theorem setSizeAt_fst {row offset : UInt16} (hat : rowAt offset r = .ok row) (size : UInt32) :
    (setSizeAt offset size r).1 =
      if r.rowSize row.toNat = 0 ∧ size ≠ 0 ∧ capacity r ≤ r.rowCount then
        .error (.refused (.corruption (.countAtCapacity r.id r.rowCount (capacity r) row)))
      else if r.rowSize row.toNat ≠ 0 ∧ size = 0 ∧ r.rowCount = 0 then
        .error (.refused (.corruption (.countAtZero r.id row)))
      else .ok () := by
  unfold setSizeAt countFor countUp countDown
  rw [hat]
  by_cases hold : r.rowSize row.toNat = 0
  · -- A vacant row can only turn up, and a row in use only down.
    by_cases hnew : size = 0
    · simp [hold, hnew, andThen]
    · by_cases hfull : capacity r ≤ r.rowCount <;> simp [hold, hnew, hfull, andThen, Except.map]
  · by_cases hnew : size = 0
    · by_cases hzero : r.rowCount = 0 <;> simp [hold, hnew, hzero, andThen, Except.map]
    · simp [hold, hnew, andThen]

/-! ## A failure changes nothing -/

theorem andThen_snd_of_error {α β : Type} {found : Result α} {f : α → Result β × Record}
    {e : Failure} (h : (andThen found r f).1 = .error e)
    (hf : ∀ a, found = .ok a → (f a).1 = .error e → (f a).2 = r) : (andThen found r f).2 = r := by
  cases found with
  | ok a => exact hf a rfl h
  | error => rfl

theorem map_eq_error {α β : Type} {x : Result α} {f : α → β} {e : Failure}
    (h : x.map f = .error e) : x = .error e := by
  cases x with
  | ok => exact absurd h nofun
  | error =>
    obtain rfl := Except.error.inj h
    rfl

theorem turn_snd_of_error {found count : Result UInt16} {wrong : Prop} [Decidable wrong]
    {why e : Failure} {write : UInt16 → Record}
    (h : (turn found r wrong why count write).1 = .error e) :
    (turn found r wrong why count write).2 = r := by
  refine andThen_snd_of_error h fun offset _ ho => ?_
  by_cases hwrong : wrong
  · rw [if_pos hwrong]
  · rw [if_neg hwrong] at ho ⊢
    exact andThen_snd_of_error ho fun count _ hc => absurd hc nofun

theorem setSizeAt_snd_of_error {offset : UInt16} {size : UInt32} {e : Failure}
    (h : (setSizeAt offset size r).1 = .error e) : (setSizeAt offset size r).2 = r :=
  andThen_snd_of_error h fun _ _ ho =>
    andThen_snd_of_error ho fun _ _ hc => absurd hc nofun

theorem respond_snd_of_error (h : r.IsSlotPage) {c : Call} (hc : AtRowStarts r.length c)
    {e : Failure} (he : (respond c r).1 = .error e) : (respond c r).2 = r := by
  cases c with
  | setSizeAt offset size => exact setSizeAt_snd_of_error (map_eq_error he)
  | claim row => exact turn_snd_of_error (claim_eq_turn row r ▸ map_eq_error he)
  | release row => exact turn_snd_of_error (release_eq_turn row r ▸ map_eq_error he)
  | setLocation offset l =>
    -- A location at the start of a row is always written.
    obtain ⟨row, hrow, hoff⟩ := hc
    change ((Record.writeLocation offset l).run r).result.map _ = _ at he
    rw [Record.run_writeLocation h.greatest hrow hoff] at he
    exact absurd he nofun
  | _ => rfl

end BarePage

namespace SlotPage

open BarePage (AtRowStarts)

variable {p q : SlotPage}

/-- How a page decides on claims, releases and new sizes: the first of its refusals that
applies. -/
structure Decides (q : SlotPage) : Prop where
  claim : ∀ row, ((claim row).run q).result =
    if q.capacity ≤ row then .error (.refused (.slotOutOfRange row q.capacity))
    else if q.record.rowSize row.toNat ≠ 0 then .error (.refused (.slotInUse row))
    else if q.capacity ≤ q.record.rowCount then
      .error (.refused
        (.corruption (.countAtCapacity q.record.id q.record.rowCount q.capacity row)))
    else .ok (.ofNat (rowStart row.toNat))
  release : ∀ row, ((release row).run q).result =
    if q.capacity ≤ row then .error (.refused (.slotOutOfRange row q.capacity))
    else if q.record.rowSize row.toNat = 0 then .error (.refused (.slotVacant row))
    else if q.record.rowCount = 0 then
      .error (.refused (.corruption (.countAtZero q.record.id row)))
    else .ok (.ofNat (rowStart row.toNat))
  /-- At an offset where no row starts. -/
  setSizeAt_elsewhere : ∀ offset size,
    (∀ row : UInt16, row < q.capacity → offset.toNat ≠ rowStart row.toNat) →
      ((setSizeAt offset size).run q).result = .error (.refused (.invalidRowOffset offset))
  setSizeAt_start : ∀ row offset size, row < q.capacity → offset.toNat = rowStart row.toNat →
    ((setSizeAt offset size).run q).result =
      if q.record.rowSize row.toNat = 0 ∧ size ≠ 0 ∧ q.capacity ≤ q.record.rowCount then
        .error (.refused
          (.corruption (.countAtCapacity q.record.id q.record.rowCount q.capacity row)))
      else if q.record.rowSize row.toNat ≠ 0 ∧ size = 0 ∧ q.record.rowCount = 0 then
        .error (.refused (.corruption (.countAtZero q.record.id row)))
      else .ok ()

theorem Sound.lt_capacity_iff (h : Sound q) {row : UInt16} :
    row < q.capacity ↔ row.toNat < rowsIn q.record.length := by
  rw [UInt16.lt_iff_toNat_lt, capacity, h.isPage.toNat_capacity]

theorem Sound.decides (h : Sound q) : Decides q where
  claim row := (ends_claim h row).result.trans (BarePage.claim_fst row q.record)
  release row := (ends_release h row).result.trans (BarePage.release_fst row q.record)
  setSizeAt_elsewhere offset size hno := by
    have hat : BarePage.rowAt offset q.record = .error (.refused (.invalidRowOffset offset)) := by
      refine BarePage.rowAt_of_no_start fun row hrow => ?_
      have hword := UInt16.toNat_ofNat_of_lt' (h.isPage.rows_lt hrow)
      have hne := hno (.ofNat row) (h.lt_capacity_iff.mpr (by rwa [hword]))
      rwa [hword] at hne
    rw [(ends_setSizeAt h offset size).result, BarePage.setSizeAt, hat]
    rfl
  setSizeAt_start row offset size hrow hoff := by
    have hat := BarePage.rowAt_of_start (h.lt_capacity_iff.mp hrow) hoff
    exact (ends_setSizeAt h offset size).result.trans (BarePage.setSizeAt_fst hat size)

/-! ## Pages on the same record -/

-- The sizes kept show in no single call, not even in one that writes over a size.
theorem call_congr (hp : Sound p) (hq : Sound q) (h : p.record = q.record) (c : Call) :
    (c.action.run p).result = (c.action.run q).result ∧
      (c.action.run p).state.record = (c.action.run q).state.record := by
  by_cases hc : AtRowStarts p.record.length c
  · have hep := ends_call hp hc
    have heq := ends_call hq (h ▸ hc)
    rw [hep.result, hep.record, heq.result, heq.record, h]
    exact ⟨rfl, rfl⟩
  · cases c with
    | setLocation offset l =>
      have hrun : ∀ s : SlotPage, (setLocation offset l).run s = ⟨_, ⟨_, s.sizes⟩, _⟩ :=
        run_onRecord (Record.writeLocation offset l)
      simp only [Call.action, Action.run_bind, hrun, h]
      cases ((Record.writeLocation offset l).run q.record).result <;> exact ⟨rfl, rfl⟩
    | _ => exact absurd trivial hc

/-- Two pages on the same record cannot be told apart by a run that writes locations where rows
start, nor by one call of any kind at its end. -/
theorem observe_congr (hp : Sound p) (hq : Sound q) (h : p.record = q.record)
    {moves : List Move} (hm : ∀ c ∈ calls moves, AtRowStarts p.record.length c) (last : Call) :
    observe (moves ++ [.call last]) p = observe (moves ++ [.call last]) q := by
  induction moves generalizing p q with
  | nil =>
    obtain ⟨hresult, hrecord⟩ := call_congr hp hq h last
    simp only [List.nil_append, observe, hresult, hrecord]
  | cons m rest ih =>
    cases m with
    | call c =>
      have hc := hm c List.mem_cons_self
      obtain ⟨hresult, hrecord⟩ := call_congr hp hq h c
      have hrest := ih (ends_call hp hc).sound (ends_call hq (h ▸ hc)).sound hrecord
        (atRowStarts_rest hp hm)
      simp only [List.cons_append, observe, hresult, hrecord, hrest]
    | reopen =>
      -- Opened again, both are the same page.
      simp only [List.cons_append, observe, h]

/-- **Calls fail for the stated reasons, and without a trace.**  On each page that a run reaches,
whatever bytes it was opened on, claims, releases and new sizes are refused as `Decides` has it.  A
call that fails leaves the record and the capacity, and a run afterwards that writes locations where
rows start is seen as if the call had not been made, up to and with a last call of any kind. -/
theorem decides_and_keeps {r : Record} {p : SlotPage} (hp : (ofRecord.run r).result = .ok p)
    {earlier : List Move} (hearlier : ∀ c ∈ calls earlier, AtRowStarts r.length c) :
    ∃ q, after earlier p = .ok q ∧ Decides q ∧
      ∀ c, AtRowStarts r.length c → ∀ e, (c.action.run q).result = .error e →
        (c.action.run q).state.record = q.record ∧
        (c.action.run q).state.capacity = q.capacity ∧
        ∀ later, (∀ d ∈ calls later, AtRowStarts r.length d) → ∀ last,
          observe (later ++ [.call last]) (c.action.run q).state =
            observe (later ++ [.call last]) q := by
  obtain ⟨hpage, rfl⟩ := ofRecord_eq_ok hp
  obtain ⟨q, hq, hsound, hlen, -⟩ := exists_after (sound_unread hpage) hearlier (I := fun _ => True)
    trivial fun _ _ _ _ _ => trivial
  have hlen : q.record.length = r.length := hlen
  refine ⟨q, hq, hsound.decides, fun c hc e he => ?_⟩
  rw [← hlen] at hc ⊢
  have hends := ends_call hsound hc
  rw [hends.result] at he
  have hkeep : (c.action.run q).state.record = q.record :=
    hends.record.trans (BarePage.respond_snd_of_error hsound.isPage hc he)
  refine ⟨hkeep, ?_, fun later hlater last => ?_⟩
  · unfold capacity
    rw [hkeep]
  · exact observe_congr hends.sound hsound hkeep (by rwa [hkeep]) last

/-- On a page of two rows whose count is one too high: the vacant row is refused as corrupt, and the
refusal leaves no trace in the calls after it. -/
theorem decides_and_keeps_high_count :
    let r := Record.ofBytes 7 #[0x19, 0x93, 0, 2, 0, 0, 0, 5, 0, 64, 0, 0, 1, 0,
      0, 0, 0, 0, 0, 0, 0, 0, 0, 0]
    let earlier := [.call (.setLocation 4 ⟨3, 9⟩), .reopen, .call (.search 70)]
    let later := [.call (.release 0), .reopen]
    (ofRecord.run r).result = .ok (unread r) ∧ (∀ c ∈ calls earlier, AtRowStarts r.length c) ∧
      (∀ d ∈ calls later, AtRowStarts r.length d) ∧
      ∃ q, after earlier (unread r) = .ok q ∧ Decides q ∧
        ((Call.claim 1).action.run q).result =
          .error (.refused (.corruption (.countAtCapacity 7 2 2 1))) ∧
        ((Call.claim 1).action.run q).state.record = q.record ∧
        observe (later ++ [.call (.claim 1)]) ((Call.claim 1).action.run q).state =
          observe (later ++ [.call (.claim 1)]) q := by
  intro r earlier later
  have hpage : r.IsSlotPage := ⟨by decide, by decide, by decide +kernel⟩
  have hp : (ofRecord.run r).result = .ok (unread r) := by rw [run_ofRecord hpage]
  have hearlier : ∀ c ∈ calls earlier, AtRowStarts r.length c := by decide
  have hlater : ∀ d ∈ calls later, AtRowStarts r.length d := by decide
  obtain ⟨q, hq, hdecides, hkeeps⟩ := decides_and_keeps hp hearlier
  have hrefused : (after earlier (unread r) >>= fun q => ((Call.claim 1).action.run q).result) =
      .error (.refused (.corruption (.countAtCapacity 7 2 2 1))) := by decide +kernel
  rw [hq] at hrefused
  obtain ⟨hrecord, -, hobserve⟩ := hkeeps (.claim 1) trivial _ hrefused
  exact ⟨hp, hearlier, hlater, q, hq, hdecides, hrefused, hrecord, hobserve later hlater _⟩

/-- A claim refused for a row in use keeps its size, 64.  A location then written at offset 6 makes
that size 65600 in the record: the page answers 64, and 65600 had the claim not been made. -/
theorem refused_claim_noticed :
    let r := Record.ofBytes 7 #[0x19, 0x93, 0, 1, 0, 0, 0, 5, 0, 64, 0, 0, 0, 64,
      0, 0, 0, 0, 0, 0, 0, 0, 0, 0]
    let p := unread r
    let later := [.call (.setLocation 6 ⟨0x50040, 1⟩)]
    (ofRecord.run r).result = .ok p ∧
      ((claim 0).run p).result = .error (.refused (.slotInUse 0)) ∧
      (after later ((claim 0).run p).state >>= fun q => ((sizeAt 4).run q).result) = .ok 64 ∧
      (after later p >>= fun q => ((sizeAt 4).run q).result) = .ok 65600 := by
  intro r p later
  have hpage : r.IsSlotPage := ⟨by decide, by decide, by decide +kernel⟩
  refine ⟨by rw [run_ofRecord hpage], ?_, ?_, ?_⟩ <;> decide +kernel

end SlotPage

end FreeSpace
