import FreeSpace.Proofs.RowCount

/-!
# Pages that runs reach

`after` is the page that a run leaves.  What every effect of a call keeps, every run keeps that
writes locations only where rows start (`exists_after`): such a run never loses its page, and on a
page that was formatted the kept sizes, the count and the tag are right in each of its states.  A
location written elsewhere can break all three.
-/

namespace FreeSpace.SlotPage

open BarePage (AtRowStarts Effect)

/-- The page after these moves.  It is lost if its record is given up and cannot be opened
again. -/
def after : List Move → SlotPage → Result SlotPage
  | [], p => .ok p
  | .call c :: rest, p => after rest (c.action.run p).state
  | .reopen :: rest, p =>
      match (ofRecord.run p.record).result with
      | .ok q => after rest q
      | .error e => .error e

theorem after_reopen {p : SlotPage} (h : p.record.IsSlotPage) (rest : List Move) :
    after (.reopen :: rest) p = after rest (unread p.record) := by
  simp only [after, run_ofRecord h]

/-- A run goes on behind a reopening only with the page that was opened. -/
theorem exists_of_after_reopen {p q : SlotPage} {rest : List Move}
    (h : after (.reopen :: rest) p = .ok q) :
    ∃ s, (ofRecord.run p.record).result = .ok s ∧ after rest s = .ok q := by
  cases hopen : (ofRecord.run p.record).result with
  | error e => simp [after, hopen] at h
  | ok s => exact ⟨s, rfl, by simpa only [after, hopen] using h⟩

theorem effect_call {p : SlotPage} (h : Sound p) {c : Call} (hc : AtRowStarts p.record.length c) :
    Effect p.record (c.action.run p).state.record := by
  rw [(ends_call h hc).record]
  exact BarePage.effect_respond h.isPage hc

/-- A call keeps the length, so the rest of a run writes where rows start as before. -/
theorem atRowStarts_rest {p : SlotPage} (h : Sound p) {c : Call} {rest : List Move}
    (hm : ∀ d ∈ calls (.call c :: rest), AtRowStarts p.record.length d) :
    ∀ d ∈ calls rest, AtRowStarts (c.action.run p).state.record.length d := by
  intro d hd
  rw [(effect_call h (hm c List.mem_cons_self)).length_eq]
  exact hm d (List.mem_cons_of_mem c hd)

/-- What one call keeps of a record, a run keeps, and the page it leaves is sound. -/
theorem exists_after {p : SlotPage} (h : Sound p) {moves : List Move}
    (hm : ∀ c ∈ calls moves, AtRowStarts p.record.length c) {I : Record → Prop} (hp : I p.record)
    (hstep : ∀ r r', r.IsSlotPage → Effect r r' → I r → I r') :
    ∃ q, after moves p = .ok q ∧ Sound q ∧ q.record.length = p.record.length ∧ I q.record := by
  induction moves generalizing p with
  | nil => exact ⟨p, rfl, h, rfl, hp⟩
  | cons m rest ih =>
    cases m with
    | call c =>
      have hc := hm c List.mem_cons_self
      have heff := effect_call h hc
      obtain ⟨q, hq, hsound, hlen, hI⟩ := ih (ends_call h hc).sound (atRowStarts_rest h hm)
        (hstep _ _ h.isPage heff hp)
      exact ⟨q, hq, hsound, hlen.trans heff.length_eq, hI⟩
    | reopen =>
      -- A page just opened has the same record, and has kept nothing yet.
      rw [after_reopen h.isPage]
      exact ih (sound_unread h.isPage) hm hp

/-- **What a page keeps is what its record has.**  In each state of a run on a formatted page that
writes locations where rows start, every kept size is the one in the record, the count is the
number of rows in use, and the tag is that of a slot page. -/
theorem kept_after_format {s : Record} {p : SlotPage} (hp : (format.run s).result = .ok p)
    {moves : List Move} (hm : ∀ c ∈ calls moves, AtRowStarts p.record.length c) :
    ∃ q, after moves p = .ok q ∧
      (∀ row size, q.sizes[row]? = some (some size) → size = q.record.rowSize row) ∧
      q.record.rowCount.toNat = q.record.inUse.card ∧
      q.record.tag = .ok PageType.freePhysicalSlot.tag := by
  obtain ⟨hl, hg, rfl⟩ := format_eq_ok hp
  have hsound := sound_unread (Record.isSlotPage_formatted hl hg)
  obtain ⟨q, hq, hkept, -, hdrift⟩ := exists_after hsound hm (I := (·.drift = 0))
    (drift_formatted hl) fun r r' hr heff hz => (heff.drift_eq hr).trans hz
  have hcount : (q.record.rowCount.toNat : Int) - q.record.inUse.card = 0 := hdrift
  exact ⟨q, hq, hkept.kept, by omega, hkept.isPage.tag⟩

/-- A row claimed, located, resized and released between two openings. -/
theorem kept_after_format_reopened :
    let s := Record.zeroed 1 24
    let p := unread s.formatted
    let moves := [.call (.claim 1), .call (.setLocation 14 ⟨3, 9⟩), .call (.setSizeAt 14 80),
      .reopen, .call (.search 70), .call (.release 1)]
    (format.run s).result = .ok p ∧ (∀ c ∈ calls moves, AtRowStarts p.record.length c) ∧
      ∃ q, after moves p = .ok q ∧
        (∀ row size, q.sizes[row]? = some (some size) → size = q.record.rowSize row) ∧
        q.record.rowCount.toNat = q.record.inUse.card ∧
        q.record.tag = .ok PageType.freePhysicalSlot.tag := by
  intro s p moves
  have hp : (format.run s).result = .ok p := by rw [run_format (by decide) (by decide)]
  have hm : ∀ c ∈ calls moves, AtRowStarts p.record.length c := by decide
  exact ⟨hp, hm, kept_after_format hp hm⟩

/-- A location written at offset 8 reaches into the size of row 0: the size kept when the row was
claimed is not the record's any more.  On a row not claimed it is the count that is wrong, and at
offset 0 the tag is lost. -/
theorem size_written_behind_page :
    let s := Record.zeroed 1 24
    let p := unread s.formatted
    (format.run s).result = .ok p ∧
      (∃ q, after [.call (.claim 0), .call (.setLocation 8 ⟨0, 64⟩)] p = .ok q ∧
        q.sizes[0]? = some (some 1) ∧ q.record.rowSize 0 = 64) ∧
      (∃ q, after [.call (.setLocation 8 ⟨0, 64⟩)] p = .ok q ∧
        q.record.rowCount = 0 ∧ q.record.inUse.card = 1) ∧
      ∃ q, after [.call (.setLocation 0 ⟨7, 7⟩)] p = .ok q ∧
        q.record.tag ≠ .ok PageType.freePhysicalSlot.tag := by
  intro s p
  refine ⟨by rw [run_format (by decide) (by decide)], ⟨_, rfl, ?_, ?_⟩, ⟨_, rfl, ?_, ?_⟩,
    ⟨_, rfl, ?_⟩⟩ <;> decide +kernel

end FreeSpace.SlotPage
