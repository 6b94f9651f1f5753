import FreeSpace.Proofs.BarePage

/-!
# What a call changes

`Effect` lists the ways in which one call can change the record of a page: at most one row, and the
count only together with a row that turns from vacant to in use or back.  What runs of calls keep is
read off this list.
-/

namespace FreeSpace.BarePage

open SlotPage (Call rowsIn)

/-- The count follows a row that gets this size, and can follow it. -/
inductive CountFollows (r : Record) (row : Nat) (size : UInt32) : UInt16 → Prop
  | up (hold : r.rowSize row = 0) (hnew : size ≠ 0) (hroom : r.rowCount.toNat < rowsIn r.length) :
      CountFollows r row size (r.rowCount + 1)
  | down (hold : r.rowSize row ≠ 0) (hnew : size = 0) (hpos : r.rowCount ≠ 0) :
      CountFollows r row size (r.rowCount - 1)

/-- One call on a page changes its record like this. -/
inductive Effect (r : Record) : Record → Prop
  | none : Effect r r
  | moved {row : Nat} (hrow : row < rowsIn r.length) (l : Location) : Effect r (r.putLocation row l)
  | resized {row : Nat} (hrow : row < rowsIn r.length) {size : UInt32}
      (hsame : r.rowSize row = 0 ↔ size = 0) : Effect r (r.putSize row size)
  | turned {row : Nat} (hrow : row < rowsIn r.length) {size : UInt32} {count : UInt16}
      (hcount : CountFollows r row size count) : Effect r ((r.putSize row size).putCount count)
  | rewritten {row : Nat} (hrow : row < rowsIn r.length) (l : Location) {size : UInt32}
      {count : UInt16} (hcount : CountFollows r row size count) :
      Effect r (((r.putSize row size).putLocation row l).putCount count)

variable {r r' : Record}

theorem countUp_eq_ok (h : r.IsSlotPage) {row count : UInt16} (hc : countUp row r = .ok count)
    {size : UInt32} (hold : r.rowSize row.toNat = 0) (hnew : size ≠ 0) :
    CountFollows r row.toNat size count := by
  unfold countUp at hc
  split at hc
  · exact absurd hc nofun
  · rename_i hfull
    rw [← Except.ok.inj hc]
    exact .up hold hnew (lt_of_not_capacity_le h hfull)

theorem countDown_eq_ok {row count : UInt16} (hc : countDown row r = .ok count)
    {size : UInt32} (hold : r.rowSize row.toNat ≠ 0) (hnew : size = 0) :
    CountFollows r row.toNat size count := by
  unfold countDown at hc
  split at hc
  · exact absurd hc nofun
  · rename_i hpos
    rw [← Except.ok.inj hc]
    exact .down hold hnew hpos

theorem andThen_snd {α β : Type} {P : Record → Prop} {found : Result α}
    {f : α → Result β × Record} (hr : P r) (hf : ∀ a, found = .ok a → P (f a).2) :
    P (andThen found r f).2 := by
  cases found with
  | ok a => exact hf a rfl
  | error e => exact hr

theorem effect_claim (h : r.IsSlotPage) (row : UInt16) : Effect r (claim row r).2 := by
  refine andThen_snd .none fun offset ho => ?_
  obtain ⟨hrow, -⟩ := offsetOf_eq_ok h ho
  by_cases hs : r.rowSize row.toNat ≠ 0
  · rw [if_pos hs]
    exact .none
  · rw [if_neg hs]
    refine andThen_snd .none fun count hc => ?_
    exact .rewritten hrow ⟨1, 1⟩ (countUp_eq_ok h hc (not_not.mp hs) (by decide))

theorem effect_release (h : r.IsSlotPage) (row : UInt16) : Effect r (release row r).2 := by
  refine andThen_snd .none fun offset ho => ?_
  obtain ⟨hrow, -⟩ := offsetOf_eq_ok h ho
  by_cases hs : r.rowSize row.toNat = 0
  · rw [if_pos hs]
    exact .none
  · rw [if_neg hs]
    refine andThen_snd .none fun count hc => ?_
    exact .rewritten hrow ⟨0, 0⟩ (countDown_eq_ok hc hs rfl)

theorem effect_setSizeAt (h : r.IsSlotPage) (offset : UInt16) (size : UInt32) :
    Effect r (setSizeAt offset size r).2 := by
  refine andThen_snd .none fun row ho => ?_
  obtain ⟨hrow, -⟩ := rowAt_eq_ok h ho
  refine andThen_snd .none fun count hc => ?_
  unfold countFor at hc
  -- The count follows the row up, or down, or stays because the row does.
  by_cases hup : r.rowSize row.toNat = 0 ∧ size ≠ 0
  · rw [if_pos hup] at hc
    cases hcount : countUp row r with
    | error e =>
      rw [hcount] at hc
      exact absurd hc nofun
    | ok n =>
      rw [hcount] at hc
      rw [← Except.ok.inj hc]
      exact .turned hrow (countUp_eq_ok h hcount hup.1 hup.2)
  · by_cases hdown : r.rowSize row.toNat ≠ 0 ∧ size = 0
    · rw [if_neg hup, if_pos hdown] at hc
      cases hcount : countDown row r with
      | error e =>
        rw [hcount] at hc
        exact absurd hc nofun
      | ok n =>
        rw [hcount] at hc
        rw [← Except.ok.inj hc]
        exact .turned hrow (countDown_eq_ok hcount hdown.1 hdown.2)
    · rw [if_neg hup, if_neg hdown] at hc
      rw [← Except.ok.inj hc]
      exact .resized hrow (by tauto)

theorem effect_respond (h : r.IsSlotPage) {c : Call} (hc : AtRowStarts r.length c) :
    Effect r (respond c r).2 := by
  cases c with
  | setSizeAt offset size => exact effect_setSizeAt h offset size
  | claim row => exact effect_claim h row
  | release row => exact effect_release h row
  | setLocation offset l =>
    obtain ⟨row, hrow, hoff⟩ := hc
    -- Only here is a place to write taken from the caller.
    change Effect r ((Record.writeLocation offset l).run r).state
    rw [Record.run_writeLocation h.greatest hrow hoff]
    exact .moved hrow l
  | _ => exact .none

/-! ## What every call keeps -/

namespace Effect

theorem length_eq (h : Effect r r') : r'.length = r.length := by
  cases h with
  | none => rfl
  | moved => exact Record.length_putLocation ..
  | resized => exact Record.length_putSize ..
  | turned => rw [Record.length_putCount, Record.length_putSize]
  | rewritten => rw [Record.length_putCount, Record.length_putLocation, Record.length_putSize]

theorem isSlotPage (h : Effect r r') (hr : r.IsSlotPage) : r'.IsSlotPage := by
  cases h with
  | none => exact hr
  | moved => exact hr.putLocation ..
  | resized => exact hr.putSize ..
  | turned => exact (hr.putSize ..).putCount _
  | rewritten => exact ((hr.putSize ..).putLocation ..).putCount _

end Effect

end FreeSpace.BarePage
