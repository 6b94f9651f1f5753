import FreeSpace.Proofs.CallSteps
import FreeSpace.Proofs.Opening
import FreeSpace.Proofs.SizeCache
import FreeSpace.Record.Call

/-!
# A change marks its record

Whatever works on a record leaves it as it was, or dirty; only `Record.markClean` does not.  That is
so of each write, whether or not it fits, and hence of all that is made of writes: the edits of a
record (`Record.Edit.marks`) and the calls on the page it may be in (`SlotPage.callSteps_marked`),
also where a fault comes between two writes.
-/

namespace FreeSpace

namespace Record

/-- The record is the same one, and as it was unless it is dirty. -/
structure Marked (r s : Record) : Prop where
  id : s.id = r.id
  length : s.length = r.length
  change : s = r ∨ s.dirty = true

namespace Marked

theorem refl (r : Record) : Marked r r :=
  ⟨rfl, rfl, .inl rfl⟩

theorem trans {r s t : Record} (h : Marked r s) (h' : Marked s t) : Marked r t where
  id := h'.id.trans h.id
  length := h'.length.trans h.length
  change := by
    rcases h'.change with rfl | hdirty
    · exact h.change
    · exact .inr hdirty

end Marked

theorem marked_put (r : Record) (position : Nat) (bytes : List UInt8) :
    Marked r (r.put position bytes) :=
  ⟨rfl, length_put .., .inr rfl⟩

theorem marked_cleared (r : Record) : Marked r r.cleared :=
  ⟨rfl, length_cleared r, .inr rfl⟩

theorem marked_formatted (r : Record) : Marked r r.formatted :=
  ((marked_cleared r).trans (marked_put ..)).trans (marked_put ..)

-- A write that does not fit leaves the record as it was.
theorem marks_write (position : Nat) (bytes : List UInt8) : (write position bytes).Keeps Marked := by
  intro r
  by_cases hfit : position + bytes.length ≤ r.length
  · rw [run_write_eq_put hfit]
    exact marked_put ..
  · rw [run_write_of_lt (Nat.not_le.mp hfit)]
    exact .refl r

theorem marks_writeLocation (offset : UInt16) (l : Location) :
    (writeLocation offset l).Keeps Marked := by
  have hrecord : (write32 offset.toNat l.record).Keeps Marked := marks_write _ _
  have hoffset : (Action.lift (Word.add16 offset 4)).Keeps Marked := Marked.refl
  exact hrecord.bind .trans fun _ => hoffset.bind .trans fun _ => marks_write _ _

theorem Edit.marks {e : Edit} (h : e ≠ .markClean) : e.action.Keeps Marked := by
  cases e with
  | write16 | write32 | stamp => exact marks_write _ _
  | clear => exact marked_cleared
  | writeLocation => exact marks_writeLocation _ _
  | markClean => exact absurd rfl h

end Record

namespace SlotPage

open Record (Marked marks_write marks_writeLocation marked_formatted)

/-- The second page has the record of the first, as it was or dirty. -/
def RecordMarked (p q : SlotPage) : Prop :=
  Marked p.record q.record

theorem marks_view {α : Type} (f : SlotPage → Result α) : (Action.view f).Keeps RecordMarked :=
  fun p => .refl p.record

theorem marks_keepSize (row : UInt16) (size : UInt32) :
    (keepSize row size).Keeps RecordMarked := by
  intro p
  show RecordMarked p (if row.toNat < p.sizes.size then _ else _ : Outcome SlotPage Unit).state
  split <;> exact .refl p.record

theorem marks_readSize (row : UInt16) : (readSize row).Keeps RecordMarked := by
  refine (marks_view (sizeRead? row)).bind .trans fun kept => ?_
  cases kept with
  | some size => exact marks_view _
  | none =>
    have hreport (f : SlotPage → Event) : (Action.report f).Keeps RecordMarked :=
      fun p => .refl p.record
    exact (marks_view _).bind .trans fun position => (marks_view _).bind .trans fun size =>
      (hreport _).bind .trans fun _ => (marks_keepSize row size).bind .trans fun _ => marks_view _

theorem marks_writeSize (row : UInt16) (size : UInt32) :
    (writeSize row size).Keeps RecordMarked := by
  have hrecord (position : Nat) :
      (onRecord (Record.write32 position size)).Keeps RecordMarked :=
    fun p => marks_write _ _ p.record
  exact (marks_view _).bind .trans fun position => (hrecord position).bind .trans fun _ =>
    marks_keepSize row size

/-- Each call marks the record of its page if it changes it. -/
theorem callSteps_marked : CallSteps fun p _ q => RecordMarked p q where
  refl p := .refl p.record
  trans := .trans
  event p _ _ := .refl p.record
  readSize := marks_readSize
  writeSize := marks_writeSize
  setLocation offset l p := marks_writeLocation offset l p.record
  setCount _ p := marks_write _ _ p.record

theorem marked_ofRecord {r : Record} {p : SlotPage} (h : (ofRecord.run r).result = .ok p) :
    Marked r p.record := by
  obtain ⟨-, rfl⟩ := ofRecord_eq_ok h
  exact .refl r

theorem marked_format {r : Record} {p : SlotPage} (h : (format.run r).result = .ok p) :
    Marked r p.record := by
  obtain ⟨-, -, rfl⟩ := format_eq_ok h
  exact marked_formatted r

end SlotPage

end FreeSpace
