import FreeSpace.Proofs.StoredRows

/-!
# What every call on a page keeps

`Action.Links` says that each run of an action, also one that fails half-way, stands in some relation:
the state it began with, what it reported, and the state it left.  `Action.Keeps` is the same where
the events do not matter.  A call that only looks at a page is made of readings of sizes, and the
others are made of three kinds of write besides, so what these steps keep is kept by every call
(`LookSteps.call`, `CallSteps.call`).
-/

namespace FreeSpace

/-- The row whose size was read from the record, if that is what the event reports. -/
def Event.cachedRow? : Event → Option UInt16
  | sizeCached _ row _ => some row
  | _ => none

namespace Action

variable {σ α β : Type}

def Links (R : σ → List Event → σ → Prop) (a : Action σ α) : Prop :=
  ∀ s, R s (a.run s).events (a.run s).state

def Keeps (R : σ → σ → Prop) (a : Action σ α) : Prop :=
  a.Links fun s _ t => R s t

-- The first part stands in one relation and the rest in another.
theorem Links.seq {R S T : σ → List Event → σ → Prop} (stop : ∀ {s es t}, R s es t → T s es t)
    (trans : ∀ {s es t fs u}, R s es t → S t fs u → T s (es ++ fs) u) {x : Action σ α}
    {f : α → Action σ β} (hx : x.Links R) (hf : ∀ a, (f a).Links S) : (x >>= f).Links T := by
  intro s
  rw [run_bind]
  split
  · exact trans (hx s) (hf _ _)
  · exact stop (hx s)

theorem Links.bind {R : σ → List Event → σ → Prop}
    (trans : ∀ {s es t fs u}, R s es t → R t fs u → R s (es ++ fs) u) {x : Action σ α}
    {f : α → Action σ β} (hx : x.Links R) (hf : ∀ a, (f a).Links R) : (x >>= f).Links R :=
  hx.seq id trans hf

theorem Keeps.bind {R : σ → σ → Prop} (trans : ∀ {s t u}, R s t → R t u → R s u)
    {x : Action σ α} {f : α → Action σ β} (hx : x.Keeps R) (hf : ∀ a, (f a).Keeps R) :
    (x >>= f).Keeps R :=
  Links.bind (R := fun s _ t => R s t) trans hx hf

end Action

namespace SlotPage

/-- Where the row starts that a call writes, if it writes one. -/
def Call.target? : Call → Option Nat
  | .claim row | .release row => some (rowStart row.toNat)
  | .setSizeAt offset _ | .setLocation offset _ => some offset.toNat
  | _ => none

/-- Steps in turn, and steps that neither read nor write, keep the relation. -/
structure Steps (R : SlotPage → List Event → SlotPage → Prop) : Prop where
  refl : ∀ p, R p [] p
  trans : ∀ {p es q fs s}, R p es q → R q fs s → R p (es ++ fs) s
  event : ∀ p e, e.cachedRow? = none → R p [e] p

/-- What looking at a page is made of keeps the relation. -/
structure LookSteps (R : SlotPage → List Event → SlotPage → Prop) : Prop extends Steps R where
  readSize : ∀ row, (readSize row).Links R

/-- What changing a page is made of keeps the relation. -/
structure WriteSteps (R : SlotPage → List Event → SlotPage → Prop) : Prop extends Steps R where
  writeSize : ∀ row size, (writeSize row size).Links R
  setLocation : ∀ offset l, (setLocation offset l).Links R
  setCount : ∀ count, (setCount count).Links R

/-- What calls are made of keeps the relation. -/
structure CallSteps (R : SlotPage → List Event → SlotPage → Prop) : Prop
    extends LookSteps R, WriteSteps R

variable {α β : Type} {R : SlotPage → List Event → SlotPage → Prop}

namespace Steps

variable (h : Steps R)

include h

theorem bind {x : Action SlotPage α} {f : α → Action SlotPage β} (hx : x.Links R)
    (hf : ∀ a, (f a).Links R) : (x >>= f).Links R :=
  Action.Links.bind h.trans hx hf

theorem view (f : SlotPage → Result α) : (Action.view f).Links R :=
  h.refl

theorem report {f : SlotPage → Event} (hf : ∀ p, (f p).cachedRow? = none) :
    (Action.report f).Links R :=
  fun p => h.event p (f p) (hf p)

theorem pure (a : α) : (Pure.pure a : Action SlotPage α).Links R :=
  h.refl

end Steps

namespace LookSteps

variable (h : LookSteps R)

include h

theorem firstVacant : SlotPage.firstVacant.Links R := by
  refine h.bind (h.view _) fun rows => ?_
  induction rows with
  | nil => exact h.pure none
  | cons row rest ih =>
    refine h.bind (h.bind (h.readSize row) fun size => h.pure (decide (size = 0))) fun vacant => ?_
    cases vacant with
    | true => exact h.pure (some row)
    | false => exact ih

theorem allSizes : SlotPage.allSizes.Links R := by
  refine h.bind (h.view _) fun rows => ?_
  -- The loop of `mapM` carries the sizes read so far.
  suffices hloop : ∀ read, (List.mapM.loop SlotPage.readSize rows read).Links R from hloop []
  induction rows with
  | nil => exact fun read => h.pure _
  | cons row rest ih => exact fun read => h.bind (h.readSize row) fun size => ih (size :: read)

theorem searchRows (request : UInt32) (seen : Seen) (rows : List UInt16) :
    (SlotPage.searchRows request seen rows).Links R := by
  induction rows generalizing seen with
  | nil =>
    refine h.bind (h.view _) fun limit => ?_
    split
    · exact h.pure _
    · exact h.bind (h.report fun _ => rfl) fun _ => h.pure _
  | cons row rest ih =>
    refine h.bind (h.readSize row) fun size => ?_
    dsimp only
    split
    · exact ih _
    · refine h.bind (h.view _) fun waste => ?_
      split
      · exact h.pure _
      · exact ih _

theorem search (request : UInt32) : (SlotPage.search request).Links R :=
  h.bind (h.view _) fun rows => h.searchRows request .nothing rows

theorem isInUse (row : UInt16) : (SlotPage.isInUse row).Links R :=
  h.bind (h.view _) fun _ => h.bind (h.readSize row) fun _ => h.pure _

theorem sizeAt (offset : UInt16) : (SlotPage.sizeAt offset).Links R :=
  h.bind (h.view _) fun row => h.readSize row

/-- A call that writes no row only looks. -/
theorem call {c : Call} (hc : c.target? = none) : c.action.Links R := by
  cases c with
  | capacity | wasteLimit | count | location | locationRecord | locationOffset => exact h.view _
  | firstVacant => exact h.bind h.firstVacant fun _ => h.pure _
  | isInUse row => exact h.bind (h.isInUse row) fun _ => h.pure _
  | sizeAt offset => exact h.bind (h.sizeAt offset) fun _ => h.pure _
  | search request => exact h.bind (h.search request) fun _ => h.pure _
  | allSizes => exact h.bind h.allSizes fun _ => h.pure _
  | _ => exact absurd hc nofun

end LookSteps

namespace WriteSteps

variable (h : WriteSteps R)

include h

-- What a claim and a release do once they have found the count.
theorem writeRow (row offset count : UInt16) (size : UInt32) (l : Location)
    {f : SlotPage → Event} (hf : ∀ p, (f p).cachedRow? = none) :
    (do
      SlotPage.writeSize row size
      SlotPage.setLocation offset l
      SlotPage.setCount count
      .report f
      return offset : Action SlotPage UInt16).Links R :=
  h.bind (h.writeSize row size) fun _ => h.bind (h.setLocation offset l) fun _ =>
    h.bind (h.setCount count) fun _ => h.bind (h.report hf) fun _ => h.pure offset

-- What a claim and a release do once they have read the size.
theorem turnRow {wrong : Prop} [Decidable wrong] (e : Error) (found : SlotPage → Result UInt16)
    (row offset : UInt16) (size : UInt32) (l : Location) {f : UInt16 → SlotPage → Event}
    (hf : ∀ count p, (f count p).cachedRow? = none) :
    (if wrong then .refuse e
      else do
        let count ← .view found
        SlotPage.writeSize row size
        SlotPage.setLocation offset l
        SlotPage.setCount count
        .report (f count)
        return offset : Action SlotPage UInt16).Links R := by
  split
  · exact h.view _
  · exact h.bind (h.view _) fun count => h.writeRow row offset count size l (hf count)

-- What a write of a size does once it has found the count.
theorem writeCounted (row : UInt16) (size : UInt32) (count : Option UInt16) :
    (do
      SlotPage.writeSize row size
      match count with
      | none => return ()
      | some count =>
          SlotPage.setCount count
          .report fun p => .countMoved row p.record.id count : Action SlotPage Unit).Links R := by
  refine h.bind (h.writeSize row size) fun _ => ?_
  cases count with
  | none => exact h.pure ()
  | some count => exact h.bind (h.setCount count) fun _ => h.report fun _ => rfl

end WriteSteps

namespace CallSteps

variable (h : CallSteps R)

include h

theorem claim (row : UInt16) : (SlotPage.claim row).Links R :=
  h.bind (h.view _) fun offset => h.bind (h.readSize row) fun _ =>
    h.turnRow _ _ row offset _ _ fun _ _ => rfl

theorem release (row : UInt16) : (SlotPage.release row).Links R :=
  h.bind (h.view _) fun offset => h.bind (h.readSize row) fun _ =>
    h.turnRow _ _ row offset _ _ fun _ _ => rfl

theorem setSizeAt (offset : UInt16) (size : UInt32) : (SlotPage.setSizeAt offset size).Links R :=
  h.bind (h.view _) fun row => h.bind (h.readSize row) fun _ =>
    h.bind (h.view _) fun count => h.writeCounted row size count

theorem call (c : Call) : c.action.Links R := by
  cases hc : c.target? with
  | none => exact h.toLookSteps.call hc
  | some t =>
    cases c with
    | claim row => exact h.bind (h.claim row) fun _ => h.pure _
    | release row => exact h.bind (h.release row) fun _ => h.pure _
    | setSizeAt offset size => exact h.bind (h.setSizeAt offset size) fun _ => h.pure _
    | setLocation offset l => exact h.bind (h.setLocation offset l) fun _ => h.pure _
    | _ => exact absurd hc nofun

/-- Also of a page that could not be filled. -/
theorem fill (sizes : List UInt32) : (SlotPage.fill sizes).Links R := by
  suffices hfrom : ∀ row, (fillFrom row sizes).Links R from hfrom 0
  induction sizes with
  | nil => exact fun row => h.bind (h.view _) fun _ => h.pure ()
  | cons size rest ih =>
    refine fun row => h.bind (h.view _) fun next => ?_
    split
    · exact ih next
    · have hrow : (fillRow row size).Links R :=
        h.bind (h.claim row) fun offset => h.bind (h.setLocation offset _) fun _ =>
          h.setSizeAt offset size
      exact h.bind hrow fun _ => ih next

end CallSteps

end SlotPage

end FreeSpace
