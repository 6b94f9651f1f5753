import FreeSpace.Proofs.RowCalls
import Mathlib.Logic.Relation

/-!
# A row has one owner

Several clients use one page, a call at a time.  A client owns a row from the claim that succeeded
for it up to its release, and knows what it wrote there (`Shared.owned`).  Looking for a vacant row
and claiming it are two calls, so two clients can be after the same row.  `Settled` is what each
call keeps (`Settled.issue`), and with it a row never has two owners (`one_owner`).
-/

namespace FreeSpace.SlotPage

open BarePage (rowOver rowOver_of_start AtRowStarts)
open Function (update)

/-! ## Clients -/

/-- A page that clients share, and for each client the rows that it owns and what it knows to be in
them. -/
structure Shared (κ : Type) where
  page : SlotPage
  owned : κ → Nat → Option Row

/-- What a client knows of its rows once this call has succeeded. -/
def noted (owned : Nat → Option Row) : Call → Nat → Option Row
  | .claim row => update owned row.toNat (some ⟨placeholder, placeholderSize⟩)
  | .release row => update owned row.toNat none
  | .setSizeAt offset size =>
      update owned (rowOver offset) ((owned (rowOver offset)).map fun w => { w with size := size })
  | .setLocation offset l =>
      update owned (rowOver offset) ((owned (rowOver offset)).map fun w => { w with location := l })
  | _ => owned

namespace Shared

variable {κ : Type}

/-- No client owns a row of this page. -/
def unclaimed (p : SlotPage) : Shared κ :=
  ⟨p, fun _ _ => none⟩

def Owns (w : Shared κ) (k : κ) (i : Nat) : Prop :=
  (w.owned k i).isSome

/-- The client may make this call.  Anyone may look and claim; a row is written and released by its
owner only, who does not vacate it by writing a size. -/
def May (w : Shared κ) (k : κ) : Call → Prop
  | .release row => w.Owns k row.toNat
  | .setSizeAt offset size => size ≠ 0 ∧ ∃ i, offset.toNat = rowStart i ∧ w.Owns k i
  | .setLocation offset _ => ∃ i, offset.toNat = rowStart i ∧ w.Owns k i
  | _ => True

section

variable [DecidableEq κ]

/-- The client makes this call, and notes what it did if it was answered. -/
def issue (w : Shared κ) (k : κ) (c : Call) : Shared κ :=
  ⟨(c.action.run w.page).state,
    if (c.action.run w.page).result.isOk then update w.owned k (noted (w.owned k) c) else w.owned⟩

def Step (w w' : Shared κ) : Prop :=
  ∃ k c, w.May k c ∧ w' = w.issue k c

/-- Clients have used the page, in any order, since none of them owned a row. -/
def Reachable (p : SlotPage) : Shared κ → Prop :=
  Relation.ReflTransGen Step (unclaimed p)

end

/-! ## What each call keeps -/

/-- What can be said of a row that had size `first` at the start and has this size now. -/
inductive RowState (first size : UInt32) (row : Row) (owned : κ → Option Row) : Prop
  /-- In use all the time, and nobody's. -/
  | foreign (hfirst : first ≠ 0) (hsize : size ≠ 0) (hnone : ∀ k, owned k = none)
  | vacant (hfirst : first = 0) (hsize : size = 0) (hnone : ∀ k, owned k = none)
  /-- One client's, and as that client wrote it. -/
  | owned (hfirst : first = 0) (k : κ) (hk : owned k = some row) (hsize : size = row.size)
      (hused : row.size ≠ 0) (hnone : ∀ k', k' ≠ k → owned k' = none)

/-- The count is right, and each row is in one of its states. -/
structure Settled (p : SlotPage) (w : Shared κ) : Prop where
  shaped : Shaped p.record.length w.page
  counted : Counted w.page
  row : ∀ i < rowsIn p.record.length,
    RowState (p.reported i) (w.page.reported i) (w.page.record.row i) fun k => w.owned k i
  elsewhere : ∀ k i, rowsIn p.record.length ≤ i → w.owned k i = none

variable {p : SlotPage} {w w' : Shared κ} {k : κ} {i : Nat} {c : Call}

theorem settled_unclaimed (h : Shaped p.record.length p) (hc : Counted p) :
    Settled p (unclaimed p : Shared κ) where
  shaped := h
  counted := hc
  row i _ := by
    by_cases hused : p.reported i = 0
    · exact .vacant hused hused fun _ => rfl
    · exact .foreign hused hused fun _ => rfl
  elsewhere _ _ _ := rfl

-- A call that only looks, or that fails.
theorem Settled.unmoved (h : Settled p w) (hpage : Unmoved w.page w'.page)
    (howned : w'.owned = w.owned) : Settled p w' where
  shaped := hpage.shaped h.shaped
  counted := hpage.counted h.counted
  row i hi := by
    rw [hpage.record, hpage.reported, howned]
    exact h.row i hi
  elsewhere := by
    rw [howned]
    exact h.elsewhere

-- A call for one row.
theorem Settled.changed (h : Settled p w) (hi : i < rowsIn p.record.length)
    (hpage : Within i w.page w'.page) (hcounted : Counted w'.page)
    (hother : ∀ k j, j ≠ i → w'.owned k j = w.owned k j)
    (hrow : RowState (p.reported i) (w'.page.reported i) (w'.page.record.row i)
      fun k => w'.owned k i) : Settled p w' where
  shaped := hpage.shaped h.shaped
  counted := hcounted
  row j hj := by
    by_cases he : j = i
    · rw [he]
      exact hrow
    · have hentry := hpage.entry j (by rwa [h.shaped.length_eq]) he
      have hsize : w'.page.reported j = w.page.reported j := congrArg Entry.size hentry
      have hbytes : w'.page.record.row j = w.page.record.row j := congrArg Entry.row hentry
      simp only [hsize, hbytes, hother _ j he]
      exact h.row j hj
  elsewhere k j hj := by
    rw [hother k j (by omega)]
    exact h.elsewhere k j hj

theorem Settled.owned_of_owns (h : Settled p w) (hk : w.Owns k i) :
    i < rowsIn p.record.length ∧ p.reported i = 0 ∧ w.owned k i = some (w.page.record.row i) ∧
      w.page.reported i = (w.page.record.row i).size ∧ (w.page.record.row i).size ≠ 0 ∧
      ∀ k', k' ≠ k → w.owned k' i = none := by
  have hsome : w.owned k i ≠ none := Option.isSome_iff_ne_none.mp hk
  have hi : i < rowsIn p.record.length := by
    by_contra hge
    exact hsome (h.elsewhere k i (Nat.not_lt.mp hge))
  cases h.row i hi with
  | foreign _ _ hnone => exact absurd (hnone k) hsome
  | vacant _ _ hnone => exact absurd (hnone k) hsome
  | owned hfirst k₀ hk₀ hsize hused hnone =>
    obtain rfl : k = k₀ := by
      by_contra hne
      exact hsome (hnone k hne)
    exact ⟨hi, hfirst, hk₀, hsize, hused, hnone⟩

/-- What the page has of a row is what its owner knows, if it has one. -/
def Agrees (e : Entry) : Option Row → Prop
  | some row => e.row = row ∧ e.size = row.size ∧ row.size ≠ 0
  | none => e.size = 0

/-- The call is answered, and leaves its row as the client notes it. -/
structure Answered (w : Shared κ) (k : κ) (c : Call) (i : Nat) : Prop where
  served : Served c i w.page (c.action.run w.page)
  ok : ∃ reply, (c.action.run w.page).result = .ok reply
  noted : ∃ v, noted (w.owned k) c = update (w.owned k) i v ∧
    Agrees ((w.page.entry i).respond c).2 v

theorem answered_claim (h : Settled p w) {row : UInt16}
    (hrow : row.toNat < rowsIn p.record.length) (hvacant : w.page.reported row.toNat = 0) :
    Answered w k (.claim row) row.toNat := by
  have hs := served_claim h.shaped h.counted hrow
  have hrespond : (w.page.entry row.toNat).respond (.claim row) = _ :=
    if_neg (not_not.mpr hvacant)
  refine ⟨hs, ⟨_, result_claim_of_vacant h.shaped h.counted hrow hvacant⟩,
    some ⟨placeholder, placeholderSize⟩, rfl, ?_⟩
  rw [hrespond]
  exact ⟨rfl, rfl, by decide⟩

/-- An owner's calls on its row are answered. -/
theorem Settled.answered (h : Settled p w) {t : Nat} (hc : c.target? = some t)
    (hmay : w.May k c) (hclaim : ∀ row, c ≠ .claim row) : ∃ i, w.Owns k i ∧ Answered w k c i := by
  cases c with
  | claim row => exact absurd rfl (hclaim row)
  | release row =>
    obtain ⟨hi, -, -, hsize, hused, -⟩ := h.owned_of_owns hmay
    have hs := served_release h.shaped h.counted hi
    have hrespond : (w.page.entry row.toNat).respond (.release row) = _ :=
      if_neg fun hzero => hused (hsize.symm.trans hzero)
    refine ⟨row.toNat, hmay, hs, ⟨.number (rowStart row.toNat), ?_⟩, none, rfl, ?_⟩
    · rw [hs.result, hrespond]
    · rw [hrespond]
      rfl
  | setSizeAt offset size =>
    obtain ⟨hne, i, hoff, hown⟩ := hmay
    obtain ⟨hi, -, hk, -⟩ := h.owned_of_owns hown
    have ht : (Call.setSizeAt offset size).target? = some (rowStart i) := congrArg some hoff
    have hs := served h.shaped h.counted hi ht
    refine ⟨i, hown, hs, ⟨_, hs.result⟩, some ⟨w.page.record.rowLocation i, size⟩, ?_, ?_⟩
    · simp only [noted, rowOver_of_start hoff, hk]
      rfl
    · exact ⟨rfl, rfl, hne⟩
  | setLocation offset l =>
    obtain ⟨i, hoff, hown⟩ := hmay
    obtain ⟨hi, -, hk, hsize, hused, -⟩ := h.owned_of_owns hown
    have ht : (Call.setLocation offset l).target? = some (rowStart i) := congrArg some hoff
    have hs := served h.shaped h.counted hi ht
    refine ⟨i, hown, hs, ⟨_, hs.result⟩, some ⟨l, w.page.record.rowSize i⟩, ?_, ?_⟩
    · simp only [noted, rowOver_of_start hoff, hk]
      rfl
    · exact ⟨rfl, hsize, hused⟩
  | _ => exact absurd hc nofun

section

variable [DecidableEq κ]

theorem owned_issue_of_ok {reply : Reply} (h : (c.action.run w.page).result = .ok reply) :
    (w.issue k c).owned = update w.owned k (noted (w.owned k) c) := by
  unfold issue
  rw [h]
  rfl

theorem owned_issue_of_error {e : Failure} (h : (c.action.run w.page).result = .error e) :
    (w.issue k c).owned = w.owned := by
  unfold issue
  rw [h]
  rfl

theorem Settled.issue_answered (h : Settled p w) (ha : Answered w k c i)
    (hi : i < rowsIn p.record.length) (hfirst : p.reported i = 0)
    (halone : ∀ k', k' ≠ k → w.owned k' i = none) : Settled p (w.issue k c) := by
  obtain ⟨reply, hok⟩ := ha.ok
  obtain ⟨v, hnoted, hagrees⟩ := ha.noted
  have howned := owned_issue_of_ok (k := k) hok
  rw [hnoted] at howned
  have hentry : (w.issue k c).page.entry i = _ := ha.served.entry
  rw [← hentry] at hagrees
  refine h.changed hi ha.served.within ha.served.counted (fun k' j hj => ?_) ?_
  · rw [howned]
    by_cases hk : k' = k
    · rw [hk, Function.update_self, Function.update_of_ne hj]
    · rw [Function.update_of_ne hk]
  · have hself : (w.issue k c).owned k i = v := by
      rw [howned, Function.update_self, Function.update_self]
    have hnone : ∀ k', k' ≠ k → (w.issue k c).owned k' i = none := by
      intro k' hk
      rw [howned, Function.update_of_ne hk]
      exact halone k' hk
    cases v with
    | none =>
      refine .vacant hfirst hagrees fun k' => ?_
      by_cases hk : k' = k
      · rw [hk]
        exact hself
      · exact hnone k' hk
    | some row =>
      obtain ⟨hbytes, hsize, hused⟩ := hagrees
      have hbytes : (w.issue k c).page.record.row i = row := hbytes
      rw [hbytes]
      exact .owned hfirst k hself hsize hused hnone

-- Of two clients that are after the same row, the second finds it in use.
theorem Settled.issue_claim (h : Settled p w) (row : UInt16) :
    Settled p (w.issue k (.claim row)) := by
  by_cases hrow : row.toNat < rowsIn p.record.length
  · by_cases hused : w.page.reported row.toNat = 0
    · have ha := answered_claim (k := k) h hrow hused
      cases h.row row.toNat hrow with
      | foreign _ hsize => exact absurd hused hsize
      | vacant hfirst _ hnone => exact h.issue_answered ha hrow hfirst fun k' _ => hnone k'
      | owned _ _ _ hsize hne => exact absurd (hsize.symm.trans hused) hne
    · obtain ⟨hresult, hpage⟩ := claim_of_used h.shaped hrow hused
      exact h.unmoved hpage (owned_issue_of_error hresult)
  · have hno : ∀ i < rowsIn p.record.length, rowStart row.toNat ≠ rowStart i := by
      intro i hi
      rw [rowStart_eq, rowStart_eq]
      omega
    obtain ⟨e, hrun⟩ := run_call_elsewhere (c := .claim row) rfl trivial hno
    have haction := hrun w.page h.shaped
    refine h.unmoved ?_ (owned_issue_of_error (congrArg Outcome.result haction))
    have hstate : (w.issue k (.claim row)).page = _ := congrArg Outcome.state haction
    rw [hstate]
    exact .refl _

/-- Each call that a client may make keeps what is so of the page and its owners. -/
theorem Settled.issue (h : Settled p w) (hmay : w.May k c) : Settled p (w.issue k c) := by
  cases ht : c.target? with
  | none =>
    -- A client notes nothing of a call that only looks.
    have hnoted : noted (w.owned k) c = w.owned k := by
      cases c with
      | claim | release | setSizeAt | setLocation => exact absurd ht nofun
      | _ => rfl
    refine h.unmoved ((lookSteps _).call ht w.page h.shaped) ?_
    unfold Shared.issue
    rw [hnoted, Function.update_eq_self]
    exact ite_self _
  | some t =>
    by_cases hclaim : ∃ row, c = .claim row
    · obtain ⟨row, rfl⟩ := hclaim
      exact h.issue_claim row
    · obtain ⟨i, hown, ha⟩ := h.answered ht hmay fun row he => hclaim ⟨row, he⟩
      obtain ⟨hi, hfirst, -, -, -, halone⟩ := h.owned_of_owns hown
      exact h.issue_answered ha hi hfirst halone

theorem Reachable.issue (h : Reachable p w) (k : κ) (c : Call) (hmay : w.May k c) :
    Reachable p (w.issue k c) :=
  h.tail ⟨k, c, hmay, rfl⟩

theorem settled_of_reachable (h : Shaped p.record.length p) (hc : Counted p)
    (hw : Reachable p w) : Settled p w := by
  induction hw with
  | refl => exact settled_unclaimed h hc
  | tail _ hstep ih =>
    obtain ⟨k, c, hmay, rfl⟩ := hstep
    exact ih.issue hmay

/-- **Claimed rows have one owner.**  Any number of clients use a page whose count is right, a call
at a time and in any order: they look, claim any row, and write and release the rows that they own.
Then no row has two owners, the rows in use are those in use at first and the owned ones, each owned
row holds the placeholder or what its owner wrote last, and the count stays right.  A claim fails
exactly if its row is in use, and without a trace; what an owner does with its row never fails. -/
theorem one_owner (hp : Reached p) (hc : Counted p) (hw : Reachable p w) :
    (∀ k k' i, w.Owns k i → w.Owns k' i → k = k') ∧
    (∀ i < rowsIn p.record.length, w.page.reported i ≠ 0 ↔ p.reported i ≠ 0 ∨ ∃ k, w.Owns k i) ∧
    (∀ k i row, w.owned k i = some row → i < rowsIn p.record.length ∧
      w.page.record.row i = row ∧ w.page.reported i = row.size) ∧
    Counted w.page ∧
    (∀ row : UInt16, row.toNat < rowsIn p.record.length →
      let o := (Call.claim row).action.run w.page
      if w.page.reported row.toNat ≠ 0 then
        o.result = .error (.refused (.slotInUse row)) ∧ Unmoved w.page o.state
      else ∃ reply, o.result = .ok reply) ∧
    ∀ k (c : Call), c.target?.isSome → (∀ row, c ≠ .claim row) → w.May k c →
      ∃ reply, (c.action.run w.page).result = .ok reply := by
  have h := settled_of_reachable hp.shaped hc hw
  refine ⟨fun k k' i hk hk' => ?_, fun i hi => ?_, fun k i row hk => ?_, h.counted,
    fun row hrow => ?_, fun k c hsome hclaim hmay => ?_⟩
  · obtain ⟨-, -, -, -, -, halone⟩ := h.owned_of_owns hk
    by_contra hne
    have hnone := halone k' (Ne.symm hne)
    exact Option.isSome_iff_ne_none.mp hk' hnone
  · cases h.row i hi with
    | foreign hfirst hsize => exact ⟨fun _ => .inl hfirst, fun _ => hsize⟩
    | vacant hfirst hsize hnone =>
      refine ⟨fun hne => absurd hsize hne, fun hor => hor.elim (absurd hfirst) ?_⟩
      rintro ⟨k, hk⟩
      exact absurd (hnone k) (Option.isSome_iff_ne_none.mp hk)
    | owned _ k hk hsize hused =>
      exact ⟨fun _ => .inr ⟨k, Option.isSome_iff_exists.mpr ⟨_, hk⟩⟩, fun _ => by rwa [hsize]⟩
  · obtain ⟨hi, -, hrow, hsize, -⟩ := h.owned_of_owns (Option.isSome_iff_exists.mpr ⟨_, hk⟩)
    obtain rfl := Option.some.inj (hk.symm.trans hrow)
    exact ⟨hi, rfl, hsize⟩
  · intro o
    by_cases hused : w.page.reported row.toNat ≠ 0
    · rw [if_pos hused]
      exact claim_of_used h.shaped hrow hused
    · rw [if_neg hused]
      exact ⟨_, result_claim_of_vacant h.shaped h.counted hrow (not_not.mp hused)⟩
  · obtain ⟨t, ht⟩ := Option.isSome_iff_exists.mp hsome
    obtain ⟨i, -, ha⟩ := h.answered ht hmay hclaim
    exact ha.ok

/-- Two clients have found row 1 vacant.  The first claims and resizes it, and the second is refused;
row 0 was in use before. -/
theorem one_owner_stale_row :
    let r := Record.ofBytes 7 #[0x19, 0x93, 0, 1, 0, 0, 0, 5, 0, 64, 0, 0, 1, 0,
      0, 0, 0, 0, 0, 0, 0, 0, 0, 0]
    let p := unread r
    let w := ((((unclaimed p).issue true .firstVacant).issue false .firstVacant).issue true
      (.claim 1)).issue false (.claim 1)
    let w' := w.issue true (.setSizeAt 14 80)
    Reached p ∧ Counted p ∧ Reachable p w' ∧ w'.owned true 1 = some ⟨placeholder, 80⟩ ∧
      w'.page.record.row 1 = ⟨placeholder, 80⟩ ∧ ∀ k, w'.Owns k 1 → k = true := by
  intro r p w w'
  have hpage : r.IsSlotPage := ⟨by decide, by decide, by decide +kernel⟩
  have hp : Reached p := ⟨r, p, [], .inl (by rw [run_ofRecord hpage]), rfl⟩
  have hc : Counted p := (sound_unread hpage).counted_iff.mpr (by decide +kernel)
  have howned : w.owned true 1 = some ⟨placeholder, 1⟩ := by decide +kernel
  have hwritten : w'.owned true 1 = some ⟨placeholder, 80⟩ := by decide +kernel
  have hmay : w.May true (.setSizeAt 14 80) :=
    ⟨by decide, 1, rfl, Option.isSome_iff_exists.mpr ⟨_, howned⟩⟩
  have hstart : Reachable p (unclaimed p : Shared Bool) := .refl
  have hlooked := (hstart.issue true .firstVacant trivial).issue false .firstVacant trivial
  have hclaimed := (hlooked.issue true (.claim 1) trivial).issue false (.claim 1) trivial
  have hw : Reachable p w' := hclaimed.issue true _ hmay
  obtain ⟨hone, -, hholds, -⟩ := one_owner hp hc hw
  have hown : w'.Owns true 1 := Option.isSome_iff_exists.mpr ⟨_, hwritten⟩
  exact ⟨hp, hc, hw, hwritten, (hholds true 1 _ hwritten).2.1, fun k hk => hone k true 1 hk hown⟩

end

end Shared

end FreeSpace.SlotPage
