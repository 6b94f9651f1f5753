import FreeSpace.Proofs.FiledRecords
import FreeSpace.Session
import Mathlib.Logic.Relation

/-!
# A clean record is what its store holds

A record that was read from a store, or written to it, is edited, made a page and given back, and
written again, whether all that succeeds or not, while the store is used for other records too.
Each step keeps what is so of the record and the store (`Backed.use`), and with it a record that is
clean is always read back as it is (`clean_is_stored`).
-/

namespace FreeSpace.Session

/-! ## Using a record -/

/-- The command looks, or works on the record held, and does not call it clean. -/
def Command.IsUse : Command → Prop
  | edit e => e ≠ .markClean
  | query _ | takeSnapshot | equalsSnapshot | openPage | formatPage | closePage | fillPage _ | page _
  | writeRecord | storeBytes => True
  | hold _ | make .. | makePage .. | useStore _ | readRecord .. | patchStore .. | truncateStore _ =>
      False

/-- What can happen to a record held and its store. -/
inductive Use (s : Session) : Session → Prop
  | command (c : Command) (hc : c.IsUse) : Use s (c.run s).session
  /-- The store is used otherwise, beside the frame of the record. -/
  | elsewhere {store t : Store} (hstore : s.store = some store)
      (hspared : ∀ r, s.held.record? = some r → Frame.Spared r.id r.length store t) :
      Use s { s with store := some t }
  /-- The record is written, and the medium gives up after any of its bytes. -/
  | torn {r : Record} {store t : Store} (hheld : s.held = .record r)
      (hstore : s.store = some store) (htorn : Frame.Torn r store t) :
      Use s { s with store := some t }

/-- The command takes the record of this id and length from the store, or puts one there that memory
can hold. -/
def Command.Files (id : UInt64) (n : Nat) (s : Session) : Command → Prop
  | readRecord id' n' => id' = id ∧ n' = n
  | writeRecord => ∃ r, s.held = .record r ∧ r.id = id ∧ r.length = n ∧ n ≤ Memory.maxBytes
  | _ => False

/-! ## What each step keeps -/

/-- The record held, if there is one, is that of this id and length, and filed in the store. -/
def Backed (id : UInt64) (n : Nat) (s : Session) : Prop :=
  ∀ r, s.held.record? = some r → ∃ store, s.store = some store ∧ Filed id n r store

/-- The second session has the store of the first, and its record, as it was or dirty, or none. -/
structure Marks (s t : Session) : Prop where
  store : t.store = s.store
  held : ∀ r', t.held.record? = some r' → ∃ r, s.held.record? = some r ∧ r.Marked r'

variable {id : UInt64} {n : Nat} {s t : Session}

theorem Marks.refl (s : Session) : Marks s s :=
  ⟨rfl, fun r hr => ⟨r, hr, .refl r⟩⟩

theorem Backed.marks (h : Backed id n s) (hm : Marks s t) : Backed id n t := by
  intro r' hr'
  obtain ⟨r, hr, hmarked⟩ := hm.held r' hr'
  obtain ⟨store, hstore, hfiled⟩ := h r hr
  exact ⟨store, hm.store.trans hstore, hfiled.marked hmarked⟩

-- What is held next has the record as it was or dirty, if it has one at all.
theorem marks_held {held held' : Held} {r : Record} (hheld : held.record? = some r)
    (h : ∀ r', held'.record? = some r' → r.Marked r') (snapshot : Option Record)
    (store : Option Store) : Marks ⟨held, snapshot, store⟩ ⟨held', snapshot, store⟩ :=
  ⟨rfl, fun r' hr' => ⟨r, hheld, h r' hr'⟩⟩

theorem marked_some {r s r' : Record} (h : r.Marked s) (hr' : some s = some r') : r.Marked r' :=
  Option.some.inj hr' ▸ h

-- A page that could not be made holds no record.
theorem marked_made {α : Type} {r : Record} {wrap : α → Held} {result : Result α}
    (h : ∀ a, result = .ok a → ∃ s, (wrap a).record? = some s ∧ r.Marked s) {r' : Record}
    (hr' : (made wrap result).record? = some r') : r.Marked r' := by
  cases result with
  | ok a =>
    obtain ⟨s, hs, hmarked⟩ := h a rfl
    exact marked_some hmarked (hs.symm.trans hr')
  | error => cases hr'

/-- Of all uses only a write of the record changes the store, or makes the record clean. -/
theorem marks_run {c : Command} (hc : c.IsUse) (hw : c ≠ .writeRecord) (s : Session) :
    Marks s (c.run s).session := by
  obtain ⟨held, snapshot, store⟩ := s
  cases c with
  | query | equalsSnapshot => cases held <;> exact .refl _
  | storeBytes => cases store <;> exact .refl _
  | takeSnapshot => cases held <;> exact ⟨rfl, fun r hr => ⟨r, hr, .refl r⟩⟩
  | edit e =>
    cases held with
    | record r =>
      refine marks_held rfl (fun r' hr' => ?_) snapshot store
      exact marked_some (Record.Edit.marks hc r) hr'
    | nothing | page => exact .refl _
  | openPage =>
    cases held with
    | record r =>
      exact marks_held rfl (fun _ => marked_made fun p hp =>
        ⟨p.record, rfl, SlotPage.marked_ofRecord hp⟩) snapshot store
    | nothing | page => exact .refl _
  | formatPage =>
    cases held with
    | record r =>
      exact marks_held rfl (fun _ => marked_made fun p hp =>
        ⟨p.record, rfl, SlotPage.marked_format hp⟩) snapshot store
    | nothing | page => exact .refl _
  | closePage =>
    cases held with
    | page p =>
      refine marks_held rfl (fun r' hr' => ?_) snapshot store
      exact marked_some (.refl p.record) hr'
    | nothing | record => exact .refl _
  | fillPage sizes =>
    cases held with
    | page p =>
      exact marks_held rfl (fun _ => marked_made fun _ _ =>
        ⟨_, rfl, SlotPage.callSteps_marked.fill sizes p⟩) snapshot store
    | nothing | record => exact .refl _
  | page c =>
    cases held with
    | page p =>
      refine marks_held rfl (fun r' hr' => ?_) snapshot store
      exact marked_some (SlotPage.callSteps_marked.call c p) hr'
    | nothing | record => exact .refl _
  | writeRecord => exact absurd rfl hw
  | hold | make | makePage | useStore | readRecord | patchStore | truncateStore => exact hc.elim

theorem Backed.writeRecord (h : Backed id n s) :
    Backed id n (Command.writeRecord.run s).session := by
  obtain ⟨held, snapshot, store⟩ := s
  cases store with
  | none => exact h
  | some store =>
    cases held with
    | record r =>
      intro r' hr'
      obtain rfl := Option.some.inj hr'
      obtain ⟨store', hstore, hfiled⟩ := h r rfl
      obtain rfl := Option.some.inj hstore
      exact ⟨_, rfl, hfiled.writeRecord⟩
    | nothing | page => exact h

/-- Whatever happens to a record and its store, the store backs the record still. -/
theorem Backed.use (h : Backed id n s) (hu : Use s t) : Backed id n t := by
  cases hu with
  | command c hc =>
    by_cases hw : c = .writeRecord
    · subst hw
      exact h.writeRecord
    · exact h.marks (marks_run hc hw s)
  | elsewhere hstore hspared =>
    intro r hr
    obtain ⟨store, hbacked, hfiled⟩ := h r hr
    obtain rfl := Option.some.inj (hstore.symm.trans hbacked)
    have hframe := hspared r hr
    rw [hfiled.id_eq, hfiled.length_eq] at hframe
    exact ⟨_, rfl, hfiled.spared hframe⟩
  | @torn r store t hheld hstore htorn =>
    intro r' hr'
    obtain ⟨store', hbacked, hfiled⟩ := h r' hr'
    obtain rfl := Option.some.inj (hstore.symm.trans hbacked)
    have hsame : r' = r := by
      rw [hheld] at hr'
      exact (Option.some.inj hr').symm
    subst hsame
    exact ⟨_, rfl, hfiled.torn htorn⟩

-- A record that was read is one that its store has.
theorem read_of_done (h : ((Command.readRecord id n).run s).answer = .reply .done) :
    ∃ store r, ((Store.readRecord id n).run store).result = .ok r ∧
      ((Command.readRecord id n).run s).session = ⟨.record r, s.snapshot, some store⟩ := by
  obtain ⟨held, snapshot, store⟩ := s
  cases store with
  | none => cases h
  | some store =>
    have hstore := Store.state_readRecord store id n
    simp only [Command.run] at h ⊢
    rcases hrun : (Store.readRecord id n).run store with ⟨_ | r, store', es⟩
    · rw [hrun] at h
      cases h
    · rw [hrun] at hstore
      obtain rfl : store' = store := hstore
      exact ⟨store', r, congrArg Outcome.result hrun, rfl⟩

theorem written_of_done (h : (Command.writeRecord.run s).answer = .reply .done) :
    ∃ r store, s.held = .record r ∧ (Filing.writeRecord.run ⟨r, store⟩).result = .ok () ∧
      (Command.writeRecord.run s).session =
        ⟨.record (Filing.writeRecord.run ⟨r, store⟩).state.record, s.snapshot,
          some (Filing.writeRecord.run ⟨r, store⟩).state.store⟩ := by
  obtain ⟨held, snapshot, store⟩ := s
  cases store with
  | none => cases h
  | some store =>
    cases held with
    | record r =>
      have hdone : Answer.ofDone (Filing.writeRecord.run ⟨r, store⟩).result = .reply .done := h
      cases hresult : (Filing.writeRecord.run ⟨r, store⟩).result with
      | ok _ => exact ⟨r, store, rfl, hresult, rfl⟩
      | error e =>
        rw [hresult] at hdone
        cases hdone
    | nothing | page => cases h

theorem backed_of_files {first : Command} (hfirst : first.Files id n s)
    (hdone : (first.run s).answer = .reply .done) : Backed id n (first.run s).session := by
  intro r' hr'
  cases first with
  | readRecord =>
    obtain ⟨rfl, rfl⟩ := hfirst
    obtain ⟨store, r, hread, hsession⟩ := read_of_done hdone
    rw [hsession] at hr' ⊢
    obtain rfl := Option.some.inj hr'
    exact ⟨store, rfl, .of_read hread⟩
  | writeRecord =>
    obtain ⟨r, store, hheld, hwritten, hsession⟩ := written_of_done hdone
    obtain ⟨first, hfirst, rfl, rfl, hfits⟩ := hfirst
    obtain rfl : first = r := Held.record.inj (hfirst.symm.trans hheld)
    rw [hsession] at hr' ⊢
    obtain rfl := Option.some.inj hr'
    exact ⟨_, rfl, .of_written hfits hwritten⟩
  | _ => exact hfirst.elim

/-- **A clean record is what its store holds.**  After a record was read from a store, or written to
it, it is used in any way: edited, made a page, given back by the page, written again, with faults
and failures on the way, while the store is used beside its frame.  Whenever it is clean, reading
its id gives the record as it is. -/
theorem clean_is_stored {first : Command} (hfirst : first.Files id n s)
    (hdone : (first.run s).answer = .reply .done)
    (hrun : Relation.ReflTransGen Use (first.run s).session t) {r : Record}
    (hr : t.held.record? = some r) (hclean : r.dirty = false) :
    ∃ store, t.store = some store ∧ ((Store.readRecord id n).run store).result = .ok r := by
  have hbacked : Backed id n t := by
    clear hr
    induction hrun with
    | refl => exact backed_of_files hfirst hdone
    | tail _ hu ih => exact ih.use hu
  obtain ⟨store, hstore, hfiled⟩ := hbacked r hr
  exact ⟨store, hstore, hfiled.read hclean⟩

/-- A record of zeros is written, formatted and claimed from.  A location runs over its end, so half
of it is written, and then the record is written again over its frame. -/
theorem clean_is_stored_half_location :
    let s : Session := ⟨.record (.zeroed 1 14), none, some ⟨.memory, #[]⟩⟩
    let s₁ := (Command.writeRecord.run s).session
    let s₂ := (Command.formatPage.run s₁).session
    let s₃ := ((Command.page (.claim 0)).run s₂).session
    let s₄ := (Command.closePage.run s₃).session
    let s₅ := ((Command.edit (.writeLocation 9 ⟨0x01020304, 5⟩)).run s₄).session
    let store : Store := ⟨.memory, Array.replicate 32 0 ++ #[209, 187, 121, 199]⟩
    let s₆ : Session := { s₅ with store := some (store.patch 3 [9, 9]) }
    let t := (Command.writeRecord.run s₆).session
    let r : Record := .ofBytes 1 #[25, 147, 0, 1, 0, 0, 0, 1, 0, 1, 2, 3, 4, 1]
    Command.writeRecord.Files 1 14 s ∧ (Command.writeRecord.run s).answer = .reply .done ∧
      Relation.ReflTransGen Use s₁ t ∧ t.held.record? = some r ∧ r.dirty = false ∧
      ∃ store, t.store = some store ∧ ((Store.readRecord 1 14).run store).result = .ok r := by
  intro s s₁ s₂ s₃ s₄ s₅ store s₆ t r
  have hfirst : Command.writeRecord.Files 1 14 s :=
    ⟨.zeroed 1 14, rfl, rfl, by decide, by decide⟩
  have hdone : (Command.writeRecord.run s).answer = .reply .done := by decide +kernel
  have hstore : s₅.store = some store := by decide +kernel
  have hheld : s₅.held.record? = some ⟨1, r.data, true⟩ := by decide +kernel
  have hbeside : Use s₅ s₆ := by
    refine .elsewhere hstore fun r' hr' => ?_
    obtain rfl := Option.some.inj (hheld.symm.trans hr')
    exact Frame.spared_patch (.inl (by decide)) store
  have hedit : (Command.edit (.writeLocation 9 ⟨0x01020304, 5⟩)).IsUse := nofun
  have hpage : Relation.ReflTransGen Use s₁ s₄ :=
    .tail (.tail (.single (.command .formatPage trivial)) (.command (.page (.claim 0)) trivial))
      (.command .closePage trivial)
  have hrun : Relation.ReflTransGen Use s₁ t :=
    ((hpage.tail (.command _ hedit)).tail hbeside).tail (.command .writeRecord trivial)
  have hr : t.held.record? = some r := by decide +kernel
  exact ⟨hfirst, hdone, hrun, hr, rfl, clean_is_stored hfirst hdone hrun hr rfl⟩

end FreeSpace.Session
