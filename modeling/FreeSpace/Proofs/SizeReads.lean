import FreeSpace.Proofs.CountRange
import FreeSpace.Proofs.SearchAnswers

/-!
# How often a size is read

A page reports each size that it reads from its record.  Looking at a page reads a size exactly if
that fills the place for it (`Looked.filled`), and a call that writes first looks at one row and then
reads no more (`ReadsRow`).  So a call reads what its record says, no place is emptied again, and over
a whole run the readings of a row and the place for it balance (`Traced.filled`): no row is read
twice.  How far a search reads is settled by the first tight row (`cachedRows_searchRows`).
-/

namespace FreeSpace

namespace SlotPage

variable {n : Nat} {p q s : SlotPage} {es fs : List Event} {α β : Type}

/-- The rows whose sizes were read from the record, in order. -/
def cachedRows (es : List Event) : List UInt16 :=
  es.filterMap Event.cachedRow?

/-- 1 if the page keeps the size of the row, and else 0. -/
def held (p : SlotPage) (row : UInt16) : Nat :=
  if (p.kept? row.toNat).isSome then 1 else 0

theorem held_le_one (p : SlotPage) (row : UInt16) : p.held row ≤ 1 := by
  unfold held
  split
  · exact Nat.le_refl 1
  · exact Nat.zero_le 1

theorem held_eq_one_iff {row : UInt16} : p.held row = 1 ↔ (p.kept? row.toNat).isSome := by
  unfold held
  split <;> simp_all

theorem cachedRows_append (es fs : List Event) :
    cachedRows (es ++ fs) = cachedRows es ++ cachedRows fs :=
  List.filterMap_append

theorem cachedRows_of_silent (h : ∀ e ∈ es, e.cachedRow? = none) : cachedRows es = [] :=
  List.filterMap_eq_nil_iff.mpr h

theorem not_mem_of_silent (h : ∀ e ∈ es, e.cachedRow? = none) {size : UInt32} {row : UInt16}
    {id : UInt64} : .sizeCached size row id ∉ es :=
  fun he => absurd (h _ he) nofun

/-! ## Looking and writing -/

/-- All sizes that were reported are those of this record. -/
def Reads (r : Record) (es : List Event) : Prop :=
  ∀ size row id, .sizeCached size row id ∈ es → size = r.rowSize row.toNat ∧ id = r.id

/-- What looking at a page reports and leaves: each size read fills the place for it, and no other
place is filled. -/
structure Looked (p : SlotPage) (es : List Event) (q : SlotPage) : Prop where
  unmoved : Unmoved p q
  reads : Reads p.record es
  filled : ∀ row, (cachedRows es).count row + p.held row = q.held row

/-- What writing to a page reports and leaves: no size is read, and no place is emptied. -/
structure Quiet (p : SlotPage) (es : List Event) (q : SlotPage) : Prop where
  silent : ∀ e ∈ es, e.cachedRow? = none
  filled : ∀ row, p.held row ≤ q.held row

/-- What a call reports and leaves. -/
structure Traced (p : SlotPage) (es : List Event) (q : SlotPage) : Prop where
  reads : Reads p.record es
  filled : ∀ row, (cachedRows es).count row + p.held row ≤ q.held row

theorem Reads.append {r : Record} (h : Reads r es) (h' : Reads r fs) : Reads r (es ++ fs) :=
  fun size row id he => (List.mem_append.mp he).elim (h size row id) (h' size row id)

theorem Reads.of_silent (r : Record) (h : ∀ e ∈ es, e.cachedRow? = none) : Reads r es :=
  fun _ _ _ he => absurd he (not_mem_of_silent h)

theorem count_append (es fs : List Event) (row : UInt16) :
    (cachedRows (es ++ fs)).count row = (cachedRows es).count row + (cachedRows fs).count row := by
  rw [cachedRows_append, List.count_append]

theorem Looked.of_silent (p : SlotPage) (h : ∀ e ∈ es, e.cachedRow? = none) : Looked p es p where
  unmoved := .refl p
  reads := .of_silent _ h
  filled row := by
    rw [cachedRows_of_silent h]
    exact Nat.zero_add _

theorem Looked.trans (h : Looked p es q) (h' : Looked q fs s) : Looked p (es ++ fs) s where
  unmoved := h.unmoved.trans h'.unmoved
  reads := h.reads.append (h.unmoved.record ▸ h'.reads)
  filled row := by
    rw [count_append, ← h'.filled, ← h.filled]
    omega

theorem Looked.traced (h : Looked p es q) : Traced p es q :=
  ⟨h.reads, fun row => Nat.le_of_eq (h.filled row)⟩

theorem Looked.then (h : Looked p es q) (h' : Traced q fs s) : Traced p (es ++ fs) s where
  reads := h.reads.append (h.unmoved.record ▸ h'.reads)
  filled row := by
    have hfirst := h.filled row
    have hrest := h'.filled row
    rw [count_append]
    omega

theorem Quiet.traced (h : Quiet p es q) : Traced p es q where
  reads := .of_silent _ h.silent
  filled row := by
    rw [cachedRows_of_silent h.silent]
    show 0 + p.held row ≤ q.held row
    rw [Nat.zero_add]
    exact h.filled row

theorem Quiet.held_eq_one (h : Quiet p es q) {row : UInt16} (hp : p.held row = 1) :
    q.held row = 1 := by
  have hkept := h.filled row
  have hle := held_le_one q row
  omega

/-- Reading a size that the page keeps already reports nothing; any other is reported, and kept. -/
theorem looked_readSize (h : Shaped n p) {row : UInt16} (hrow : row.toNat < rowsIn n) :
    Looked p (p.readEvents row) (p.keep row.toNat (p.reported row.toNat)) := by
  refine ⟨unmoved_keep h hrow, ?_, fun other => ?_⟩
  · intro size other id he
    unfold readEvents at he
    split at he
    · exact absurd he List.not_mem_nil
    · injection List.mem_singleton.mp he with hsize hother hid
      subst hsize hother hid
      exact ⟨rfl, rfl⟩
  · unfold held
    rw [kept?_keep h hrow]
    unfold readEvents cachedRows
    -- Only the place for the row that is read can change.
    by_cases he : other = row
    · subst he
      cases p.kept? other.toNat <;> simp [Event.cachedRow?]
    · have hne : other.toNat ≠ row.toNat := fun hn => he (UInt16.toNat_inj.mp hn)
      cases p.kept? row.toNat <;> simp [Event.cachedRow?, hne, Ne.symm he]

theorem lookSteps_looked (n : Nat) : LookSteps fun p es q => Shaped n p → Looked p es q where
  refl p _ := .of_silent p fun _ he => absurd he List.not_mem_nil
  trans h h' hp := (h hp).trans (h' ((h hp).unmoved.shaped hp))
  event p e he _ := .of_silent p fun e' he' => List.mem_singleton.mp he' ▸ he
  readSize row p hp := by
    by_cases hrow : row.toNat < rowsIn n
    · rw [run_readSize_eq hp hrow]
      exact looked_readSize hp hrow
    · rw [run_readSize_of_le hp (Nat.not_lt.mp hrow)]
      exact .of_silent p fun _ he => absurd he List.not_mem_nil

theorem steps_quiet : Steps Quiet where
  refl _ := ⟨fun _ he => absurd he List.not_mem_nil, fun _ => Nat.le_refl _⟩
  trans h h' := ⟨fun e he => (List.mem_append.mp he).elim (h.silent e) (h'.silent e),
    fun row => Nat.le_trans (h.filled row) (h'.filled row)⟩
  event _ _ he := ⟨fun _ he' => List.mem_singleton.mp he' ▸ he, fun _ => Nat.le_refl _⟩

theorem quiet_keepSize (row : UInt16) (size : UInt32) : (keepSize row size).Links Quiet := by
  intro p
  by_cases hlt : row.toNat < p.sizes.size
  · have hrun : (keepSize row size).run p = ⟨.ok (), p.keep row.toNat size, []⟩ := if_pos hlt
    rw [hrun]
    refine ⟨fun _ he => absurd he List.not_mem_nil, fun other => ?_⟩
    unfold held keep
    rw [kept?_setIfInBounds hlt]
    by_cases he : other.toNat = row.toNat
    · rw [if_pos he]
      exact held_le_one p other
    · rw [if_neg he]
      exact Nat.le_refl _
  · have hrun : (keepSize row size).run p = ⟨.error (.fault .outOfBounds), p, []⟩ := if_neg hlt
    rw [hrun]
    exact steps_quiet.refl p

theorem quiet_onRecord {a : Action Record α} (h : a.Links fun _ es _ => es = []) :
    (onRecord a).Links Quiet := by
  intro p
  rw [run_onRecord, h p.record]
  exact ⟨fun _ he => absurd he List.not_mem_nil, fun _ => Nat.le_refl _⟩

theorem silent_write (position : Nat) (bytes : List UInt8) :
    (Record.write position bytes).Links fun _ es _ => es = [] := by
  intro r
  show (if position + bytes.length ≤ r.length then _ else _ : Outcome Record Unit).events = []
  split <;> rfl

theorem silent_writeLocation (offset : UInt16) (l : Location) :
    (Record.writeLocation offset l).Links fun _ es _ => es = [] := by
  have htrans : ∀ {es fs : List Event}, es = [] → fs = [] → es ++ fs = [] := by
    rintro _ _ rfl rfl
    rfl
  have hoffset : (Action.lift (σ := Record) (Word.add16 offset 4)).Links fun _ es _ => es = [] :=
    fun _ => rfl
  exact Action.Links.bind htrans (silent_write _ _) fun _ =>
    Action.Links.bind htrans hoffset fun _ => silent_write _ _

theorem writeSteps_quiet : WriteSteps Quiet where
  toSteps := steps_quiet
  writeSize row size := steps_quiet.bind (steps_quiet.view _) fun _ =>
    steps_quiet.bind (quiet_onRecord (silent_write _ _)) fun _ => quiet_keepSize row size
  setLocation offset l := quiet_onRecord (silent_writeLocation offset l)
  setCount _ := quiet_onRecord (silent_write _ _)

/-! ## Calls -/

/-- The action finds a row, reads its size, and then reads no more. -/
structure ReadsRow (n : Nat) (find : SlotPage → Result UInt16) (a : Action SlotPage α) : Prop where
  traced : ∀ p, Shaped n p → Traced p (a.run p).events (a.run p).state
  /-- If it succeeds, the row was found and its place is filled. -/
  held : ∀ p b, Shaped n p → (a.run p).result = .ok b →
    ∃ row, find p = .ok row ∧ (a.run p).state.held row = 1

theorem exists_of_bind_ok {x : Action SlotPage α} {f : α → Action SlotPage β} {b : β}
    (h : ((x >>= f).run p).result = .ok b) :
    ∃ a, (x.run p).result = .ok a ∧ ((x >>= f).run p).state = ((f a).run (x.run p).state).state := by
  rw [Action.run_bind] at h ⊢
  cases hx : (x.run p).result with
  | error e =>
    rw [hx] at h
    exact absurd h nofun
  | ok a => exact ⟨a, rfl, rfl⟩

theorem held_of_readSize (h : Shaped n p) {row : UInt16} {size : UInt32}
    (hok : ((readSize row).run p).result = .ok size) : ((readSize row).run p).state.held row = 1 := by
  by_cases hrow : row.toNat < rowsIn n
  · rw [run_readSize_eq h hrow, held_eq_one_iff, kept?_keep h hrow, if_pos rfl]
    rfl
  · rw [run_readSize_of_le h (Nat.not_lt.mp hrow)] at hok
    exact absurd hok nofun

theorem readsRow_of_quiet {f : SlotPage → Result α} {rowOf : α → UInt16}
    {g : α → UInt32 → Action SlotPage β} (hg : ∀ a size, (g a size).Links Quiet) :
    ReadsRow n (fun p => (f p).map rowOf)
      (do
        let a ← .view f
        let size ← readSize (rowOf a)
        g a size) where
  traced p hp := by
    have htraced : ∀ a size, (g a size).Links fun p es q => Shaped n p → Traced p es q :=
      fun a size p _ => (hg a size p).traced
    have hlook := lookSteps_looked n
    have hthen : ∀ {p es q fs s}, (Shaped n p → Looked p es q) → (Shaped n q → Traced q fs s) →
        Shaped n p → Traced p (es ++ fs) s :=
      fun h h' hp => (h hp).then (h' ((h hp).unmoved.shaped hp))
    exact (hlook.view f).seq (fun h hp => (h hp).traced) hthen
      (fun a => (hlook.readSize (rowOf a)).seq (fun h hp => (h hp).traced) hthen (htraced a)) p hp
  held p b hp hok := by
    obtain ⟨a, ha, hview⟩ := exists_of_bind_ok hok
    have hfound : f p = .ok a := ha
    rw [Action.run_bind_view hfound] at hok
    obtain ⟨size, hsize, hstate⟩ := exists_of_bind_ok hok
    refine ⟨rowOf a, by rw [hfound]; rfl, ?_⟩
    -- The place is filled when the size is read, and the rest empties none.
    have hfull := (hg a size _).held_eq_one (held_of_readSize hp hsize)
    exact (congrArg (SlotPage.held · (rowOf a)) (hview.trans hstate)).trans hfull

theorem ReadsRow.map {find : SlotPage → Result UInt16} {a : Action SlotPage α}
    (h : ReadsRow n find a) (f : α → β) : ReadsRow n find (a >>= fun x => pure (f x)) := by
  have hrun : ∀ p, ((a >>= fun x => pure (f x)).run p).state = (a.run p).state ∧
      ((a >>= fun x => pure (f x)).run p).events = (a.run p).events := by
    intro p
    rw [Action.run_bind]
    split
    · exact ⟨rfl, List.append_nil _⟩
    · exact ⟨rfl, rfl⟩
  refine ⟨fun p hp => ?_, fun p b hp hok => ?_⟩
  · rw [(hrun p).1, (hrun p).2]
    exact h.traced p hp
  · obtain ⟨x, hx, -⟩ := exists_of_bind_ok hok
    rw [(hrun p).1]
    exact h.held p x hp hx

theorem readsRow_claim (row : UInt16) :
    ReadsRow n (fun p => (p.offsetOf row).map fun _ => row) (claim row) :=
  readsRow_of_quiet fun offset _ =>
    writeSteps_quiet.turnRow _ _ row offset _ _ fun _ _ => rfl

theorem readsRow_release (row : UInt16) :
    ReadsRow n (fun p => (p.offsetOf row).map fun _ => row) (release row) :=
  readsRow_of_quiet fun offset _ =>
    writeSteps_quiet.turnRow _ _ row offset _ _ fun _ _ => rfl

theorem readsRow_setSizeAt (offset : UInt16) (size : UInt32) :
    ReadsRow n (fun p => (p.rowAt offset).map id) (setSizeAt offset size) :=
  readsRow_of_quiet fun row _ => steps_quiet.bind (steps_quiet.view _) fun count =>
    writeSteps_quiet.writeCounted row size count

theorem traced_setLocation (offset : UInt16) (l : Location) (p : SlotPage) :
    Traced p ((Call.setLocation offset l).action.run p).events
      ((Call.setLocation offset l).action.run p).state :=
  (steps_quiet.bind (writeSteps_quiet.setLocation offset l) (fun _ => steps_quiet.pure _) p).traced

/-- Every call reports the sizes that it reads, as its record says them, and fills their places. -/
theorem traced_call (h : Shaped n p) (c : Call) :
    Traced p (c.action.run p).events (c.action.run p).state := by
  cases ht : c.target? with
  | none => exact ((lookSteps_looked n).call ht p h).traced
  | some _ =>
    cases c with
    | claim row => exact ((readsRow_claim row).map _).traced p h
    | release row => exact ((readsRow_release row).map _).traced p h
    | setSizeAt offset size => exact ((readsRow_setSizeAt offset size).map _).traced p h
    | setLocation offset l => exact traced_setLocation offset l p
    | _ => exact absurd ht nofun

/-- A row that was claimed, released or given a size is kept from then on. -/
theorem held_of_ok (h : Shaped n p) {c : Call} {row : UInt16} {size : UInt32} {reply : Reply}
    (ht : c.target? = some (rowStart row.toNat)) (hs : c.newSize? = some size)
    (hok : (c.action.run p).result = .ok reply) : (c.action.run p).state.held row = 1 := by
  have hsame : ∀ {other : UInt16}, rowStart other.toNat = rowStart row.toNat → other = row := by
    intro other he
    rw [rowStart_eq, rowStart_eq] at he
    exact UInt16.toNat_inj.mp (by omega)
  have hrow : ∀ {other found : UInt16} {x : Result UInt16},
      (x.map fun _ => other) = .ok found → found = other := by
    intro other found x hx
    cases x with
    | error e => exact absurd hx nofun
    | ok a => exact (Except.ok.inj hx).symm
  cases c with
  | claim other =>
    obtain rfl := hsame (Option.some.inj ht)
    obtain ⟨found, hfound, hheld⟩ := ((readsRow_claim other).map _).held p reply h hok
    obtain rfl := hrow hfound
    exact hheld
  | release other =>
    obtain rfl := hsame (Option.some.inj ht)
    obtain ⟨found, hfound, hheld⟩ := ((readsRow_release other).map _).held p reply h hok
    obtain rfl := hrow hfound
    exact hheld
  | setSizeAt offset new =>
    obtain ⟨found, hfound, hheld⟩ := ((readsRow_setSizeAt offset new).map _).held p reply h hok
    have hoff : offset.toNat = rowStart row.toNat := Option.some.inj ht
    -- The row that was found is the one that starts there.
    by_cases hin : row.toNat < rowsIn n
    · rw [h.rowAt_of_start hin hoff] at hfound
      rw [← Except.ok.inj hfound] at hheld
      exact hheld
    · have hno : ∀ i < rowsIn n, offset.toNat ≠ rowStart i := by
        intro i hi he
        rw [hoff, rowStart_eq, rowStart_eq] at he
        omega
      rw [h.rowAt_of_no_start hno] at hfound
      exact absurd hfound nofun
  | _ => exact absurd hs nofun

/-! ## Runs -/

/-- The page after these calls.  A call that fails leaves what it did before it failed. -/
def left (cs : List Call) (p : SlotPage) : SlotPage :=
  cs.foldl (fun p c => (c.action.run p).state) p

/-- What these calls report, in order. -/
def reports : List Call → SlotPage → List Event
  | [], _ => []
  | c :: rest, p => (c.action.run p).events ++ reports rest (c.action.run p).state

theorem shaped_left (h : Shaped n p) (cs : List Call) : Shaped n (left cs p) := by
  induction cs generalizing p with
  | nil => exact h
  | cons c rest ih => exact ih (h.call c)

/-- The readings of a row in a run fill the place for it. -/
theorem filled_left (h : Shaped n p) (cs : List Call) (row : UInt16) :
    (cachedRows (reports cs p)).count row + p.held row ≤ (left cs p).held row := by
  induction cs generalizing p with
  | nil => exact Nat.le_of_eq (Nat.zero_add _)
  | cons c rest ih =>
    have hfirst := (traced_call h c).filled row
    have hrest := ih (h.call c)
    show (cachedRows (_ ++ _)).count row + _ ≤ (left rest (c.action.run p).state).held row
    rw [count_append]
    omega

/-! ## How far a search reads -/

/-- The row holds the request and wastes less than the optimal margin. -/
def IsTight (size : Nat → UInt32) (request : UInt32) (i : Nat) : Prop :=
  Eligible size request i ∧ waste size request i < 128

theorem cachedRows_conclude (request : UInt32) (seen : Seen) (p : SlotPage) :
    cachedRows ((conclude request seen).run p).events = [] := by
  unfold conclude
  rw [Action.run_bind_silent (Action.run_get ..)]
  cases seen.acceptable? p.wasteLimit <;> rfl

theorem cachedRows_readEvents {row : UInt16} (hunread : p.kept? row.toNat = none) :
    cachedRows (p.readEvents row) = [row] := by
  unfold readEvents
  rw [hunread]
  rfl

-- Rows that were not read yet are read up to the first tight one.
theorem cachedRows_searchRows (h : Shaped n p) (request : UInt32) (seen : Seen)
    {front rest : List UInt16} (hrows : ∀ row ∈ front ++ rest, row.toNat < rowsIn n)
    (hnodup : (front ++ rest).Nodup) (hunread : ∀ row ∈ front ++ rest, p.kept? row.toNat = none)
    (hloose : ∀ row ∈ front, ¬ IsTight p.record.rowSize request row.toNat)
    (htight : ∀ row ∈ rest.head?, IsTight p.record.rowSize request row.toNat) :
    cachedRows ((searchRows request seen (front ++ rest)).run p).events =
      front ++ rest.take 1 := by
  induction front generalizing p seen with
  | nil =>
    cases rest with
    | nil => exact cachedRows_conclude request seen p
    | cons row tail =>
      have hrow := hrows row List.mem_cons_self
      have hnone := hunread row List.mem_cons_self
      have hrep : p.reported row.toNat = p.record.rowSize row.toNat := by
        rw [reported, hnone]
        rfl
      obtain ⟨⟨hzero, hle⟩, hwaste⟩ := htight row rfl
      have hskip : ¬ (p.record.rowSize row.toNat = 0 ∨ p.record.rowSize row.toNat < request) := by
        rintro (hz | hlt)
        · exact hzero hz
        · exact UInt32.not_lt.mpr hle hlt
      have hoptimal : p.record.rowSize row.toNat - request < optimalWaste := by
        rw [UInt32.lt_iff_toNat_lt, toNat_sub_eq_waste ⟨hzero, hle⟩]
        exact hwaste
      rw [List.nil_append, searchRows, Action.run_bind_ok (run_readSize_eq h hrow), hrep]
      simp only [if_neg hskip, Word.sub32_of_le hle]
      rw [Action.run_bind_silent (Action.run_lift ..), if_pos hoptimal, cachedRows_append,
        cachedRows_readEvents hnone]
      rfl
  | cons row front ih =>
    have hrow := hrows row List.mem_cons_self
    have hnone := hunread row List.mem_cons_self
    have hrep : p.reported row.toNat = p.record.rowSize row.toNat := by
      rw [reported, hnone]
      rfl
    obtain ⟨hnotin, hnodup'⟩ := List.nodup_cons.mp hnodup
    -- The other rows are unread on the page that keeps this one.
    have hrest : ∀ s, cachedRows ((searchRows request s (front ++ rest)).run
        (p.keep row.toNat (p.reported row.toNat))).events = front ++ rest.take 1 := by
      refine fun s => ih (h.keep _ _) s (fun other ho => hrows other (List.mem_cons_of_mem row ho))
        hnodup' (fun other ho => ?_) (fun other ho => hloose other (List.mem_cons_of_mem row ho))
        htight
      have hne : other.toNat ≠ row.toNat := fun he => hnotin (UInt16.toNat_inj.mp he ▸ ho)
      rw [kept?_keep h hrow, if_neg hne]
      exact hunread other (List.mem_cons_of_mem row ho)
    have hgoes : ∀ x : Action SlotPage SlotSearch,
        cachedRows (x.run (p.keep row.toNat (p.reported row.toNat))).events = front ++ rest.take 1 →
        cachedRows (p.readEvents row ++ (x.run (p.keep row.toNat (p.reported row.toNat))).events) =
          row :: front ++ rest.take 1 := by
      intro x hx
      rw [cachedRows_append, cachedRows_readEvents hnone, hx]
      rfl
    rw [List.cons_append, searchRows, Action.run_bind_ok (run_readSize_eq h hrow)]
    apply hgoes
    by_cases hskip : p.reported row.toNat = 0 ∨ p.reported row.toNat < request
    · simp only [if_pos hskip]
      exact hrest _
    · have hle : request ≤ p.reported row.toNat := UInt32.not_lt.mp fun hlt => hskip (.inr hlt)
      have helig : Eligible p.record.rowSize request row.toNat := by
        rw [Eligible, ← hrep]
        exact ⟨fun hz => hskip (.inl hz), hle⟩
      have hwide : ¬ p.reported row.toNat - request < optimalWaste := by
        rw [hrep, UInt32.lt_iff_toNat_lt, toNat_sub_eq_waste helig]
        exact fun hwaste => hloose row List.mem_cons_self ⟨helig, hwaste⟩
      simp only [if_neg hskip, Word.sub32_of_le hle]
      rw [Action.run_bind_silent (Action.run_lift ..), if_neg hwide]
      exact hrest _

theorem rows_nodup (h : Shaped n p) : p.rows.Nodup := by
  rw [h.rows_eq]
  refine List.nodup_range.map_on fun i hi j hj he => ?_
  rw [← h.toNat_ofNat (List.mem_range.mp hi), he, h.toNat_ofNat (List.mem_range.mp hj)]

theorem cachedRows_search (h : Shaped n p) (hunread : ∀ i, p.kept? i = none) (request : UInt32)
    {front rest : List UInt16} (hrows : p.rows = front ++ rest)
    (hloose : ∀ row ∈ front, ¬ IsTight p.record.rowSize request row.toNat)
    (htight : ∀ row ∈ rest.head?, IsTight p.record.rowSize request row.toNat) :
    cachedRows ((search request).run p).events = front ++ rest.take 1 := by
  have hnodup := rows_nodup h
  have hin : ∀ row ∈ p.rows, row.toNat < rowsIn n := fun row => (mem_rows h).mp
  unfold search
  rw [Action.run_bind_silent (Action.run_get ..)]
  rw [hrows] at hnodup hin ⊢
  exact cachedRows_searchRows h request .nothing hin hnodup (fun row _ => hunread row.toNat) hloose
    htight

-- The rows before the first tight one, and from there on.
theorem rows_split (h : Shaped n p) {i : Nat} (hi : i < rowsIn n) :
    p.rows = (List.range i).map .ofNat ++
      .ofNat i :: (List.range' (i + 1) (rowsIn n - (i + 1))).map .ofNat := by
  have hsum : rowsIn n = i + (rowsIn n - (i + 1) + 1) := by omega
  have hsplit := List.range'_append_1 (s := 0) (m := i) (n := rowsIn n - (i + 1) + 1)
  rw [Nat.zero_add, ← hsum] at hsplit
  rw [h.rows_eq, List.range_eq_range', List.range_eq_range', ← List.map_cons, ← List.map_append,
    ← List.range'_succ, hsplit]

theorem cachedRows_search_of_tight (h : Shaped n p) (hunread : ∀ i, p.kept? i = none)
    {request : UInt32} {i : Nat}
    (hfirst : IsLeast {i | i < rowsIn n ∧ IsTight p.record.rowSize request i} i) :
    cachedRows ((search request).run p).events = (List.range (i + 1)).map .ofNat := by
  obtain ⟨⟨hi, htight⟩, hleast⟩ := hfirst
  rw [cachedRows_search h hunread request (rows_split h hi)]
  · rw [List.take_succ_cons, List.take_zero, List.range_succ, List.map_append]
    rfl
  · intro row hrow hloose
    obtain ⟨j, hj, rfl⟩ := List.mem_map.mp hrow
    have hji := List.mem_range.mp hj
    rw [h.toNat_ofNat (Nat.lt_trans hji hi)] at hloose
    exact absurd (hleast ⟨Nat.lt_trans hji hi, hloose⟩) (Nat.not_le.mpr hji)
  · intro row hrow
    obtain rfl := Option.some.inj hrow
    rwa [h.toNat_ofNat hi]

theorem cachedRows_search_of_loose (h : Shaped n p) (hunread : ∀ i, p.kept? i = none)
    {request : UInt32} (hloose : ∀ i < rowsIn n, ¬ IsTight p.record.rowSize request i) :
    cachedRows ((search request).run p).events = p.rows := by
  rw [cachedRows_search h hunread request (List.append_nil p.rows).symm, List.take_nil,
    List.append_nil]
  · exact fun row hrow => hloose row.toNat ((mem_rows h).mp hrow)
  · exact nofun

/-- A search of a page that was just opened reads the rows up to the first tight one, which it then
finds, and without a tight one all of them. -/
theorem search_reads (h : Shaped n p) (hunread : ∀ i, p.kept? i = none) (request : UInt32) :
    ∃ s, ((search request).run p).result = .ok s ∧
      (∀ row, s = .found row → waste p.record.rowSize request row.toNat < 128 →
        cachedRows ((search request).run p).events = (List.range (row.toNat + 1)).map .ofNat) ∧
      ((∀ row, s = .found row → 128 ≤ waste p.record.rowSize request row.toNat) →
        cachedRows ((search request).run p).events = p.rows) := by
  have hreported : p.reported = p.record.rowSize := by
    funext i
    rw [reported, hunread]
    rfl
  obtain ⟨s, hs, hsettles⟩ := settles_search h request
  rw [hreported] at hsettles
  have hall : (∀ i < rowsIn n, Eligible p.record.rowSize request i →
      128 ≤ waste p.record.rowSize request i) →
        cachedRows ((search request).run p).events = p.rows := fun hloose =>
    cachedRows_search_of_loose h hunread fun i hi htight =>
      Nat.not_lt.mpr (hloose i hi htight.1) htight.2
  refine ⟨s, hs, ?_⟩
  cases hsettles with
  | @tight i hrow =>
    have hi := hrow.1.1
    have hread := cachedRows_search_of_tight h hunread hrow
    refine ⟨fun row hfound _ => ?_, fun hloose => ?_⟩
    · rw [hread, ← SlotSearch.found.inj hfound, h.toNat_ofNat hi]
    · have hwaste := hloose _ rfl
      rw [h.toNat_ofNat hi] at hwaste
      exact absurd hrow.1.2.2 (Nat.not_lt.mpr hwaste)
  | @least i w hloose _ _ hrow =>
    refine ⟨fun row hfound hwaste => ?_, fun _ => hall hloose⟩
    rw [← SlotSearch.found.inj hfound, h.toNat_ofNat hrow.1.1] at hwaste
    exact absurd hwaste (Nat.not_lt.mpr (hloose i hrow.1.1 hrow.1.2.1))
  | exhausted hloose =>
    refine ⟨fun row hfound => ?_, fun _ => hall hloose⟩
    cases hfound

theorem kept?_unread (r : Record) (i : Nat) : (unread r).kept? i = none := by
  show (Array.replicate (rowsIn r.length) none)[i]?.join = none
  rw [Array.getElem?_replicate]
  split <;> rfl

/-- **Each row is read once.**  In a run of any calls on a page that was opened, failing ones and
locations written anywhere included, no row is read from the record twice; a size once kept is kept
to the end, and no row is read any more that was claimed, released or given a size.  A size that a
call reads is the one in the record before the call, which is not written until then.  A search that
comes first reads the rows up to the one that it takes at once, or all rows if it takes none so. -/
theorem row_read_once {r : Record} {p : SlotPage} (hp : (ofRecord.run r).result = .ok p)
    (cs : List Call) :
    let q := left cs p
    (∀ row, (cachedRows (reports cs p)).count row ≤ 1) ∧
    (∀ later (row : UInt16), (q.kept? row.toNat).isSome →
      ((left later q).kept? row.toNat).isSome ∧ row ∉ cachedRows (reports later q)) ∧
    (∀ (c : Call) (row : UInt16) size reply, c.target? = some (rowStart row.toNat) →
      c.newSize? = some size → (c.action.run q).result = .ok reply →
        ∀ later, row ∉ cachedRows (reports later (c.action.run q).state)) ∧
    (∀ c : Call, Reads q.record (c.action.run q).events) ∧
    ∀ request, ∃ s, ((search request).run p).result = .ok s ∧
      (∀ row, s = .found row → waste r.rowSize request row.toNat < 128 →
        cachedRows ((search request).run p).events = (List.range (row.toNat + 1)).map .ofNat) ∧
      ((∀ row, s = .found row → 128 ≤ waste r.rowSize request row.toNat) →
        cachedRows ((search request).run p).events = p.rows) ∧
      ∀ row : UInt16, row ∈ cachedRows ((search request).run p).events ↔
        (((search request).run p).state.kept? row.toNat).isSome := by
  intro q
  obtain ⟨hpage, rfl⟩ := ofRecord_eq_ok hp
  have hshape := shaped_unread hpage
  have hq : Shaped r.length q := shaped_left hshape cs
  -- A place that is filled stays so, and there is nothing left to read for it.
  have hfull : ∀ {s : SlotPage}, Shaped r.length s → ∀ {row : UInt16}, s.held row = 1 → ∀ later,
      (left later s).held row = 1 ∧ row ∉ cachedRows (reports later s) := by
    intro s hs row hheld later
    have hfilled := filled_left hs later row
    have hle := held_le_one (left later s) row
    exact ⟨by omega, List.count_eq_zero.mp (by omega)⟩
  refine ⟨fun row => ?_, fun later row hkept => ?_, fun c row size reply ht hs hok later => ?_,
    fun c => (traced_call hq c).reads, fun request => ?_⟩
  · have hfilled := filled_left hshape cs row
    have hle := held_le_one (left cs (unread r)) row
    omega
  · obtain ⟨hheld, hnot⟩ := hfull hq (held_eq_one_iff.mpr hkept) later
    exact ⟨held_eq_one_iff.mp hheld, hnot⟩
  · exact (hfull (hq.call c) (held_of_ok hq ht hs hok) later).2
  · obtain ⟨s, hs, htight, hloose⟩ := search_reads hshape (kept?_unread r) request
    refine ⟨s, hs, htight, hloose, fun row => ?_⟩
    have hfilled := ((lookSteps_looked r.length).search request (unread r) hshape).filled row
    have hempty : (unread r).held row = 0 := by
      unfold held
      rw [kept?_unread]
      rfl
    rw [← held_eq_one_iff, ← hfilled, hempty, ← List.count_pos_iff]
    have hle := held_le_one ((search request).run (unread r)).state row
    omega

/-- Two rows, of 200 and 300 bytes.  The first search takes row 0 at once, so row 1 is read when it is
given another size, and by no call after that. -/
theorem row_read_once_two_rows :
    let r := Record.ofBytes 7 #[0x19, 0x93, 0, 2, 0, 0, 0, 5, 0, 64, 0, 0, 0, 200,
      0, 0, 0, 5, 2, 64, 0, 0, 1, 44]
    let p := unread r
    let q := left [.search 100] p
    (ofRecord.run r).result = .ok p ∧ ((search 100).run p).result = .ok (.found 0) ∧
      cachedRows ((search 100).run p).events = [0] ∧
      ((Call.setSizeAt 14 96).action.run q).result = .ok .done ∧
      (Call.setSizeAt 14 96).target? = some (rowStart 1) ∧
      cachedRows ((Call.setSizeAt 14 96).action.run q).events = [1] ∧
      ∀ later, 1 ∉ cachedRows (reports later ((Call.setSizeAt 14 96).action.run q).state) := by
  intro r p q
  have hpage : r.IsSlotPage := ⟨by decide, by decide, by decide +kernel⟩
  have hp : (ofRecord.run r).result = .ok p := by rw [run_ofRecord hpage]
  have hfound : ((search 100).run p).result = .ok (.found 0) := by decide +kernel
  have hok : ((Call.setSizeAt 14 96).action.run q).result = .ok .done := by decide +kernel
  obtain ⟨-, -, hwritten, -, hsearch⟩ := row_read_once hp [.search 100]
  obtain ⟨s, hs, htight, -⟩ := hsearch 100
  have hzero := Except.ok.inj (hs.symm.trans hfound)
  exact ⟨hp, hfound, htight 0 hzero (by decide +kernel), hok, rfl, by decide +kernel,
    hwritten _ 1 96 .done rfl rfl hok⟩

end SlotPage

end FreeSpace
