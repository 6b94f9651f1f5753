import FreeSpace.Proofs.ReachedPages

/-!
# Calls that cannot fault

A location may be written over anything, so nothing can be said of the bytes of a page in use: the
tag, the count and the sizes may be whatever a caller made of them, and the kept sizes may be
others.  What stays is the shape of the page, `Shaped`, and the shape is enough: a call that checks
its row or its offset, or takes neither, answers or refuses, and never faults (`safe_call`).
-/

namespace FreeSpace

/-- Not a fault, and `Q` holds of the answer if there is one. -/
def Answers {α : Type} (Q : α → Prop) : Result α → Prop
  | .ok a => Q a
  | .error (.refused _) => True
  | .error (.fault _) => False

namespace Answers

variable {σ α β : Type} {P : α → Prop} {Q : β → Prop} {x : Result α}

/-- Only an answer has to be looked at again when the type of the answer changes. -/
theorem of_error {e : Failure} (h : Answers P (.error e)) : Answers Q (.error e) := by
  cases e with
  | refused => trivial
  | fault => exact h

theorem bind {f : α → Result β} (h : Answers P x) (hf : ∀ a, P a → Answers Q (f a)) :
    Answers Q (x >>= f) := by
  cases x with
  | ok a => exact hf a h
  | error e => exact h.of_error

theorem map (h : Answers P x) (f : α → β) : Answers (fun _ => True) (x.map f) := by
  cases x with
  | ok => trivial
  | error e => exact h.of_error

theorem run_bind {a : Action σ α} {f : α → Action σ β} {s : σ} (h : Answers P (a.run s).result)
    (hf : ∀ v, (a.run s).result = .ok v → Answers Q ((f v).run (a.run s).state).result) :
    Answers Q ((a >>= f).run s).result := by
  rw [Action.run_bind]
  cases hr : (a.run s).result with
  | ok v => exact hf v hr
  | error e =>
    rw [hr] at h
    exact h.of_error

theorem ne_fault (h : Answers P x) (f : Fault) : x ≠ .error (.fault f) := by
  rintro rfl
  exact h

end Answers

namespace Record

variable {r : Record} {position : Nat}

theorem answers_read16 (h : position + 2 ≤ r.length) :
    Answers (fun _ => True) (r.read16 position) := by
  unfold read16
  rw [field_eq_numberAt h]
  trivial

theorem answers_read32 (h : position + 4 ≤ r.length) :
    Answers (fun _ => True) (r.read32 position) := by
  unfold read32
  rw [field_eq_numberAt h]
  trivial

theorem answers_requireType (t : PageType) : Answers (fun _ => True) (r.requireType t) := by
  unfold requireType
  split
  · trivial
  · rename_i hlen
    -- The header is there, so the tag is read both times.
    have htag : Answers (fun _ => True) r.tag := answers_read16 (Nat.not_lt.mp hlen)
    have htype : Answers (fun _ => True) r.pageType := by
      refine htag.bind fun tag _ => ?_
      split <;> trivial
    refine htype.bind fun found _ => ?_
    split
    · trivial
    · exact htag.bind fun _ _ => trivial

theorem length_writeLocation (offset : UInt16) (l : Location) (r : Record) :
    ((writeLocation offset l).run r).state.length = r.length := by
  have hrec := length_write offset.toNat (Bytes.digits 4 l.record.toNat) r
  unfold writeLocation
  rw [Action.run_bind]
  split
  · rw [Action.run_bind]
    split
    · exact (length_write ..).trans hrec
    · exact hrec
  · exact hrec

end Record

namespace SlotPage

/-- The shape of a page on a record of `n` bytes: a length that 16-bit offsets address, and a place
for the size of each row.  It does not speak of any byte. -/
structure Shaped (n : Nat) (p : SlotPage) : Prop where
  least : 4 ≤ n
  greatest : n ≤ Record.maxLength
  length_eq : p.record.length = n
  size_sizes : p.sizes.size = rowsIn n

theorem shaped_unread {r : Record} (h : r.IsSlotPage) : Shaped r.length (unread r) where
  least := h.least
  greatest := h.greatest
  length_eq := rfl
  size_sizes := Array.size_replicate

/-- On a page of this shape the action keeps the shape and does not fault, and `Q` holds of its
answer. -/
def Safe {α : Type} (n : Nat) (a : Action SlotPage α) (Q : α → Prop) : Prop :=
  ∀ p, Shaped n p → Shaped n (a.run p).state ∧ Answers Q (a.run p).result

variable {n : Nat}

namespace Safe

variable {α β : Type} {P Q : α → Prop} {R : β → Prop}

theorem bind {x : Action SlotPage α} {f : α → Action SlotPage β} (hx : Safe n x P)
    (hf : ∀ a, P a → Safe n (f a) R) : Safe n (x >>= f) R := by
  intro p hp
  obtain ⟨hshape, hans⟩ := hx p hp
  rw [Action.run_bind]
  cases hr : (x.run p).result with
  | ok a =>
    rw [hr] at hans
    exact hf a hans _ hshape
  | error e =>
    rw [hr] at hans
    exact ⟨hshape, hans.of_error⟩

theorem pure {a : α} (h : Q a) : Safe n (Pure.pure a) Q :=
  fun _ hp => ⟨hp, h⟩

theorem view {f : SlotPage → Result α} (h : ∀ p, Shaped n p → Answers Q (f p)) :
    Safe n (.view f) Q :=
  fun p hp => ⟨hp, h p hp⟩

theorem refuse (e : Error) : Safe n (.refuse e) Q :=
  fun _ hp => ⟨hp, trivial⟩

theorem report (f : SlotPage → Event) : Safe n (.report f) fun _ => True :=
  fun _ hp => ⟨hp, trivial⟩

theorem onRecord {a : Action Record α}
    (h : ∀ r : Record, r.length = n →
      (a.run r).state.length = n ∧ Answers Q (a.run r).result) :
    Safe n (SlotPage.onRecord a) Q := by
  intro p hp
  obtain ⟨hlen, hans⟩ := h p.record hp.length_eq
  rw [run_onRecord]
  exact ⟨⟨hp.least, hp.greatest, hlen, hp.size_sizes⟩, hans⟩

-- An answer put into another form.
theorem map {x : Action SlotPage α} (hx : Safe n x P) (f : α → β) :
    Safe n (x >>= fun a => Pure.pure (f a)) fun _ => True :=
  hx.bind fun _ _ => .pure trivial

end Safe

variable {row : UInt16}

/-! ## Rows and sizes -/

theorem Shaped.capacity_eq {p : SlotPage} (h : Shaped n p) : p.capacity = .ofNat (rowsIn n) := by
  rw [capacity, h.length_eq]

theorem Shaped.toNat_capacity {p : SlotPage} (h : Shaped n p) : p.capacity.toNat = rowsIn n := by
  unfold capacity
  rw [h.length_eq, UInt16.toNat_ofNat_of_lt' (rowsIn_lt h.greatest)]

theorem Shaped.toNat_ofNat {p : SlotPage} (h : Shaped n p) {i : Nat} (hi : i < rowsIn n) :
    (UInt16.ofNat i).toNat = i :=
  UInt16.toNat_ofNat_of_lt' (Nat.lt_trans hi (rowsIn_lt h.greatest))

theorem Shaped.rows_eq {p : SlotPage} (h : Shaped n p) :
    p.rows = (List.range (rowsIn n)).map .ofNat := by
  unfold rows
  rw [h.length_eq]

theorem mem_rows {p : SlotPage} (h : Shaped n p) {row : UInt16} :
    row ∈ p.rows ↔ row.toNat < rowsIn n := by
  rw [h.rows_eq, List.mem_map]
  constructor
  · rintro ⟨i, hi, rfl⟩
    rw [List.mem_range] at hi
    rwa [h.toNat_ofNat hi]
  · exact fun hrow => ⟨row.toNat, List.mem_range.mpr hrow, UInt16.ofNat_toNat⟩

theorem answers_offsetOf {p : SlotPage} (h : Shaped n p) (row : UInt16) :
    Answers (fun offset => row.toNat < rowsIn n ∧ offset.toNat = rowStart row.toNat)
      (offsetOf row p) := by
  unfold offsetOf
  split
  · trivial
  · rename_i hin
    have hrow : row.toNat < rowsIn n := by
      rw [← h.toNat_capacity]
      exact UInt16.lt_iff_toNat_lt.mp (UInt16.not_le.mp hin)
    rw [offsetOf_of_lt h.greatest hrow]
    exact ⟨hrow, toNat_rowStart h.greatest hrow⟩

theorem answers_rowAt {p : SlotPage} (h : Shaped n p) (offset : UInt16) :
    Answers (fun row => row.toNat < rowsIn n) (rowAt offset p) := by
  unfold rowAt
  by_cases hbad : offset < layout.base ∨ (offset - layout.base) % layout.stride ≠ 0 ∨
      p.capacity ≤ (offset - layout.base) / layout.stride
  · rw [if_pos hbad]
    trivial
  · -- An offset that passes the checks lies behind the header, so its row is found.
    rw [if_neg hbad]
    rw [not_or, not_or] at hbad
    obtain ⟨hbase, -, hin⟩ := hbad
    unfold RowLayout.rowAt
    rw [if_neg hbase, if_neg (by decide)]
    change ((offset - layout.base) / layout.stride).toNat < rowsIn n
    rw [← h.toNat_capacity]
    exact UInt16.lt_iff_toNat_lt.mp (UInt16.not_le.mp hin)

theorem safe_keepSize (hrow : row.toNat < rowsIn n) (size : UInt32) :
    Safe n (keepSize row size) fun _ => True := by
  intro p hp
  have hrun : (keepSize row size).run p =
      ⟨.ok (), ⟨p.record, p.sizes.setIfInBounds row.toNat (some size)⟩, []⟩ :=
    if_pos (by rwa [hp.size_sizes])
  rw [hrun]
  exact ⟨⟨hp.least, hp.greatest, hp.length_eq, Array.size_setIfInBounds.trans hp.size_sizes⟩,
    trivial⟩

theorem safe_sizePosition (hrow : row.toNat < rowsIn n) :
    Safe n (.lift (sizePosition row)) fun position => position + 4 ≤ n := by
  refine .view fun p hp => ?_
  rw [sizePosition_of_lt hp.greatest hrow]
  exact rowStart_add_le hrow

theorem safe_readSize (hrow : row.toNat < rowsIn n) : Safe n (readSize row) fun _ => True := by
  have hread : Safe n (.view (sizeRead? row)) fun _ => True := by
    refine .view fun p hp => ?_
    have hlt : row.toNat < p.sizes.size := by rwa [hp.size_sizes]
    unfold sizeRead?
    rw [Array.getElem?_eq_getElem hlt]
    trivial
  unfold readSize
  refine hread.bind fun kept _ => ?_
  cases kept with
  | some size => exact .pure trivial
  | none =>
    refine (safe_sizePosition hrow).bind fun position hposition => ?_
    refine Safe.bind (P := fun _ => True) (.view fun p hp => ?_) fun size _ => ?_
    · exact Record.answers_read32 (by rwa [hp.length_eq])
    · refine (Safe.report _).bind fun _ _ => ?_
      exact (safe_keepSize hrow size).bind fun _ _ => .pure trivial

/-! ## Writes -/

theorem safe_writeSize (hrow : row.toNat < rowsIn n) (size : UInt32) :
    Safe n (writeSize row size) fun _ => True := by
  unfold writeSize
  refine (safe_sizePosition hrow).bind fun position hposition => ?_
  refine Safe.bind (P := fun _ => True) (.onRecord fun r hr => ?_) fun _ _ =>
    safe_keepSize hrow size
  rw [Record.run_write32 (by rwa [hr])]
  exact ⟨(Record.length_put ..).trans hr, trivial⟩

theorem safe_setCount (count : UInt16) : Safe n (setCount count) fun _ => True := by
  intro p hp
  refine Safe.onRecord (fun r hr => ?_) p hp
  have hfit : countPosition + 2 ≤ r.length := by
    rw [hr]
    exact hp.least
  rw [Record.run_write16 hfit]
  exact ⟨(Record.length_put ..).trans hr, trivial⟩

theorem safe_setLocation {offset : UInt16} (hrow : row.toNat < rowsIn n)
    (hoff : offset.toNat = rowStart row.toNat) (l : Location) :
    Safe n (setLocation offset l) fun _ => True := by
  intro p hp
  refine Safe.onRecord (fun r hr => ?_) p hp
  rw [Record.run_writeLocation (by rw [hr]; exact hp.greatest) (by rwa [hr]) hoff]
  exact ⟨(Record.length_putLocation ..).trans hr, trivial⟩

-- Claiming and releasing end with the same writes.
theorem safe_writeRow {offset : UInt16} (hrow : row.toNat < rowsIn n)
    (hoff : offset.toNat = rowStart row.toNat) (size : UInt32) (l : Location) (count : UInt16)
    (event : SlotPage → Event) :
    Safe n (do
      writeSize row size
      setLocation offset l
      setCount count
      .report event
      return offset) fun _ => True :=
  (safe_writeSize hrow size).bind fun _ _ => (safe_setLocation hrow hoff l).bind fun _ _ =>
    (safe_setCount count).bind fun _ _ => (Safe.report event).bind fun _ _ => .pure trivial

/-! ## The count -/

theorem answers_count {p : SlotPage} (h : Shaped n p) : Answers (fun _ => True) p.count := by
  refine Record.answers_read16 ?_
  rw [h.length_eq]
  exact h.least

/-- A count below the capacity does not wrap when it goes up. -/
theorem answers_countUp {p : SlotPage} (h : Shaped n p) (row : UInt16) :
    Answers (fun _ => True) (p.countUp row) := by
  refine (answers_count h).bind fun count _ => ?_
  split
  · trivial
  · rename_i hroom
    have hlt := UInt16.lt_iff_toNat_lt.mp (UInt16.not_le.mp hroom)
    have hcap := rowsIn_lt h.greatest
    rw [h.toNat_capacity] at hlt
    have hsum : count.toNat + (1 : UInt16).toNat < UInt16.size := by
      change count.toNat + 1 < 65536
      omega
    rw [Word.add16_of_lt hsum]
    trivial

theorem answers_countDown {p : SlotPage} (h : Shaped n p) (row : UInt16) :
    Answers (fun _ => True) (p.countDown row) := by
  refine (answers_count h).bind fun count _ => ?_
  split <;> trivial

theorem answers_countFor {p : SlotPage} (h : Shaped n p) (row : UInt16) (old new : UInt32) :
    Answers (fun _ => True) (p.countFor row old new) := by
  unfold countFor
  split
  · exact (answers_countUp h row).map _
  · split
    · exact (answers_countDown h row).map _
    · trivial

/-! ## Calls -/

theorem safe_claim (row : UInt16) : Safe n (claim row) fun _ => True := by
  refine Safe.bind (.view fun p hp => answers_offsetOf hp row) fun offset ⟨hrow, hoff⟩ => ?_
  refine (safe_readSize hrow).bind fun size _ => ?_
  split
  · exact .refuse _
  · refine Safe.bind (.view fun p hp => answers_countUp hp row) fun count _ => ?_
    exact safe_writeRow hrow hoff _ _ _ _

theorem safe_release (row : UInt16) : Safe n (release row) fun _ => True := by
  refine Safe.bind (.view fun p hp => answers_offsetOf hp row) fun offset ⟨hrow, hoff⟩ => ?_
  refine (safe_readSize hrow).bind fun size _ => ?_
  split
  · exact .refuse _
  · refine Safe.bind (.view fun p hp => answers_countDown hp row) fun count _ => ?_
    exact safe_writeRow hrow hoff _ _ _ _

theorem safe_setSizeAt (offset : UInt16) (size : UInt32) :
    Safe n (setSizeAt offset size) fun _ => True := by
  refine Safe.bind (.view fun p hp => answers_rowAt hp offset) fun row hrow => ?_
  refine (safe_readSize hrow).bind fun old _ => ?_
  refine Safe.bind (.view fun p hp => answers_countFor hp row old size) fun count _ => ?_
  refine (safe_writeSize hrow size).bind fun _ _ => ?_
  cases count with
  | none => exact .pure trivial
  | some count => exact (safe_setCount count).bind fun _ _ => .report _

theorem safe_sizeAt (offset : UInt16) : Safe n (sizeAt offset) fun _ => True :=
  .bind (.view fun _ hp => answers_rowAt hp offset) fun _ hrow => safe_readSize hrow

theorem safe_isInUse (row : UInt16) : Safe n (isInUse row) fun _ => True :=
  .bind (.view fun _ hp => answers_offsetOf hp row) fun _ h => (safe_readSize h.1).map _

theorem answers_location {p : SlotPage} (h : Shaped n p) (row : UInt16) :
    Answers (fun _ => True) (p.location row) := by
  refine (answers_offsetOf h row).bind fun offset ⟨hrow, hoff⟩ => ?_
  have hend := rowStart_add_le hrow
  obtain ⟨hadd, hnext⟩ := Record.add16_four_of_le h.greatest (show offset.toNat + 6 ≤ n by omega)
  have hoffset : Answers (fun _ => True) (p.record.locationOffset offset) := by
    unfold Record.locationOffset
    rw [hadd]
    exact Record.answers_read16 (by rw [hnext, h.length_eq]; omega)
  refine (Record.answers_read32 (by rw [hoff, h.length_eq]; omega)).bind fun _ _ => ?_
  exact hoffset.bind fun _ _ => trivial

/-- The rows that a page goes through are rows that it has. -/
theorem safe_rows : Safe n (.get rows) fun rs => ∀ row ∈ rs, row.toNat < rowsIn n :=
  .view fun _ hp _ => (mem_rows hp).mp

theorem safe_firstVacant : Safe n firstVacant fun _ => True := by
  refine safe_rows.bind fun rs hrs => ?_
  induction rs with
  | nil => exact .pure trivial
  | cons row rest ih =>
    have hrest := ih fun other ho => hrs other (List.mem_cons_of_mem row ho)
    refine ((safe_readSize (hrs row List.mem_cons_self)).map fun size => decide (size = 0)).bind
      fun vacant _ => ?_
    cases vacant with
    | true => exact .pure trivial
    | false => exact hrest

theorem safe_allSizes : Safe n allSizes fun _ => True := by
  refine safe_rows.bind fun rs hrs => ?_
  -- The loop of `mapM` carries the sizes read so far.
  suffices hloop : ∀ read, Safe n (List.mapM.loop readSize rs read) fun _ => True from hloop []
  induction rs with
  | nil => exact fun read => .pure trivial
  | cons row rest ih =>
    intro read
    refine (safe_readSize (hrs row List.mem_cons_self)).bind fun size _ => ?_
    exact ih (fun other ho => hrs other (List.mem_cons_of_mem row ho)) (size :: read)

theorem safe_conclude (request : UInt32) (seen : Seen) :
    Safe n (conclude request seen) fun _ => True := by
  refine Safe.bind (P := fun _ => True) (.view fun _ _ => trivial) fun limit _ => ?_
  split
  · exact .pure trivial
  · exact (Safe.report _).bind fun _ _ => .pure trivial

theorem safe_searchRows (request : UInt32) {rs : List UInt16}
    (hrs : ∀ row ∈ rs, row.toNat < rowsIn n) (seen : Seen) :
    Safe n (searchRows request seen rs) fun _ => True := by
  induction rs generalizing seen with
  | nil => exact safe_conclude request seen
  | cons row rest ih =>
    have hrest := ih fun other ho => hrs other (List.mem_cons_of_mem row ho)
    refine (safe_readSize (hrs row List.mem_cons_self)).bind fun size _ => ?_
    by_cases hskip : size = 0 ∨ size < request
    · simp only [if_pos hskip]
      exact hrest _
    · -- Whatever size was kept or read, it is not below the request here.
      have hle : request ≤ size := UInt32.not_lt.mp fun hlt => hskip (Or.inr hlt)
      simp only [if_neg hskip, Word.sub32_of_le hle]
      refine Safe.bind (P := fun _ => True) (.view fun _ _ => trivial) fun waste _ => ?_
      split
      · exact .pure trivial
      · exact hrest _

theorem safe_search (request : UInt32) : Safe n (search request) fun _ => True :=
  safe_rows.bind fun _ hrs => safe_searchRows request hrs .nothing

/-- The call checks the row or the offset that it is given, or is given none. -/
def Call.IsChecked : Call → Prop
  | .setLocation .. | .locationRecord _ | .locationOffset _ => False
  | _ => True

instance : DecidablePred Call.IsChecked
  | .setLocation .. | .locationRecord _ | .locationOffset _ => isFalse not_false
  | .capacity | .wasteLimit | .count | .firstVacant | .location _ | .isInUse _ | .sizeAt _
  | .setSizeAt .. | .claim _ | .release _ | .search _ | .allSizes => isTrue trivial

theorem safe_call {c : Call} (hc : c.IsChecked) : Safe n c.action fun _ => True := by
  cases c with
  | capacity => exact .view fun _ _ => trivial
  | wasteLimit => exact .view fun _ _ => trivial
  | count => exact .view fun _ hp => (answers_count hp).map _
  | firstVacant => exact safe_firstVacant.map _
  | location row => exact .view fun _ hp => (answers_location hp row).map _
  | isInUse row => exact (safe_isInUse row).map _
  | sizeAt offset => exact (safe_sizeAt offset).map _
  | setSizeAt offset size => exact (safe_setSizeAt offset size).bind fun _ _ => .pure trivial
  | claim row => exact (safe_claim row).map _
  | release row => exact (safe_release row).map _
  | search request => exact (safe_search request).map _
  | allSizes => exact safe_allSizes.map _
  | setLocation | locationRecord | locationOffset => exact hc.elim

/-! ## Runs -/

/-- Also a call that faults keeps the shape of the page. -/
theorem Shaped.call {p : SlotPage} (h : Shaped n p) (c : Call) :
    Shaped n (c.action.run p).state := by
  by_cases hc : c.IsChecked
  · exact (safe_call hc p h).1
  · cases c with
    | setLocation offset l =>
      have hstate : ((Call.setLocation offset l).action.run p).state =
          ⟨((Record.writeLocation offset l).run p.record).state, p.sizes⟩ := by
        simp only [Call.action, Action.run_bind, setLocation, run_onRecord]
        cases ((Record.writeLocation offset l).run p.record).result <;> rfl
      rw [hstate]
      exact ⟨h.least, h.greatest, (Record.length_writeLocation ..).trans h.length_eq, h.size_sizes⟩
    | locationRecord | locationOffset => exact h
    | _ => exact absurd trivial hc

theorem shaped_after {p q : SlotPage} (h : Shaped n p) {moves : List Move}
    (hq : after moves p = .ok q) : Shaped n q := by
  induction moves generalizing p with
  | nil =>
    obtain rfl := Except.ok.inj hq
    exact h
  | cons m rest ih =>
    cases m with
    | call c => exact ih (h.call c) hq
    | reopen =>
      obtain ⟨s, hopen, hq⟩ := exists_of_after_reopen hq
      obtain ⟨hpage, rfl⟩ := ofRecord_eq_ok hopen
      have hs := shaped_unread hpage
      rw [h.length_eq] at hs
      exact ih hs hq

/-! ## Opening -/

theorem answers_requireLength (r : Record) :
    Answers (fun _ => True) (requireLength.run r).result := by
  unfold requireLength
  dsimp only
  split <;> trivial

theorem answers_ofRecord (r : Record) : Answers (fun _ => True) (ofRecord.run r).result := by
  have htype : Answers (fun _ => True) (requireTag.run r).result := by
    rw [result_requireTag]
    exact Record.answers_requireType _
  refine htype.run_bind fun _ _ => ?_
  exact (answers_requireLength _).run_bind fun _ _ => trivial

theorem answers_format (r : Record) : Answers (fun _ => True) (format.run r).result := by
  cases hr : (requireLength.run r).result with
  | error e =>
    refine (answers_requireLength r).run_bind fun _ hok => ?_
    rw [hr] at hok
    exact absurd hok nofun
  | ok u =>
    -- The writes of the header fit a record of a page's length.
    obtain ⟨hleast, hgreatest⟩ := length_of_requireLength hr
    rw [run_format hleast hgreatest]
    trivial

/-- **No checked call faults.**  Opening and formatting answer or refuse, whatever the record is.
On every page that they make, after any run, also one that wrote locations over the header and the
sizes or faulted on the way, each checked call answers or refuses. -/
theorem no_fault :
    (∀ r f, (ofRecord.run r).result ≠ .error (.fault f)) ∧
    (∀ r f, (format.run r).result ≠ .error (.fault f)) ∧
    ∀ r p, ((ofRecord.run r).result = .ok p ∨ (format.run r).result = .ok p) →
      ∀ moves q, after moves p = .ok q →
      ∀ c : Call, c.IsChecked → ∀ f, (c.action.run q).result ≠ .error (.fault f) := by
  refine ⟨fun r => (answers_ofRecord r).ne_fault, fun r => (answers_format r).ne_fault, ?_⟩
  intro r p hp moves q hq c hc
  have hshape : ∃ n, Shaped n p := by
    rcases hp with hp | hp
    · obtain ⟨hpage, rfl⟩ := ofRecord_eq_ok hp
      exact ⟨_, shaped_unread hpage⟩
    · obtain ⟨hl, hg, rfl⟩ := format_eq_ok hp
      exact ⟨_, shaped_unread (Record.isSlotPage_formatted hl hg)⟩
  obtain ⟨n, hshape⟩ := hshape
  exact (safe_call hc q (shaped_after hshape hq)).2.ne_fault

/-- The tag and the count are overwritten, a size behind the back of the page, and the last location
does not fit and faults between its two parts. -/
theorem no_fault_overwritten :
    let r := Record.zeroed 1 24
    let p := unread r.formatted
    let moves := [.call (.claim 0), .call (.setLocation 0 ⟨0xFFFFFFFF, 0xFFFF⟩),
      .call (.setLocation 8 ⟨1, 2⟩), .call (.setLocation 20 ⟨9, 9⟩)]
    (format.run r).result = .ok p ∧
      ((Call.setLocation 20 ⟨9, 9⟩).action.run p).result = .error (.fault .outOfBounds) ∧
      ∃ q, after moves p = .ok q ∧ (Call.claim 1).IsChecked ∧
        ∀ f, ((Call.claim 1).action.run q).result ≠ .error (.fault f) := by
  intro r p moves
  have hp : (format.run r).result = .ok p := by rw [run_format (by decide) (by decide)]
  obtain ⟨-, -, hcalls⟩ := no_fault
  exact ⟨hp, by decide +kernel, _, rfl, trivial,
    hcalls r p (Or.inr hp) moves _ rfl (.claim 1) trivial⟩

end SlotPage

end FreeSpace
