import FreeSpace.Proofs.Refusals
import FreeSpace.Proofs.RowTable

/-!
# A page is a table of rows

A table follows a run by the calls that succeeded: a claim sets its row to the placeholder, a
release blanks it, a new size or location replaces that field, and nothing else matters.  The record
of a page says what this table says (`table_after`), and nothing of how it came about: the bytes of
the rows are the table's, the count moves with the rows in use, and all other bytes are those that
the page was opened on (`holds_replay`).
-/

namespace FreeSpace

open SlotPage (Call rowStart rowStart_eq rowStart_add_le rowsIn)
open BarePage (rowOver respond AtRowStarts Effect)

/-- The calls of a run in order, each with its answer. -/
abbrev History : Type :=
  List (Call × Result Reply)

namespace Table

/-- What a call makes of the table if it succeeds. -/
def done : Call → List Row → List Row
  | .claim row, t => t.set row.toNat ⟨⟨1, 1⟩, 1⟩
  | .release row, t => t.set row.toNat ⟨⟨0, 0⟩, 0⟩
  | .setSizeAt offset size, t => t.modify (rowOver offset) fun w => { w with size := size }
  | .setLocation offset l, t => t.modify (rowOver offset) fun w => { w with location := l }
  | _, t => t

/-- A call that failed leaves the table. -/
def step (t : List Row) : Call × Result Reply → List Row
  | (c, .ok _) => done c t
  | (_, .error _) => t

def replay (t : List Row) (h : History) : List Row :=
  h.foldl step t

/-- The number of rows in use. -/
def inUse (t : List Row) : Nat :=
  t.countP fun w => w.size ≠ 0

@[simp] theorem length_step (t : List Row) (e : Call × Result Reply) :
    (step t e).length = t.length := by
  obtain ⟨c, answer⟩ := e
  cases answer with
  | error => rfl
  | ok =>
    cases c with
    | claim | release => exact List.length_set
    | setSizeAt | setLocation => exact List.length_modify ..
    | _ => rfl

@[simp] theorem length_replay (t : List Row) (h : History) : (replay t h).length = t.length := by
  induction h generalizing t with
  | nil => rfl
  | cons e rest ih =>
    change (replay (step t e) rest).length = t.length
    rw [ih, length_step]

theorem replay_concat (t : List Row) (h : History) (e : Call × Result Reply) :
    replay t (h ++ [e]) = step (replay t h) e :=
  List.foldl_concat ..

/-! ## The last call on a row -/

/-- The row that a call wrote, if it wrote one. -/
def written? : Call × Result Reply → Option Nat
  | (.claim row, .ok _) | (.release row, .ok _) => some row.toNat
  | (.setSizeAt offset _, .ok _) | (.setLocation offset _, .ok _) => some (rowOver offset)
  | _ => none

def isRelease : Call → Bool
  | .release _ => true
  | _ => false

/-- The row was never written, or the last call that wrote it released it. -/
def AtRest (h : History) (row : Nat) : Prop :=
  ∀ e ∈ (h.filter fun e => written? e = some row).getLast?, isRelease e.1

instance (h : History) (row : Nat) : Decidable (AtRest h row) :=
  inferInstanceAs (Decidable (∀ e ∈ (h.filter fun e => written? e = some row).getLast?, _))

theorem getElem?_step_of_ne {e : Call × Result Reply} {row : Nat} (h : written? e ≠ some row)
    (t : List Row) : (step t e)[row]? = t[row]? := by
  obtain ⟨c, answer⟩ := e
  cases answer with
  | error => rfl
  | ok =>
    cases c with
    | claim | release => exact List.getElem?_set_ne fun he => h (congrArg some he)
    | setSizeAt | setLocation => exact List.getElem?_modify_ne _ _ fun he => h (congrArg some he)
    | _ => rfl

theorem getElem?_step_of_release {e : Call × Result Reply} {row : Nat}
    (hrow : written? e = some row) (he : isRelease e.1) {t : List Row} (ht : row < t.length) :
    (step t e)[row]? = some .blank := by
  obtain ⟨c, answer⟩ := e
  cases c with
  | release r =>
    cases answer with
    | error => exact absurd hrow nofun
    | ok =>
      obtain rfl : r.toNat = row := Option.some.inj hrow
      exact List.getElem?_set_self ht
  | _ => exact absurd he nofun

/-- A row at rest is blank if it was blank at the start. -/
theorem getElem?_replay_of_atRest {h : History} {row : Nat} (hrest : AtRest h row) {t : List Row}
    (ht : t[row]? = some .blank) : (replay t h)[row]? = some .blank := by
  have hlt : row < t.length := (List.getElem?_eq_some_iff.mp ht).1
  -- The call that decides is the last on the row, so the history is taken apart from its end.
  induction h using List.reverseRecOn with
  | nil => exact ht
  | append_singleton h e ih =>
    rw [replay_concat]
    unfold AtRest at hrest
    by_cases hw : written? e = some row
    · rw [List.filter_append, List.filter_cons_of_pos (by simpa using hw), List.filter_nil,
        List.getLast?_concat] at hrest
      exact getElem?_step_of_release hw (hrest e rfl) (by rwa [length_replay])
    · rw [List.filter_append, List.filter_cons_of_neg (by simpa using hw), List.filter_nil,
        List.append_nil] at hrest
      rw [getElem?_step_of_ne hw]
      exact ih hrest

end Table

namespace Record

theorem inUse_table (r : Record) : Table.inUse r.table = r.inUse.card := by
  unfold Table.inUse table
  rw [List.countP_map, List.countP_eq_length_filter]
  rfl

end Record

namespace BarePage

variable {r r' : Record}

/-! ## One call -/

theorem andThen_eq_ok {α β : Type} {found : Result α} {f : α → Result β × Record} {b : β}
    (h : (andThen found r f).1 = .ok b) :
    ∃ a, found = .ok a ∧ (f a).1 = .ok b ∧ (andThen found r f).2 = (f a).2 := by
  cases found with
  | ok a => exact ⟨a, rfl, h, rfl⟩
  | error => exact absurd h nofun

theorem map_eq_ok {α β : Type} {x : Result α} {f : α → β} {b : β} (h : x.map f = .ok b) :
    ∃ a, x = .ok a := by
  cases x with
  | ok a => exact ⟨a, rfl⟩
  | error => exact absurd h nofun

theorem turn_snd_of_ok {found count : Result UInt16} {wrong : Prop} [Decidable wrong]
    {why : Failure} {write : UInt16 → Record} {offset : UInt16}
    (h : (turn found r wrong why count write).1 = .ok offset) :
    (∃ start, found = .ok start) ∧ ∃ n, (turn found r wrong why count write).2 = write n := by
  obtain ⟨start, hstart, hrest, hsnd⟩ := andThen_eq_ok h
  refine ⟨⟨start, hstart⟩, ?_⟩
  by_cases hwrong : wrong
  · rw [if_pos hwrong] at hrest
    exact absurd hrest nofun
  · rw [if_neg hwrong] at hrest hsnd
    obtain ⟨n, -, -, hcount⟩ := andThen_eq_ok hrest
    exact ⟨n, hsnd.trans hcount⟩

/-- A row that is turned holds what it was written with. -/
theorem table_turn (h : r.IsSlotPage) {row offset : UInt16} {wrong : Prop} [Decidable wrong]
    {why : Failure} {count : Result UInt16} {l : Location} {size : UInt32}
    (hok : (turn (offsetOf row r) r wrong why count (withRow r row l size)).1 = .ok offset) :
    (turn (offsetOf row r) r wrong why count (withRow r row l size)).2.table =
      r.table.set row.toNat ⟨l, size⟩ := by
  obtain ⟨⟨start, hstart⟩, n, hsnd⟩ := turn_snd_of_ok hok
  rw [hsnd]
  exact Record.table_rewritten (offsetOf_eq_ok h hstart).1 ..

theorem table_setSizeAt (h : r.IsSlotPage) {offset : UInt16} {size : UInt32}
    (hok : (setSizeAt offset size r).1 = .ok ()) :
    (setSizeAt offset size r).2.table =
      r.table.modify (rowOver offset) fun w => { w with size := size } := by
  obtain ⟨row, hat, hrest, hsnd⟩ := andThen_eq_ok hok
  obtain ⟨hrow, hoff⟩ := rowAt_eq_ok h hat
  obtain ⟨count, -, -, hcount⟩ := andThen_eq_ok hrest
  unfold setSizeAt
  rw [hsnd, hcount, rowOver_of_start hoff, ← Record.table_putSize hrow]
  cases count with
  | none => rfl
  | some => exact Record.table_putCount ..

/-- A call changes the table as its answer says. -/
theorem table_respond (h : r.IsSlotPage) {c : Call} (hc : AtRowStarts r.length c) :
    (respond c r).2.table = Table.step r.table (c, (respond c r).1) := by
  cases hr : (respond c r).1 with
  | error e =>
    rw [respond_snd_of_error h hc hr]
    rfl
  | ok reply =>
    cases c with
    | claim row =>
      obtain ⟨offset, hok⟩ := map_eq_ok hr
      exact table_turn h (claim_eq_turn row r ▸ hok)
    | release row =>
      obtain ⟨offset, hok⟩ := map_eq_ok hr
      exact table_turn h (release_eq_turn row r ▸ hok)
    | setSizeAt offset size =>
      obtain ⟨_, hok⟩ := map_eq_ok hr
      exact table_setSizeAt h hok
    | setLocation offset l =>
      obtain ⟨row, hrow, hoff⟩ := hc
      change ((Record.writeLocation offset l).run r).state.table = r.table.modify (rowOver offset) _
      rw [Record.run_writeLocation h.greatest hrow hoff, rowOver_of_start hoff]
      exact Record.table_putLocation hrow l
    | _ => rfl

/-! ## Bytes outside the rows -/

/-- A byte of the tag, or behind the last row. -/
def Outside (r : Record) (i : Nat) : Prop :=
  i < 2 ∨ rowStart (rowsIn r.length) ≤ i

theorem getElem?_putSize_of_outside {row i : Nat} (hrow : row < rowsIn r.length) (hi : Outside r i)
    (size : UInt32) : (r.putSize row size).data[i]? = r.data[i]? := by
  have hs := rowStart_eq row
  have hn := rowStart_eq (rowsIn r.length)
  apply Record.getElem?_put_of_outside
  rw [Bytes.length_digits]
  change i < rowStart row + 6 ∨ rowStart row + 6 + 4 ≤ i
  rcases hi with hi | hi <;> omega

theorem getElem?_putLocation_of_outside {row i : Nat} (hrow : row < rowsIn r.length)
    (hi : Outside r i) (l : Location) : (r.putLocation row l).data[i]? = r.data[i]? := by
  have hs := rowStart_eq row
  have hn := rowStart_eq (rowsIn r.length)
  unfold Record.putLocation
  rw [Record.getElem?_put_of_outside, Record.getElem?_put_of_outside]
  all_goals
    rw [Bytes.length_digits]
    rcases hi with hi | hi <;> omega

theorem getElem?_putCount_of_outside {i : Nat} (hi : Outside r i) (count : UInt16) :
    (r.putCount count).data[i]? = r.data[i]? := by
  have hn := rowStart_eq (rowsIn r.length)
  apply Record.getElem?_put_of_outside
  rw [Bytes.length_digits]
  change i < 2 ∨ 2 + 2 ≤ i
  rcases hi with hi | hi <;> omega

theorem outside_congr (hlen : r'.length = r.length) {i : Nat} : Outside r' i ↔ Outside r i := by
  unfold Outside
  rw [hlen]

namespace Effect

theorem id_eq (h : Effect r r') : r'.id = r.id := by
  cases h with
  | none => rfl
  | moved => exact Record.id_put ..
  | resized => exact Record.id_put ..
  | turned => exact (Record.id_put ..).trans (Record.id_put ..)
  | rewritten => exact (Record.id_put ..).trans ((Record.id_put ..).trans (Record.id_put ..))

theorem getElem?_of_outside (h : Effect r r') {i : Nat} (hi : Outside r i) :
    r'.data[i]? = r.data[i]? := by
  cases h with
  | none => rfl
  | moved hrow => exact getElem?_putLocation_of_outside hrow hi _
  | resized hrow => exact getElem?_putSize_of_outside hrow hi _
  | turned hrow =>
    rw [getElem?_putCount_of_outside, getElem?_putSize_of_outside hrow hi]
    rwa [outside_congr (Record.length_putSize ..)]
  | rewritten hrow =>
    rw [getElem?_putCount_of_outside, getElem?_putLocation_of_outside,
      getElem?_putSize_of_outside hrow hi]
    · rwa [Record.length_putSize]
    · rwa [outside_congr (Record.length_putSize ..)]
    · rwa [outside_congr ((Record.length_putLocation ..).trans (Record.length_putSize ..))]

end Effect

end BarePage

namespace SlotPage

open BarePage (Outside)

variable {p q : SlotPage} {r : Record} {t : List Row}

/-! ## Runs -/

/-- The calls of a run with their answers. -/
def history : List Move → SlotPage → History
  | [], _ => []
  | .call c :: rest, p => (c, (c.action.run p).result) :: history rest (c.action.run p).state
  | .reopen :: rest, p =>
      match (ofRecord.run p.record).result with
      | .ok q => history rest q
      | .error _ => []

/-- The table of a page is the one that its calls and their answers tell of. -/
theorem table_after (h : Sound p) {moves : List Move}
    (hm : ∀ c ∈ calls moves, AtRowStarts p.record.length c) (hq : after moves p = .ok q) :
    q.record.table = Table.replay p.record.table (history moves p) := by
  induction moves generalizing p with
  | nil =>
    obtain rfl : p = q := Except.ok.inj hq
    rfl
  | cons m rest ih =>
    cases m with
    | call c =>
      have hc := hm c List.mem_cons_self
      have he := ends_call h hc
      have hstep : (c.action.run p).state.record.table =
          Table.step p.record.table (c, (c.action.run p).result) := by
        rw [he.record, he.result]
        exact BarePage.table_respond h.isPage hc
      rw [ih he.sound (atRowStarts_rest h hm) hq, hstep]
      rfl
    | reopen =>
      rw [after_reopen h.isPage] at hq
      have hhist : history (.reopen :: rest) p = history rest (unread p.record) := by
        simp only [history, run_ofRecord h.isPage]
      rw [hhist]
      exact ih (sound_unread h.isPage) hm hq

/-- The page holds table `t`, and is otherwise as on the record `r` that it was opened on. -/
structure Holds (r : Record) (t : List Row) (q : SlotPage) : Prop where
  id_eq : q.record.id = r.id
  length_eq : q.record.length = r.length
  length_table : t.length = rowsIn r.length
  /-- Each row is the big-endian writing of its entry. -/
  rows : ∀ i w, t[i]? = some w → Bytes.window q.record.data (rowStart i) 10 = some w.bytes
  outside : ∀ i, i < 2 ∨ rowStart (rowsIn r.length) ≤ i → q.record.data[i]? = r.data[i]?
  count : (q.record.rowCount.toNat : Int) =
    r.rowCount.toNat + ((Table.inUse t : Int) - Table.inUse r.table)
  location : ∀ (row : UInt16) w, t[row.toNat]? = some w →
    (q.location row).map (·.pack.toNat) =
      .ok (w.location.record.toNat * 65536 + w.location.offset.toNat)

theorem location_of_table (h : Sound q) {row : UInt16} {w : Row}
    (hw : q.record.table[row.toNat]? = some w) : q.location row = .ok w.location := by
  rw [Record.getElem?_table] at hw
  split at hw
  · rename_i hrow
    obtain rfl := Option.some.inj hw
    have hin : ¬ BarePage.capacity q.record ≤ row :=
      UInt16.not_le.mpr (h.lt_capacity_iff.mpr hrow)
    rw [location_eq h, BarePage.location, BarePage.offsetOf, if_neg hin]
    rfl
  · exact absurd hw nofun

theorem Sound.holds (h : Sound q) (hid : q.record.id = r.id) (hlen : q.record.length = r.length)
    (hout : ∀ i, Outside r i → q.record.data[i]? = r.data[i]?)
    (hdrift : q.record.drift = r.drift) : Holds r q.record.table q where
  id_eq := hid
  length_eq := hlen
  length_table := by rw [Record.length_table, hlen]
  rows := by
    intro i w hw
    rw [Record.getElem?_table] at hw
    split at hw
    · rename_i hi
      obtain rfl := Option.some.inj hw
      exact Record.window_row hi
    · exact absurd hw nofun
  outside := hout
  count := by
    unfold Record.drift at hdrift
    rw [Record.inUse_table, Record.inUse_table]
    omega
  location row w hw := by
    rw [location_of_table h hw, ← Location.toNat_pack]
    rfl

/-- A run that writes locations where rows start leaves a page, and that page holds the table that
the run's calls and answers tell of. -/
theorem holds_after (h : r.IsSlotPage) {moves : List Move}
    (hm : ∀ c ∈ calls moves, AtRowStarts r.length c) :
    ∃ q, after moves (unread r) = .ok q ∧
      Holds r (Table.replay r.table (history moves (unread r))) q := by
  obtain ⟨q, hq, hsound, hlen, hid, hout, hdrift⟩ := exists_after (sound_unread h) hm
    (I := fun s => s.id = r.id ∧
      (s.length = r.length ∧ ∀ i, Outside r i → s.data[i]? = r.data[i]?) ∧ s.drift = r.drift)
    ⟨rfl, ⟨rfl, fun _ _ => rfl⟩, rfl⟩
    (by
      rintro s s' hs heff ⟨hid, ⟨hlen, hout⟩, hdrift⟩
      refine ⟨heff.id_eq.trans hid, ⟨heff.length_eq.trans hlen, fun i hi => ?_⟩,
        (heff.drift_eq hs).trans hdrift⟩
      exact (heff.getElem?_of_outside ((BarePage.outside_congr hlen).mpr hi)).trans (hout i hi))
  have htable := table_after (sound_unread h) hm hq
  have hholds := hsound.holds hid hlen hout.2 hdrift
  rw [htable] at hholds
  exact ⟨q, hq, hholds⟩

/-- The table and the record that a page was opened on say all of its bytes. -/
theorem Holds.data_eq {q' : SlotPage} (h : Holds r t q) (h' : Holds r t q') (hl : 4 ≤ r.length) :
    q.record.data = q'.record.data := by
  have hlen := h.length_eq.trans h'.length_eq.symm
  have hcount : q.record.rowCount = q'.record.rowCount := by
    have hc := h.count
    have hc' := h'.count
    exact UInt16.toNat_inj.mp (by omega)
  refine Record.data_ext (by rwa [h'.length_eq]) hlen hcount (fun i hi => ?_) fun i hi => ?_
  · have hrow : i < t.length := by rwa [h.length_table, ← h'.length_eq]
    have hentry := List.getElem?_eq_getElem hrow
    rw [h.rows _ _ hentry, h'.rows _ _ hentry]
  · rw [h'.length_eq] at hi
    rw [h.outside i hi, h'.outside i hi]

/-- **A page is a table of rows, without a history.**  However a page is used, writing locations
where rows start, its record says what the table says that follows the run, beside the bytes that
the page was opened on.  So runs from one record that end in the same table leave the same bytes;
and a formatted page has its first bytes again when each row was released last or never written. -/
theorem holds_replay {p : SlotPage} (hp : (ofRecord.run r).result = .ok p) :
    (∀ moves, (∀ c ∈ calls moves, AtRowStarts r.length c) →
      ∃ q, after moves p = .ok q ∧ Holds r (Table.replay r.table (history moves p)) q) ∧
    (∀ moves moves' q q', (∀ c ∈ calls moves, AtRowStarts r.length c) →
      (∀ c ∈ calls moves', AtRowStarts r.length c) →
      after moves p = .ok q → after moves' p = .ok q' →
      Table.replay r.table (history moves p) = Table.replay r.table (history moves' p) →
      q.record.data = q'.record.data) ∧
    (∀ s, (format.run s).result = .ok p →
      ∀ moves, (∀ c ∈ calls moves, AtRowStarts r.length c) →
      (∀ row < rowsIn r.length, Table.AtRest (history moves p) row) →
      ∃ q, after moves p = .ok q ∧ q.record.data = p.record.data) := by
  obtain ⟨hpage, rfl⟩ := ofRecord_eq_ok hp
  have hall : ∀ moves moves' q q', (∀ c ∈ calls moves, AtRowStarts r.length c) →
      (∀ c ∈ calls moves', AtRowStarts r.length c) →
      after moves (unread r) = .ok q → after moves' (unread r) = .ok q' →
      Table.replay r.table (history moves (unread r)) =
        Table.replay r.table (history moves' (unread r)) →
      q.record.data = q'.record.data := by
    intro moves moves' q q' hm hm' hq hq' htable
    obtain ⟨s, hs, hholds⟩ := holds_after hpage hm
    obtain ⟨s', hs', hholds'⟩ := holds_after hpage hm'
    obtain rfl := Except.ok.inj (hs.symm.trans hq)
    obtain rfl := Except.ok.inj (hs'.symm.trans hq')
    rw [← htable] at hholds'
    exact hholds.data_eq hholds' hpage.least
  refine ⟨fun moves hm => holds_after hpage hm, hall, fun s hs moves hm hrest => ?_⟩
  obtain ⟨q, hq, hholds⟩ := holds_after hpage hm
  refine ⟨q, hq, hall moves [] q _ hm (fun c hc => absurd hc List.not_mem_nil) hq rfl ?_⟩
  -- Every row is blank at the start, and blank again in the end.
  obtain ⟨-, -, hpr⟩ := format_eq_ok hs
  obtain rfl : r = s.formatted := congrArg SlotPage.record hpr
  change _ = s.formatted.table
  apply List.ext_getElem?
  intro row
  by_cases hrow : row < rowsIn s.formatted.length
  · have hblank : s.formatted.table[row]? = some .blank := by
      rw [Record.table_formatted, List.getElem?_replicate, if_pos (by simpa using hrow)]
    rw [hblank]
    exact Table.getElem?_replay_of_atRest (hrest row hrow) hblank
  · rw [List.getElem?_eq_none (by simpa using hrow), List.getElem?_eq_none (by simpa using hrow)]

/-- Two rows are claimed and one resized; both runs end with row 0 in use and row 1 blank. -/
theorem holds_replay_two_runs :
    let s := Record.zeroed 1 27
    let r := s.formatted
    let p := unread r
    let moves := [.call (.claim 1), .call (.claim 0), .reopen, .call (.setSizeAt 4 80),
      .call (.setLocation 4 ⟨3, 9⟩), .call (.release 1)]
    let moves' := [.call (.setSizeAt 4 80), .call (.search 70), .call (.setLocation 4 ⟨3, 9⟩),
      .call (.claim 0)]
    let emptied := moves ++ [.call (.setSizeAt 4 7), .call (.release 0)]
    (ofRecord.run r).result = .ok p ∧ (format.run s).result = .ok p ∧
      (∀ c ∈ calls moves, AtRowStarts r.length c) ∧
      (∀ c ∈ calls moves', AtRowStarts r.length c) ∧
      (∀ c ∈ calls emptied, AtRowStarts r.length c) ∧
      Table.replay r.table (history moves p) = [⟨⟨3, 9⟩, 80⟩, .blank] ∧
      Table.replay r.table (history moves' p) = [⟨⟨3, 9⟩, 80⟩, .blank] ∧
      (∀ row < rowsIn r.length, Table.AtRest (history emptied p) row) ∧
      (∃ q q', after moves p = .ok q ∧ after moves' p = .ok q' ∧
        Holds r [⟨⟨3, 9⟩, 80⟩, .blank] q ∧ q.record.data = q'.record.data) ∧
      ∃ q, after emptied p = .ok q ∧ q.record.data = p.record.data := by
  intro s r p moves moves' emptied
  have hpage : r.IsSlotPage := Record.isSlotPage_formatted (by decide) (by decide)
  have hp : (ofRecord.run r).result = .ok p := by rw [run_ofRecord hpage]
  have hf : (format.run s).result = .ok p := by rw [run_format (by decide) (by decide)]
  have hm : ∀ c ∈ calls moves, AtRowStarts r.length c := by decide
  have hm' : ∀ c ∈ calls moves', AtRowStarts r.length c := by decide
  have he : ∀ c ∈ calls emptied, AtRowStarts r.length c := by decide
  have ht : Table.replay r.table (history moves p) = [⟨⟨3, 9⟩, 80⟩, .blank] := by decide +kernel
  have ht' : Table.replay r.table (history moves' p) = [⟨⟨3, 9⟩, 80⟩, .blank] := by
    decide +kernel
  have hrest : ∀ row < rowsIn r.length, Table.AtRest (history emptied p) row := by
    decide +kernel
  obtain ⟨hholds, hsame, hblank⟩ := holds_replay hp
  obtain ⟨q, hq, hqt⟩ := hholds moves hm
  obtain ⟨q', hq', -⟩ := hholds moves' hm'
  refine ⟨hp, hf, hm, hm', he, ht, ht', hrest, ⟨q, q', hq, hq', ?_, ?_⟩, ?_⟩
  · rwa [ht] at hqt
  · exact hsame moves moves' q q' hm hm' hq hq' (ht.trans ht'.symm)
  · exact hblank s hf emptied he hrest

end SlotPage

end FreeSpace
