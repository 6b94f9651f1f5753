import FreeSpace.Proofs.RowClaims
import Mathlib.Data.List.GetD
import Mathlib.Data.Nat.Find

/-!
# Filling a page from a list

The rows are filled in order, each from the entry at its position; an entry that is 0 is passed by
without looking at its row.  `Given` is what holds of the page once a first part of the list was gone
through, however the list goes on (`exists_given`).  The first entry whose row cannot take it ends
the filling (`result_fill_of_denied`), and so do the 16-bit row numbers where they end, with a fault
(`run_fillFrom_last`).
-/

namespace FreeSpace

namespace Word

theorem add16_one {i : Nat} (h : i < 65535) : add16 (.ofNat i) 1 = .ok (.ofNat (i + 1)) := by
  have hsize : UInt16.size = 65536 := rfl
  have hi : (UInt16.ofNat i).toNat = i := UInt16.toNat_ofNat_of_lt' (by omega)
  show narrow16 ((UInt16.ofNat i).toNat + 1) = _
  rw [hi]
  exact narrow16_of_lt (by omega)

theorem toUInt32_ofNat {i : Nat} (h : i < UInt16.size) :
    (UInt16.ofNat i).toUInt32 = .ofNat i := by
  have hlt : i < UInt32.size := Nat.lt_trans h (by decide)
  apply UInt32.toNat_inj.mp
  rw [UInt16.toNat_toUInt32, UInt16.toNat_ofNat_of_lt' h, UInt32.toNat_ofNat_of_lt' hlt]

end Word

/-- The outcome of a run that had reported these events before. -/
def Outcome.behind {σ α : Type} (es : List Event) (o : Outcome σ α) : Outcome σ α :=
  ⟨o.result, o.state, es ++ o.events⟩

namespace SlotPage

variable {n i : Nat} {p q : SlotPage} {sizes : List UInt32} {size : UInt32}

/-- The entry is a size, and its row cannot take it: the page does not have the row, or it is in
use. -/
def Denies (p : SlotPage) (sizes : List UInt32) (i : Nat) : Prop :=
  sizes.getD i 0 ≠ 0 ∧ (p.capacity.toNat ≤ i ∨ p.reported i ≠ 0)

instance (p : SlotPage) (sizes : List UInt32) (i : Nat) : Decidable (p.Denies sizes i) :=
  inferInstanceAs (Decidable (_ ∧ _))

/-- What a size for this row is refused with. -/
def denial (p : SlotPage) (i : Nat) : Error :=
  if p.capacity.toNat ≤ i then .slotOutOfRange (.ofNat i) p.capacity else .slotInUse (.ofNat i)

/-- What a page has of row `i` once the row was given this size. -/
def Entry.given (e : Entry) (i : Nat) (size : UInt32) : Entry :=
  if size = 0 then e else ⟨⟨⟨.ofNat i, 0⟩, size⟩, some size⟩

/-- Page `q` is page `p` once its rows were given these sizes. -/
structure Given (n : Nat) (sizes : List UInt32) (p q : SlotPage) : Prop where
  shaped : Shaped n q
  counted : Counted q
  id_eq : q.record.id = p.record.id
  entry : ∀ i < rowsIn n, q.entry i = (p.entry i).given i (sizes.getD i 0)

theorem getD_concat (sizes : List UInt32) (size : UInt32) (i : Nat) :
    (sizes ++ [size]).getD i 0 = if i = sizes.length then size else sizes.getD i 0 := by
  rcases Nat.lt_trichotomy i sizes.length with hlt | rfl | hgt
  · rw [List.getD_append _ _ _ _ hlt, if_neg (by omega)]
  · simp
  · rw [List.getD_eq_default _ _ (by simp; omega), List.getD_eq_default _ _ (by omega),
      if_neg (by omega)]

theorem Denies.lt_length (h : p.Denies sizes i) : i < sizes.length := by
  by_contra hout
  exact h.1 (List.getD_eq_default _ _ (Nat.not_lt.mp hout))

theorem Denies.concat (h : p.Denies sizes i) (size : UInt32) : p.Denies (sizes ++ [size]) i := by
  refine ⟨?_, h.2⟩
  rw [getD_concat, if_neg (Nat.ne_of_lt h.lt_length)]
  exact h.1

-- A row that takes a size is there and vacant.
theorem vacant_of_not_denies (h : Shaped n p) (hok : ¬ p.Denies (sizes ++ [size]) sizes.length)
    (hsize : size ≠ 0) : sizes.length < rowsIn n ∧ p.reported sizes.length = 0 := by
  unfold Denies at hok
  rw [getD_concat, if_pos rfl, h.toNat_capacity] at hok
  constructor
  · by_contra hout
    exact hok ⟨hsize, .inl (Nat.not_lt.mp hout)⟩
  · by_contra hused
    exact hok ⟨hsize, .inr hused⟩

/-! ## One entry -/

theorem given_nil (h : Shaped n p) (hc : Counted p) : Given n [] p p :=
  ⟨h, hc, rfl, fun _ _ => rfl⟩

theorem Given.concat_zero (h : Given n sizes p q) : Given n (sizes ++ [0]) p q := by
  refine ⟨h.shaped, h.counted, h.id_eq, fun i hi => ?_⟩
  rw [h.entry i hi, getD_concat]
  split
  · rename_i he
    rw [he, List.getD_eq_default _ _ (Nat.le_refl _)]
  · rfl

-- The row behind those that were given a size is as it was.
theorem Given.reported_next (h : Given n sizes p q) (hin : sizes.length < rowsIn n) :
    q.reported sizes.length = p.reported sizes.length := by
  have hentry := h.entry _ hin
  rw [List.getD_eq_default _ _ (Nat.le_refl _)] at hentry
  exact congrArg Entry.size hentry

-- A row is filled as one is claimed for its own number.
theorem fillRow_eq (row : UInt16) (size : UInt32) :
    fillRow row size = claimFor row ⟨⟨row.toUInt32, 0⟩, size⟩ := by
  rw [fillRow, claimFor]

theorem Given.concat (h : Given n sizes p q) (hin : sizes.length < rowsIn n)
    (hvacant : p.reported sizes.length = 0) (hsize : size ≠ 0) :
    ∃ s es, (fillRow (.ofNat sizes.length) size).run q = ⟨.ok (), s, es⟩ ∧
      Given n (sizes ++ [size]) p s := by
  have hrow := h.shaped.toNat_ofNat hin
  have hfree : q.reported (UInt16.ofNat sizes.length).toNat = 0 := by
    rw [hrow, h.reported_next hin, hvacant]
  obtain ⟨s, es, hrun, hwithin, hcounted, hentry⟩ :=
    run_claimFor h.shaped h.counted (by rwa [hrow]) hfree
      (w := ⟨⟨(UInt16.ofNat sizes.length).toUInt32, 0⟩, size⟩) hsize
  rw [hrow] at hwithin hentry
  rw [fillRow_eq]
  refine ⟨s, es, hrun, hwithin.shaped h.shaped, hcounted, hwithin.id_eq.trans h.id_eq,
    fun i hi => ?_⟩
  rw [getD_concat]
  by_cases he : i = sizes.length
  · have hsmall : i < UInt16.size := Nat.lt_trans hi (rowsIn_lt h.shaped.greatest)
    rw [if_pos he, he, hentry, Entry.given, if_neg hsize, ← he, Word.toUInt32_ofNat hsmall]
  · rw [if_neg he, hwithin.entry i (by rwa [h.shaped.length_eq]) he, h.entry i hi]

/-- A row that cannot take a size refuses it. -/
theorem run_fillRow_of_denied (hp : Shaped n p) (h : Given n sizes p q)
    (hlen : sizes.length < UInt16.size)
    (hdenied : p.capacity.toNat ≤ sizes.length ∨ p.reported sizes.length ≠ 0) (size : UInt32) :
    ((fillRow (.ofNat sizes.length) size).run q).result =
      .error (.refused (p.denial sizes.length)) := by
  have hrow : (UInt16.ofNat sizes.length).toNat = sizes.length := UInt16.toNat_ofNat_of_lt' hlen
  rw [hp.toNat_capacity] at hdenied
  rw [fillRow, denial, hp.toNat_capacity, hp.capacity_eq]
  by_cases hout : rowsIn n ≤ sizes.length
  · have hoff : q.offsetOf (.ofNat sizes.length) = _ := h.shaped.offsetOf_of_le (by rwa [hrow])
    have hclaim : (claim (.ofNat sizes.length)).run q = _ := Action.run_bind_view_error hoff _
    rw [Action.run_bind_error hclaim, if_pos hout]
  · have hin := Nat.not_le.mp hout
    have hused : q.reported (UInt16.ofNat sizes.length).toNat ≠ 0 := by
      rw [hrow, h.reported_next hin]
      exact hdenied.resolve_left hout
    obtain ⟨es, hclaim⟩ := run_claim_of_used h.shaped (by rwa [hrow]) hused
    rw [Action.run_bind_error hclaim, if_neg hout]

/-! ## All entries -/

-- The row after this one has no number, whether or not there is an entry for it.
theorem run_fillFrom_last (rest : List UInt32) (p : SlotPage) :
    (fillFrom 65535 rest).run p = ⟨.error (.fault .overflow), p, []⟩ := by
  cases rest <;> rfl

theorem run_fillFrom_cons (hi : i < 65535) (size : UInt32) (rest : List UInt32) (p : SlotPage) :
    (fillFrom (.ofNat i) (size :: rest)).run p =
      (if size = 0 then fillFrom (.ofNat (i + 1)) rest
        else fillRow (.ofNat i) size >>= fun _ => fillFrom (.ofNat (i + 1)) rest).run p := by
  rw [fillFrom, Word.add16_one hi]
  rfl

/-- Entries that no row denies are all gone through, whatever follows them. -/
theorem exists_given (h : Shaped n p) (hc : Counted p) (hlen : sizes.length ≤ 65535)
    (hok : ∀ i, ¬ p.Denies sizes i) :
    ∃ q es, Given n sizes p q ∧ ∀ rest,
      (fill (sizes ++ rest)).run p = ((fillFrom (.ofNat sizes.length) rest).run q).behind es := by
  -- The loop goes forward, so the entry that it reaches last is taken off the end.
  induction sizes using List.reverseRecOn with
  | nil => exact ⟨p, [], given_nil h hc, fun _ => rfl⟩
  | append_singleton sizes size ih =>
    rw [List.length_append, List.length_singleton] at hlen ⊢
    obtain ⟨q, es, hgiven, hrun⟩ := ih (by omega) fun i hd => hok i (hd.concat size)
    have hcons : ∀ rest, (sizes ++ [size]) ++ rest = sizes ++ size :: rest := fun rest => by simp
    by_cases hsize : size = 0
    · refine ⟨q, es, hsize ▸ hgiven.concat_zero, fun rest => ?_⟩
      rw [hcons, hrun, run_fillFrom_cons (by omega), if_pos hsize]
    · obtain ⟨hin, hvacant⟩ := vacant_of_not_denies h (hok sizes.length) hsize
      obtain ⟨s, fs, hfill, hgiven⟩ := hgiven.concat hin hvacant hsize
      refine ⟨s, es ++ fs, hgiven, fun rest => ?_⟩
      rw [hcons, hrun, run_fillFrom_cons (by omega), if_neg hsize, Action.run_bind_ok hfill]
      simp [Outcome.behind]

/-- The same of a list's first entries. -/
theorem exists_given_take (h : Shaped n p) (hc : Counted p) {k : Nat} (hk : k ≤ 65535)
    (hlen : k ≤ sizes.length) (hok : ∀ i < k, ¬ p.Denies sizes i) :
    ∃ q es, Given n (sizes.take k) p q ∧
      (fill sizes).run p = ((fillFrom (.ofNat k) (sizes.drop k)).run q).behind es := by
  have hshort : (sizes.take k).length = k := List.length_take_of_le hlen
  have hbefore : ∀ i, ¬ p.Denies (sizes.take k) i := by
    intro i hd
    have hi : i < k := hshort ▸ hd.lt_length
    obtain ⟨hsize, hrow⟩ := hd
    refine hok i hi ⟨?_, hrow⟩
    simpa [List.getD_eq_getElem?_getD, hi] using hsize
  obtain ⟨q, es, hgiven, hrun⟩ := exists_given h hc (by omega) hbefore
  have hrest := hrun (sizes.drop k)
  rw [List.take_append_drop, hshort] at hrest
  exact ⟨q, es, hgiven, hrest⟩

/-- A list that ends before the row numbers do, and that no row denies, fills the page. -/
theorem run_fill (h : Shaped n p) (hc : Counted p) (hlen : sizes.length < 65535)
    (hok : ∀ i, ¬ p.Denies sizes i) :
    ∃ q es, (fill sizes).run p = ⟨.ok (), q, es⟩ ∧ Given n sizes p q := by
  obtain ⟨q, es, hgiven, hrun⟩ := exists_given h hc (Nat.le_of_lt hlen) hok
  have hend := hrun []
  rw [List.append_nil, fillFrom, Word.add16_one hlen] at hend
  exact ⟨q, es ++ [], hend, hgiven⟩

theorem result_fill_of_long (h : Shaped n p) (hc : Counted p) (hlen : 65535 ≤ sizes.length)
    (hok : ∀ i < 65535, ¬ p.Denies sizes i) :
    ((fill sizes).run p).result = .error (.fault .overflow) := by
  obtain ⟨q, es, -, hrun⟩ := exists_given_take h hc (Nat.le_refl _) hlen hok
  rw [hrun]
  exact congrArg Outcome.result (run_fillFrom_last _ q)

/-- The first entry that its row denies is what the filling is refused for. -/
theorem result_fill_of_denied (h : Shaped n p) (hc : Counted p) (hi : i < 65535)
    (hdenied : p.Denies sizes i) (hfirst : ∀ j < i, ¬ p.Denies sizes j) :
    ((fill sizes).run p).result = .error (.refused (p.denial i)) := by
  have hin := hdenied.lt_length
  obtain ⟨hsize, hrow⟩ := hdenied
  rw [List.getD_eq_getElem _ _ hin] at hsize
  obtain ⟨q, es, hgiven, hrun⟩ := exists_given_take h hc (Nat.le_of_lt hi) (Nat.le_of_lt hin) hfirst
  have hrefused := run_fillRow_of_denied h hgiven
  rw [List.length_take_of_le (Nat.le_of_lt hin)] at hrefused
  have hresult := hrefused (Nat.lt_succ_of_lt hi) hrow sizes[i]
  rw [hrun, List.drop_eq_getElem_cons hin, run_fillFrom_cons hi, if_neg hsize]
  show ((fillRow (.ofNat i) sizes[i] >>= fun _ => _).run q).result = _
  rw [Action.run_bind, hresult]

/-! ## Empty pages -/

theorem reached_formatted {r : Record} (hl : 4 ≤ r.length) (hg : r.length ≤ Record.maxLength) :
    Reached (unread r.formatted) :=
  ⟨r, _, [], .inr (by rw [run_format hl hg]), rfl⟩

theorem shaped_formatted {r : Record} (hl : 4 ≤ r.length) (hg : r.length ≤ Record.maxLength) :
    Shaped r.length (unread r.formatted) := by
  have h := shaped_unread (Record.isSlotPage_formatted hl hg)
  rwa [Record.length_formatted] at h

theorem counted_formatted {r : Record} (hl : 4 ≤ r.length) (hg : r.length ≤ Record.maxLength) :
    Counted (unread r.formatted) :=
  (sound_unread (Record.isSlotPage_formatted hl hg)).counted_iff.mpr (drift_formatted hl)

/-! ## How filling ends -/

/-- **How filling a page ends.**  On a page whose count is right, a list of sizes is refused for the
first entry whose row the page does not have or has in use, and done if there is none; entries that
are 0 do not count, wherever they are.  A list of 65535 entries or more that is not refused for one of
the first 65535 is a fault, because the row numbers end there. -/
theorem fill_ends (hp : Reached p) (hc : Counted p) (sizes : List UInt32) :
    let o := (fill sizes).run p
    (∀ i < 65535, p.Denies sizes i → (∀ j < i, ¬ p.Denies sizes j) →
        o.result = .error (.refused (p.denial i))) ∧
      ((∀ i < 65535, ¬ p.Denies sizes i) →
        o.result = if sizes.length < 65535 then .ok () else .error (.fault .overflow)) ∧
      (sizes.length < 65535 →
        (∀ f, o.result ≠ .error (.fault f)) ∧
          ((∃ e, o.result = .error e) ↔ ∃ i, p.Denies sizes i)) := by
  intro o
  have h := hp.shaped
  have hdenied : ∀ i < 65535, p.Denies sizes i → (∀ j < i, ¬ p.Denies sizes j) →
      o.result = .error (.refused (p.denial i)) :=
    fun i hi hd hfirst => result_fill_of_denied h hc hi hd hfirst
  have hdone : sizes.length < 65535 → (∀ i, ¬ p.Denies sizes i) → o.result = .ok () := by
    intro hlen hok
    obtain ⟨q, es, hrun, -⟩ := run_fill h hc hlen hok
    exact congrArg Outcome.result hrun
  refine ⟨hdenied, fun hok => ?_, fun hlen => ?_⟩
  · by_cases hlen : sizes.length < 65535
    · rw [if_pos hlen]
      exact hdone hlen fun i hd => hok i (Nat.lt_trans hd.lt_length hlen) hd
    · rw [if_neg hlen]
      exact result_fill_of_long h hc (Nat.not_lt.mp hlen) hok
  · by_cases hany : ∃ i, p.Denies sizes i
    · have hfirst : p.Denies sizes (Nat.find hany) := Nat.find_spec hany
      have hresult := hdenied _ (Nat.lt_trans hfirst.lt_length hlen) hfirst
        fun j hj => Nat.find_min hany hj
      rw [hresult]
      exact ⟨nofun, fun _ => hany, fun _ => ⟨_, rfl⟩⟩
    · rw [hdone hlen fun i hd => hany ⟨i, hd⟩]
      exact ⟨nofun, nofun, fun h => absurd h hany⟩

/-- A size behind two rows that are left vacant. -/
theorem fill_ends_third_row :
    let p := unread (Record.zeroed 1 24).formatted
    Reached p ∧ Counted p ∧ p.capacity = 2 ∧
      ((fill [0, 0, 7]).run p).result = .error (.refused (.slotOutOfRange 2 2)) := by
  intro p
  have hp : Reached p := reached_formatted (by decide) (by decide)
  have hc : Counted p := counted_formatted (by decide) (by decide)
  have hdenied : p.Denies [0, 0, 7] 2 := by decide +kernel
  have hfirst : ∀ j < 2, ¬ p.Denies [0, 0, 7] j := by decide +kernel
  have hdenial : p.denial 2 = .slotOutOfRange 2 2 := by decide
  rw [← hdenial]
  exact ⟨hp, hc, by decide, (fill_ends hp hc [0, 0, 7]).1 2 (by decide) hdenied hfirst⟩

/-- Zeros longer than the page are taken, and more of them than there are row numbers are a fault. -/
theorem fill_zeros_past_end :
    let p := unread (Record.zeroed 1 24).formatted
    Reached p ∧ Counted p ∧ p.capacity = 2 ∧
      ((fill [0, 0, 0]).run p).result = .ok () ∧
      ((fill (List.replicate 65535 0)).run p).result = .error (.fault .overflow) := by
  intro p
  have hp : Reached p := reached_formatted (by decide) (by decide)
  have hc : Counted p := counted_formatted (by decide) (by decide)
  have hzeros : ∀ i, ¬ p.Denies (List.replicate 65535 0) i := by
    rintro i ⟨hsize, -⟩
    exact hsize (List.getElem?_getD_replicate_default_eq ..)
  have hlong := result_fill_of_long hp.shaped hc (List.length_replicate ..).ge fun i _ => hzeros i
  exact ⟨hp, hc, by decide, by decide +kernel, hlong⟩

end SlotPage

end FreeSpace
