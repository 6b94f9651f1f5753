import FreeSpace.Proofs.RowCalls

/-!
# Calls on different rows commute

All rows share the count, which each claim and release reads, checks and writes.  While it is right
it refuses none of them, so a run of calls that write rows is a run on each row by itself (`Ran`).
Two runs that give each row the same calls in the same order therefore end in the same page, however
the rows are interleaved (`interleavings_agree`).
-/

namespace FreeSpace.SlotPage

open BarePage (AtRowStarts Outside)

variable {n : Nat} {p q : SlotPage}

/-- The call writes a row, a location only where a row starts. -/
def Call.WritesRow (n : Nat) (c : Call) : Prop :=
  c.target?.isSome ∧ AtRowStarts n c

instance (n : Nat) : DecidablePred (Call.WritesRow n) := fun _ =>
  inferInstanceAs (Decidable (_ ∧ _))

/-- The calls for the row that starts at `t`. -/
def callsAt (t : Nat) (cs : List Call) : List Call :=
  cs.filter fun c => c.target? = some t

/-- The part of a history that is for the row that starts at `t`. -/
def historyAt (t : Nat) (h : History) : History :=
  h.filter fun e => e.1.target? = some t

section

variable {c : Call} {t t' : Nat}

theorem callsAt_cons_of_eq (h : c.target? = some t) (cs : List Call) :
    callsAt t (c :: cs) = c :: callsAt t cs :=
  List.filter_cons_of_pos (by simpa using h)

theorem callsAt_cons_of_ne (h : c.target? = some t) (hne : t ≠ t') (cs : List Call) :
    callsAt t' (c :: cs) = callsAt t' cs :=
  List.filter_cons_of_neg (by simpa [h] using hne)

theorem historyAt_cons_of_eq (h : c.target? = some t) (answer : Result Reply) (rest : History) :
    historyAt t ((c, answer) :: rest) = (c, answer) :: historyAt t rest :=
  List.filter_cons_of_pos (by simpa using h)

theorem historyAt_cons_of_ne (h : c.target? = some t) (hne : t ≠ t') (answer : Result Reply)
    (rest : History) : historyAt t' ((c, answer) :: rest) = historyAt t' rest :=
  List.filter_cons_of_neg (by simpa [h] using hne)

end

/-- Calls in this order on one row: their answers, and what the row is afterwards. -/
def Entry.run : Entry → List Call → History × Entry
  | e, [] => ([], e)
  | e, c :: rest =>
      let later := (e.respond c).2.run rest
      ((c, (e.respond c).1) :: later.1, later.2)

/-- The run of these calls left page `q`, and each row as if the calls for it were all there is. -/
structure Ran (n : Nat) (p : SlotPage) (cs : List Call) (q : SlotPage) : Prop where
  after_eq : after (cs.map .call) p = .ok q
  shaped : Shaped n q
  counted : Counted q
  id_eq : q.record.id = p.record.id
  outside : ∀ k, Outside p.record k → q.record.data[k]? = p.record.data[k]?
  dirty : q.record.dirty = (p.record.dirty || (history (cs.map .call) p).any fun e => e.2.isOk)
  row : ∀ i < rowsIn n, (historyAt (rowStart i) (history (cs.map .call) p), q.entry i) =
    (p.entry i).run (callsAt (rowStart i) cs)
  /-- Where no row starts a call is answered as on any page. -/
  elsewhere : ∀ t, (∀ i < rowsIn n, t ≠ rowStart i) → ∀ s, Shaped n s →
    historyAt t (history (cs.map .call) p) =
      (callsAt t cs).map fun c => (c, (c.action.run s).result)

theorem Ran.nil (h : Shaped n p) (hc : Counted p) : Ran n p [] p where
  after_eq := rfl
  shaped := h
  counted := hc
  id_eq := rfl
  outside _ _ := rfl
  dirty := (Bool.or_false _).symm
  row _ _ := rfl
  elsewhere _ _ _ _ := rfl

theorem rowStart_ne {i j : Nat} (h : i ≠ j) : rowStart i ≠ rowStart j := by
  rw [rowStart_eq, rowStart_eq]
  omega

-- The first call is for a row of the page.
theorem Ran.cons_served (h : Shaped n p) {c : Call} {cs : List Call} {i : Nat}
    (hi : i < rowsIn n) (ht : c.target? = some (rowStart i)) (hs : Served c i p (c.action.run p))
    (hr : Ran n (c.action.run p).state cs q) : Ran n p (c :: cs) q where
  after_eq := hr.after_eq
  shaped := hr.shaped
  counted := hr.counted
  id_eq := hr.id_eq.trans hs.within.id_eq
  outside k hk :=
    (hr.outside k ((BarePage.outside_congr hs.within.length_eq).mpr hk)).trans
      (hs.within.outside k hk)
  dirty := by
    rw [hr.dirty, hs.dirty, Bool.or_assoc]
    rfl
  row j hj := by
    have hrow := hr.row j hj
    rw [List.map_cons, history]
    by_cases he : j = i
    · subst he
      rw [hs.entry] at hrow
      rw [historyAt_cons_of_eq ht, callsAt_cons_of_eq ht, Entry.run, hs.result, ← hrow]
    · have hne := rowStart_ne (Ne.symm he)
      rw [hs.within.entry j (by rwa [h.length_eq]) he] at hrow
      rw [historyAt_cons_of_ne ht hne, callsAt_cons_of_ne ht hne, hrow]
  elsewhere t hno s hshape := by
    have hne := Ne.symm (hno i hi)
    rw [List.map_cons, history, historyAt_cons_of_ne ht hne, callsAt_cons_of_ne ht hne]
    exact hr.elsewhere t hno s hshape

-- The first call is for a row that the page does not have.
theorem Ran.cons_elsewhere {c : Call} {cs : List Call} {t : Nat} (ht : c.target? = some t)
    (hno : ∀ i < rowsIn n, t ≠ rowStart i) {e : Failure}
    (hrun : ∀ s, Shaped n s → c.action.run s = ⟨.error e, s, []⟩) (h : Shaped n p)
    (hr : Ran n p cs q) : Ran n p (c :: cs) q := by
  have hfirst := hrun p h
  have hhistory : history ((c :: cs).map .call) p = (c, .error e) :: history (cs.map .call) p := by
    rw [List.map_cons, history, hfirst]
  refine ⟨?_, hr.shaped, hr.counted, hr.id_eq, hr.outside, ?_, fun i hi => ?_,
    fun t' hno' s hs => ?_⟩
  · rw [List.map_cons, after, hfirst]
    exact hr.after_eq
  · rw [hhistory]
    exact hr.dirty
  · rw [hhistory, historyAt_cons_of_ne ht (hno i hi), callsAt_cons_of_ne ht (hno i hi)]
    exact hr.row i hi
  · rw [hhistory]
    by_cases he : t = t'
    · subst he
      rw [historyAt_cons_of_eq ht, callsAt_cons_of_eq ht, List.map_cons, hrun s hs,
        hr.elsewhere t hno s hs]
    · rw [historyAt_cons_of_ne ht he, callsAt_cons_of_ne ht he]
      exact hr.elsewhere t' hno' s hs

theorem exists_ran (h : Shaped n p) (hc : Counted p) {cs : List Call}
    (hcs : ∀ c ∈ cs, c.WritesRow n) : ∃ q, Ran n p cs q := by
  induction cs generalizing p with
  | nil => exact ⟨p, .nil h hc⟩
  | cons c rest ih =>
    obtain ⟨hsome, hstarts⟩ := hcs c List.mem_cons_self
    obtain ⟨t, ht⟩ := Option.isSome_iff_exists.mp hsome
    have hrest := fun d hd => hcs d (List.mem_cons_of_mem c hd)
    by_cases hrow : ∃ i < rowsIn n, t = rowStart i
    · obtain ⟨i, hi, rfl⟩ := hrow
      have hs := served h hc hi ht
      obtain ⟨q, hq⟩ := ih (hs.within.shaped h) hs.counted hrest
      exact ⟨q, .cons_served h hi ht hs hq⟩
    · have hno : ∀ i < rowsIn n, t ≠ rowStart i := fun i hi he => hrow ⟨i, hi, he⟩
      obtain ⟨e, hrun⟩ := run_call_elsewhere ht hstarts hno
      obtain ⟨q, hq⟩ := ih h hc hrest
      exact ⟨q, .cons_elsewhere ht hno hrun h hq⟩

theorem sizes_ext (h : Shaped n p) (h' : Shaped n q)
    (hkept : ∀ i < rowsIn n, q.kept? i = p.kept? i) : q.sizes = p.sizes := by
  apply Array.ext_getElem?
  intro i
  by_cases hi : i < rowsIn n
  · have hlt : i < p.sizes.size := by rwa [h.size_sizes]
    have hlt' : i < q.sizes.size := by rwa [h'.size_sizes]
    have hsame := hkept i hi
    unfold kept? at hsame
    rw [Array.getElem?_eq_getElem hlt, Array.getElem?_eq_getElem hlt'] at hsame ⊢
    exact congrArg some hsame
  · rw [Array.getElem?_eq_none (by rw [h'.size_sizes]; omega),
      Array.getElem?_eq_none (by rw [h.size_sizes]; omega)]

/-- The entries, the bytes outside the rows, the id and the dirty flag are all of a page whose count
is right. -/
theorem page_ext (h : Shaped n p) (h' : Shaped n q) (hc : Counted p) (hc' : Counted q)
    (hid : q.record.id = p.record.id) (hdirty : q.record.dirty = p.record.dirty)
    (hentry : ∀ i < rowsIn n, q.entry i = p.entry i)
    (hout : ∀ k, Outside p.record k → q.record.data[k]? = p.record.data[k]?) : q = p := by
  have hlen : q.record.length = p.record.length := h'.length_eq.trans h.length_eq.symm
  have hoccupied : q.occupied = p.occupied := by
    unfold occupied
    rw [hlen, h.length_eq]
    exact Finset.filter_congr fun i hi => by
      rw [← size_entry, ← size_entry, hentry i (Finset.mem_range.mp hi)]
  have hcount : q.record.rowCount = p.record.rowCount := by
    apply UInt16.toNat_inj.mp
    unfold Counted at hc hc'
    rw [hc, hc', hoccupied]
  have hdata : q.record.data = p.record.data := by
    refine Record.data_ext (by rw [h.length_eq]; exact h.least) hlen hcount (fun i hi => ?_) hout
    have hrow : q.record.row i = p.record.row i :=
      congrArg Entry.row (hentry i (by rwa [← h.length_eq]))
    rw [Record.window_row hi, Record.window_row (by rwa [hlen]), hrow]
  have hsizes : q.sizes = p.sizes := sizes_ext h h' fun i hi => congrArg Entry.kept (hentry i hi)
  obtain ⟨⟨id, data, dirty⟩, sizes⟩ := p
  obtain ⟨⟨id', data', dirty'⟩, sizes'⟩ := q
  simp_all

/-! ## Two runs -/

theorem target_of_mem_history {cs : List Call} (hcs : ∀ c ∈ cs, c.WritesRow n) {p : SlotPage}
    {e : Call × Result Reply} (he : e ∈ history (cs.map .call) p) :
    ∃ t, e ∈ historyAt t (history (cs.map .call) p) := by
  have hcall : ∀ (cs : List Call) (p : SlotPage), e ∈ history (cs.map .call) p → e.1 ∈ cs := by
    intro cs
    induction cs with
    | nil => exact fun _ hmem => absurd hmem List.not_mem_nil
    | cons c rest ih =>
      intro p hmem
      rcases List.mem_cons.mp hmem with rfl | hmem
      · exact List.mem_cons_self
      · exact List.mem_cons_of_mem c (ih _ hmem)
  obtain ⟨t, ht⟩ := Option.isSome_iff_exists.mp (hcs e.1 (hcall cs p he)).1
  exact ⟨t, List.mem_filter.mpr ⟨he, by simpa using ht⟩⟩

-- What is answered in the history of some row is answered in the whole.
theorem mem_history_of_historyAt {cs : List Call} (hcs : ∀ c ∈ cs, c.WritesRow n) {p : SlotPage}
    {h : History} (hsame : ∀ t, historyAt t (history (cs.map .call) p) = historyAt t h)
    {e : Call × Result Reply} (he : e ∈ history (cs.map .call) p) : e ∈ h := by
  obtain ⟨t, ht⟩ := target_of_mem_history hcs he
  rw [hsame] at ht
  exact (List.mem_filter.mp ht).1

/-- **Calls on different rows commute.**  On a page whose count is the number of rows that it
reports as in use, two runs of claims, releases, new sizes and locations that give each row the same
calls in the same order give each of these calls the same answer.  They leave the same page, so
nothing that is asked of it later tells them apart. -/
theorem interleavings_agree (hp : Reached p) (hc : Counted p) {cs cs' : List Call}
    (hcs : ∀ c ∈ cs, c.WritesRow p.record.length) (hcs' : ∀ c ∈ cs', c.WritesRow p.record.length)
    (hsame : ∀ t, callsAt t cs = callsAt t cs') :
    (∀ t, historyAt t (history (cs.map .call) p) = historyAt t (history (cs'.map .call) p)) ∧
      ∃ q, after (cs.map .call) p = .ok q ∧ after (cs'.map .call) p = .ok q := by
  have h := hp.shaped
  obtain ⟨q, hq⟩ := exists_ran h hc hcs
  obtain ⟨q', hq'⟩ := exists_ran h hc hcs'
  have hhistory : ∀ t, historyAt t (history (cs.map .call) p) =
      historyAt t (history (cs'.map .call) p) := by
    intro t
    by_cases hrow : ∃ i < rowsIn p.record.length, t = rowStart i
    · obtain ⟨i, hi, rfl⟩ := hrow
      have hrun := hq.row i hi
      rw [hsame, ← hq'.row i hi] at hrun
      exact congrArg Prod.fst hrun
    · have hno : ∀ i < rowsIn p.record.length, t ≠ rowStart i :=
        fun i hi he => hrow ⟨i, hi, he⟩
      rw [hq.elsewhere t hno p h, hq'.elsewhere t hno p h, hsame]
  have hdirty : q'.record.dirty = q.record.dirty := by
    have hmem : ∀ e, e ∈ history (cs.map .call) p ↔ e ∈ history (cs'.map .call) p := fun e =>
      ⟨mem_history_of_historyAt hcs hhistory,
        mem_history_of_historyAt hcs' fun t => (hhistory t).symm⟩
    rw [hq.dirty, hq'.dirty]
    congr 1
    rw [Bool.eq_iff_iff, List.any_eq_true, List.any_eq_true]
    simp only [hmem]
  refine ⟨hhistory, q, hq.after_eq, ?_⟩
  have hsamePage : q' = q := by
    refine page_ext hq.shaped hq'.shaped hq.counted hq'.counted
      (hq'.id_eq.trans hq.id_eq.symm) hdirty (fun i hi => ?_) fun k hk => ?_
    · have hrun := hq.row i hi
      rw [hsame, ← hq'.row i hi] at hrun
      exact (congrArg Prod.snd hrun).symm
    · have hlen : q.record.length = p.record.length := hq.shaped.length_eq
      rw [BarePage.outside_congr hlen] at hk
      rw [hq.outside k hk, hq'.outside k hk]
  rw [← hsamePage]
  exact hq'.after_eq

/-- Row 0 is claimed, resized and located, row 1 claimed and released, and row 7 is not there. -/
theorem interleavings_agree_two_rows :
    let s := Record.zeroed 1 27
    let p := unread s.formatted
    let cs := [.claim 0, .claim 1, .setSizeAt 4 80, .release 1, .claim 7, .setLocation 4 ⟨3, 9⟩]
    let cs' := [.claim 7, .claim 1, .release 1, .claim 0, .setSizeAt 4 80, .setLocation 4 ⟨3, 9⟩]
    Reached p ∧ Counted p ∧ (∀ c ∈ cs, c.WritesRow p.record.length) ∧
      (∀ c ∈ cs', c.WritesRow p.record.length) ∧ (∀ t, callsAt t cs = callsAt t cs') ∧
      (∀ t, historyAt t (history (cs.map .call) p) = historyAt t (history (cs'.map .call) p)) ∧
      ∃ q, after (cs.map .call) p = .ok q ∧ after (cs'.map .call) p = .ok q := by
  intro s p cs cs'
  have hf : (format.run s).result = .ok p := by rw [run_format (by decide) (by decide)]
  have hp : Reached p := ⟨s, p, [], .inr hf, rfl⟩
  have hsound : Sound p := sound_unread (Record.isSlotPage_formatted (by decide) (by decide))
  have hc : Counted p := hsound.counted_iff.mpr (drift_formatted (by decide))
  have hcs : ∀ c ∈ cs, c.WritesRow p.record.length := by decide
  have hcs' : ∀ c ∈ cs', c.WritesRow p.record.length := by decide
  have hsame : ∀ t, callsAt t cs = callsAt t cs' := by
    intro t
    -- The calls are for the rows that start at 4, 14 and 74.
    by_cases h₀ : 4 = t
    · subst h₀
      decide
    by_cases h₁ : 14 = t
    · subst h₁
      decide
    by_cases h₇ : 74 = t
    · subst h₇
      decide
    simp [cs, cs', callsAt, Call.target?, rowStart_eq, h₀, h₁, h₇]
  exact ⟨hp, hc, hcs, hcs', hsame, interleavings_agree hp hc hcs hcs' hsame⟩

end FreeSpace.SlotPage
