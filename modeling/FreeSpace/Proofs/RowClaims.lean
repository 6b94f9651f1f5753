import FreeSpace.Proofs.RowCalls

/-!
# Claiming one vacant row after another

A client asks for the lowest vacant row, claims it, and writes a location and a size there; then it
does the same again.  On a page whose count is right each such step takes the first of the vacant
rows and changes nothing but that row and the count, so the steps fill the page in order and then
find it full (`claims_fill`).
-/

namespace FreeSpace.SlotPage

open BarePage (AtRowStarts Outside)

variable {n : Nat} {p q : SlotPage}

/-- Puts a vacant row in use with this location and size. -/
def claimFor (row : UInt16) (w : Row) : Action SlotPage Unit := do
  let offset ← claim row
  setLocation offset w.location
  setSizeAt offset w.size

/-- Puts the lowest vacant row in use and tells which it was, if there is one. -/
def claimFirst (w : Row) : Action SlotPage (Option UInt16) := do
  match ← firstVacant with
  | some row =>
      claimFor row w
      return some row
  | none => return none

def claimEach : List Row → Action SlotPage (List (Option UInt16))
  | [] => return []
  | w :: rest => do
      let row ← claimFirst w
      return row :: (← claimEach rest)

/-! ## The vacant rows -/

/-- The rows that the page reports as vacant, in order. -/
def vacant (p : SlotPage) : List UInt16 :=
  p.rows.filter fun row => p.reported row.toNat = 0

theorem mem_vacant (h : Shaped n p) {row : UInt16} :
    row ∈ p.vacant ↔ row.toNat < rowsIn n ∧ p.reported row.toNat = 0 := by
  rw [vacant, List.mem_filter, mem_rows h, decide_eq_true_iff]

theorem vacant_sorted (h : Shaped n p) : p.vacant.Pairwise (· < ·) := by
  refine List.Pairwise.filter _ ?_
  rw [h.rows_eq, List.pairwise_map]
  refine List.pairwise_lt_range.imp_of_mem fun {i j} hi hj hlt => ?_
  rw [List.mem_range] at hi hj
  rwa [UInt16.lt_iff_toNat_lt, h.toNat_ofNat hi, h.toNat_ofNat hj]

/-- Looking for a vacant row, also among some rows only, finds the first one. -/
theorem result_findVacant (h : Shaped n p) {rows : List UInt16}
    (hrows : ∀ row ∈ rows, row.toNat < rowsIn n) :
    ((rows.findM? fun row => return (← readSize row) = 0 : Action SlotPage _).run p).result =
      .ok (rows.find? fun row => p.reported row.toNat = 0) := by
  induction rows generalizing p with
  | nil => rfl
  | cons row rest ih =>
    have hrow := hrows row List.mem_cons_self
    obtain ⟨es, hread⟩ := run_readSize h hrow
    have hrest := ih (h.keep row.toNat (p.reported row.toNat)) fun other ho =>
      hrows other (List.mem_cons_of_mem row ho)
    simp only [reported_keep h hrow] at hrest
    have htest : (readSize row >>= fun size => pure (decide (size = 0)) : Action SlotPage Bool).run p =
        ⟨.ok (decide (p.reported row.toNat = 0)), p.keep row.toNat (p.reported row.toNat), es ++ []⟩ :=
      Action.run_bind_ok hread _
    rw [List.find?_cons, List.findM?, Action.run_bind_ok htest]
    by_cases hz : p.reported row.toNat = 0
    · simp only [hz, decide_true]
      rfl
    · simp only [hz, decide_false]
      exact hrest

theorem result_firstVacant (h : Shaped n p) : (firstVacant.run p).result = .ok p.vacant.head? := by
  unfold firstVacant vacant
  rw [Action.run_bind_silent (Action.run_get ..), List.head?_filter]
  exact result_findVacant h fun row => (mem_rows h).mp

theorem card_occupied (h : Shaped n p) :
    p.occupied.card = (List.range (rowsIn n)).countP fun i => p.reported i ≠ 0 := by
  unfold occupied
  rw [h.length_eq, List.countP_eq_length_filter]
  rfl

/-- Each row is either vacant or in use. -/
theorem card_occupied_add (h : Shaped n p) : p.occupied.card + p.vacant.length = rowsIn n := by
  have hvacant : p.vacant.length =
      ((List.range (rowsIn n)).filter fun i => !decide (p.reported i ≠ 0)).length := by
    unfold vacant
    rw [h.rows_eq, List.filter_map, List.length_map]
    refine congrArg _ (List.filter_congr fun i hi => ?_)
    simp [h.toNat_ofNat (List.mem_range.mp hi)]
  rw [card_occupied h, List.countP_eq_length_filter, hvacant, ← List.length_eq_length_filter_add,
    List.length_range]

/-- With a right count no vacant row is found exactly if the count is the capacity. -/
theorem Counted.firstVacant_eq_none_iff (hc : Counted p) (h : Shaped n p) :
    (firstVacant.run p).result = .ok none ↔ p.record.rowCount = p.capacity := by
  have hsum := card_occupied_add h
  have hcap := h.toNat_capacity
  have hcount : p.record.rowCount.toNat = p.occupied.card := hc
  rw [result_firstVacant h, ← UInt16.toNat_inj]
  constructor
  · intro hnone
    have hempty := List.head?_eq_none_iff.mp (Except.ok.inj hnone)
    rw [hempty, List.length_nil] at hsum
    omega
  · intro hfull
    have hempty : p.vacant = [] := List.length_eq_zero_iff.mp (by omega)
    rw [hempty]
    rfl

/-! ## Pages that differ in some rows -/

/-- The second page has these rows and the count of its own, and all else from the first. -/
structure Besides (rows : List UInt16) (p q : SlotPage) : Prop where
  id_eq : q.record.id = p.record.id
  length_eq : q.record.length = p.record.length
  size_sizes : q.sizes.size = p.sizes.size
  row : ∀ row < p.capacity, row ∉ rows →
    q.record.row row.toNat = p.record.row row.toNat ∧ q.reported row.toNat = p.reported row.toNat
  outside : ∀ k, Outside p.record k → q.record.data[k]? = p.record.data[k]?

theorem Unmoved.besides (h : Unmoved p q) : Besides [] p q := by
  refine ⟨by rw [h.record], by rw [h.record], h.size_sizes, fun row _ _ => ⟨by rw [h.record], ?_⟩, ?_⟩
  · exact h.reported row.toNat
  · intro k _
    rw [h.record]

theorem Within.besides {row : UInt16} (h : Within row.toNat p q) (hp : Shaped n p) :
    Besides [row] p q := by
  refine ⟨h.id_eq, h.length_eq, h.size_sizes, fun other ho hne => ?_, h.outside⟩
  rw [UInt16.lt_iff_toNat_lt, hp.toNat_capacity, ← hp.length_eq] at ho
  have hentry := h.entry other.toNat ho fun he =>
    hne (List.mem_singleton.mpr (UInt16.toNat_inj.mp he))
  exact ⟨congrArg Entry.row hentry, congrArg Entry.size hentry⟩

theorem Besides.trans {rows rows' : List UInt16} {s : SlotPage} (h : Besides rows p q)
    (h' : Besides rows' q s) : Besides (rows ++ rows') p s where
  id_eq := h'.id_eq.trans h.id_eq
  length_eq := h'.length_eq.trans h.length_eq
  size_sizes := h'.size_sizes.trans h.size_sizes
  row row hrow hne := by
    rw [List.mem_append, not_or] at hne
    have hcap : q.capacity = p.capacity := by
      unfold capacity
      rw [h.length_eq]
    obtain ⟨hbytes, hsize⟩ := h.row row hrow hne.1
    obtain ⟨hbytes', hsize'⟩ := h'.row row (by rwa [hcap]) hne.2
    exact ⟨hbytes'.trans hbytes, hsize'.trans hsize⟩
  outside k hk :=
    (h'.outside k ((BarePage.outside_congr h.length_eq).mpr hk)).trans (h.outside k hk)

/-! ## One step -/

/-- A vacant row goes through the placeholder to what it is claimed for, and the count moves up by
one on the way. -/
theorem run_claimFor (h : Shaped n p) (hc : Counted p) {row : UInt16} (hrow : row.toNat < rowsIn n)
    (hvacant : p.reported row.toNat = 0) {w : Row} (hw : w.size ≠ 0) :
    ∃ q es, (claimFor row w).run p = ⟨.ok (), q, es⟩ ∧ Within row.toNat p q ∧ Counted q ∧
      q.entry row.toNat = ⟨w, some w.size⟩ := by
  obtain ⟨hup, hnext⟩ := hc.countUp h hrow hvacant
  have hstart := toNat_rowStart h.greatest hrow
  -- The row is claimed,
  obtain ⟨es, hclaim⟩ := run_claim_of_vacant h hrow hvacant
  rw [hup] at hclaim
  let p₁ := p.rewritten row.toNat ⟨placeholder, placeholderSize⟩ (p.record.rowCount + 1)
  have hwithin₁ : Within row.toNat p p₁ := within_rewritten h hrow _ _
  have h₁ := hwithin₁.shaped h
  have hentry₁ : p₁.entry row.toNat = _ := entry_rewritten h hrow _ _
  have hcount₁ : p₁.record.rowCount = _ := rowCount_rewritten h hrow _ _
  -- located,
  have hlocate := run_setLocation h₁ hrow hstart w.location
  let p₂ := p₁.putLocation row.toNat w.location
  have hwithin₂ : Within row.toNat p₁ p₂ := within_putLocation h₁ hrow _
  have h₂ := hwithin₂.shaped h₁
  have hentry₂ : p₂.entry row.toNat = ⟨⟨w.location, placeholderSize⟩, some placeholderSize⟩ := by
    have hput := entry_putLocation h₁ hrow w.location hrow
    rw [if_pos rfl] at hput
    rw [hput]
    exact congrArg (fun e : Entry => Entry.mk ⟨w.location, e.row.size⟩ e.kept) hentry₁
  have hcount₂ : p₂.record.rowCount = p₁.record.rowCount :=
    Record.rowCount_putLocation (by rwa [h₁.length_eq])
  -- and gets its size, with which the count has nothing to follow.
  have hreported₂ : p₂.reported row.toNat = placeholderSize := congrArg Entry.size hentry₂
  have hsame : p₂.countFor row (p₂.reported row.toNat) w.size = .ok none := by
    have hused : p₂.reported row.toNat ≠ 0 := by
      rw [hreported₂]
      decide
    unfold SlotPage.countFor
    rw [if_neg fun hboth => hused hboth.1, if_neg fun hboth => hw hboth.2]
  obtain ⟨fs, hresize⟩ := run_setSizeAt h₂ hrow hstart hsame
  let q := p₂.resized row.toNat w.size none
  have hwithin := (hwithin₁.trans hwithin₂).trans (within_resized h₂ hrow w.size none)
  have hentry : q.entry row.toNat = ⟨w, some w.size⟩ := by
    have hsize := entry_resized h₂ hrow w.size none
    rw [hsize]
    exact congrArg (fun e : Entry => Entry.mk ⟨e.row.location, w.size⟩ (some w.size)) hentry₂
  have hcount : q.record.rowCount = p.record.rowCount + 1 :=
    ((rowCount_resized h₂ hrow w.size none).trans hcount₂).trans hcount₁
  have hreported : q.reported row.toNat = w.size := congrArg Entry.size hentry
  refine ⟨q, es ++ fs, ?_, hwithin, hwithin.counted hc (by rwa [h.length_eq]) ?_, hentry⟩
  · unfold claimFor
    rw [Action.run_bind_ok hclaim, Action.run_bind_silent hlocate, hresize]
  · rw [hcount, hnext, hreported, if_pos hvacant, if_neg hw]

/-- Page `q` is page `p` once as many of its vacant rows as possible are in use for these. -/
structure Filled (n : Nat) (ws : List Row) (p q : SlotPage) : Prop where
  shaped : Shaped n q
  counted : Counted q
  vacant : q.vacant = p.vacant.drop ws.length
  besides : Besides (p.vacant.take ws.length) p q
  holds : ∀ row w, (row, w) ∈ p.vacant.zip ws →
    q.record.row row.toNat = w ∧ q.reported row.toNat = w.size

theorem Unmoved.vacant (h : Unmoved p q) : q.vacant = p.vacant := by
  unfold SlotPage.vacant rows
  simp only [h.record, h.reported]

theorem Filled.of_unmoved {ws : List Row} {s : SlotPage} (hpq : Unmoved p q)
    (h : Filled n ws q s) : Filled n ws p s := by
  obtain ⟨hshape, hcounted, hvacant, hbesides, hholds⟩ := h
  rw [hpq.vacant] at hvacant hbesides hholds
  exact ⟨hshape, hcounted, hvacant, hpq.besides.trans hbesides, hholds⟩

/-- With no row to take, or nothing to take one for, the page stays. -/
theorem filled_self (h : Shaped n p) (hc : Counted p) {ws : List Row}
    (hnone : ws = [] ∨ p.vacant = []) : Filled n ws p p := by
  have htake : p.vacant.take ws.length = [] := by
    rcases hnone with he | he <;> simp [he]
  have hzip : p.vacant.zip ws = [] := by
    rcases hnone with he | he <;> simp [he]
  refine ⟨h, hc, ?_, ?_, fun row w hmem => ?_⟩
  · rcases hnone with he | he <;> simp [he]
  · rw [htake]
    exact (Unmoved.refl p).besides
  · rw [hzip] at hmem
    exact absurd hmem List.not_mem_nil

/-- The first vacant row is the one that is used up. -/
theorem vacant_of_besides (h : Shaped n p) {row : UInt16} {rest : List UInt16}
    (hv : p.vacant = row :: rest) (hb : Besides [row] p q) (hused : q.reported row.toNat ≠ 0) :
    q.vacant = rest := by
  have hrows : q.rows = p.rows := by
    unfold rows
    rw [hb.length_eq]
  have hsorted := vacant_sorted h
  rw [hv, List.pairwise_cons] at hsorted
  have hfilter : q.vacant = p.vacant.filter fun other => other ≠ row := by
    unfold vacant
    rw [List.filter_filter, hrows]
    refine List.filter_congr fun other ho => ?_
    have hother : other < p.capacity := by
      rw [UInt16.lt_iff_toNat_lt, h.toNat_capacity]
      exact (mem_rows h).mp ho
    by_cases he : other = row
    · simp [he, hused]
    · have hsame := (hb.row other hother fun hmem => he (List.mem_singleton.mp hmem)).2
      simp [he, hsame]
  rw [hfilter, hv, List.filter_cons_of_neg (by simp), List.filter_eq_self]
  intro other ho
  have hlt := hsorted.1 other ho
  exact decide_eq_true fun he => UInt16.lt_irrefl _ (he ▸ hlt)

theorem run_claimFirst (h : Shaped n p) (hc : Counted p) {w : Row} (hw : w.size ≠ 0) :
    ∃ q es, (claimFirst w).run p = ⟨.ok p.vacant.head?, q, es⟩ ∧ Filled n [w] p q := by
  have hlook := (lookSteps n).firstVacant p h
  have hfirst : firstVacant.run p =
      ⟨.ok p.vacant.head?, (firstVacant.run p).state, (firstVacant.run p).events⟩ := by
    rw [← result_firstVacant h]
  generalize (firstVacant.run p).state = q at hlook hfirst
  generalize (firstVacant.run p).events = es at hfirst
  have hq := hlook.shaped h
  have hcq := hlook.counted hc
  unfold claimFirst
  rw [Action.run_bind_ok hfirst, ← hlook.vacant]
  cases hv : q.vacant with
  | nil => exact ⟨q, _, rfl, .of_unmoved hlook (filled_self hq hcq (.inr hv))⟩
  | cons row rest =>
    have hmem : row ∈ q.vacant := hv ▸ List.mem_cons_self
    obtain ⟨hrow, hvacant⟩ := (mem_vacant hq).mp hmem
    obtain ⟨s, fs, hrun, hwithin, hcounted, hentry⟩ := run_claimFor hq hcq hrow hvacant hw
    have hreported : s.reported row.toNat = w.size := congrArg Entry.size hentry
    have hbesides := hwithin.besides hq
    refine ⟨s, es ++ (fs ++ []), ?_, .of_unmoved hlook ⟨hwithin.shaped hq, hcounted, ?_, ?_, ?_⟩⟩
    · dsimp only [List.head?_cons]
      rw [Action.run_bind_ok hrun]
      rfl
    · rw [vacant_of_besides hq hv hbesides (by rwa [hreported]), hv]
      rfl
    · rw [hv]
      exact hbesides
    · rw [hv]
      intro row' w' hzip
      rw [List.zip_cons_cons, List.zip_nil_right] at hzip
      obtain ⟨rfl, rfl⟩ := Prod.mk.inj (List.mem_singleton.mp hzip)
      exact ⟨congrArg Entry.row hentry, hreported⟩

/-! ## All steps -/

theorem Filled.cons {w : Row} {ws : List Row} {s : SlotPage} (h : Shaped n p)
    (hfirst : Filled n [w] p q) (hrest : Filled n ws q s) : Filled n (w :: ws) p s := by
  have hv := hfirst.vacant
  have hvs := hrest.vacant
  have hbesides := hfirst.besides.trans hrest.besides
  have hlen : (w :: ws).length = [w].length + ws.length := Nat.add_comm ..
  refine ⟨hrest.shaped, hrest.counted, ?_, ?_, fun row w' hmem => ?_⟩
  · rw [hvs, hv, List.drop_drop, hlen]
  · rwa [hlen, List.take_add, ← hv]
  · cases hp : p.vacant with
    | nil =>
      rw [hp] at hmem
      exact absurd hmem List.not_mem_nil
    | cons first rest =>
      have hsorted := vacant_sorted h
      rw [hp] at hv hmem hsorted
      rw [List.zip_cons_cons, List.mem_cons] at hmem
      rcases hmem with he | hmem
      · -- The row claimed first is none of those that are claimed later.
        obtain ⟨rfl, rfl⟩ := Prod.mk.inj he
        have hlater : row ∉ q.vacant.take ws.length := by
          intro hin
          rw [hv] at hin
          exact UInt16.lt_irrefl _ (List.rel_of_pairwise_cons hsorted (List.mem_of_mem_take hin))
        have hrow : row < q.capacity := by
          have hvacant : row ∈ p.vacant := hp ▸ List.mem_cons_self
          rw [UInt16.lt_iff_toNat_lt, hfirst.shaped.toNat_capacity]
          exact ((mem_vacant h).mp hvacant).1
        obtain ⟨hbytes, hsize⟩ := hrest.besides.row row hrow hlater
        rw [hbytes, hsize]
        refine hfirst.holds row w' ?_
        rw [hp]
        exact List.mem_cons_self
      · refine hrest.holds row w' ?_
        rwa [hv]

/-- Each step takes the first of the rows that are still vacant, as long as there is one. -/
theorem run_claimEach (h : Shaped n p) (hc : Counted p) {ws : List Row}
    (hws : ∀ w ∈ ws, w.size ≠ 0) :
    ∃ q es, (claimEach ws).run p =
      ⟨.ok ((List.range ws.length).map (p.vacant[·]?)), q, es⟩ ∧ Filled n ws p q := by
  induction ws generalizing p with
  | nil => exact ⟨p, [], rfl, filled_self h hc (.inl rfl)⟩
  | cons w rest ih =>
    obtain ⟨q, es, hrun, hfirst⟩ := run_claimFirst h hc (hws w List.mem_cons_self)
    obtain ⟨s, fs, hruns, hrest⟩ := ih hfirst.shaped hfirst.counted fun w' hw' =>
      hws w' (List.mem_cons_of_mem w hw')
    have hrows : (List.range (w :: rest).length).map (p.vacant[·]?) =
        p.vacant.head? :: (List.range rest.length).map (q.vacant[·]?) := by
      rw [List.length_cons, List.range_succ_eq_map, List.map_cons, List.map_map,
        List.head?_eq_getElem?, hfirst.vacant]
      refine congrArg _ (List.map_congr_left fun i _ => ?_)
      rw [List.getElem?_drop, Nat.add_comm]
      rfl
    refine ⟨s, es ++ (fs ++ []), ?_, hfirst.cons h hrest⟩
    unfold claimEach
    rw [Action.run_bind_ok hrun, Action.run_bind_ok hruns, hrows]
    rfl

/-- A run of calls that write locations where rows start keeps a right count right. -/
theorem Counted.after (hc : Counted p) (h : Shaped n p) {cs : List Call}
    (hcs : ∀ c ∈ cs, AtRowStarts n c) :
    ∃ q, SlotPage.after (cs.map .call) p = .ok q ∧ Shaped n q ∧ Counted q := by
  induction cs generalizing p with
  | nil => exact ⟨p, rfl, h, hc⟩
  | cons c rest ih =>
    suffices hstep : Shaped n (c.action.run p).state ∧ Counted (c.action.run p).state from
      ih hstep.2 hstep.1 fun d hd => hcs d (List.mem_cons_of_mem c hd)
    cases ht : c.target? with
    | none =>
      have hlook := (lookSteps n).call ht p h
      exact ⟨hlook.shaped h, hlook.counted hc⟩
    | some t =>
      by_cases hrow : ∃ i < rowsIn n, t = rowStart i
      · obtain ⟨i, hi, rfl⟩ := hrow
        have hserved := served h hc hi ht
        exact ⟨hserved.within.shaped h, hserved.counted⟩
      · have hno : ∀ i < rowsIn n, t ≠ rowStart i := fun i hi he => hrow ⟨i, hi, he⟩
        obtain ⟨e, hrun⟩ := run_call_elsewhere ht (hcs c List.mem_cons_self) hno
        rw [hrun p h]
        exact ⟨h, hc⟩

/-- **Claims fill the page in order.**  On a page whose count is right, let a client claim the lowest
vacant row for each of these locations and sizes.  No call fails; step `i` takes the vacant row number
`i`, or finds none if there are fewer; each row taken holds what it was taken for, and of all else
only the count changes, by the number of these rows.  In every state that calls lead to from there, or
from the page itself if nothing is claimed, no vacant row is found exactly if the count is the
capacity. -/
theorem claims_fill (hp : Reached p) (hc : Counted p) {ws : List Row}
    (hws : ∀ w ∈ ws, w.size ≠ 0) :
    let o := (claimEach ws).run p
    p.vacant.Pairwise (· < ·) ∧
      (∀ row, row ∈ p.vacant ↔ row < p.capacity ∧ p.reported row.toNat = 0) ∧
      o.result = .ok ((List.range ws.length).map (p.vacant[·]?)) ∧
      (∀ row w, (row, w) ∈ p.vacant.zip ws →
        o.state.record.row row.toNat = w ∧ o.state.reported row.toNat = w.size) ∧
      Besides (p.vacant.take ws.length) p o.state ∧
      o.state.record.rowCount.toNat =
        p.record.rowCount.toNat + min ws.length p.vacant.length ∧
      ∀ cs : List Call, (∀ c ∈ cs, AtRowStarts p.record.length c) →
        ∃ q, after (cs.map .call) o.state = .ok q ∧
          ((firstVacant.run q).result = .ok none ↔ q.record.rowCount = q.capacity) := by
  intro o
  have h := hp.shaped
  obtain ⟨q, es, hrun, hfilled⟩ := run_claimEach h hc hws
  have hstate : o.state = q := congrArg Outcome.state hrun
  rw [hstate]
  refine ⟨vacant_sorted h, fun row => ?_, congrArg Outcome.result hrun, hfilled.holds,
    hfilled.besides, ?_, fun cs hcs => ?_⟩
  · rw [mem_vacant h, UInt16.lt_iff_toNat_lt, h.toNat_capacity]
  · have hcount : p.record.rowCount.toNat = p.occupied.card := hc
    have hcount' : q.record.rowCount.toNat = q.occupied.card := hfilled.counted
    have hsum := card_occupied_add h
    have hsum' := card_occupied_add hfilled.shaped
    rw [hfilled.vacant, List.length_drop] at hsum'
    omega
  · obtain ⟨s, hs, hshape, hcounted⟩ := hfilled.counted.after hfilled.shaped hcs
    exact ⟨s, hs, hcounted.firstVacant_eq_none_iff hshape⟩

/-- Four rows of which two are in use, and three claims: the third finds no vacant row. -/
theorem claims_fill_two_vacant :
    let r := Record.ofBytes 7 #[0x19, 0x93, 0, 2,
      0, 0, 0, 0, 0, 0, 0, 0, 0, 0, 0, 0, 0, 5, 0, 64, 0, 0, 1, 0,
      0, 0, 0, 0, 0, 0, 0, 0, 0, 0, 0, 0, 0, 6, 2, 64, 0, 0, 0, 80]
    let p := unread r
    let ws : List Row := [⟨⟨8, 100⟩, 30⟩, ⟨⟨9, 200⟩, 40⟩, ⟨⟨9, 300⟩, 50⟩]
    let o := (claimEach ws).run p
    Reached p ∧ Counted p ∧ (∀ w ∈ ws, w.size ≠ 0) ∧ p.vacant = [0, 2] ∧
      o.result = .ok [some 0, some 2, none] ∧ o.state.record.row 2 = ⟨⟨9, 200⟩, 40⟩ ∧
      o.state.record.rowCount.toNat = 4 ∧ ∃ q, after [] o.state = .ok q ∧
        ((firstVacant.run q).result = .ok none ↔ q.record.rowCount = q.capacity) := by
  intro r p ws o
  have hpage : r.IsSlotPage := ⟨by decide, by decide, by decide +kernel⟩
  have hp : Reached p := ⟨r, p, [], .inl (by rw [run_ofRecord hpage]), rfl⟩
  have hc : Counted p := (sound_unread hpage).counted_iff.mpr (by decide +kernel)
  have hws : ∀ w ∈ ws, w.size ≠ 0 := by decide
  have hvacant : p.vacant = [0, 2] := by decide +kernel
  have hcount : p.record.rowCount.toNat = 2 := by decide +kernel
  obtain ⟨-, -, hresult, hholds, -, hgrown, hfull⟩ := claims_fill hp hc hws
  rw [hvacant] at hresult hholds hgrown
  rw [hcount] at hgrown
  have hsecond := (hholds 2 ⟨⟨9, 200⟩, 40⟩ (by decide)).1
  exact ⟨hp, hc, hws, hvacant, hresult, hsecond, hgrown, hfull [] (by decide)⟩

end FreeSpace.SlotPage
