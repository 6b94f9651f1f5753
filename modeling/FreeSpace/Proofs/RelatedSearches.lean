import FreeSpace.Proofs.CountRange
import FreeSpace.Proofs.SearchAnswers

/-!
# Searches that are related

What a search finds is the first row in an order (`First`): the rows that waste less than the optimal
margin come before all others and go by their number alone, and the others go by their waste first.
The order of two rows is a matter of these two, so another size for one row lets in that row or takes
it away, and leaves the order of the others (`search_after_change`).  A row that suits a request suits
each larger one that it holds, which relates the requests to an unchanged page (`search_related`).
-/

namespace FreeSpace.SlotPage

/-! ## The first row that suits -/

section

variable (size : Nat → UInt32) (request : UInt32)

/-- The row holds the request, and wastes as little as a search with this limit accepts. -/
structure Suits (rows limit i : Nat) : Prop where
  row : i < rows
  eligible : Eligible size request i
  near : waste size request i < 128 ∨ waste size request i < limit

/-- What a row is judged by before its number.  Below the optimal margin the waste does not count. -/
def rank (i : Nat) : Nat :=
  if waste size request i < 128 then 0 else waste size request i

structure First (rows limit i : Nat) : Prop where
  suits : Suits size request rows limit i
  before : ∀ j, Suits size request rows limit j →
    rank size request i < rank size request j ∨ rank size request i = rank size request j ∧ i ≤ j

end

section

variable {f g size : Nat → UInt32} {request : UInt32} {rows limit : Nat}

theorem rank_of_tight {i : Nat} (h : waste size request i < 128) : rank size request i = 0 :=
  if_pos h

theorem rank_of_loose {i : Nat} (h : 128 ≤ waste size request i) :
    rank size request i = waste size request i :=
  if_neg (Nat.not_lt.mpr h)

theorem Settles.first {s : SlotSearch} (h : Settles size request rows limit s)
    (hrows : rows ≤ 65536) {row : UInt16} (hs : s = .found row) :
    First size request rows limit row.toNat := by
  have htoNat : ∀ i < rows, (UInt16.ofNat i).toNat = i := fun i hi =>
    UInt16.toNat_ofNat_of_lt' (Nat.lt_of_lt_of_le hi hrows)
  cases h with
  | @tight i hrow =>
    obtain ⟨⟨hlt, helig, htight⟩, hlowest⟩ := hrow
    obtain rfl := SlotSearch.found.inj hs
    rw [htoNat i hlt]
    refine ⟨⟨hlt, helig, .inl htight⟩, fun j hj => ?_⟩
    rw [rank_of_tight htight]
    by_cases hw : waste size request j < 128
    · exact .inr ⟨(rank_of_tight hw).symm, hlowest ⟨hj.row, hj.eligible, hw⟩⟩
    · rw [rank_of_loose (Nat.not_lt.mp hw)]
      omega
  | @least i w hloose hleast hlimit hrow =>
    obtain ⟨⟨hlt, helig, hwaste⟩, hlowest⟩ := hrow
    obtain rfl := SlotSearch.found.inj hs
    rw [htoNat i hlt]
    refine ⟨⟨hlt, helig, .inr (by omega)⟩, fun j hj => ?_⟩
    rw [rank_of_loose (hloose i hlt helig), rank_of_loose (hloose j hj.row hj.eligible), hwaste]
    rcases Nat.eq_or_lt_of_le (hleast.2 ⟨j, hj.row, hj.eligible, rfl⟩) with heq | hless
    · exact .inr ⟨heq, hlowest ⟨hj.row, hj.eligible, heq.symm⟩⟩
    · exact .inl hless
  | exhausted => exact absurd hs nofun

theorem Settles.not_suits {s : SlotSearch} (h : Settles size request rows limit s)
    {largest : UInt32} (hs : s = .exhausted largest) (i : Nat) :
    ¬ Suits size request rows limit i := by
  cases h with
  | exhausted hloose hfar =>
    rintro ⟨hrow, helig, htight | hnear⟩
    · exact absurd htight (Nat.not_lt.mpr (hloose i hrow helig))
    · exact absurd hnear (Nat.not_lt.mpr (hfar i hrow helig))
  | _ => exact absurd hs nofun

theorem Settles.toNat_largest {s : SlotSearch} (h : Settles size request rows limit s)
    {largest : UInt32} (hs : s = .exhausted largest) :
    largest.toNat = (Finset.range rows).sup fun i => (size i).toNat := by
  cases h with
  | exhausted _ _ hlargest =>
    rw [← SlotSearch.exhausted.inj hs]
    exact hlargest
  | _ => exact absurd hs nofun

/-! ## Another size for one row -/

theorem rank_congr {i : Nat} (h : g i = f i) : rank g request i = rank f request i := by
  unfold rank waste
  rw [h]

theorem Suits.congr {i : Nat} (hs : Suits f request rows limit i) (h : g i = f i) :
    Suits g request rows limit i := by
  obtain ⟨hrow, helig, hnear⟩ := hs
  refine ⟨hrow, ?_, ?_⟩
  · unfold Eligible at helig ⊢
    rwa [h]
  · unfold waste at hnear ⊢
    rwa [h]

/-- The two first rows are one, or the second is the row that has changed. -/
theorem First.eq_or_eq {k i j : Nat} (hsame : ∀ l < rows, l ≠ k → g l = f l)
    (hf : First f request rows limit i) (hg : First g request rows limit j) (hi : i ≠ k) :
    j = i ∨ j = k := by
  by_cases hj : j = k
  · exact .inr hj
  · have hsamei := hsame i hf.suits.row hi
    have hsamej := hsame j hg.suits.row hj
    -- Both rows suit before and after the change, and are in one order.
    have hij := hf.before j (hg.suits.congr hsamej.symm)
    have hji := hg.before i (hf.suits.congr hsamei)
    rw [rank_congr hsamei, rank_congr hsamej] at hji
    omega

/-- What becomes of an answer when one row has another size. -/
theorem Settles.changed {s t : SlotSearch} (hs : Settles f request rows limit s)
    (ht : Settles g request rows limit t) (hrows : rows ≤ 65536) {row : UInt16}
    (hsame : ∀ l < rows, l ≠ row.toNat → g l = f l) :
    (∀ r, s = .found r → r ≠ row → t = .found r ∨ t = .found row) ∧
      ∀ largest, s = .exhausted largest → t = .found row ∨ ∃ largest', t = .exhausted largest' := by
  constructor
  · intro r hr hne
    have hfirst := hs.first hrows hr
    have hne' : r.toNat ≠ row.toNat := fun he => hne (UInt16.toNat_inj.mp he)
    cases t with
    | found r' =>
      rcases hfirst.eq_or_eq hsame (ht.first hrows rfl) hne' with he | he
      · exact .inl (congrArg _ (UInt16.toNat_inj.mp he))
      · exact .inr (congrArg _ (UInt16.toNat_inj.mp he))
    | exhausted largest =>
      have hsuits := hfirst.suits.congr (hsame r.toNat hfirst.suits.row hne')
      exact absurd hsuits (ht.not_suits rfl r.toNat)
  · intro largest hl
    cases t with
    | found r' =>
      have hsuits := (ht.first hrows rfl).suits
      refine .inl (congrArg _ (UInt16.toNat_inj.mp ?_))
      by_contra hne
      exact hs.not_suits hl r'.toNat (hsuits.congr (hsame r'.toNat hsuits.row hne).symm)
    | exhausted largest' => exact .inr ⟨largest', rfl⟩

/-! ## Another request -/

/-- A row that suits a request suits each larger one that it holds. -/
theorem Suits.larger {i : Nat} (h : Suits size request rows limit i) {request' : UInt32}
    (hle : request ≤ request') (hfit : request' ≤ size i) :
    Suits size request' rows limit i := by
  have hless : waste size request' i ≤ waste size request i :=
    Nat.sub_le_sub_left (UInt32.le_iff_toNat_le.mp hle) _
  obtain ⟨hrow, helig, hnear⟩ := h
  exact ⟨hrow, ⟨helig.1, hfit⟩, by omega⟩

theorem Suits.of_size {i : Nat} (hrow : i < rows) (hsize : size i = request)
    (hpos : request ≠ 0) : Suits size request rows limit i := by
  have hnone : waste size request i = 0 := by
    unfold waste
    rw [hsize, Nat.sub_self]
  refine ⟨hrow, ⟨?_, ?_⟩, .inl (by omega)⟩
  · rwa [hsize]
  · rw [hsize]
    exact UInt32.le_refl _

section

variable {largest : UInt32}
  (hlargest : largest.toNat = (Finset.range rows).sup fun i => (size i).toNat)

include hlargest

theorem size_le_largest {i : Nat} (hi : i < rows) : size i ≤ largest := by
  rw [UInt32.le_iff_toNat_le, hlargest]
  exact Finset.le_sup (f := fun i => (size i).toNat) (Finset.mem_range.mpr hi)

theorem exists_size_eq_largest (hpos : largest ≠ 0) : ∃ i < rows, size i = largest := by
  have hne : (Finset.range rows).Nonempty := by
    by_contra hempty
    rw [Finset.not_nonempty_iff_eq_empty.mp hempty, Finset.sup_empty] at hlargest
    exact hpos (UInt32.toNat_inj.mp hlargest)
  obtain ⟨i, hi, hsup⟩ := Finset.exists_mem_eq_sup _ hne fun i => (size i).toNat
  exact ⟨i, Finset.mem_range.mp hi, UInt32.toNat_inj.mp (hsup.symm.trans hlargest.symm)⟩

/-- A search for the largest size finds the lowest row that has it. -/
theorem Settles.search_largest {t : SlotSearch} (ht : Settles size largest rows limit t)
    (hrows : rows ≤ 65536) (hpos : largest ≠ 0) :
    ∃ row, t = .found row ∧ IsLeast {i | i < rows ∧ size i = largest} row.toNat := by
  cases t with
  | found row =>
    have hfirst := ht.first hrows rfl
    have hmax := size_le_largest hlargest hfirst.suits.row
    refine ⟨row, rfl, ⟨hfirst.suits.row, UInt32.le_antisymm hmax hfirst.suits.eligible.2⟩, ?_⟩
    rintro j ⟨hj, hsize⟩
    have htight : ∀ {i : Nat}, size i ≤ largest → rank size largest i = 0 := fun hle =>
      rank_of_tight <| by
        unfold waste
        rw [UInt32.le_iff_toNat_le] at hle
        omega
    have hbefore := hfirst.before j (.of_size hj hsize hpos)
    rw [htight hmax, htight (size_le_largest hlargest hj)] at hbefore
    omega
  | exhausted =>
    obtain ⟨i, hi, hsize⟩ := exists_size_eq_largest hlargest hpos
    exact absurd (.of_size hi hsize hpos) (ht.not_suits rfl i)

/-- A search for more than the largest size tells that size. -/
theorem Settles.search_above {request' : UInt32} {t : SlotSearch}
    (ht : Settles size request' rows limit t) (hrows : rows ≤ 65536) (habove : largest < request') :
    t = .exhausted largest := by
  cases t with
  | found row =>
    have hsuits := (ht.first hrows rfl).suits
    have hle := UInt32.le_trans hsuits.eligible.2 (size_le_largest hlargest hsuits.row)
    exact absurd habove (UInt32.not_lt.mpr hle)
  | exhausted largest' =>
    have hsame := (ht.toNat_largest rfl).trans hlargest.symm
    rw [UInt32.toNat_inj.mp hsame]

end

end

/-! ## Searches of a page -/

variable {n : Nat} {p q : SlotPage}

/-- A call for a row leaves what the page reports of the others.  A release that leaves its row in
use leaves that too. -/
theorem reported_call (h : Shaped n p) {c : Call} {row : UInt16} (hrow : row.toNat < rowsIn n)
    (ht : c.target? = some (rowStart row.toNat)) :
    let q := (c.action.run p).state
    Shaped n q ∧ (∀ i < rowsIn n, i ≠ row.toNat → q.reported i = p.reported i) ∧
      (∀ size reply, c.newSize? = some size → (c.action.run p).result = .ok reply →
        q.reported row.toNat = size) ∧
      (c = .release row → q.reported row.toNat = 0 ∨ q.reported = p.reported) := by
  intro q
  rcases refused_or_written h hrow ht with hrefused | hwritten
  · obtain ⟨e, hresult, -⟩ := hrefused.why
    refine ⟨hrefused.unmoved.shaped h, fun i _ _ => hrefused.unmoved.reported i, ?_, fun _ => .inr ?_⟩
    · intro size reply _ hok
      exact absurd (hresult.symm.trans hok) nofun
    · exact funext hrefused.unmoved.reported
  · refine ⟨hwritten.within.shaped h, fun i hi hne => ?_, fun size _ hs _ => hwritten.size size hs,
      fun hc => .inl (hwritten.size 0 ?_)⟩
    · exact congrArg Entry.size (hwritten.within.entry i (by rwa [h.length_eq]) hne)
    · rw [hc]
      rfl

/-- **A search and the other rows.**  Whatever call is made for a row of a page, answered or refused,
a search that found another row before finds that row or the changed one after, and one that found
none finds the changed row or tells the largest size that there is now.  A release takes no row from
a search but its own, and gives it none. -/
theorem search_after_change (hp : Reached p) {c : Call} {row : UInt16} (hrow : row < p.capacity)
    (ht : c.target? = some (rowStart row.toNat)) (request : UInt32) :
    let o := c.action.run p
    ∃ s t, ((search request).run p).result = .ok s ∧ ((search request).run o.state).result = .ok t ∧
      (∀ size reply, c.newSize? = some size → o.result = .ok reply →
        o.state.reported row.toNat = size) ∧
      (∀ r, s = .found r → r ≠ row → t = .found r ∨ t = .found row) ∧
      (∀ largest, s = .exhausted largest → t = .found row ∨ ∃ largest', t = .exhausted largest' ∧
        largest'.toNat = (Finset.range p.capacity.toNat).sup fun i => (o.state.reported i).toNat) ∧
      (c = .release row →
        (∀ r, s = .found r → r ≠ row → t = .found r) ∧
        ∀ largest, s = .exhausted largest → ∃ largest', t = .exhausted largest') := by
  intro o
  have h := hp.shaped
  have hcap := h.toNat_capacity
  have hrows := Nat.le_of_lt p.capacity.toNat_lt
  rw [UInt16.lt_iff_toNat_lt, hcap] at hrow
  obtain ⟨hshape, hsame, hsize, hrelease⟩ := reported_call h hrow ht
  obtain ⟨s, hs, hbefore⟩ := settles_search h request
  obtain ⟨t, ht', hafter⟩ := settles_search hshape request
  rw [hcap] at hrows ⊢
  obtain ⟨hfound, hexhausted⟩ := hbefore.changed hafter hrows hsame
  refine ⟨s, t, hs, ht', hsize, hfound, fun largest hl => ?_, fun hc => ?_⟩
  · refine (hexhausted largest hl).imp_right ?_
    rintro ⟨largest', hl'⟩
    exact ⟨largest', hl', hafter.toNat_largest hl'⟩
  · rcases hrelease hc with hvacant | hall
    · -- A vacant row is not found.
      have hnot : t ≠ .found row := fun hf => (hafter.first hrows hf).suits.eligible.1 hvacant
      exact ⟨fun r hr hne => (hfound r hr hne).resolve_right hnot,
        fun largest hl => (hexhausted largest hl).resolve_left hnot⟩
    · rw [hall] at hafter
      obtain rfl := hbefore.unique hafter
      exact ⟨fun r hr _ => hr, fun largest hl => ⟨largest, hl⟩⟩

/-- Row 1 holds the request until the vacant row 0, which is in front of it, gets a size as well. -/
theorem search_after_change_row_in_front :
    let r := Record.ofBytes 7 #[0x19, 0x93, 0, 1, 0, 0, 0, 0, 0, 0, 0, 0, 0, 0,
      0, 0, 0, 5, 0, 64, 0, 0, 1, 0]
    let p := unread r
    let q := ((Call.setSizeAt 4 270).action.run p).state
    Reached p ∧ 0 < p.capacity ∧ (Call.setSizeAt 4 270).target? = some (rowStart 0) ∧
      ((search 200).run p).result = .ok (.found 1) ∧ ∃ t, ((search 200).run q).result = .ok t ∧
        (t = .found 1 ∨ t = .found 0) := by
  intro r p q
  have hpage : r.IsSlotPage := ⟨by decide, by decide, by decide +kernel⟩
  have hp : Reached p := ⟨r, p, [], .inl (by rw [run_ofRecord hpage]), rfl⟩
  have hrow : 0 < p.capacity := by decide +kernel
  have hbefore : ((search 200).run p).result = .ok (.found 1) := by decide +kernel
  obtain ⟨s, t, hs, ht, -, hfound, -⟩ := search_after_change hp hrow (c := .setSizeAt 4 270) rfl 200
  have hone := Except.ok.inj (hs.symm.trans hbefore)
  exact ⟨hp, hrow, rfl, hbefore, t, ht, hfound 1 hone (by decide)⟩

/-- What only looks at a page moves nothing, however often. -/
theorem unmoved_after (h : Shaped n p) {looks : List Call} (hl : ∀ c ∈ looks, c.target? = none) :
    ∃ q, after (looks.map .call) p = .ok q ∧ Unmoved p q := by
  induction looks generalizing p with
  | nil => exact ⟨p, rfl, .refl p⟩
  | cons c rest ih =>
    have hfirst := (lookSteps n).call (hl c List.mem_cons_self) p h
    obtain ⟨q, hq, hrest⟩ := ih (hfirst.shaped h) fun d hd => hl d (List.mem_cons_of_mem c hd)
    exact ⟨q, hq, hfirst.trans hrest⟩

/-- **Requests to an unchanged page.**  If a search finds a row, one for more bytes finds a row too as
long as the first row holds them.  If a search finds none and tells a largest size, a search for that
size finds the lowest row that has it, and one for more tells the same size.  Any calls that only look
may come between the two searches. -/
theorem search_related (hp : Reached p) {looks : List Call} (hl : ∀ c ∈ looks, c.target? = none)
    (request : UInt32) :
    ∃ q s, after (looks.map .call) p = .ok q ∧ ((search request).run p).result = .ok s ∧
      (∀ row, s = .found row → ∀ request', request ≤ request' → request' ≤ p.reported row.toNat →
        ∃ row', ((search request').run q).result = .ok (.found row')) ∧
      ∀ largest, s = .exhausted largest →
        (largest ≠ 0 → ∃ row, ((search largest).run q).result = .ok (.found row) ∧
          IsLeast {i | i < p.capacity.toNat ∧ p.reported i = largest} row.toNat) ∧
        ∀ request', largest < request' →
          ((search request').run q).result = .ok (.exhausted largest) := by
  have h := hp.shaped
  have hcap := h.toNat_capacity
  have hrows := Nat.le_of_lt p.capacity.toNat_lt
  rw [hcap] at hrows ⊢
  obtain ⟨q, hq, hunmoved⟩ := unmoved_after h hl
  obtain ⟨s, hs, hsettles⟩ := settles_search h request
  have hagain : ∀ request', ∃ t, ((search request').run q).result = .ok t ∧
      Settles p.reported request' (rowsIn p.record.length) (p.record.length / 4) t := by
    intro request'
    have hsearch := settles_search (hunmoved.shaped h) request'
    rwa [funext hunmoved.reported] at hsearch
  refine ⟨q, s, hq, hs, fun row hrow request' hle hfit => ?_, fun largest hlargest => ⟨?_, ?_⟩⟩
  · obtain ⟨t, ht, hsettles'⟩ := hagain request'
    cases t with
    | found row' => exact ⟨row', ht⟩
    | exhausted =>
      have hsuits := (hsettles.first hrows hrow).suits.larger hle hfit
      exact absurd hsuits (hsettles'.not_suits rfl _)
  · intro hpos
    obtain ⟨t, ht, hsettles'⟩ := hagain largest
    obtain ⟨row, rfl, hleast⟩ :=
      Settles.search_largest (hsettles.toNat_largest hlargest) hsettles' hrows hpos
    exact ⟨row, ht, hleast⟩
  · intro request' habove
    obtain ⟨t, ht, hsettles'⟩ := hagain request'
    rw [ht, Settles.search_above (hsettles.toNat_largest hlargest) hsettles' hrows habove]

/-- Two rows of 300 bytes, which are too many for a request of 100; between the searches all sizes are
read. -/
theorem search_related_exhausted :
    let r := Record.ofBytes 7 #[0x19, 0x93, 0, 2, 0, 0, 0, 5, 0, 64, 0, 0, 1, 44,
      0, 0, 0, 5, 2, 64, 0, 0, 1, 44]
    let p := unread r
    let looks := [Call.search 100, .allSizes]
    Reached p ∧ (∀ c ∈ looks, c.target? = none) ∧
      ((search 100).run p).result = .ok (.exhausted 300) ∧
      ∃ q, after (looks.map .call) p = .ok q ∧
        (∃ row, ((search 300).run q).result = .ok (.found row) ∧
          IsLeast {i | i < p.capacity.toNat ∧ p.reported i = 300} row.toNat) ∧
        ((search 301).run q).result = .ok (.exhausted 300) := by
  intro r p looks
  have hpage : r.IsSlotPage := ⟨by decide, by decide, by decide +kernel⟩
  have hp : Reached p := ⟨r, p, [], .inl (by rw [run_ofRecord hpage]), rfl⟩
  have hl : ∀ c ∈ looks, c.target? = none := by decide
  have hbefore : ((search 100).run p).result = .ok (.exhausted 300) := by decide +kernel
  obtain ⟨q, s, hq, hs, -, hexhausted⟩ := search_related hp hl 100
  obtain ⟨hsame, habove⟩ := hexhausted 300 (Except.ok.inj (hs.symm.trans hbefore))
  exact ⟨hp, hl, hbefore, q, hq, hsame (by decide), habove 301 (by decide)⟩

end FreeSpace.SlotPage
