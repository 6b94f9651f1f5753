import FreeSpace.Proofs.RowTable

/-!
# Writes over each other

Fields of both widths are written at any positions of a record, over each other and over its end, and
the record is cleared in between.  `Access.given?` says which byte an access gives to a position.
One access gives its bytes and leaves all others (`getElem?_access`), so after any number of them each
byte is the one given last (`getElem?_accessed`), and a field is read as the number that its bytes
write out (`numberAt_add`).
-/

namespace FreeSpace

namespace Bytes

theorem span_add (m n : Nat) : span (m + n) = span m * span n := by
  induction n with
  | zero => exact (Nat.mul_one _).symm
  | succ n ih => rw [← Nat.add_assoc, span, span, ih, Nat.mul_assoc]

/-- The digits of a number one by one, the most significant first. -/
theorem getElem?_digits (width n i : Nat) :
    (digits width n)[i]? =
      if i < width then some (.ofNat (n / span (width - 1 - i))) else none := by
  induction width generalizing i with
  | zero => rfl
  | succ width ih =>
    rw [digits]
    cases i with
    | zero =>
      rw [List.getElem?_cons_zero, if_pos (Nat.succ_pos width)]
      rfl
    | succ i =>
      have hbehind : width - 1 - i = width + 1 - 1 - (i + 1) := by omega
      rw [List.getElem?_cons_succ, ih, hbehind]
      simp only [Nat.add_lt_add_iff_right]

theorem digits_zero (width : Nat) : digits width 0 = List.replicate width 0 := by
  induction width with
  | zero => rfl
  | succ width ih =>
    rw [digits, ih, Nat.zero_div]
    rfl

theorem value_append (bs cs : List UInt8) :
    value (bs ++ cs) = value bs * span cs.length + value cs := by
  induction bs with
  | nil => rw [List.nil_append, value, Nat.zero_mul, Nat.zero_add]
  | cons b rest ih =>
    have hspan : span (rest ++ cs).length = span rest.length * span cs.length := by
      rw [List.length_append, span_add]
    rw [List.cons_append, value, value, ih, hspan, Nat.add_mul, Nat.mul_assoc, Nat.add_assoc]

end Bytes

namespace Record

variable {r : Record}

/-! ## Reading byte by byte -/

def byteAt (r : Record) (i : Nat) : Nat :=
  (r.data.getD i 0).toNat

theorem numberAt_one {i : Nat} (h : i + 1 ≤ r.length) : r.numberAt i 1 = r.byteAt i := by
  have hi : i < r.data.size := h
  have hone : Bytes.window r.data i 1 = some [r.data[i]] := by
    refine Bytes.window_eq_some List.length_singleton Nat.one_pos fun k hk => ?_
    obtain rfl : k = 0 := by omega
    exact Array.getElem?_eq_getElem hi
  rw [Bytes.window_of_le hi] at hone
  unfold numberAt byteAt
  rw [Option.some.inj hone, Array.getD_eq_getD_getElem?, Array.getElem?_eq_getElem hi]
  show r.data[i].toNat * 1 + 0 = r.data[i].toNat
  omega

/-- Fields side by side are one field, the first being its high part. -/
theorem numberAt_add {position m n : Nat} (h : position + m + n ≤ r.length) :
    r.numberAt position (m + n) =
      r.numberAt position m * Bytes.span n + r.numberAt (position + m) n := by
  have hsplit : (r.data.extract position (position + (m + n))).toList =
      (r.data.extract position (position + m)).toList ++
        (r.data.extract (position + m) (position + m + n)).toList := by
    rw [toList_extract_append (by omega) (by omega), Nat.add_assoc]
  have hlen : (r.data.extract (position + m) (position + m + n)).toList.length = n := by
    change position + m + n ≤ r.data.size at h
    simp only [Array.length_toList, Array.size_extract]
    omega
  unfold numberAt
  rw [hsplit, Bytes.value_append, hlen]

theorem numberAt_two {i : Nat} (h : i + 2 ≤ r.length) :
    r.numberAt i 2 = r.byteAt i * 256 + r.byteAt (i + 1) := by
  rw [numberAt_add (m := 1) (n := 1) h, numberAt_one (by omega), numberAt_one h]
  rfl

theorem read16_of_le {i : Nat} (h : i + 2 ≤ r.length) :
    ∃ v, r.read16 i = .ok v ∧ v.toNat = r.byteAt i * 256 + r.byteAt (i + 1) := by
  refine ⟨.ofNat (r.numberAt i 2), ?_, ?_⟩
  · unfold read16
    rw [field_eq_numberAt h]
    rfl
  · rw [UInt16.toNat_ofNat_of_lt' (numberAt_lt r i 2), numberAt_two h]

theorem read32_of_le {i : Nat} (h : i + 4 ≤ r.length) :
    ∃ v high low, r.read32 i = .ok v ∧ r.read16 i = .ok high ∧ r.read16 (i + 2) = .ok low ∧
      v.toNat = high.toNat * 65536 + low.toNat := by
  obtain ⟨high, hhigh, hhighv⟩ := read16_of_le (r := r) (i := i) (by omega)
  obtain ⟨low, hlow, hlowv⟩ := read16_of_le (r := r) (i := i + 2) (by omega)
  refine ⟨.ofNat (r.numberAt i 4), high, low, ?_, hhigh, hlow, ?_⟩
  · unfold read32
    rw [field_eq_numberAt h]
    rfl
  · rw [UInt32.toNat_ofNat_of_lt' (numberAt_lt r i 4), numberAt_add (m := 2) (n := 2) h,
      numberAt_two (by omega), numberAt_two (by omega), hhighv, hlowv]
    rfl

/-! ## Accesses -/

/-- A change of a record through its fields. -/
inductive Access
  | write16 (position : Nat) (value : UInt16)
  | write32 (position : Nat) (value : UInt32)
  | clear
  deriving DecidableEq, Repr

namespace Access

def action : Access → Action Record Unit
  | write16 position value => Record.write16 position value
  | write32 position value => Record.write32 position value
  | clear => Record.clear

/-- The first position that the access covers. -/
def start : Access → Nat
  | write16 position _ | write32 position _ => position
  | clear => 0

/-- How many positions the access covers in a record of this length. -/
def width (length : Nat) : Access → Nat
  | write16 .. => 2
  | write32 .. => 4
  | clear => length

/-- The number that the bytes given by the access write out. -/
def value : Access → Nat
  | write16 _ value => value.toNat
  | write32 _ value => value.toNat
  | clear => 0

/-- The position behind the last one that the access covers. -/
def finish (length : Nat) (a : Access) : Nat :=
  a.start + a.width length

/-- The byte that the access gives to a position of a record of this length, the most significant one
to the first position that it covers; none if it does not cover the position, or does not fit. -/
def given? (length i : Nat) (a : Access) : Option UInt8 :=
  if a.start ≤ i ∧ i < a.finish length ∧ a.finish length ≤ length then
    some (.ofNat (a.value / Bytes.span (a.finish length - 1 - i)))
  else none

/-- Every access is one write of the digits of its number. -/
theorem run_action (a : Access) (r : Record) :
    a.action.run r = (write a.start (Bytes.digits (a.width r.length) a.value)).run r := by
  cases a with
  | write16 | write32 => rfl
  | clear =>
    have hfits : 0 + (Bytes.digits r.length 0).length ≤ r.length := by
      rw [Bytes.length_digits, Nat.zero_add]
    have hzeros : Bytes.overlay r.data 0 (Bytes.digits r.length 0) =
        Array.replicate r.length 0 := by
      apply Array.ext_getElem?
      intro i
      rw [Bytes.getElem?_overlay, Bytes.digits_zero, List.length_replicate, Nat.sub_zero,
        Array.getElem?_replicate, List.getElem?_replicate]
      by_cases hi : i < r.length
      · rw [if_pos ⟨Nat.zero_le i, by omega, hi⟩]
      · rw [if_neg (by omega), if_neg hi]
        exact Array.getElem?_eq_none (Nat.not_lt.mp hi)
    show Record.clear.run r = (write 0 (Bytes.digits r.length 0)).run r
    rw [run_write_of_le hfits, hzeros]
    rfl

/-- The record with the bytes of the access. -/
def applied (a : Access) (r : Record) : Record :=
  r.put a.start (Bytes.digits (a.width r.length) a.value)

theorem run_action_of_le {a : Access} (h : a.finish r.length ≤ r.length) :
    a.action.run r = ⟨.ok (), a.applied r, []⟩ := by
  rw [run_action, run_write_eq_put (by rwa [Bytes.length_digits])]
  rfl

theorem run_action_of_lt {a : Access} (h : r.length < a.finish r.length) :
    a.action.run r = ⟨.error (.fault .outOfBounds), r, []⟩ := by
  rw [run_action, run_write_of_lt (by rwa [Bytes.length_digits])]

end Access

/-- The record after an access; one that does not fit leaves it as it is. -/
def access (r : Record) (a : Access) : Record :=
  (a.action.run r).state

/-- The record after these accesses, the first one first. -/
def accessed (as : List Access) (r : Record) : Record :=
  as.foldl access r

theorem accessed_concat (as : List Access) (a : Access) (r : Record) :
    accessed (as ++ [a]) r = (accessed as r).access a :=
  List.foldl_concat ..

@[simp] theorem length_access (r : Record) (a : Access) : (r.access a).length = r.length := by
  unfold access
  rw [Access.run_action, length_write]

theorem id_access (r : Record) (a : Access) : (r.access a).id = r.id := by
  unfold access
  by_cases h : a.finish r.length ≤ r.length
  · rw [Access.run_action_of_le h]
    exact id_put ..
  · rw [Access.run_action_of_lt (Nat.not_le.mp h)]

theorem dirty_access (r : Record) (a : Access) :
    (r.access a).dirty = (r.dirty || a.finish r.length ≤ r.length) := by
  unfold access
  by_cases h : a.finish r.length ≤ r.length
  · rw [Access.run_action_of_le h, decide_eq_true h, Bool.or_true]
    rfl
  · rw [Access.run_action_of_lt (Nat.not_le.mp h), decide_eq_false h, Bool.or_false]

/-- One access gives its bytes to the positions that it covers and leaves the others. -/
theorem getElem?_access (r : Record) (a : Access) (i : Nat) :
    (r.access a).data[i]? = (a.given? r.length i).or r.data[i]? := by
  unfold access Access.given?
  by_cases h : a.finish r.length ≤ r.length
  · rw [Access.run_action_of_le h]
    show (Bytes.overlay r.data a.start _)[i]? = _
    rw [Bytes.getElem?_overlay, Bytes.length_digits, Bytes.getElem?_digits]
    have hsize : r.data.size = r.length := rfl
    by_cases hi : a.start ≤ i ∧ i < a.finish r.length
    · have hi' : a.start ≤ i ∧ i < a.start + a.width r.length := hi
      have hbehind : a.width r.length - 1 - (i - a.start) = a.finish r.length - 1 - i := by
        unfold Access.finish
        omega
      rw [if_pos ⟨hi'.1, hi'.2, by omega⟩, if_pos (by omega), if_pos ⟨hi.1, hi.2, h⟩, hbehind,
        Option.some_or]
    · rw [if_neg fun hin => hi ⟨hin.1, hin.2.1⟩, if_neg fun hin => hi ⟨hin.1, hin.2.1⟩,
        Option.none_or]
  · rw [Access.run_action_of_lt (Nat.not_le.mp h), if_neg fun hin => h hin.2.2, Option.none_or]

@[simp] theorem length_accessed (as : List Access) (r : Record) :
    (accessed as r).length = r.length := by
  induction as using List.reverseRecOn with
  | nil => rfl
  | append_singleton as a ih => rw [accessed_concat, length_access, ih]

theorem id_accessed (as : List Access) (r : Record) : (accessed as r).id = r.id := by
  induction as using List.reverseRecOn with
  | nil => rfl
  | append_singleton as a ih => rw [accessed_concat, id_access, ih]

theorem dirty_accessed (as : List Access) (r : Record) :
    (accessed as r).dirty = (r.dirty || as.any fun a => a.finish r.length ≤ r.length) := by
  induction as using List.reverseRecOn with
  | nil => exact (Bool.or_false _).symm
  | append_singleton as a ih =>
    rw [accessed_concat, dirty_access, ih, length_accessed, List.any_append, Bool.or_assoc,
      List.any_cons, List.any_nil, Bool.or_false]

/-- Each byte is the one that was given to it last. -/
theorem getElem?_accessed (as : List Access) (r : Record) (i : Nat) :
    (accessed as r).data[i]? =
      (as.filterMap (Access.given? r.length i)).getLast?.or r.data[i]? := by
  induction as using List.reverseRecOn with
  | nil => rfl
  | append_singleton as a ih =>
    rw [accessed_concat, getElem?_access, ih, length_accessed, List.filterMap_append,
      List.getLast?_append, Option.or_assoc]
    congr 1
    cases h : a.given? r.length i with
    | none => simp [h]
    | some b => simp [h]

/-- **Fields over each other.**  After any accesses each byte of a record is the one given to it last,
or the one that it had; an access that does not fit is a fault and changes nothing; and every field
that fits is read as the number that its bytes write out, the most significant first. -/
theorem accessed_reads (r : Record) (as : List Access) :
    let u := accessed as r
    (u.id = r.id ∧ u.length = r.length ∧
      u.dirty = (r.dirty || as.any fun a => a.finish r.length ≤ r.length)) ∧
    (∀ i, u.data[i]? = (as.filterMap (Access.given? r.length i)).getLast?.or r.data[i]?) ∧
    (∀ a : Access, a.action.run u =
      if a.finish r.length ≤ r.length then ⟨.ok (), accessed (as ++ [a]) r, []⟩
      else ⟨.error (.fault .outOfBounds), u, []⟩) ∧
    (r.length ≤ Memory.maxBytes → ∀ a : Access, UInt64.size ≤ a.finish r.length →
      a.action.run u = ⟨.error (.fault .outOfBounds), u, []⟩) ∧
    (∀ i, i + 2 ≤ r.length →
      ∃ v, u.read16 i = .ok v ∧ v.toNat = u.byteAt i * 256 + u.byteAt (i + 1)) ∧
    ∀ i, i + 4 ≤ r.length →
      ∃ v high low, u.read32 i = .ok v ∧ u.read16 i = .ok high ∧ u.read16 (i + 2) = .ok low ∧
        v.toNat = high.toNat * 65536 + low.toNat := by
  intro u
  have hlen : u.length = r.length := length_accessed as r
  have hout : ∀ a : Access, r.length < a.finish r.length →
      a.action.run u = ⟨.error (.fault .outOfBounds), u, []⟩ := by
    rw [← hlen]
    exact fun a => Access.run_action_of_lt
  refine ⟨⟨id_accessed as r, hlen, dirty_accessed as r⟩, getElem?_accessed as r, fun a => ?_,
    fun hmemory a hfar => hout a ?_, fun i hi => read16_of_le (by rwa [hlen]),
    fun i hi => read32_of_le (by rwa [hlen])⟩
  · split
    · rename_i hfits
      rw [← hlen] at hfits
      rw [accessed_concat, access, Access.run_action_of_le hfits]
    · rename_i hfits
      exact hout a (Nat.not_le.mp hfits)
  · change r.length ≤ 9223372036854775807 at hmemory
    change 18446744073709551616 ≤ a.finish r.length at hfar
    omega

/-- Four bytes, of which the second one is given twice and the last one is what it was; the third
write ends behind the record. -/
theorem accessed_reads_overlap :
    let r := ofBytes 7 #[1, 2, 3, 4]
    let as := [Access.write16 0 0x0A0B, .write16 1 0x0C0D, .write32 1 0xFFFFFFFF]
    let u := accessed as r
    u.data[1]? = some 0x0C ∧ u.data[3]? = some 4 ∧ u.dirty = true ∧
      (Access.write32 1 0).action.run u = ⟨.error (.fault .outOfBounds), u, []⟩ ∧
      ∃ v high low, u.read32 0 = .ok v ∧ u.read16 0 = .ok high ∧ u.read16 2 = .ok low ∧
        v.toNat = high.toNat * 65536 + low.toNat := by
  intro r as u
  obtain ⟨⟨-, -, hdirty⟩, hbytes, hfault, -, -, hread⟩ := accessed_reads r as
  exact ⟨(hbytes 1).trans (by decide), (hbytes 3).trans (by decide), hdirty.trans (by decide),
    (hfault (.write32 1 0)).trans (if_neg (by decide)), hread 0 (by decide)⟩

end Record

end FreeSpace
