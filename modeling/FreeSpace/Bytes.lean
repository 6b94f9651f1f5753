/-!
# Big-endian fields in byte arrays

A field is a run of bytes at a position; its value has the most significant byte first.  `digits`
and `value` are inverse on words of the right width (`value_digits`, `digits_value`).  `window`
reads a run of bytes and `overlay` writes one, never changing the length of the array: what was
written is read back (`window_overlay`), and a run beside it is as it was
(`window_overlay_of_disjoint`).  `place` writes a run to an array that grows as far as it needs.
-/

namespace FreeSpace.Bytes

/-- How many numbers can be written in `width` base-256 digits. -/
def span : Nat → Nat
  | 0 => 1
  | width + 1 => span width * 256

/-- The last `width` base-256 digits of `n`, the most significant first. -/
def digits : Nat → Nat → List UInt8
  | 0, _ => []
  | width + 1, n => UInt8.ofNat (n / span width) :: digits width n

/-- The number whose base-256 digits these are. -/
def value : List UInt8 → Nat
  | [] => 0
  | b :: rest => b.toNat * span rest.length + value rest

theorem span_pos (width : Nat) : 0 < span width := by
  induction width with
  | zero => exact Nat.one_pos
  | succ width ih => exact Nat.mul_pos ih (by decide)

theorem span_le_span {m n : Nat} (h : m ≤ n) : span m ≤ span n := by
  induction h with
  | refl => exact Nat.le_refl _
  | step _ ih =>
    rw [span]
    omega

@[simp] theorem length_digits (width n : Nat) : (digits width n).length = width := by
  induction width with
  | zero => rfl
  | succ width ih => simp [digits, ih]

theorem value_lt (bs : List UInt8) : value bs < span bs.length := by
  induction bs with
  | nil => exact Nat.one_pos
  | cons b rest ih =>
    have hb : b.toNat ≤ 255 := Nat.le_of_lt_succ b.toNat_lt
    have hm : b.toNat * span rest.length ≤ 255 * span rest.length :=
      Nat.mul_le_mul_right _ hb
    rw [value, List.length_cons, span]
    omega

theorem value_replicate_zero (n : Nat) : value (List.replicate n 0) = 0 := by
  induction n with
  | zero => rfl
  | succ n ih =>
    rw [List.replicate_succ, value, ih]
    exact Nat.zero_mul _

/-- Writing a number and reading it back keeps what the width holds of it. -/
theorem value_digits (width n : Nat) : value (digits width n) = n % span width := by
  induction width with
  | zero => simp [digits, value, span, Nat.mod_one]
  | succ width ih =>
    have hsplit := Nat.mod_mul (x := n) (a := span width) (b := 256)
    have hb : (UInt8.ofNat (n / span width)).toNat = n / span width % 256 := UInt8.toNat_ofNat'
    rw [digits, value, length_digits, ih, hb, span, hsplit, Nat.mul_comm, Nat.add_comm]

theorem digits_add_mul (width n k : Nat) : digits width (n + k * span width) = digits width n := by
  induction width generalizing k with
  | zero => rfl
  | succ width ih =>
    have hk : k * span (width + 1) = k * 256 * span width := by
      rw [span, Nat.mul_comm (span width), Nat.mul_assoc]
    rw [digits, digits, hk, ih, Nat.add_mul_div_right _ _ (span_pos width)]
    congr 1
    apply UInt8.toNat_inj.mp
    rw [UInt8.toNat_ofNat', UInt8.toNat_ofNat', Nat.add_mul_mod_self_right]

/-- The digits of a value are the bytes that it was read from. -/
theorem digits_value (bs : List UInt8) : digits bs.length (value bs) = bs := by
  induction bs with
  | nil => rfl
  | cons b rest ih =>
    have hlt := value_lt rest
    rw [List.length_cons, value, Nat.add_comm (b.toNat * _), digits, digits_add_mul, ih,
      Nat.add_mul_div_right _ _ (span_pos _), Nat.div_eq_of_lt hlt, Nat.zero_add, UInt8.ofNat_toNat]

theorem eq_of_value_eq {bs cs : List UInt8} (hlen : bs.length = cs.length)
    (h : value bs = value cs) : bs = cs := by
  rw [← digits_value bs, ← digits_value cs, h, hlen]

/-! ## Runs of bytes -/

/-- The `width` bytes from `position` on, if the array has them. -/
def window (data : Array UInt8) (position width : Nat) : Option (List UInt8) :=
  if position + width ≤ data.size then
    some (data.extract position (position + width)).toList
  else
    none

/-- The array with these bytes from `position` on; bytes past its end are dropped. -/
def overlay (data : Array UInt8) (position : Nat) : List UInt8 → Array UInt8
  | [] => data
  | b :: rest => overlay (data.setIfInBounds position b) (position + 1) rest

/-- The array with as many zeros behind it as it needs to be `length` bytes long. -/
def padded (data : Array UInt8) (length : Nat) : Array UInt8 :=
  data ++ Array.replicate (length - data.size) 0

@[simp] theorem size_overlay (data : Array UInt8) (position : Nat) (bs : List UInt8) :
    (overlay data position bs).size = data.size := by
  induction bs generalizing data position with
  | nil => rfl
  | cons b rest ih => simp [overlay, ih]

/-- An overlaid byte inside the written run is the byte written there, any other is kept. -/
theorem getElem?_overlay (data : Array UInt8) (position : Nat) (bs : List UInt8) (i : Nat) :
    (overlay data position bs)[i]? =
      if position ≤ i ∧ i < position + bs.length ∧ i < data.size then bs[i - position]?
      else data[i]? := by
  induction bs generalizing data position with
  | nil =>
    rw [if_neg]
    · rfl
    · simp only [List.length_nil]
      omega
  | cons b rest ih =>
    rw [overlay, ih, Array.size_setIfInBounds, Array.getElem?_setIfInBounds, List.length_cons]
    by_cases hi : position = i
    · subst hi
      rw [if_neg (by omega)]
      by_cases hs : position < data.size
      · rw [if_pos rfl, if_pos hs, if_pos (by omega)]
        simp
      · rw [if_pos rfl, if_neg hs, if_neg (by omega)]
        simp [Nat.not_lt.mp hs]
    · by_cases hin : position + 1 ≤ i ∧ i < position + 1 + rest.length ∧ i < data.size
      · rw [if_pos hin, if_pos (by omega)]
        obtain ⟨k, hk⟩ : ∃ k, i - position = k + 1 := ⟨i - position - 1, by omega⟩
        rw [hk, List.getElem?_cons_succ]
        congr 1
        omega
      · rw [if_neg hin, if_neg hi, if_neg (by omega)]

theorem window_of_le {data : Array UInt8} {position width : Nat}
    (h : position + width ≤ data.size) :
    window data position width = some (data.extract position (position + width)).toList :=
  if_pos h

theorem window_eq_none_iff {data : Array UInt8} {position width : Nat} :
    window data position width = none ↔ data.size < position + width := by
  rw [window]
  split <;> simp <;> omega

/-- The bytes of a run are those of the array, one by one. -/
theorem getElem?_of_window {data : Array UInt8} {position width : Nat} {bs : List UInt8}
    (h : window data position width = some bs) (i : Nat) :
    bs[i]? = if i < width then data[position + i]? else none := by
  rw [window] at h
  split at h
  · rename_i hfit
    obtain rfl := Option.some.inj h
    rw [Array.getElem?_toList, Array.getElem?_extract]
    congr 1
    simp only [eq_iff_iff]
    omega
  · exact absurd h nofun

/-- Two runs are equal if the arrays have the same bytes there. -/
theorem window_congr {data other : Array UInt8} {position width : Nat}
    (hsize : data.size = other.size)
    (h : ∀ i < width, data[position + i]? = other[position + i]?) :
    window data position width = window other position width := by
  rw [window, window, hsize]
  split
  · congr 1
    apply List.ext_getElem?
    intro i
    rw [Array.getElem?_toList, Array.getElem?_toList, Array.getElem?_extract,
      Array.getElem?_extract, hsize]
    split
    · exact h i (by omega)
    · rfl
  · rfl

theorem length_of_window {data : Array UInt8} {position width : Nat} {bs : List UInt8}
    (h : window data position width = some bs) :
    bs.length = width ∧ position + width ≤ data.size := by
  rw [window] at h
  split at h
  · rename_i hfit
    obtain rfl := Option.some.inj h
    rw [Array.length_toList, Array.size_extract]
    omega
  · exact absurd h nofun

theorem window_eq_some {data : Array UInt8} {position width : Nat} {bs : List UInt8}
    (hlen : bs.length = width) (hpos : 0 < width)
    (h : ∀ i < width, data[position + i]? = bs[i]?) : window data position width = some bs := by
  -- The last byte is there, so the run does not reach past the end.
  have hlast : position + (width - 1) < data.size := by
    have hb := h (width - 1) (by omega)
    rw [List.getElem?_eq_getElem (by omega)] at hb
    exact (Array.getElem?_eq_some_iff.mp hb).1
  have hfit : position + width ≤ data.size := by omega
  rw [window, if_pos hfit]
  congr 1
  apply List.ext_getElem?
  intro i
  rw [Array.getElem?_toList, Array.getElem?_extract]
  by_cases hi : i < width
  · rw [if_pos (by omega), h i hi]
  · rw [if_neg (by omega), List.getElem?_eq_none (by omega)]

/-- A part of a run is a run itself. -/
theorem window_part {data : Array UInt8} {position width k m : Nat} {bs : List UInt8}
    (h : window data position width = some bs) (hkm : k + m ≤ width) :
    window data (position + k) m = some ((bs.drop k).take m) := by
  obtain ⟨-, hfit⟩ := length_of_window h
  rw [window, if_pos (by omega)]
  congr 1
  apply List.ext_getElem?
  intro i
  rw [Array.getElem?_toList, Array.getElem?_extract, List.getElem?_take, List.getElem?_drop,
    getElem?_of_window h]
  by_cases hi : i < m
  · rw [if_pos (by omega), if_pos hi, if_pos (by omega), Nat.add_assoc]
  · rw [if_neg (by omega), if_neg hi]

/-- A run is the run of its first bytes and the run of the rest. -/
theorem window_split {data : Array UInt8} {position m n : Nat} {bs : List UInt8}
    (h : window data position (m + n) = some bs) :
    window data position m = some (bs.take m) ∧
      window data (position + m) n = some (bs.drop m) := by
  have hlen := (length_of_window h).1
  have hfirst := window_part h (show 0 + m ≤ m + n by omega)
  have hrest := window_part h (show m + n ≤ m + n by omega)
  rw [List.take_of_length_le (by rw [List.length_drop]; omega)] at hrest
  exact ⟨hfirst, hrest⟩

/-- What was written is read back. -/
theorem window_overlay {data : Array UInt8} {position : Nat} {bs : List UInt8}
    (h : position + bs.length ≤ data.size) :
    window (overlay data position bs) position bs.length = some bs := by
  rw [window, if_pos (by rwa [size_overlay])]
  congr 1
  apply List.ext_getElem?
  intro i
  rw [Array.getElem?_toList, Array.getElem?_extract, getElem?_overlay, size_overlay]
  by_cases hi : i < bs.length
  · rw [if_pos (by omega), if_pos (by omega)]
    congr 1
    omega
  · rw [if_neg (by omega), List.getElem?_eq_none (Nat.not_lt.mp hi)]

/-- A run that ends before the written one, or starts behind it, is as it was. -/
theorem window_overlay_of_disjoint {data : Array UInt8} {position other width : Nat}
    {bs : List UInt8} (h : other + width ≤ position ∨ position + bs.length ≤ other) :
    window (overlay data position bs) other width = window data other width := by
  apply window_congr (size_overlay ..)
  intro i hi
  rw [getElem?_overlay, if_neg (by omega)]

/-- Two runs written one behind the other are written as one. -/
theorem overlay_append (data : Array UInt8) (position : Nat) (bs cs : List UInt8) :
    overlay data position (bs ++ cs) =
      overlay (overlay data position bs) (position + bs.length) cs := by
  induction bs generalizing data position with
  | nil => rfl
  | cons b rest ih =>
    have hnext : position + 1 + rest.length = position + (b :: rest).length := by
      rw [List.length_cons]
      omega
    rw [List.cons_append, overlay, overlay, ih, hnext]

-- Nothing is written behind the end.
theorem overlay_of_size_le {data : Array UInt8} {position : Nat} (h : data.size ≤ position)
    (bs : List UInt8) : overlay data position bs = data := by
  apply Array.ext_getElem?
  intro i
  rw [getElem?_overlay, if_neg (by omega)]

/-- Writing a run where it stands changes nothing. -/
theorem overlay_of_window {data : Array UInt8} {position width : Nat} {bs : List UInt8}
    (h : window data position width = some bs) : overlay data position bs = data := by
  obtain ⟨hlen, -⟩ := length_of_window h
  apply Array.ext_getElem?
  intro i
  rw [getElem?_overlay]
  split
  · rename_i hin
    have hindex : position + (i - position) = i := by omega
    rw [getElem?_of_window h, if_pos (by omega), hindex]
  · rfl

/-! ## Growing -/

theorem size_padded (data : Array UInt8) (length : Nat) :
    (padded data length).size = max data.size length := by
  rw [padded, Array.size_append, Array.size_replicate]
  omega

/-- The bytes that were there stay, and all bytes behind them are 0. -/
theorem getElem?_padded (data : Array UInt8) (length i : Nat) :
    (padded data length)[i]? =
      if i < data.size then data[i]? else if i < length then some 0 else none := by
  rw [padded, Array.getElem?_append]
  split
  · rfl
  · rw [Array.getElem?_replicate]
    congr 1
    simp only [eq_iff_iff]
    omega

theorem padded_of_le {data : Array UInt8} {length : Nat} (h : length ≤ data.size) :
    padded data length = data := by
  rw [padded, Nat.sub_eq_zero_of_le h, Array.replicate_zero, Array.append_empty]

/-- The array, grown as far as needed, with these bytes from `position` on. -/
def place (data : Array UInt8) (position : Nat) (bs : List UInt8) : Array UInt8 :=
  overlay (padded data (position + bs.length)) position bs

theorem size_place (data : Array UInt8) (position : Nat) (bs : List UInt8) :
    (place data position bs).size = max data.size (position + bs.length) := by
  rw [place, size_overlay, size_padded]

theorem getElem?_place (data : Array UInt8) (position : Nat) (bs : List UInt8) (i : Nat) :
    (place data position bs)[i]? =
      if position ≤ i ∧ i < position + bs.length then bs[i - position]?
      else if i < data.size then data[i]?
      else if i < position + bs.length then some 0 else none := by
  rw [place, getElem?_overlay, size_padded, getElem?_padded]
  by_cases hin : position ≤ i ∧ i < position + bs.length
  · rw [if_pos hin, if_pos (by omega)]
  · rw [if_neg hin, if_neg (by omega)]

theorem place_append (data : Array UInt8) (position : Nat) (bs cs : List UInt8) :
    place (place data position bs) (position + bs.length) cs = place data position (bs ++ cs) := by
  apply Array.ext_getElem?
  intro i
  rw [getElem?_place, getElem?_place, getElem?_place, size_place, List.length_append,
    List.getElem?_append]
  by_cases hcs : position + bs.length ≤ i ∧ i < position + bs.length + cs.length
  · have hboth : position ≤ i ∧ i < position + (bs.length + cs.length) := by omega
    rw [if_pos hcs, if_pos hboth, if_neg (by omega), Nat.sub_sub]
  rw [if_neg hcs]
  by_cases hbs : position ≤ i ∧ i < position + bs.length
  · have hgrown : i < max data.size (position + bs.length) := by omega
    have hboth : position ≤ i ∧ i < position + (bs.length + cs.length) := by omega
    rw [if_pos hgrown, if_pos hbs, if_pos hboth, if_pos (by omega)]
  have hboth : ¬ (position ≤ i ∧ i < position + (bs.length + cs.length)) := by omega
  rw [if_neg hbs, if_neg hboth]
  by_cases hold : i < data.size
  · have hgrown : i < max data.size (position + bs.length) := by omega
    rw [if_pos hgrown, if_pos hold, if_pos hold]
  -- What is left are zeros before the bytes, and nothing behind them.
  rw [if_neg hold, if_neg hold]
  by_cases hbefore : i < position
  · have hgrown : i < max data.size (position + bs.length) := by omega
    rw [if_pos hgrown, if_pos (by omega), if_pos (by omega)]
  · have hgrown : ¬ i < max data.size (position + bs.length) := by omega
    rw [if_neg hgrown, if_neg (by omega), if_neg (by omega)]

/-- The bytes that were put into an array are the run that starts where they were put. -/
theorem window_place (data : Array UInt8) (position : Nat) (bs : List UInt8) :
    window (place data position bs) position bs.length = some bs := by
  apply window_overlay
  rw [size_padded]
  exact Nat.le_max_right ..

theorem place_of_window {data : Array UInt8} {position width : Nat} {bs : List UInt8}
    (h : window data position width = some bs) : place data position bs = data := by
  obtain ⟨hlen, hfit⟩ := length_of_window h
  rw [place, padded_of_le (by omega), overlay_of_window h]

end FreeSpace.Bytes
