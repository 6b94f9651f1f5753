import FreeSpace.Bytes
import FreeSpace.Checksum
import Mathlib.Algebra.Group.Nat.Defs
import Mathlib.Logic.Function.Iterate

/-!
# The checksum register under exclusive or

One bit of the register is a linear map without kernel, because the highest bit of the polynomial
is set.  So equal registers stay equal only if they were, whatever bytes follow, and four bytes
or less can take one register to two different ones only by being different.
-/

namespace FreeSpace.Checksum

/-! ## One bit -/

theorem low_bit_iff (a : UInt32) : a &&& 1 = 1 ↔ a.toNat % 2 = 1 := by
  rw [← UInt32.toNat_inj, UInt32.toNat_and]
  show a.toNat &&& 1 = 1 ↔ _
  rw [Nat.and_one_is_mod]

theorem toNat_shiftRight_one (a : UInt32) : (a >>> 1).toNat = a.toNat / 2 := by
  rw [UInt32.toNat_shiftRight]
  exact Nat.shiftRight_eq_div_pow a.toNat 1

theorem shiftBit_of_odd {a : UInt32} (h : a.toNat % 2 = 1) :
    shiftBit a = (a >>> 1) ^^^ polynomial :=
  if_pos ((low_bit_iff a).mpr h)

theorem shiftBit_of_even {a : UInt32} (h : a.toNat % 2 = 0) : shiftBit a = a >>> 1 := by
  apply if_neg
  rw [low_bit_iff]
  omega

theorem shiftBit_xor (a b : UInt32) : shiftBit (a ^^^ b) = shiftBit a ^^^ shiftBit b := by
  have hshift : (a ^^^ b) >>> 1 = (a >>> 1) ^^^ (b >>> 1) := UInt32.shiftRight_xor
  have hbit : (a ^^^ b).toNat % 2 = 1 ↔ ¬ (a.toNat % 2 = 1 ↔ b.toNat % 2 = 1) := by
    rw [UInt32.toNat_xor, Nat.xor_mod_two_eq_one]
  -- The polynomial comes in once for each low bit that is set, and twice is not at all.
  rcases Nat.mod_two_eq_zero_or_one a.toNat with ha | ha <;>
    rcases Nat.mod_two_eq_zero_or_one b.toNat with hb | hb
  · rw [shiftBit_of_even ha, shiftBit_of_even hb, shiftBit_of_even (by omega), hshift]
  · rw [shiftBit_of_even ha, shiftBit_of_odd hb, shiftBit_of_odd (by omega), hshift,
      UInt32.xor_assoc]
  · rw [shiftBit_of_odd ha, shiftBit_of_even hb, shiftBit_of_odd (by omega), hshift,
      UInt32.xor_assoc, UInt32.xor_comm (b >>> 1), UInt32.xor_assoc]
  · rw [shiftBit_of_odd ha, shiftBit_of_odd hb, shiftBit_of_even (by omega), hshift,
      UInt32.xor_comm (b >>> 1), UInt32.xor_assoc, ← UInt32.xor_assoc polynomial,
      UInt32.xor_self, UInt32.zero_xor]

theorem eq_zero_of_shiftBit {a : UInt32} (h : shiftBit a = 0) : a = 0 := by
  have ha := a.toNat_lt
  rcases Nat.mod_two_eq_zero_or_one a.toNat with hbit | hbit
  · rw [shiftBit_of_even hbit] at h
    have hn : a.toNat / 2 = 0 := by
      rw [← toNat_shiftRight_one, h]
      rfl
    apply UInt32.toNat_inj.mp
    show a.toNat = 0
    omega
  · rw [shiftBit_of_odd hbit, UInt32.xor_eq_zero_iff] at h
    -- The polynomial has bit 31, which a register that moved down does not have.
    have hn : a.toNat / 2 = 0xEDB88320 := by
      rw [← toNat_shiftRight_one, h]
      rfl
    omega

theorem shiftBit_injective : Function.Injective shiftBit := by
  intro a b h
  apply UInt32.xor_eq_zero_iff.mp
  apply eq_zero_of_shiftBit
  rw [shiftBit_xor, h, UInt32.xor_self]

/-! ## Several bits -/

theorem shiftBits_add (m n : Nat) (a : UInt32) :
    shiftBits (m + n) a = shiftBits n (shiftBits m a) := by
  induction m generalizing a with
  | zero => rw [Nat.zero_add, shiftBits]
  | succ m ih => rw [Nat.succ_add, shiftBits, ih, shiftBits]

theorem shiftBits_eq_iterate (n : Nat) (a : UInt32) : shiftBits n a = shiftBit^[n] a := by
  induction n generalizing a with
  | zero => rfl
  | succ n ih => rw [shiftBits, ih, Function.iterate_succ_apply]

theorem shiftBits_xor (n : Nat) (a b : UInt32) :
    shiftBits n (a ^^^ b) = shiftBits n a ^^^ shiftBits n b := by
  induction n generalizing a b with
  | zero => rfl
  | succ n ih => rw [shiftBits, shiftBit_xor, ih, shiftBits, shiftBits]

theorem shiftBits_injective (n : Nat) : Function.Injective (shiftBits n) := by
  intro a b h
  rw [shiftBits_eq_iterate, shiftBits_eq_iterate] at h
  exact shiftBit_injective.iterate n h

-- Bits that are 0 only move the register down.
theorem toNat_shiftBits {n k : Nat} {a : UInt32} (h : a.toNat = k * 2 ^ n) :
    (shiftBits n a).toNat = k := by
  induction n generalizing a with
  | zero => rw [shiftBits, h, Nat.pow_zero, Nat.mul_one]
  | succ n ih =>
    rw [Nat.pow_succ, ← Nat.mul_assoc] at h
    rw [shiftBits]
    apply ih
    rw [shiftBit_of_even (by omega), toNat_shiftRight_one]
    omega

/-! ## Bytes -/

theorem step_injective (byte : UInt8) : Function.Injective fun r => step r byte := by
  intro a b h
  exact UInt32.xor_left_inj byte.toUInt32 |>.mp (shiftBits_injective 8 h)

theorem foldl_step_injective (bs : List UInt8) : Function.Injective fun r => bs.foldl step r := by
  induction bs with
  | nil => exact fun _ _ h => h
  | cons byte rest ih =>
    intro a b h
    exact step_injective byte (ih h)

/-- The word that takes up these bytes, the first one lowest. -/
def lowWord (bs : List UInt8) : UInt32 :=
  UInt32.ofNat (Bytes.value bs.reverse)

theorem value_reverse_cons (byte : UInt8) (rest : List UInt8) :
    Bytes.value (byte :: rest).reverse = Bytes.value rest.reverse * 256 + byte.toNat := by
  rw [List.reverse_cons]
  induction rest.reverse with
  | nil =>
    show byte.toNat * 1 + 0 = 0 * 256 + byte.toNat
    omega
  | cons b bs ih =>
    rw [List.cons_append, Bytes.value, ih, Bytes.value, List.length_append, List.length_singleton,
      Bytes.span, ← Nat.mul_assoc, Nat.add_mul, Nat.add_assoc]

theorem value_reverse_lt {bs : List UInt8} (h : bs.length ≤ 4) :
    Bytes.value bs.reverse < 2 ^ 32 := by
  have hlt := Bytes.value_lt bs.reverse
  have hspan : Bytes.span bs.length ≤ Bytes.span 4 := Bytes.span_le_span h
  rw [List.length_reverse] at hlt
  exact Nat.lt_of_lt_of_le hlt hspan

theorem toNat_lowWord {bs : List UInt8} (h : bs.length ≤ 4) :
    (lowWord bs).toNat = Bytes.value bs.reverse :=
  UInt32.toNat_ofNat_of_lt' (value_reverse_lt h)

theorem lowWord_injective {bs cs : List UInt8} (hlen : bs.length = cs.length)
    (hbs : bs.length ≤ 4) (h : lowWord bs = lowWord cs) : bs = cs := by
  have hval : Bytes.value bs.reverse = Bytes.value cs.reverse := by
    rw [← toNat_lowWord hbs, ← toNat_lowWord (hlen ▸ hbs), h]
  apply List.reverse_inj.mp
  apply Bytes.eq_of_value_eq _ hval
  rw [List.length_reverse, List.length_reverse, hlen]

-- Beside its first byte, a word of bytes is made of bits that eight shifts only move.
theorem lowWord_cons (byte : UInt8) {rest : List UInt8} (h : rest.length ≤ 3) :
    ∃ high : UInt32, lowWord (byte :: rest) = byte.toUInt32 ^^^ high ∧
      shiftBits 8 high = lowWord rest := by
  have hrest : rest.length ≤ 4 := by omega
  have hcons : (byte :: rest).length ≤ 4 := by
    rw [List.length_cons]
    omega
  have hbyte := byte.toNat_lt
  have hsum := value_reverse_cons byte rest
  have hlt := value_reverse_lt hcons
  have hhigh : Bytes.value rest.reverse * 256 < 2 ^ 32 := by omega
  have hto : (UInt32.ofNat (Bytes.value rest.reverse * 256)).toNat =
      Bytes.value rest.reverse * 256 :=
    UInt32.toNat_ofNat_of_lt' hhigh
  refine ⟨UInt32.ofNat (Bytes.value rest.reverse * 256), ?_, ?_⟩
  · apply UInt32.toNat_inj.mp
    rw [UInt32.toNat_xor, toNat_lowWord hcons, hsum, hto, UInt8.toNat_toUInt32]
    -- The byte and the word above it do not overlap: their exclusive or is their sum.
    have hdiv := Nat.xor_div_two_pow
      (a := byte.toNat) (b := Bytes.value rest.reverse * 256) (n := 8)
    have hmod := Nat.xor_mod_two_pow
      (a := byte.toNat) (b := Bytes.value rest.reverse * 256) (n := 8)
    rw [show byte.toNat / 2 ^ 8 = 0 by omega, Nat.zero_xor] at hdiv
    rw [show Bytes.value rest.reverse * 256 % 2 ^ 8 = 0 by omega, Nat.xor_zero] at hmod
    omega
  · apply UInt32.toNat_inj.mp
    rw [toNat_lowWord hrest]
    exact toNat_shiftBits hto

-- As long as they fit the register, bytes could as well be taken up all at once.
theorem foldl_step_eq_shiftBits {bs : List UInt8} (h : bs.length ≤ 4) (r : UInt32) :
    bs.foldl step r = shiftBits (8 * bs.length) (r ^^^ lowWord bs) := by
  induction bs generalizing r with
  | nil => exact UInt32.xor_zero.symm
  | cons byte rest ih =>
    rw [List.length_cons] at h
    obtain ⟨high, hword, hshift⟩ := lowWord_cons byte (Nat.le_of_succ_le_succ h)
    have hstep : step r byte ^^^ lowWord rest = shiftBits 8 (r ^^^ lowWord (byte :: rest)) := by
      rw [step, ← hshift, ← shiftBits_xor, hword, UInt32.xor_assoc]
    rw [List.foldl_cons, ih (by omega), hstep, ← shiftBits_add, List.length_cons, Nat.mul_succ,
      Nat.add_comm]

theorem foldl_step_ne {bs cs : List UInt8} (hlen : bs.length = cs.length) (hbs : bs.length ≤ 4)
    (h : bs ≠ cs) (r : UInt32) : bs.foldl step r ≠ cs.foldl step r := by
  intro heq
  rw [foldl_step_eq_shiftBits hbs, foldl_step_eq_shiftBits (hlen ▸ hbs), hlen] at heq
  have hxor := shiftBits_injective _ heq
  exact h (lowWord_injective hlen hbs (UInt32.xor_right_inj r |>.mp hxor))

end FreeSpace.Checksum

namespace FreeSpace

open Checksum

theorem checksum_eq_foldl (data : Array UInt8) :
    checksum data = data.toList.foldl step 0xFFFFFFFF ^^^ 0xFFFFFFFF := by
  rw [checksum, run, ← Array.foldl_toList]

/-- Bytes that differ, but only within four in a row, have different checksums. -/
theorem checksum_ne_of_burst {data other : Array UInt8} {start : Nat}
    (hsize : data.size = other.size) (hne : data ≠ other)
    (h : ∀ i, data[i]? ≠ other[i]? → start ≤ i ∧ i < start + 4) :
    checksum data ≠ checksum other := by
  have hpre : data.toList.take start = other.toList.take start := by
    apply List.ext_getElem?
    intro i
    rw [List.getElem?_take, List.getElem?_take, Array.getElem?_toList, Array.getElem?_toList]
    by_cases hi : data[i]? = other[i]?
    · rw [hi]
    · have hin := h i hi
      rw [if_neg (by omega), if_neg (by omega)]
  have hpost : data.toList.drop (start + 4) = other.toList.drop (start + 4) := by
    apply List.ext_getElem?
    intro i
    rw [List.getElem?_drop, List.getElem?_drop, Array.getElem?_toList, Array.getElem?_toList]
    by_contra hi
    have hin := h _ hi
    omega
  -- What lies before, within and behind the four bytes.
  have hsplit : ∀ d : Array UInt8, d.toList =
      d.toList.take start ++ ((d.toList.drop start).take 4 ++ d.toList.drop (start + 4)) := by
    intro d
    rw [← List.drop_drop, List.take_append_drop, List.take_append_drop]
  have hmid : (data.toList.drop start).take 4 ≠ (other.toList.drop start).take 4 := by
    intro heq
    apply hne
    apply Array.toList_inj.mp
    rw [hsplit data, hsplit other, hpre, heq, hpost]
  intro heq
  -- The bytes before lead to one register, those behind cannot bring two together again.
  rw [checksum_eq_foldl, checksum_eq_foldl, UInt32.xor_left_inj, hsplit data, hsplit other, hpre,
    hpost, List.foldl_append, List.foldl_append, List.foldl_append, List.foldl_append] at heq
  refine foldl_step_ne ?_ ?_ hmid _ (foldl_step_injective _ heq)
  · rw [List.length_take, List.length_take, List.length_drop, List.length_drop,
      Array.length_toList, Array.length_toList, hsize]
  · exact List.length_take_le ..

end FreeSpace
