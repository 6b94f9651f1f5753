import FreeSpace.Error

/-!
# Words that do not wrap

Sums, products and differences of words whose result must fit its word: one that does not is a
fault, never a wrapped value.
-/

namespace FreeSpace.Word

/-- The 16-bit word of this value. -/
def narrow16 (n : Nat) : Result UInt16 :=
  if n < UInt16.size then .ok (.ofNat n) else .error (.fault .overflow)

/-- The value itself, if a 64-bit word holds it. -/
def within64 (n : Nat) : Result Nat :=
  if n < UInt64.size then .ok n else .error (.fault .overflow)

def add16 (a b : UInt16) : Result UInt16 :=
  narrow16 (a.toNat + b.toNat)

def sub32 (a b : UInt32) : Result UInt32 :=
  if b ≤ a then .ok (a - b) else .error (.fault .overflow)

theorem narrow16_of_lt {n : Nat} (h : n < UInt16.size) : narrow16 n = .ok (.ofNat n) :=
  if_pos h

theorem add16_of_lt {a b : UInt16} (h : a.toNat + b.toNat < UInt16.size) :
    add16 a b = .ok (a + b) := by
  rw [add16, narrow16_of_lt h]
  rfl

theorem toNat_add_one {a : UInt16} (h : a.toNat < 65535) : (a + 1).toNat = a.toNat + 1 := by
  rw [UInt16.toNat_add]
  change (a.toNat + 1) % 65536 = _
  omega

theorem toNat_sub_one {a : UInt16} (h : a ≠ 0) : (a - 1).toNat + 1 = a.toNat := by
  have hne : a.toNat ≠ 0 := fun hz => h (UInt16.toNat_inj.mp hz)
  have hle : (1 : UInt16).toNat ≤ a.toNat := by
    change 1 ≤ a.toNat
    omega
  rw [UInt16.toNat_sub_of_le _ _ (UInt16.le_iff_toNat_le.mpr hle)]
  exact Nat.succ_pred hne

theorem sub32_of_le {a b : UInt32} (h : b ≤ a) : sub32 a b = .ok (a - b) :=
  if_pos h

end FreeSpace.Word
