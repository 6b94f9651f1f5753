import FreeSpace.Text.Hex

/-!
# Comparing byte strings

`difference?` finds the first reason why two byte strings differ: their lengths, or else the first
index at which the bytes do.  There is none exactly if the byte strings are equal.
-/

namespace FreeSpace.Bytes

/-- Why two byte strings differ. -/
inductive Difference
  | length (actual expected : Nat)
  | byte (index : Nat) (actual expected : UInt8)
  deriving DecidableEq, Repr

namespace Difference

/-- The difference in words, under a heading that says what was compared. -/
def message (context : String) : Difference → String
  | length actual expected =>
      s!"{context}: Length mismatch - actual: {actual}, expected: {expected}"
  | byte index actual expected =>
      s!"{context}: Byte mismatch at index {index}: actual 0x" ++ Hex.text 2 actual.toNat
        ++ ", expected 0x" ++ Hex.text 2 expected.toNat

end Difference

/-- The first unequal pair of bytes, counting indices from `index`; a longer rest is ignored. -/
def byteDifference? (index : Nat) : List UInt8 → List UInt8 → Option Difference
  | a :: as, e :: es => if a = e then byteDifference? (index + 1) as es else some (.byte index a e)
  | _, _ => none

def difference? (actual expected : List UInt8) : Option Difference :=
  if actual.length = expected.length then byteDifference? 0 actual expected
  else some (.length actual.length expected.length)

theorem byteDifference?_eq_none_iff {index : Nat} {as es : List UInt8}
    (h : as.length = es.length) : byteDifference? index as es = none ↔ as = es := by
  induction as generalizing index es with
  | nil => cases es <;> simp_all [byteDifference?]
  | cons a as ih =>
    cases es with
    | nil => simp at h
    | cons e es =>
      by_cases hae : a = e
      · simp [byteDifference?, hae, ih (Nat.succ.inj h)]
      · simp [byteDifference?, hae]

theorem difference?_eq_none_iff {actual expected : List UInt8} :
    difference? actual expected = none ↔ actual = expected := by
  by_cases h : actual.length = expected.length
  · rw [difference?, if_pos h, byteDifference?_eq_none_iff h]
  · rw [difference?, if_neg h]
    exact ⟨nofun, fun he => absurd (congrArg List.length he) h⟩

end FreeSpace.Bytes
