import FreeSpace.Error

/-!
# Memory

A byte array has at most as many bytes as memory can ever hold.  Asking for more is a fault.
-/

namespace FreeSpace.Memory

/-- The most bytes that one array can have, 2⁶³ - 1. -/
def maxBytes : Nat := 0x7FFFFFFFFFFFFFFF

/-- A fault if there cannot be an array of this many bytes. -/
def require (length : Nat) : Result Unit :=
  if length ≤ maxBytes then .ok () else .error (.fault .outOfMemory)

theorem require_of_le {length : Nat} (h : length ≤ maxBytes) : require length = .ok () :=
  if_pos h

theorem require_of_lt {length : Nat} (h : maxBytes < length) :
    require length = .error (.fault .outOfMemory) :=
  if_neg (Nat.not_le.mpr h)

end FreeSpace.Memory
