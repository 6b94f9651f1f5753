/-!
# CRC-32

The checksum of the reflected polynomial 0xEDB88320, with all bits set before the first byte and
all bits inverted after the last.  The register takes one byte at a time, and one bit of it at a
time.
-/

namespace FreeSpace.Checksum

/-- The polynomial, with the coefficient of the highest power in the lowest bit. -/
def polynomial : UInt32 := 0xEDB88320

/-- The register after one bit: it moves down, and a bit that falls out brings the polynomial in. -/
def shiftBit (register : UInt32) : UInt32 :=
  if register &&& 1 = 1 then (register >>> 1) ^^^ polynomial else register >>> 1

def shiftBits : Nat → UInt32 → UInt32
  | 0, register => register
  | n + 1, register => shiftBits n (shiftBit register)

/-- The register after one byte. -/
def step (register : UInt32) (byte : UInt8) : UInt32 :=
  shiftBits 8 (register ^^^ byte.toUInt32)

/-- The register after these bytes. -/
def run (register : UInt32) (data : Array UInt8) : UInt32 :=
  data.foldl step register

end FreeSpace.Checksum

namespace FreeSpace

def checksum (data : Array UInt8) : UInt32 :=
  Checksum.run 0xFFFFFFFF data ^^^ 0xFFFFFFFF

/-- The check value of this CRC: the checksum of the nine digits 1 to 9. -/
example : checksum #[0x31, 0x32, 0x33, 0x34, 0x35, 0x36, 0x37, 0x38, 0x39] = 0xCBF43926 := by
  decide +kernel

end FreeSpace
