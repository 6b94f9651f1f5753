/-!
# Locations

A location names a byte range elsewhere: the record it lies in and its offset in that record.
Packed into one word, the record is the high part and the offset the low 16 bits; packing and
unpacking are inverse (`unpack_pack`).
-/

namespace FreeSpace

/-- The record that a byte range lies in, and where it starts there. -/
structure Location where
  record : UInt32
  offset : UInt16
  deriving DecidableEq, Repr

namespace Location

/-- Bytes that a location takes: four for the record, two for the offset. -/
def width : Nat := 6

/-- One word with the offset in its low 16 bits. -/
def pack (l : Location) : UInt64 :=
  l.record.toUInt64 * 65536 + l.offset.toUInt64

/-- The location in the low 48 bits of a word; the bits above them are dropped. -/
def unpack (word : UInt64) : Location :=
  ⟨(word / 65536).toUInt32, word.toUInt16⟩

theorem toNat_pack (l : Location) : l.pack.toNat = l.record.toNat * 65536 + l.offset.toNat := by
  have hr := l.record.toNat_lt
  have ho := l.offset.toNat_lt
  simp only [pack, UInt64.toNat_add, UInt64.toNat_mul, UInt32.toNat_toUInt64,
    UInt16.toNat_toUInt64, UInt64.reduceToNat]
  omega

@[simp] theorem unpack_pack (l : Location) : unpack l.pack = l := by
  have hr := l.record.toNat_lt
  have ho := l.offset.toNat_lt
  have hp := toNat_pack l
  have hrec : (unpack l.pack).record = l.record := by
    apply UInt32.toNat_inj.mp
    simp only [unpack, UInt64.toNat_toUInt32, UInt64.toNat_div, UInt64.reduceToNat, hp]
    omega
  have hoff : (unpack l.pack).offset = l.offset := by
    apply UInt16.toNat_inj.mp
    simp only [unpack, UInt64.toNat_toUInt16, hp]
    omega
  calc unpack l.pack = ⟨(unpack l.pack).record, (unpack l.pack).offset⟩ := rfl
    _ = l := by rw [hrec, hoff]

end Location

end FreeSpace
