import FreeSpace.Record
import FreeSpace.Store

/-!
# Frames

The records of one store all have the same length.  Each has its own frame, at the position that
its id and that length determine: the bytes of the record, and behind them their checksum as a
trailer.  A record read back is compared with its trailer.
-/

namespace FreeSpace

namespace Frame

/-- Bytes of the checksum behind a record. -/
def trailerWidth : Nat := 4

/-- Where the frame of a record lies, if a 64-bit position can say so. -/
def position (id : UInt64) (length : Nat) : Result Nat := do
  let width ← Word.within64 (length + trailerWidth)
  Word.within64 (id.toNat * width)

/-- The checksum of a record as it is stored. -/
def trailer (r : Record) : List UInt8 :=
  Bytes.digits trailerWidth r.checksum.toNat

/-- The frame position of a record in a store that has such a position. -/
def locate (id : UInt64) (length : Nat) (s : Store) : Result Nat := do
  let position ← position id length
  s.seek position
  return position

end Frame

/-- A record and the store that it belongs to. -/
structure Filing where
  record : Record
  store : Store
  deriving DecidableEq, Repr

namespace Filing

def onRecord {α : Type} (a : Action Record α) : Action Filing α where
  run := fun ⟨record, store⟩ =>
    match a.run record with
    | ⟨result, record, events⟩ => ⟨result, ⟨record, store⟩, events⟩

def onStore {α : Type} (a : Action Store α) : Action Filing α where
  run := fun ⟨record, store⟩ =>
    match a.run store with
    | ⟨result, store, events⟩ => ⟨result, ⟨record, store⟩, events⟩

/-- Writes the record into its frame.  It is clean only once all of the frame is written. -/
def writeRecord : Action Filing Unit := do
  let position ← .view fun f => Frame.locate f.record.id f.record.length f.store
  let bytes ← .get (·.record.data.toList)
  onStore (Store.write position bytes)
  let trailer ← .get (Frame.trailer ·.record)
  onStore (Store.write (position + bytes.length) trailer)
  onRecord Record.markClean

end Filing

namespace Store

/-- Reads the record of a frame; bytes that do not have the checksum of the trailer are refused. -/
def readRecord (id : UInt64) (length : Nat) : Action Store Record := do
  let position ← .view (Frame.locate id length)
  .lift (Memory.require length)
  let bytes ← .view (read position length)
  let trailer ← .view (read (position + length) Frame.trailerWidth)
  let record := Record.ofBytes id bytes.toArray
  let stored := UInt32.ofNat (Bytes.value trailer)
  if stored = record.checksum then
    return record
  else
    .report fun _ => .checksumMismatch id position stored record.checksum
    .refuse (.corruption (.checksum id))

end Store

end FreeSpace
