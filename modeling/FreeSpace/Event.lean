import FreeSpace.Error

/-!
# Events

What an operation reports beside its answer.  An event is kept as its cause; `Event.severity` and
`Event.message` say how it is logged.
-/

namespace FreeSpace

/-- How urgent a log entry is, the most urgent first. -/
inductive Severity
  | error
  | warn
  | info
  | debug
  | trace
  deriving DecidableEq, Repr

namespace Severity

/-- 1 for the most urgent; 0 is left for "nothing at all". -/
def rank : Severity → Nat
  | error => 1
  | warn => 2
  | info => 3
  | debug => 4
  | trace => 5

def name : Severity → String
  | error => "ERROR"
  | warn => "WARN"
  | info => "INFO"
  | debug => "DEBUG"
  | trace => "TRACE"

def all : List Severity :=
  [error, warn, info, debug, trace]

end Severity

/-- Something worth a log entry. -/
inductive Event
  /-- The record does not carry the tag of a slot page. -/
  | notSlotPage (record : UInt64) (reason : Error)
  /-- The record is too short or too long for a slot page. -/
  | unusableLength (record : UInt64) (length : Nat)
  | pageOpened (record : UInt64) (rows : UInt16)
  /-- The size of a row was read from the record for the first time. -/
  | sizeCached (size : UInt32) (row : UInt16) (record : UInt64)
  /-- A size write turned a vacant row into one in use, or the other way round. -/
  | countMoved (row : UInt16) (record : UInt64) (count : UInt16)
  | rowClaimed (row : UInt16) (record : UInt64) (count : UInt16)
  | rowReleased (row : UInt16) (record : UInt64) (count : UInt16)
  /-- No row suits a request; `largest` is the largest size seen. -/
  | nothingFits (record : UInt64) (request largest : UInt32)
  | checksumMismatch (record : UInt64) (position : Nat) (stored calculated : UInt32)
  deriving DecidableEq, Repr

namespace Event

/-- The target that all events are logged under. -/
def target : String := "freeslot"

def severity : Event → Severity
  | checksumMismatch .. => .error
  | notSlotPage .. | unusableLength .. => .warn
  | rowClaimed .. | rowReleased .. | nothingFits .. => .debug
  | pageOpened .. | sizeCached .. | countMoved .. => .trace

def message : Event → String
  | notSlotPage record reason =>
      s!"Record {record} is not a free physical slot page: " ++ reason.message
  | unusableLength record length =>
      s!"Record {record} has unusable length {length} for a free physical slot page"
  | pageOpened record rows =>
      s!"Opened free physical slot page on record {record} with {rows} rows"
  | sizeCached size row record => s!"Cached size {size} for row {row} on record {record}"
  | countMoved row record count =>
      s!"Size write on row {row} of record {record} left {count} in use"
  | rowClaimed row record count => s!"Claimed row {row} on record {record} ({count} in use)"
  | rowReleased row record count => s!"Released row {row} on record {record} ({count} in use)"
  | nothingFits record request largest =>
      s!"No row on record {record} fits {request} bytes (largest: {largest})"
  | checksumMismatch record position stored calculated =>
      s!"Checksum mismatch for record {record} at offset {position}: stored 0x"
        ++ Hex.text 8 stored.toNat ++ ", calculated 0x" ++ Hex.text 8 calculated.toNat

end Event

end FreeSpace
