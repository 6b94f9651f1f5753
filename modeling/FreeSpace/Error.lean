import FreeSpace.PageType
import FreeSpace.Text.Hex

/-!
# Errors and faults

An operation can end in two ways other than an answer.  An `Error` is a refusal that the caller is
told of: its constructors are the causes, and `Error.message` is the one place that words them.  A
`Fault` is an access that has no meaning (a field outside its record, a word that cannot hold a
sum); it ends the operation at that point, and only some faults carry a text.
-/

namespace FreeSpace

/-- Why a store did not take or give the bytes asked for. -/
inductive IoCause
  /-- The store ends before the last byte to be read. -/
  | endOfStore
  /-- The store ends before the last byte to be written, and cannot grow. -/
  | storeFull
  /-- The position is past what the store can address. -/
  | unseekable
  /-- A byte to be written lies past the room that a file has. -/
  | fileTooLarge
  | other (text : String)
  deriving DecidableEq, Repr

namespace IoCause

def message : IoCause → String
  | endOfStore => "failed to fill whole buffer"
  | storeFull => "failed to write whole buffer"
  | unseekable => "Invalid argument (os error 22)"
  | fileTooLarge => "File too large (os error 27)"
  | other text => text

end IoCause

/-- How stored data contradicts itself. -/
inductive Inconsistency
  /-- A row is vacant, and yet the count leaves no room for one more row in use. -/
  | countAtCapacity (record : UInt64) (count capacity row : UInt16)
  /-- A row is in use, and yet the count is 0. -/
  | countAtZero (record : UInt64) (row : UInt16)
  /-- The bytes of a record do not have the checksum stored behind them. -/
  | checksum (record : UInt64)
  | other (text : String)
  deriving DecidableEq, Repr

namespace Inconsistency

def message : Inconsistency → String
  | countAtCapacity record count capacity row =>
      s!"Row count {count} of record {record} already at capacity {capacity} with row {row} vacant"
  | countAtZero record row => s!"Row count of record {record} is 0 with row {row} in use"
  | checksum record => s!"Checksum verification failed for record {record}"
  | other text => text

end Inconsistency

/-- What makes an argument unusable. -/
inductive BadInput
  /-- The record cannot hold even a page tag. -/
  | shortForHeader (record : UInt64) (length : Nat)
  /-- The record is too short or too long for a page, whose bounds are given with it. -/
  | recordLength (length least greatest : Nat)
  /-- More rows are asked for than a 16-bit row number counts. -/
  | rowCount (rows : Nat)
  | other (text : String)
  deriving DecidableEq, Repr

namespace BadInput

def message : BadInput → String
  | shortForHeader record length =>
      s!"Record {record} is {length} bytes, too short for a page header"
  | recordLength length least greatest =>
      s!"Record length {length} outside {least}..={greatest}"
  | rowCount rows => s!"{rows} rows"
  | other text => text

end BadInput

/-- A refusal, by cause. -/
inductive Error
  | io (cause : IoCause)
  | corruption (cause : Inconsistency)
  | invalidInput (cause : BadInput)
  /-- The tag names no page type. -/
  | invalidPageType (tag : UInt16)
  /-- The tag names another page type than the one asked for. -/
  | unexpectedPageType (expected : PageType) (found : UInt16)
  /-- The page has no such row. -/
  | slotOutOfRange (row capacity : UInt16)
  /-- No row of the page starts at this offset. -/
  | invalidRowOffset (offset : UInt16)
  /-- A row that already tracks a free slot cannot be claimed. -/
  | slotInUse (row : UInt16)
  /-- A row that tracks nothing cannot be released. -/
  | slotVacant (row : UInt16)
  deriving DecidableEq, Repr

namespace Error

/-- What the caller reads. -/
def message : Error → String
  | io cause => "I/O error: " ++ cause.message
  | corruption cause => "Storage corruption: " ++ cause.message
  | invalidInput cause => "Invalid input: " ++ cause.message
  | invalidPageType tag => "Invalid page type tag: 0x" ++ Hex.text 4 tag.toNat
  | unexpectedPageType expected found =>
      "Unexpected page type: expected " ++ expected.name ++ ", found tag 0x"
        ++ Hex.text 4 found.toNat
  | slotOutOfRange row capacity => s!"Slot row {row} out of range (max slots: {capacity})"
  | invalidRowOffset offset => s!"Offset {offset} does not address a slot row"
  | slotInUse row => s!"Slot row {row} is already in use"
  | slotVacant row => s!"Slot row {row} is already vacant"

def isIo : Error → Bool
  | io _ => true
  | _ => false

def isCorruption : Error → Bool
  | corruption _ => true
  | _ => false

/-- The caller claimed a row in use, or released a vacant one. -/
def isContractViolation : Error → Bool
  | slotInUse _ | slotVacant _ => true
  | _ => false

/-- The stored data are sound as far as the error tells, so the caller may go on with them. -/
def isRecoverable : Error → Bool
  | corruption _ | invalidPageType _ | unexpectedPageType _ _ => false
  | _ => true

end Error

/-- An access without meaning. -/
inductive Fault
  /-- A field that does not lie inside its record, or an index past its table. -/
  | outOfBounds
  /-- A result that its word cannot hold. -/
  | overflow
  /-- Rows of width 0 divide no offset. -/
  | emptyRow
  /-- Rows too narrow for the location they start with. -/
  | narrowRow
  /-- The row starts past the last 16-bit offset. -/
  | unaddressableRow (row : UInt16)
  /-- The offset lies before the first row. -/
  | offsetBeforeRows (offset : UInt16)
  /-- More bytes than memory can ever hold. -/
  | outOfMemory
  deriving DecidableEq, Repr

namespace Fault

/-- The text that a fault leaves, if it has one. -/
def message : Fault → Option String
  | unaddressableRow row => some s!"Row {row} lies past the last addressable offset"
  | offsetBeforeRows offset => some s!"Offset {offset} lies before the first row"
  | _ => none

end Fault

/-- An end without an answer. -/
inductive Failure
  | refused (error : Error)
  | fault (fault : Fault)
  deriving DecidableEq, Repr

/-- An answer, or the reason why there is none. -/
abbrev Result (α : Type) := Except Failure α

theorem Result.ok_bind {α β : Type} (a : α) (f : α → Result β) :
    ((.ok a : Result α) >>= f) = f a := rfl

end FreeSpace
