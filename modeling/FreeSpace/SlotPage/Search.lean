import FreeSpace.SlotPage

/-!
# Searching a slot page

A search asks for a row whose range holds a request without wasting much of it.  The first row that
wastes less than the optimal margin is taken at once, unseen what comes after it.  Otherwise the
row that wastes least is taken, the lower one of two, if its waste is below a quarter of the record
and can be recorded.  If that fails too, the search tells the largest size on the page.
-/

namespace FreeSpace

/-- How a search ended. -/
inductive SlotSearch
  | found (row : UInt16)
  /-- Nothing suits; the largest size of any row, 0 if all rows are vacant. -/
  | exhausted (largest : UInt32)
  deriving DecidableEq, Repr

namespace SlotSearch

def row? : SlotSearch → Option UInt16
  | found row => some row
  | exhausted _ => none

def isFound (s : SlotSearch) : Bool :=
  s.row?.isSome

def largest? : SlotSearch → Option UInt32
  | found _ => none
  | exhausted largest => some largest

/-- One number for both ends: the row, or the largest size negated.  0 stands for both ends. -/
def signed : SlotSearch → Int
  | found row => row.toNat
  | exhausted largest => -(largest.toNat : Int)

end SlotSearch

namespace SlotPage

/-- A row that wastes less than this is taken at once. -/
def optimalWaste : UInt32 := 128

/-- The caller records waste in 16 bits, so a row that wastes this much or more is not taken. -/
def unrecordableWaste : UInt32 := 65535

/-- What a search has seen so far. -/
structure Seen where
  /-- The row that wastes least, and its waste. -/
  best : Option (UInt16 × UInt32)
  largest : UInt32
  deriving DecidableEq, Repr

namespace Seen

def nothing : Seen := ⟨none, 0⟩

/-- A row of this size has been seen. -/
def addSize (s : Seen) (size : UInt32) : Seen :=
  { s with largest := max s.largest size }

/-- A row that holds the request has been seen; it has to beat the best one before it. -/
def addCandidate (s : Seen) (row : UInt16) (waste : UInt32) : Seen :=
  match s.best with
  | some (_, least) => if waste < least then { s with best := some (row, waste) } else s
  | none => { s with best := some (row, waste) }

/-- The best row, if its waste can be accepted. -/
def acceptable? (s : Seen) (limit : UInt32) : Option UInt16 :=
  match s.best with
  | some (row, waste) => if waste < limit ∧ waste < unrecordableWaste then some row else none
  | none => none

end Seen

/-- The answer when all rows have been seen. -/
def conclude (request : UInt32) (seen : Seen) : Action SlotPage SlotSearch := do
  match seen.acceptable? (← .get wasteLimit) with
  | some row => return .found row
  | none =>
      .report fun p => .nothingFits p.record.id request seen.largest
      return .exhausted seen.largest

/-- Goes on with these rows after what has been seen. -/
def searchRows (request : UInt32) (seen : Seen) : List UInt16 → Action SlotPage SlotSearch
  | [] => conclude request seen
  | row :: rest => do
      let size ← readSize row
      let seen := seen.addSize size
      if size = 0 ∨ size < request then
        searchRows request seen rest
      else
        let waste ← .lift (Word.sub32 size request)
        if waste < optimalWaste then
          return .found row
        else
          searchRows request (seen.addCandidate row waste) rest

/-- A row that holds at least `request` bytes without wasting too many. -/
def search (request : UInt32) : Action SlotPage SlotSearch := do
  searchRows request .nothing (← .get rows)

end SlotPage

end FreeSpace
