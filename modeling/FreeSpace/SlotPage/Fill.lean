import FreeSpace.SlotPage.Rows

/-!
# Filling a slot page

A list of sizes puts the rows of a page in use from row 0 on, a row of size 0 being left as it is.
Each row filled has its own number as the record of its location.  Rows are counted in 16 bits, and
the count is moved on before the list is asked for its next size, so a list that reaches the last
16-bit number is a fault even if it ends there.
-/

namespace FreeSpace.SlotPage

/-- Puts a vacant row in use with this size. -/
def fillRow (row : UInt16) (size : UInt32) : Action SlotPage Unit := do
  let offset ← claim row
  setLocation offset ⟨row.toUInt32, 0⟩
  setSizeAt offset size

/-- Fills the rows from `row` on. -/
def fillFrom (row : UInt16) : List UInt32 → Action SlotPage Unit
  | [] => do
      let _ ← .lift (Word.add16 row 1)
  | size :: rest => do
      let next ← .lift (Word.add16 row 1)
      if size = 0 then
        fillFrom next rest
      else
        fillRow row size
        fillFrom next rest

/-- Fills the rows of a page in order. -/
def fill (sizes : List UInt32) : Action SlotPage Unit :=
  fillFrom 0 sizes

/-- A new page with one row for each size. -/
def ofSizes {σ : Type} (id : UInt64) (sizes : List UInt32) : Action σ SlotPage := do
  if sizes.length < UInt16.size then
    let page ← format.runOn (Record.zeroed id (lengthFor (.ofNat sizes.length)))
    (fill sizes).build page
  else
    .refuse (.invalidInput (.rowCount sizes.length))

end FreeSpace.SlotPage
