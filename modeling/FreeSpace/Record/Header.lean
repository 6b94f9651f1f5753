import FreeSpace.Record

/-!
# Page headers

The first two bytes of a record that serves as a page are the tag of the page's type.
-/

namespace FreeSpace

namespace Record

/-- Where the tag lies. -/
def tagPosition : Nat := 0

/-- Bytes of the header; what follows is up to the type of the page. -/
def headerLength : Nat := 2

def stamp (t : PageType) : Action Record Unit :=
  write16 tagPosition t.tag

def tag (r : Record) : Result UInt16 :=
  r.read16 tagPosition

/-- The type that the tag stands for; a tag of no type is refused. -/
def pageType (r : Record) : Result PageType := do
  let tag ← r.tag
  match PageType.ofTag? tag with
  | some t => .ok t
  | none => .error (.refused (.invalidPageType tag))

/-- Refuses a record that is not stamped as a page of type `expected`. -/
def requireType (expected : PageType) (r : Record) : Result Unit := do
  if r.length < headerLength then
    .error (.refused (.invalidInput (.shortForHeader r.id r.length)))
  else
    let found ← r.pageType
    if found = expected then .ok ()
    else .error (.refused (.unexpectedPageType expected (← r.tag)))

end Record

end FreeSpace
