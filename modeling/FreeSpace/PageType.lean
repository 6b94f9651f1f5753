/-!
# Page types

A record that serves as a page carries a tag in its first two bytes: a common base plus the number
of the page's type.  Every type has its own tag (`ofTag?_eq_some_iff`), and a bare type number is
not a tag.
-/

namespace FreeSpace

/-- The kinds of page that share the record format. -/
inductive PageType
  /-- Holds the slots themselves. -/
  | data
  /-- Tracks unused logical slot ids. -/
  | freeLogicalSlot
  /-- Tracks unused byte ranges and their sizes. -/
  | freePhysicalSlot
  deriving DecidableEq, Repr

namespace PageType

/-- The tag of type number 0, which no page has. -/
def tagBase : UInt16 := 0x1990

def number : PageType → UInt16
  | data => 1
  | freeLogicalSlot => 2
  | freePhysicalSlot => 3

/-- The word at the start of a page of this type. -/
def tag (t : PageType) : UInt16 :=
  tagBase + t.number

/-- The type that a tag stands for. -/
def ofTag? (tag : UInt16) : Option PageType :=
  match (tag - tagBase).toNat with
  | 1 => some data
  | 2 => some freeLogicalSlot
  | 3 => some freePhysicalSlot
  | _ => none

def name : PageType → String
  | data => "Data"
  | freeLogicalSlot => "FreeLogicalSlot"
  | freePhysicalSlot => "FreePhysicalSlot"

@[simp] theorem ofTag?_tag (t : PageType) : ofTag? t.tag = some t := by
  cases t <;> rfl

/-- A tag is read as a type exactly if it is the tag of that type. -/
theorem ofTag?_eq_some_iff {w : UInt16} {t : PageType} : ofTag? w = some t ↔ w = t.tag := by
  constructor
  · intro h
    have key : ∀ n : UInt16, (w - tagBase).toNat = n.toNat → w = tagBase + n := by
      intro n hn
      rw [← UInt16.toNat_inj.mp hn, UInt16.add_comm, UInt16.sub_add_cancel]
    unfold ofTag? at h
    split at h <;> simp only [Option.some.injEq, reduceCtorEq] at h <;> subst h
    · exact key 1 ‹_›
    · exact key 2 ‹_›
    · exact key 3 ‹_›
  · rintro rfl
    exact ofTag?_tag t

end PageType

end FreeSpace
