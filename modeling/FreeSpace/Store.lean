import FreeSpace.Action
import FreeSpace.Bytes
import FreeSpace.Memory

/-!
# Stores

A store is a run of bytes that is read and written at positions.  What happens past its end depends
on its medium: a growing store fills the gap up to the position with zeros, as far as it has room, a
fixed one takes the bytes that fit and then refuses.  Reading never changes a store, and past the end
it is refused.
-/

namespace FreeSpace

inductive Medium
  /-- Memory that grows with what is written. -/
  | memory
  /-- A buffer of fixed length. -/
  | fixed
  /-- A file, which grows as far as its file system has room for one. -/
  | file (room : Nat)
  deriving DecidableEq, Repr

namespace Medium

/-- The most bytes that a store can have. -/
def room : Medium → Nat
  | memory | fixed => Memory.maxBytes
  | file room => room

/-- Whether a store can be positioned there.  Only a file has positions that it refuses. -/
def reaches (position : Nat) : Medium → Bool
  | memory | fixed => true
  | file room => position ≤ room

-- Where there is room for bytes, a store can be positioned.
theorem reaches_of_le {m : Medium} {position : Nat} (h : position ≤ m.room) :
    m.reaches position := by
  cases m with
  | memory | fixed => rfl
  | file room => exact decide_eq_true h

end Medium

structure Store where
  medium : Medium
  bytes : Array UInt8
  deriving DecidableEq, Repr

namespace Store

def length (s : Store) : Nat :=
  s.bytes.size

/-- Refuses a position that the medium does not have. -/
def seek (position : Nat) (s : Store) : Result Unit :=
  if s.medium.reaches position then .ok () else .error (.refused (.io .unseekable))

/-- The `width` bytes from `position` on.  No bytes at all can be read anywhere. -/
def read (position width : Nat) (s : Store) : Result (List UInt8) :=
  if width = 0 then .ok []
  else
    match Bytes.window s.bytes position width with
    | some bytes => .ok bytes
    | none => .error (.refused (.io .endOfStore))

/-- Writes bytes from `position` on, as far as the medium takes them.  No bytes at all can be written
anywhere. -/
def write (position : Nat) (bytes : List UInt8) : Action Store Unit where
  run := fun ⟨medium, data⟩ =>
    if bytes = [] then ⟨.ok (), ⟨medium, data⟩, []⟩
    else
      match medium with
      | .memory =>
          match Memory.require (position + bytes.length) with
          | .ok () => ⟨.ok (), ⟨medium, Bytes.place data position bytes⟩, []⟩
          | .error f => ⟨.error f, ⟨medium, data⟩, []⟩
      | .fixed =>
          if position + bytes.length ≤ data.size then
            ⟨.ok (), ⟨medium, Bytes.overlay data position bytes⟩, []⟩
          else
            ⟨.error (.refused (.io .storeFull)), ⟨medium, Bytes.overlay data position bytes⟩, []⟩
      | .file room =>
          if position + bytes.length ≤ room then
            ⟨.ok (), ⟨medium, Bytes.place data position bytes⟩, []⟩
          else if position < room then
            let fitting := bytes.take (room - position)
            ⟨.error (.refused (.io .fileTooLarge)),
              ⟨medium, Bytes.place data position fitting⟩, []⟩
          else ⟨.error (.refused (.io .fileTooLarge)), ⟨medium, data⟩, []⟩

/-- The store with these bytes in place of those from `position` on; its length stays. -/
def patch (position : Nat) (bytes : List UInt8) (s : Store) : Store :=
  { s with bytes := Bytes.overlay s.bytes position bytes }

/-- The store cut off after `length` bytes, if it is longer. -/
def truncate (length : Nat) (s : Store) : Store :=
  { s with bytes := s.bytes.extract 0 length }

end Store

end FreeSpace
