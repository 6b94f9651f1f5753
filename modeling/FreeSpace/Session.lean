import FreeSpace.Record.Call
import FreeSpace.SlotPage.Call
import FreeSpace.Store.Frame

/-!
# Sessions

A session works on one record at a time, bare or as a page, beside a copy of a record to compare
with and a store.  `Session.Command.run` is one step: it says what is answered, what the session is
afterwards, and what was reported.  A command that needs something the session does not have is not
done at all.
-/

namespace FreeSpace

/-- What a session works on. -/
inductive Held
  | nothing
  | record (r : Record)
  | page (p : SlotPage)
  deriving DecidableEq, Repr

/-- The record held, bare or in a page. -/
def Held.record? : Held → Option Record
  | nothing => none
  | record r => some r
  | page p => some p.record

structure Session where
  held : Held
  snapshot : Option Record
  store : Option Store
  deriving DecidableEq, Repr

namespace Session

/-- What a command can find missing. -/
inductive Need
  | record
  | page
  | store
  deriving DecidableEq, Repr

inductive Answer
  | reply (r : Reply)
  | failed (f : Failure)
  | missing (n : Need)
  deriving DecidableEq, Repr

/-- One step of a session. -/
structure Step where
  answer : Answer
  session : Session
  events : List Event
  deriving DecidableEq

inductive Command
  /-- Holds a record in place of what was held. -/
  | hold (r : Record)
  /-- Holds a new record of zeros, if there can be one. -/
  | make (id : UInt64) (length : Nat)
  | query (q : Record.Query)
  | edit (e : Record.Edit)
  | takeSnapshot
  | equalsSnapshot
  /-- Makes the bare record a page; it is lost if it is none. -/
  | openPage
  /-- Makes the bare record an empty page; it is lost if it cannot be one. -/
  | formatPage
  /-- Gives up the page and keeps its record. -/
  | closePage
  /-- Holds a new page of these sizes. -/
  | makePage (id : UInt64) (sizes : List UInt32)
  /-- Fills the page, which is lost if that fails. -/
  | fillPage (sizes : List UInt32)
  | page (c : SlotPage.Call)
  | useStore (s : Store)
  | writeRecord
  /-- Holds a record of the store, if it can be read. -/
  | readRecord (id : UInt64) (length : Nat)
  | storeBytes
  | patchStore (position : Nat) (bytes : List UInt8)
  | truncateStore (length : Nat)
  deriving DecidableEq, Repr

namespace Answer

def ofResult : Result Reply → Answer
  | .ok r => reply r
  | .error f => failed f

/-- The answer of something done for its effect. -/
def ofDone {α : Type} : Result α → Answer
  | .ok _ => reply .done
  | .error f => failed f

end Answer

def empty : Session :=
  ⟨.nothing, none, none⟩

/-- A step that changes nothing. -/
def reply (s : Session) (a : Answer) : Step :=
  ⟨a, s, []⟩

/-- A step that finds something missing. -/
def lacks (s : Session) (n : Need) : Step :=
  s.reply (.missing n)

/-- What is held once something new should have been made: that, or nothing if it failed. -/
def made {α : Type} (wrap : α → Held) : Result α → Held
  | .ok a => wrap a
  | .error _ => .nothing

def Command.run : Command → Session → Step
  | hold r, s => ⟨.reply .done, { s with held := .record r }, []⟩
  | make id length, s =>
      match Record.make id length with
      | .ok r => ⟨.reply .done, { s with held := .record r }, []⟩
      | .error f => s.reply (.failed f)
  | query q, s =>
      match s.held.record? with
      | some r => s.reply (.ofResult (q.answer r))
      | none => s.lacks .record
  | edit e, ⟨.record r, snapshot, store⟩ =>
      match e.action.run r with
      | ⟨result, r, events⟩ => ⟨.ofDone result, ⟨.record r, snapshot, store⟩, events⟩
  | edit _, s => s.lacks .record
  | takeSnapshot, s =>
      match s.held.record? with
      | some r => ⟨.reply .done, { s with snapshot := some r }, []⟩
      | none => s.lacks .record
  | equalsSnapshot, s =>
      match s.held.record? with
      | some r => s.reply (.reply (.flag (s.snapshot = some r)))
      | none => s.lacks .record
  | openPage, ⟨.record r, snapshot, store⟩ =>
      match SlotPage.ofRecord.run r with
      | ⟨result, _, events⟩ =>
          ⟨.ofDone result, ⟨Session.made .page result, snapshot, store⟩, events⟩
  | openPage, s => s.lacks .record
  | formatPage, ⟨.record r, snapshot, store⟩ =>
      match SlotPage.format.run r with
      | ⟨result, _, events⟩ =>
          ⟨.ofDone result, ⟨Session.made .page result, snapshot, store⟩, events⟩
  | formatPage, s => s.lacks .record
  | closePage, ⟨.page p, snapshot, store⟩ =>
      ⟨.reply .done, ⟨.record p.record, snapshot, store⟩, []⟩
  | closePage, s => s.lacks .page
  | makePage id sizes, s =>
      match (SlotPage.ofSizes id sizes).run () with
      | ⟨result, _, events⟩ =>
          ⟨.ofDone result, { s with held := Session.made .page result }, events⟩
  | fillPage sizes, ⟨.page p, snapshot, store⟩ =>
      match (SlotPage.fill sizes).run p with
      | ⟨result, p, events⟩ =>
          ⟨.ofDone result, ⟨Session.made (fun () => .page p) result, snapshot, store⟩, events⟩
  | fillPage _, s => s.lacks .page
  | page c, ⟨.page p, snapshot, store⟩ =>
      match c.action.run p with
      | ⟨result, p, events⟩ => ⟨.ofResult result, ⟨.page p, snapshot, store⟩, events⟩
  | page _, s => s.lacks .page
  | useStore store, s => ⟨.reply .done, { s with store := some store }, []⟩
  | writeRecord, ⟨held, snapshot, some store⟩ =>
      match held with
      | .record r =>
          match Filing.writeRecord.run ⟨r, store⟩ with
          | ⟨result, ⟨r, store⟩, events⟩ =>
              ⟨.ofDone result, ⟨.record r, snapshot, some store⟩, events⟩
      | held => Session.lacks ⟨held, snapshot, some store⟩ .record
  | writeRecord, s => s.lacks .store
  | readRecord id length, ⟨held, snapshot, some store⟩ =>
      match (Store.readRecord id length).run store with
      | ⟨.ok r, store, events⟩ => ⟨.reply .done, ⟨.record r, snapshot, some store⟩, events⟩
      | ⟨.error f, store, events⟩ => ⟨.failed f, ⟨held, snapshot, some store⟩, events⟩
  | readRecord _ _, s => s.lacks .store
  | storeBytes, s =>
      match s.store with
      | some store => s.reply (.reply (.bytes store.bytes))
      | none => s.lacks .store
  | patchStore position bytes, ⟨held, snapshot, some store⟩ =>
      ⟨.reply .done, ⟨held, snapshot, some (store.patch position bytes)⟩, []⟩
  | patchStore _ _, s => s.lacks .store
  | truncateStore length, ⟨held, snapshot, some store⟩ =>
      ⟨.reply .done, ⟨held, snapshot, some (store.truncate length)⟩, []⟩
  | truncateStore _, s => s.lacks .store

end Session

end FreeSpace
