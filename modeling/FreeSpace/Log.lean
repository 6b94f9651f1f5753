import FreeSpace.Log.Filter
import FreeSpace.Log.Line
import FreeSpace.Log.Terminal

/-!
# Logging

A program has at most one logger.  There are three ways to install one, each of which does so only
if there is none yet; the two meant for programs count as one and are done at most once between
them, the one meant for tests is done at most once by itself.  Entries made while there is no
logger are lost.
-/

namespace FreeSpace.Log

/-- What a user can set from outside. -/
structure Settings where
  /-- A written filter. -/
  filter : Option String
  /-- How to treat terminal controls: `always` keeps them. -/
  style : Option String
  deriving DecidableEq, Repr

namespace Settings

def keepsControls (s : Settings) : Bool :=
  s.style = some "always"

end Settings

structure Logger where
  filter : Filter
  form : Form
  /-- Terminal controls are written as they are. -/
  keepsControls : Bool
  deriving DecidableEq, Repr

namespace Logger

/-- The text that an entry adds to the log. -/
def write (l : Logger) (moment : Moment) (e : Entry) : String :=
  if l.filter.passes e.target e.severity then
    let line := l.form.line moment e
    if l.keepsControls then line else Terminal.plain line
  else
    ""

/-- For a program: what is less urgent than `info` passes only if the settings say so. -/
def forProgram (s : Settings) : Logger :=
  ⟨Filter.addText [⟨none, some .info⟩] s.filter, .coloured, s.keepsControls⟩

/-- For a program that chooses the ceiling itself, whatever the settings are. -/
def withCeiling (ceiling : Ceiling) : Logger :=
  ⟨[⟨none, ceiling⟩], .uncoloured, false⟩

/-- For tests: `debug` passes but for targets that the settings name. -/
def forTests (s : Settings) : Logger :=
  ⟨(Filter.addText [] s.filter).add ⟨none, some .debug⟩, .aligned, s.keepsControls⟩

end Logger

/-- Whether and how a program logs. -/
structure Logging where
  logger : Option Logger
  /-- One of the ways meant for programs has been tried. -/
  programTried : Bool
  /-- The way meant for tests has been tried. -/
  testsTried : Bool
  deriving DecidableEq, Repr

inductive Call
  | init
  | initWithCeiling (ceiling : Ceiling)
  | initForTests
  | enter (e : Entry)
  deriving DecidableEq, Repr

namespace Logging

def start : Logging :=
  ⟨none, false, false⟩

/-- The text that an entry adds to the log, if there is one. -/
def write (l : Logging) (moment : Moment) (e : Entry) : String :=
  match l.logger with
  | some logger => logger.write moment e
  | none => ""

/-- The target of the first entry of a program's logger. -/
def ownTarget : String := "freeslot::common::logging"

/-- Tries a logger for a program.  If it is installed, its first entry says so. -/
def tryForProgram (l : Logging) (moment : Moment) (logger : Logger) (greeting : String) :
    Logging × String :=
  if l.programTried then (l, "")
  else
    match l.logger with
    | some _ => ({ l with programTried := true }, "")
    | none =>
        ({ l with programTried := true, logger := some logger },
          logger.write moment ⟨.info, ownTarget, greeting⟩)

/-- One call: how the program logs afterwards, and the text written. -/
def run (settings : Settings) (moment : Moment) (l : Logging) : Call → Logging × String
  | .init => l.tryForProgram moment (.forProgram settings) "freeslot logging initialized"
  | .initWithCeiling ceiling =>
      l.tryForProgram moment (.withCeiling ceiling)
        ("freeslot logging initialized with level: " ++ ceiling.name)
  | .initForTests =>
      if l.testsTried then (l, "")
      else
        ({ l with testsTried := true, logger := l.logger.or (some (.forTests settings)) }, "")
  | .enter e => (l, l.write moment e)

end Logging

end FreeSpace.Log
