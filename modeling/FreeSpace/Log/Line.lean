import FreeSpace.Event

/-!
# Log lines

An entry is written as a line of its own, in one of three forms.  Two of them give the time, the
severity in brackets and the target, with or without colours for the severity; the third gives all
that in brackets, with the severities aligned and the lines of a message below each other.
-/

namespace FreeSpace.Log

structure Entry where
  severity : Severity
  target : String
  message : String
  deriving DecidableEq, Repr

def Entry.ofEvent (e : Event) : Entry :=
  ⟨e.severity, Event.target, e.message⟩

/-- A moment, in universal time. -/
structure Moment where
  year : Nat
  month : Nat
  day : Nat
  hour : Nat
  minute : Nat
  second : Nat
  millisecond : Nat
  deriving DecidableEq, Repr

namespace Moment

/-- A number with zeros in front of it up to this width. -/
def padded (width n : Nat) : String :=
  let digits := toString n
  String.ofList (List.replicate (width - digits.length) '0') ++ digits

def date (m : Moment) : String :=
  padded 4 m.year ++ "-" ++ padded 2 m.month ++ "-" ++ padded 2 m.day

/-- The time of day to the second. -/
def clock (m : Moment) : String :=
  padded 2 m.hour ++ ":" ++ padded 2 m.minute ++ ":" ++ padded 2 m.second

/-- To the millisecond, with a blank between date and time. -/
def fine (m : Moment) : String :=
  m.date ++ " " ++ m.clock ++ "." ++ padded 3 m.millisecond

/-- To the second, with the letters that mark a time in universal time. -/
def coarse (m : Moment) : String :=
  m.date ++ "T" ++ m.clock ++ "Z"

end Moment

/-- How lines are written. -/
inductive Form
  | coloured
  | uncoloured
  | aligned
  deriving DecidableEq, Repr

namespace Form

/-- The number of the terminal colour of a severity. -/
def colour : Severity → String
  | .error => "31"
  | .warn => "33"
  | .info => "32"
  | .debug => "36"
  | .trace => "37"

/-- The severity followed by blanks up to the width of the longest. -/
def alignedName (s : Severity) : String :=
  s.name ++ String.ofList (List.replicate (5 - s.name.length) ' ')

/-- The message with all its lines but the first moved in. -/
def indented (message : String) : String :=
  "\n    ".intercalate (message.splitOn "\n")

def timed (moment : Moment) (severity : String) (e : Entry) : String :=
  moment.fine ++ " [" ++ severity ++ "] " ++ e.target ++ ": " ++ e.message ++ "\n"

/-- The line of an entry, with its end. -/
def line (moment : Moment) (e : Entry) : Form → String
  | coloured =>
      timed moment ("\x1b[" ++ colour e.severity ++ "m" ++ e.severity.name ++ "\x1b[0m") e
  | uncoloured => timed moment e.severity.name e
  | aligned =>
      "[" ++ moment.coarse ++ " " ++ alignedName e.severity ++ " " ++ e.target ++ "] "
        ++ indented e.message ++ "\n"

end Form

end FreeSpace.Log
