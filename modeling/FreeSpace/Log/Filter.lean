import FreeSpace.Event
import FreeSpace.Text.Blank

/-!
# Log filters

A filter is a list of directives, each with the least urgent severity that it lets pass for the
targets that start with its own.  Of the directives that match a target the longest decides; a
directive for all targets counts as the shortest.

A filter is written as a list with commas: `warn` for all targets, `store=debug` for some.
-/

namespace FreeSpace.Log

/-- The least urgent severity that passes; `none` lets nothing pass. -/
abbrev Ceiling := Option Severity

namespace Ceiling

/-- Everything passes. -/
def highest : Ceiling := some .trace

def admits (ceiling : Ceiling) (severity : Severity) : Bool :=
  match ceiling with
  | some least => severity.rank ≤ least.rank
  | none => false

/-- The name of a ceiling in a report. -/
def name : Ceiling → String
  | none => "Off"
  | some .error => "Error"
  | some .warn => "Warn"
  | some .info => "Info"
  | some .debug => "Debug"
  | some .trace => "Trace"

/-- The ceiling with this name, in capitals or not. -/
def ofName? (text : String) : Option Ceiling :=
  if text.toUpper = "OFF" then some none
  else (Severity.all.find? (·.name = text.toUpper)).map some

end Ceiling

structure Directive where
  /-- The start of the targets meant; `none` means all targets. -/
  target : Option String
  ceiling : Ceiling
  deriving DecidableEq, Repr

namespace Directive

def covers (d : Directive) (target : String) : Bool :=
  match d.target with
  | some start => start.toList.isPrefixOf target.toList
  | none => true

/-- Bytes of the directive's target. -/
def weight (d : Directive) : Nat :=
  (d.target.getD "").utf8ByteSize

/-- One directive of a written filter: a name of a ceiling, a target, or both with `=` between. -/
def ofText? (text : String) : Option Directive :=
  match text.splitOn "=" with
  | [single] =>
      match Ceiling.ofName? single with
      | some ceiling => some ⟨none, ceiling⟩
      | none => some ⟨some single, .highest⟩
  | [target, level] =>
      let level := Blank.trim level
      if level = "" then some ⟨some target, .highest⟩
      else (Ceiling.ofName? level).map fun ceiling => ⟨some target, ceiling⟩
  | _ => none

end Directive

abbrev Filter := List Directive

namespace Filter

/-- The filter with one more directive, which takes the place of one for the same target. -/
def add (f : Filter) (d : Directive) : Filter :=
  if f.any (·.target = d.target) then f.map fun old => if old.target = d.target then d else old
  else f ++ [d]

/-- The directives of a written filter; what is none of them is left out. -/
def directives (text : String) : List Directive :=
  (((text.splitOn ",").map Blank.trim).filter (· ≠ "")).filterMap Directive.ofText?

/-- The filter with all directives of a written one added in order. -/
def addText (f : Filter) (text : Option String) : Filter :=
  match text with
  | some text => (directives text).foldl add f
  | none => f

/-- The directive that decides on a target: the longest that matches, the last of them. -/
def decisive? (f : Filter) (target : String) : Option Directive :=
  f.foldl (fun best d =>
    if d.covers target ∧ (best.map Directive.weight).getD 0 ≤ d.weight then some d else best) none

/-- Whether an entry of this severity and target passes.  No directives at all pass errors. -/
def passes (f : Filter) (target : String) (severity : Severity) : Bool :=
  match f with
  | [] => Ceiling.admits (some .error) severity
  | f =>
      match Filter.decisive? f target with
      | some d => d.ceiling.admits severity
      | none => false

end Filter

end FreeSpace.Log
