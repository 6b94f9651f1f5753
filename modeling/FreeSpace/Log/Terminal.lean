/-!
# Text without terminal controls

A terminal reads escape sequences and control characters in a text as commands.  `plain` keeps what
it would show: it drops the sequences and the control characters, but for the blank ones.

The sequences are those of the usual state diagram for ANSI terminals, reduced to what decides
whether a character is shown.  A blank control character is shown even inside an escape or control
sequence.  From there on text is shown as if the sequence had ended, up to the next character that
is not shown at all, and with that one the sequence goes on; only a character outside ASCII ends
it on the way.
-/

namespace FreeSpace.Log.Terminal

/-- Where a text stands with respect to escape sequences. -/
inductive Mode
  /-- Outside of all sequences. -/
  | text
  /-- Behind an escape character. -/
  | escape
  /-- In an escape sequence with intermediate characters, which the next other one ends. -/
  | escapeTail
  /-- In a control sequence, which a letter or the like ends. -/
  | control
  /-- At the start of a device control string. -/
  | deviceEntry
  /-- In the parameters of a device control string. -/
  | deviceParameter
  /-- In the intermediate characters of a device control string. -/
  | deviceIntermediate
  /-- In a string for the device or the program, up to its terminator. -/
  | string
  /-- In a command to the operating system, which a bell ends. -/
  | command
  deriving DecidableEq, Repr

/-- Blanks are shown even where other control characters are obeyed. -/
def isBlankControl (c : Char) : Bool :=
  c = '\t' || c = '\n' || c = '\x0c' || c = '\r'

/-- What a terminal shows outside of all sequences; beyond ASCII that is everything. -/
def isShown (c : Char) : Bool :=
  (0x20 ≤ c.toNat && c ≠ '\x7f') || isBlankControl c

def isAscii (c : Char) : Bool :=
  c.toNat < 0x80

def isBetween (first last : Nat) (c : Char) : Bool :=
  first ≤ c.toNat && c.toNat ≤ last

/-- A space, or punctuation that stands before the end of a sequence. -/
def isIntermediate (c : Char) : Bool :=
  isBetween 0x20 0x2F c

/-- What can end a control sequence: from `@` to `~`. -/
def isFinal (c : Char) : Bool :=
  isBetween 0x40 0x7E c

/-- Strings are ended by the byte 0x9C, also where it is a part of another character. -/
def endsString (c : Char) : Bool :=
  (String.utf8EncodeChar c).contains 0x9C

/-- The mode after a character, and whether the character is shown. -/
def next (mode : Mode) (c : Char) : Mode × Bool :=
  if c = '\x1b' then (.escape, false)
  else if c = '\x18' || c = '\x1a' then (.text, false)
  else
    match mode with
    | .text => (.text, isShown c)
    | .escape =>
        if isIntermediate c then (.escapeTail, false)
        else if c = '[' then (.control, false)
        else if c = ']' then (.command, false)
        else if c = 'P' then (.deviceEntry, false)
        else if c = 'X' || c = '^' || c = '_' then (.string, false)
        else if isBetween 0x30 0x7E c then (.text, false)
        else (.escape, isBlankControl c)
    | .escapeTail =>
        if isBetween 0x30 0x7E c then (.text, false) else (.escapeTail, isBlankControl c)
    | .control => if isFinal c then (.text, false) else (.control, isBlankControl c)
    | .deviceEntry =>
        if isIntermediate c then (.deviceIntermediate, false)
        else if isBetween 0x30 0x3F c then (.deviceParameter, false)
        else if isFinal c then (.string, false)
        else (.deviceEntry, false)
    | .deviceParameter =>
        if isIntermediate c then (.deviceIntermediate, false)
        else if isBetween 0x3C 0x7E c then (.string, false)
        else (.deviceParameter, false)
    | .deviceIntermediate =>
        if isBetween 0x30 0x7E c then (.string, false) else (.deviceIntermediate, false)
    | .string => if endsString c then (.text, false) else (.string, false)
    | .command => if c = '\x07' then (.text, false) else (.command, false)

/-- What is shown of a text.  While `showing`, all that can be shown is, whatever the mode. -/
def shown (showing : Bool) (mode : Mode) : List Char → List Char
  | [] => []
  | c :: rest =>
      if showing && isShown c then
        c :: shown true (if isAscii c then mode else .text) rest
      else
        match next mode c with
        | (mode, true) => c :: shown true mode rest
        | (mode, false) => shown false mode rest

def plain (text : String) : String :=
  String.ofList (shown false .text text.toList)

end FreeSpace.Log.Terminal
