/-!
# Text without terminal commands

A terminal takes an escape character and what follows it as a command. The plain form of a text is
what is left without its commands and controls: printing characters and white space. White space
inside an unfinished command of the kinds that let it through is kept, and so is the text right
after it; the command goes on at the next control.
-/

namespace ScriptFold.Text

namespace Terminal

/-- Where in a command a character stands. -/
inductive Mode
  | text
  /-- After the escape character. -/
  | escape
  /-- After marks that follow the escape character. -/
  | marked
  /-- In a control sequence, up to its final letter. -/
  | control
  /-- At the start of a command to the device. -/
  | device
  | deviceParameter
  | deviceMarked
  /-- In the content of a command, which only its terminator ends. -/
  | content
  /-- In a command to the operating system, which the bell ends. -/
  | system
deriving DecidableEq, Repr

/-- White space that is a control character. -/
def isSpacing (c : Char) : Bool :=
  c == '\t' || c == '\n' || c == '\x0c' || c == '\r'

/-- A control character. -/
def isControl (c : Char) : Bool :=
  decide (c.toNat < 32) || c.toNat == 127

/-- A character that stays in a plain text. -/
def isText (c : Char) : Bool :=
  isSpacing c || !isControl c

/-- The encoding of a character has the byte that ends the content of a command. -/
def endsContent (c : Char) : Bool :=
  (String.utf8EncodeChar c).contains 0x9C

/-- The mode after a printing ASCII character. -/
def Mode.afterPrinting (c : Char) : Mode → Mode
  | .text => .text
  | .escape =>
    if c ≤ '/' then .marked
    else if c = '[' then .control
    else if c = ']' then .system
    else if c = 'P' then .device
    else if c = 'X' ∨ c = '^' ∨ c = '_' then .content
    else .text
  | .marked => if c ≤ '/' then .marked else .text
  | .control => if c ≤ '?' then .control else .text
  | .device => if c ≤ '/' then .deviceMarked else if c ≤ '?' then .deviceParameter else .content
  | .deviceParameter =>
    if c ≤ '/' then .deviceMarked else if c ≤ ';' then .deviceParameter else .content
  | .deviceMarked => if c ≤ '/' then .deviceMarked else .content
  | .content => .content
  | .system => .system

/-- The mode after a character. -/
def Mode.after (c : Char) (mode : Mode) : Mode :=
  if c = '\x1b' then .escape
  else if c = '\x18' ∨ c = '\x1a' then .text
  else if isControl c then if mode = .system ∧ c = '\x07' then .text else mode
  else if c.toNat < 128 then mode.afterPrinting c
  else if mode = .content ∧ endsContent c then .text
  else mode

/-- A character that stays where it stands. -/
def Mode.keeps (c : Char) : Mode → Bool
  | .text => isText c
  | .escape | .marked | .control => isSpacing c
  | .device | .deviceParameter | .deviceMarked | .content | .system => false

/-- The characters that stay. After one that stays, all text up to the next control does. -/
def plainChars (mode : Mode) (keeping : Bool) : List Char → List Char
  | [] => []
  | c :: rest =>
    if keeping ∧ isText c then
      c :: plainChars (if c.toNat < 128 then mode else .text) true rest
    else if mode.keeps c then c :: plainChars (mode.after c) true rest
    else plainChars (mode.after c) false rest

end Terminal

/-- A text without terminal commands and controls. -/
def plain (s : String) : String :=
  String.ofList (Terminal.plainChars .text false s.toList)

end ScriptFold.Text
