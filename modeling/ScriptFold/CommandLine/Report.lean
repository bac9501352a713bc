import ScriptFold.Library.Config
import ScriptFold.Library.Rewriting
import ScriptFold.Script.Document
import ScriptFold.Text.Characters
import ScriptFold.Text.Terminal

/-!
# Reports of failures

A failure is reported by its message and, below it, the messages of its causes, outermost first.
Where a JSON text goes wrong and what is wrong with a TOML text is not spelled out.
-/

namespace ScriptFold

/-- The lines of a text. -/
def CommandLine.lines (text : String) : List String :=
  go [] text.toList
where
  /-- The lines of characters, the current line's characters being given in reverse. -/
  go (current : List Char) : List Char → List String
  | [] => [String.ofList current.reverse]
  | c :: rest =>
    if c = '\n' then String.ofList current.reverse :: go [] rest else go (c :: current) rest

/-- The start of a line: its indentation and the number of a cause. -/
def CommandLine.lead (line : String) : String :=
  let s := line.toList
  let blank := s.takeWhile Text.isBlankChar
  let rest := s.dropWhile Text.isBlankChar
  let digits := rest.takeWhile Char.isDigit
  let number :=
    match digits, rest.dropWhile Char.isDigit with
    | _ :: _, ':' :: ' ' :: _ => digits ++ [':', ' ']
    | _, _ => []
  String.ofList (blank ++ number)

/-- A line of a report with the fault of a JSON text left out. -/
def CommandLine.withoutFault (line : String) : String :=
  lead line ++ "<json error>"

/-- What stands in a report for a fault of a JSON text: of the last line of its message, which
would end with the position, only the start. -/
def Json.Error.summary : Json.Error → String
  | .malformed => CommandLine.withoutFault ""
  | .mismatch m =>
    let shown := CommandLine.lines m.message
    "\n".intercalate (shown.dropLast ++ [CommandLine.withoutFault (shown.getLast?.getD "")])

/-- What stands in a report for a fault of a TOML text. -/
def Toml.summary : String := "<toml error>"

/-- The messages of a failure and its causes. -/
def SourceError.chain (e : SourceError) : List String :=
  e.message ::
    match e with
    | .unreadable _ _ cause => [cause.message]
    | .unparsable _ _ cause => [cause.summary]
    | .unlisted _ cause => [cause.message]
    | .notFound _ | .invalidName _ => []

/-- The messages of a failure and its causes. -/
def DefinitionError.chain (e : DefinitionError) : List String :=
  e.message ::
    match e with
    | .load _ cause | .enumerate cause => cause.chain
    | .pattern _ _ cause => [cause.message]
    | .invalid _ _ | .cycle _ | .unknown _ => []

/-- The messages of a failure and its causes. -/
def ConfigError.chain (e : ConfigError) : List String :=
  e.message ::
    match e with
    | .unreadable _ cause => [cause.message]
    | .unparsable _ => [Toml.summary]

/-- The messages of a failure and its causes. -/
def Snippet.LoadError.chain (e : Snippet.LoadError) : List String :=
  e.message ::
    match e with
    | .unreadable _ cause => [cause.message]
    | .unparsable _ cause => [cause.summary]
    | .invalid _ _ => []

namespace CommandLine

/-- The lines of a record's message as they are shown: all but the first are indented. -/
def messageLines (record : Log.Record) : List String :=
  match lines record.message with
  | [] => []
  | line :: rest => line :: rest.map ("    " ++ ·)

/-- What stands before the message of a record. -/
def recordHead (record : Log.Record) : String :=
  s!"[{record.level.name} {record.area.target}] "

/-- The message of a record as it is shown, with the line break after it. What a terminal would
take as a command is left out, if need be the line break as well. -/
def recordBody (record : Log.Record) : String :=
  Text.plain ("\n".intercalate (messageLines record) ++ "\n")

/-- A record as it is shown. -/
def recordText (record : Log.Record) : String :=
  recordHead record ++ recordBody record

/-- The lines of a text after a first indentation, the others under it. -/
def indented (first : String) (text : String) : List String :=
  match lines text with
  | [] => []
  | line :: rest =>
    (first ++ line) :: rest.map (String.ofList (List.replicate first.length ' ') ++ ·)

/-- The indentation of a cause, with its number when there are several. -/
def causeMark (several : Bool) (index : Nat) : String :=
  if several then
    let digits := Nat.toDigits 10 index
    String.ofList (List.replicate (5 - digits.length) ' ' ++ digits) ++ ": "
  else "    "

/-- The lines of a report: the outermost message and the numbered causes. -/
def report : List String → List String
  | [] => []
  | message :: causes =>
    lines ("Error: " ++ message) ++
      if causes.isEmpty then []
      else
        "" :: "Caused by:" ::
          causes.zipIdx.flatMap fun (cause, i) => indented (causeMark (1 < causes.length) i) cause

end CommandLine

end ScriptFold
