import ScriptFold.Json.Basic

/-!
# Writing JSON

The written form of a value, on one line or with two spaces of indentation per level. Only what
must be escaped is.
-/

namespace ScriptFold.Json.Printer

/-- A control character by its number, with four hexadecimal digits. -/
def escapedCode (c : Char) : List Char :=
  let code := Nat.toDigits 16 c.toNat
  '\\' :: 'u' :: List.replicate (4 - code.length) '0' ++ code

/-- One character of a string. -/
def stringChar (c : Char) : List Char :=
  match c with
  | '"' => ['\\', '"']
  | '\\' => ['\\', '\\']
  | '\x08' => ['\\', 'b']
  | '\x0c' => ['\\', 'f']
  | '\n' => ['\\', 'n']
  | '\r' => ['\\', 'r']
  | '\t' => ['\\', 't']
  | c => if c.toNat < 32 then escapedCode c else [c]

/-- A string in quotes. -/
def string (s : String) : List Char :=
  '"' :: s.toList.flatMap stringChar ++ ['"']

/-- A line break and the indentation of a level. -/
def newline (level : Nat) : List Char :=
  '\n' :: List.replicate (2 * level) ' '

mutual

/-- A value on one line. -/
def compact : Json → List Char
  | .null => "null".toList
  | .boolean b => if b then "true".toList else "false".toList
  | .number n => n.chars
  | .string s => string s
  | .array items => '[' :: compactItems items ++ [']']
  | .object entries => '\x7b' :: compactEntries entries ++ ['\x7d']

/-- Items on one line, with commas between them. -/
def compactItems : List Json → List Char
  | [] => []
  | [item] => compact item
  | item :: rest => compact item ++ ',' :: compactItems rest

/-- Entries on one line, with commas between them. -/
def compactEntries : List (String × Json) → List Char
  | [] => []
  | [(key, value)] => string key ++ ':' :: compact value
  | (key, value) :: rest => string key ++ ':' :: compact value ++ ',' :: compactEntries rest

end

mutual

/-- A value at a level of indentation; empty arrays and objects stay on one line. -/
def pretty (level : Nat) : Json → List Char
  | .null => "null".toList
  | .boolean b => if b then "true".toList else "false".toList
  | .number n => n.chars
  | .string s => string s
  | .array [] => ['[', ']']
  | .array (item :: rest) => '[' :: prettyItems (level + 1) (item :: rest) ++ newline level ++ [']']
  | .object [] => ['\x7b', '\x7d']
  | .object (entry :: rest) =>
    '\x7b' :: prettyEntries (level + 1) (entry :: rest) ++ newline level ++ ['\x7d']

/-- Items, each on lines of its own. -/
def prettyItems (level : Nat) : List Json → List Char
  | [] => []
  | [item] => newline level ++ pretty level item
  | item :: rest => newline level ++ pretty level item ++ ',' :: prettyItems level rest

/-- Entries, each on lines of its own. -/
def prettyEntries (level : Nat) : List (String × Json) → List Char
  | [] => []
  | [(key, value)] => newline level ++ string key ++ ':' :: ' ' :: pretty level value
  | (key, value) :: rest =>
    newline level ++ string key ++ ':' :: ' ' :: pretty level value ++
      ',' :: prettyEntries level rest

end

end ScriptFold.Json.Printer

namespace ScriptFold.Json

/-- A value on one line. -/
def compact (value : Json) : String :=
  String.ofList (Printer.compact value)

/-- A value with indentation. -/
def pretty (value : Json) : String :=
  String.ofList (Printer.pretty 0 value)

end ScriptFold.Json
