import ScriptFold.Toml.Scalar
import ScriptFold.Toml.Table
import ScriptFold.Toml.Text

/-!
# Reading TOML

A document is a list of lines: a header opens a table, and a key with a value adds to the table
opened last. A document that breaks a rule has no table.
-/

namespace ScriptFold.Toml.Reader

/-- The text after a comment, if one starts here. -/
def skipComment : List Char → List Char
  | '#' :: rest => rest.dropWhile isShown
  | s => s

/-- The text from the first character that is neither blank nor in a comment. The count bounds
the lines. -/
def skipLines : Nat → List Char → List Char
  | 0, s => s
  | lines + 1, s =>
    let rest := skipComment (skipSpaces s)
    match newline? rest with
    | some rest => skipLines lines rest
    | none => rest

mutual

/-- A value. The first count bounds the steps and is never used up when it is at least twice the
length of the text; the second is how many arrays and tables may still be nested. -/
def value : Nat → Nat → List Char → Option (Value × List Char)
  | 0, _, _ => none
  | steps + 1, levels, s =>
    match s with
    | '"' :: _ | '\'' :: _ => (string s).map fun (text, rest) => (.text (String.ofList text), rest)
    | '[' :: rest =>
      match levels with
      | 0 => none
      | levels + 1 => (items steps levels rest).map (.other, ·)
    | '\x7b' :: rest =>
      match levels with
      | 0 => none
      | levels + 1 =>
        match skipSpaces rest with
        | '\x7d' :: rest => some (.table .inline [], rest)
        | rest => (pairs steps levels [] rest).map fun (entries, rest) =>
          (.table .inline entries, rest)
    | s => (scalar? s).map (.other, ·)

/-- The rest of an array; a comma may stand before the closing bracket. -/
def items : Nat → Nat → List Char → Option (List Char)
  | 0, _, _ => none
  | steps + 1, levels, s =>
    match skipLines s.length s with
    | ']' :: rest => some rest
    | s =>
      match value steps levels s with
      | none => none
      | some (_, rest) =>
        match skipLines rest.length rest with
        | ',' :: rest => items steps levels rest
        | ']' :: rest => some rest
        | _ => none

/-- The rest of an inline table, which stands on one line. -/
def pairs : Nat → Nat → Entries → List Char → Option (Entries × List Char)
  | 0, _, _, _ => none
  | steps + 1, levels, entries, s => do
    let (path, rest) ← key maxDepth (skipSpaces s)
    match skipSpaces rest with
    | '=' :: rest =>
      let (value, rest) ← value steps levels (skipSpaces rest)
      let entries ← entries.add path.dropLast (path.getLast?.getD "") value
      match skipSpaces rest with
      | ',' :: rest => pairs steps levels entries rest
      | '\x7d' :: rest => some (entries, rest)
      | _ => none
    | _ => none

end

/-- What was read so far: the whole document, and the path of the table opened last. -/
structure State where
  root : Entries
  current : List String

/-- The text after the end of a line, where nothing but a comment may stand. -/
def lineEnd (s : List Char) : Option (List Char) :=
  match skipComment (skipSpaces s) with
  | [] => some []
  | rest => newline? rest

/-- A header, from after its opening bracket. -/
def header (state : State) (s : List Char) : Option (State × List Char) := do
  let (isItem, rest) :=
    match s with
    | '[' :: rest => (true, rest)
    | rest => (false, rest)
  let (path, rest) ← key maxDepth (skipSpaces rest)
  let rest ← char? ']' (skipSpaces rest)
  let rest ← if isItem then char? ']' rest else some rest
  let last := path.getLast?.getD ""
  let root ← Entries.change false
    (fun _ entries => if isItem then entries.openItem last else entries.openTable last)
    path.dropLast .header state.root
  some (⟨root, path⟩, rest)

/-- A key and its value. -/
def pair (state : State) (s : List Char) : Option (State × List Char) := do
  let (path, rest) ← key maxDepth s
  let rest ← char? '=' (skipSpaces rest)
  let rest := skipSpaces rest
  let (value, rest) ← value (2 * rest.length + 2) maxDepth rest
  let root ← Entries.change false
    (fun _ entries => entries.add path.dropLast (path.getLast?.getD "") value)
    state.current .header state.root
  some (⟨root, state.current⟩, rest)

/-- The lines of a document. The count bounds their number. -/
def lines : Nat → State → List Char → Option Entries
  | 0, _, _ => none
  | count + 1, state, s =>
    match skipSpaces s with
    | [] => some state.root
    | '[' :: rest => do
      let (state, rest) ← header state rest
      let rest ← lineEnd rest
      lines count state rest
    | s =>
      match lineEnd s with
      | some rest => lines count state rest
      | none => do
        let (state, rest) ← pair state s
        let rest ← lineEnd rest
        lines count state rest

end ScriptFold.Toml.Reader

namespace ScriptFold.Toml

/-- The root table of a document; a byte order mark may stand before it. -/
def read (text : String) : Option Entries :=
  let s :=
    match text.toList with
    | '\uFEFF' :: rest => rest
    | s => s
  Reader.lines (s.length + 1) ⟨[], []⟩ s

end ScriptFold.Toml
