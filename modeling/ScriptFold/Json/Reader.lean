import ScriptFold.Json.Draft

/-!
# Reading JSON

The reader turns characters into a draft. It never fails: where the grammar breaks it stops, and
the draft says so. Every function returns the characters after what it read, or nothing when the
grammar broke inside.
-/

namespace ScriptFold.Json.Reader

/-- The blanks between the parts of a text. -/
def isBlank (c : Char) : Bool :=
  c == ' ' || c == '\n' || c == '\t' || c == '\r'

/-- The text from the first character that is no blank. -/
def skipBlanks (s : List Char) : List Char :=
  s.dropWhile isBlank

/-- The value of a decimal digit. -/
def digit? (c : Char) : Option Nat :=
  if '0' ≤ c ∧ c ≤ '9' then some (c.toNat - '0'.toNat) else none

/-- The value of a hexadecimal digit. -/
def hexDigit? (c : Char) : Option Nat :=
  if '0' ≤ c ∧ c ≤ '9' then some (c.toNat - '0'.toNat)
  else if 'a' ≤ c ∧ c ≤ 'f' then some (c.toNat - 'a'.toNat + 10)
  else if 'A' ≤ c ∧ c ≤ 'F' then some (c.toNat - 'A'.toNat + 10)
  else none

/-- The digits at the start of a text, and the rest. -/
def digits : List Char → List Nat × List Char
  | [] => ([], [])
  | c :: rest =>
    match digit? c with
    | some d => let (ds, after) := digits rest; (d :: ds, after)
    | none => ([], c :: rest)

/-- One unit of a string: a character, or sixteen bits given by number. -/
inductive StringUnit
  | char (c : Char)
  | code (n : Nat)
deriving DecidableEq

/-- What a one-letter escape stands for. -/
def shortEscape? : Char → Option Char
  | '"' => some '"'
  | '\\' => some '\\'
  | '/' => some '/'
  | 'b' => some '\x08'
  | 'f' => some '\x0c'
  | 'n' => some '\n'
  | 'r' => some '\r'
  | 't' => some '\t'
  | _ => none

/-- The units of a string up to its closing quote. -/
def stringUnits : List Char → Option (List StringUnit × List Char)
  | [] => none
  | '"' :: rest => some ([], rest)
  | '\\' :: 'u' :: a :: b :: c :: d :: rest =>
    match hexDigit? a, hexDigit? b, hexDigit? c, hexDigit? d, stringUnits rest with
    | some a, some b, some c, some d, some (units, after) =>
      some (.code (((a * 16 + b) * 16 + c) * 16 + d) :: units, after)
    | _, _, _, _, _ => none
  | '\\' :: c :: rest =>
    match shortEscape? c, stringUnits rest with
    | some c, some (units, after) => some (.char c :: units, after)
    | _, _ => none
  | c :: rest =>
    if c.toNat < 32 then none
    else
      match stringUnits rest with
      | some (units, after) => some (.char c :: units, after)
      | none => none

/-- The characters of units, the two halves of a surrogate pair making one; none if a half stands
alone. -/
def joinUnits : List StringUnit → Option (List Char)
  | [] => some []
  | .char c :: rest => (joinUnits rest).map (c :: ·)
  | .code n :: rest =>
    if 0xD800 ≤ n ∧ n < 0xDC00 then
      match rest with
      | .code m :: rest =>
        if 0xDC00 ≤ m ∧ m < 0xE000 then
          (joinUnits rest).map (Char.ofNat ((n - 0xD800) * 0x400 + (m - 0xDC00) + 0x10000) :: ·)
        else none
      | _ => none
    else if 0xDC00 ≤ n ∧ n < 0xE000 then none
    else (joinUnits rest).map (Char.ofNat n :: ·)

/-- A string after its opening quote: its value unless it is a misfit, and the rest. -/
def string (s : List Char) : Option (Option String × List Char) :=
  (stringUnits s).map fun (units, rest) => ((joinUnits units).map String.ofList, rest)

/-- The fraction of a number, if one starts here. -/
def fraction : List Char → Option (Option (List Nat) × List Char)
  | '.' :: rest =>
    match digits rest with
    | ([], _) => none
    | (ds, rest) => some (some ds, rest)
  | s => some (none, s)

/-- The exponent of a number, if one starts here. -/
def exponent : List Char → Option (Option (Bool × List Nat) × List Char)
  | c :: rest =>
    if c = 'e' ∨ c = 'E' then
      let (minus, rest) :=
        match rest with
        | '+' :: rest => (false, rest)
        | '-' :: rest => (true, rest)
        | rest => (false, rest)
      match digits rest with
      | ([], _) => none
      | (ds, rest) => some (some (minus, ds), rest)
    else some (none, c :: rest)
  | [] => some (none, [])

/-- A number without its sign; a leading zero stands alone. -/
def numeral (negative : Bool) (s : List Char) : Option (Numeral × List Char) :=
  match digits s with
  | ([], _) | (0 :: _ :: _, _) => none
  | (whole, rest) => do
    let (fraction, rest) ← fraction rest
    let (exponent, rest) ← exponent rest
    some (⟨negative, whole, fraction, exponent⟩, rest)

/-- A number as a draft. -/
def number (negative : Bool) (s : List Char) : Draft × Option (List Char) :=
  match numeral negative s with
  | none => (.broken, none)
  | some (n, rest) =>
    match n.value? with
    | some value => (.number value, some rest)
    | none => (.misfit, some rest)

/-- A value that starts with anything but a bracket. -/
def scalar : List Char → Draft × Option (List Char)
  | 'n' :: 'u' :: 'l' :: 'l' :: rest => (.null, some rest)
  | 't' :: 'r' :: 'u' :: 'e' :: rest => (.boolean true, some rest)
  | 'f' :: 'a' :: 'l' :: 's' :: 'e' :: rest => (.boolean false, some rest)
  | '"' :: rest =>
    match string rest with
    | some (some value, rest) => (.string value, some rest)
    | some (none, rest) => (.misfit, some rest)
    | none => (.broken, none)
  | '-' :: rest => number true rest
  | s => number false s

mutual

/-- A value, with blanks before it allowed. The count bounds the steps and is never used up when
it is at least twice the length of the text. -/
def value : Nat → List Char → Draft × Option (List Char)
  | 0, _ => (.broken, none)
  | steps + 1, s =>
    match skipBlanks s with
    | '[' :: rest =>
      match skipBlanks rest with
      | ']' :: rest => (.array [] true, some rest)
      | rest =>
        let (items, after) := items steps rest
        (.array items after.isSome, after)
    | '\x7b' :: rest =>
      match skipBlanks rest with
      | '\x7d' :: rest => (.object [] true, some rest)
      | rest =>
        let (entries, after) := entries steps rest
        (.object entries after.isSome, after)
    | s => scalar s

/-- One or more items up to the closing bracket. -/
def items : Nat → List Char → List Draft × Option (List Char)
  | 0, _ => ([], none)
  | steps + 1, s =>
    match value steps s with
    | (item, none) => ([item], none)
    | (item, some rest) =>
      match skipBlanks rest with
      | ',' :: rest =>
        let (more, after) := items steps rest
        (item :: more, after)
      | ']' :: rest => ([item], some rest)
      | _ => ([item], none)

/-- One or more entries up to the closing brace. -/
def entries : Nat → List Char → List (Option String × Draft) × Option (List Char)
  | 0, _ => ([], none)
  | steps + 1, s =>
    match skipBlanks s with
    | '"' :: rest =>
      match string rest with
      | none => ([], none)
      | some (key, rest) =>
        match skipBlanks rest with
        | ':' :: rest =>
          match value steps rest with
          | (item, none) => ([(key, item)], none)
          | (item, some rest) =>
            match skipBlanks rest with
            | ',' :: rest =>
              let (more, after) := entries steps rest
              ((key, item) :: more, after)
            | '\x7d' :: rest => ([(key, item)], some rest)
            | _ => ([(key, item)], none)
        | _ => ([(key, .broken)], none)
    | _ => ([], none)

end

end ScriptFold.Json.Reader

namespace ScriptFold.Json

/-- Reads a text. -/
def Document.ofChars (s : List Char) : Document :=
  match Reader.value (2 * s.length + 2) s with
  | (root, some rest) => ⟨root, (Reader.skipBlanks rest).isEmpty⟩
  | (root, none) => ⟨root, false⟩

/-- Reads a text. -/
def Document.ofText (text : String) : Document :=
  Document.ofChars text.toList

end ScriptFold.Json
