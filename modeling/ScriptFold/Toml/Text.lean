/-!
# TOML strings and keys

The four kinds of strings, and keys made of bare words or quoted parts. Every function takes the
characters after the opening quotes and returns the text and what follows the closing ones.
-/

namespace ScriptFold.Toml

/-- A space or a tab. -/
def isSpace (c : Char) : Bool :=
  c == ' ' || c == '\t'

/-- The text without spaces at its start. -/
def skipSpaces (s : List Char) : List Char :=
  s.dropWhile isSpace

/-- A character that may stand in comments and strings: no control but the tab. -/
def isShown (c : Char) : Bool :=
  c == '\t' || (decide (32 ≤ c.toNat) && c.toNat != 127)

/-- The text after a line break that starts here. -/
def newline? : List Char → Option (List Char)
  | '\n' :: rest => some rest
  | '\r' :: '\n' :: rest => some rest
  | _ => none

/-- The value of a hexadecimal digit. -/
def hexDigit? (c : Char) : Option Nat :=
  if '0' ≤ c ∧ c ≤ '9' then some (c.toNat - '0'.toNat)
  else if 'a' ≤ c ∧ c ≤ 'f' then some (c.toNat - 'a'.toNat + 10)
  else if 'A' ≤ c ∧ c ≤ 'F' then some (c.toNat - 'A'.toNat + 10)
  else none

/-- The character whose code point is given by digits. -/
def codeChar? (digits : List Char) : Option Char := do
  let values ← digits.mapM hexDigit?
  let code := values.foldl (fun n d => n * 16 + d) 0
  if code.isValidChar then some (Char.ofNat code) else none

/-- The character of a one-letter escape. -/
def escape? : Char → Option Char
  | 'b' => some '\x08'
  | 't' => some '\t'
  | 'n' => some '\n'
  | 'f' => some '\x0c'
  | 'r' => some '\r'
  | '"' => some '"'
  | '\\' => some '\\'
  | _ => none

/-- Puts a character in front of the text read. -/
def withChar (c : Option Char) (found : Option (List Char × List Char)) :
    Option (List Char × List Char) :=
  match c, found with
  | some c, some (text, rest) => some (c :: text, rest)
  | _, _ => none

/-- A basic string of one line. -/
def basicString : List Char → Option (List Char × List Char)
  | [] => none
  | '"' :: rest => some ([], rest)
  | '\\' :: 'u' :: a :: b :: c :: d :: rest =>
    withChar (codeChar? [a, b, c, d]) (basicString rest)
  | '\\' :: 'U' :: a :: b :: c :: d :: e :: f :: g :: h :: rest =>
    withChar (codeChar? [a, b, c, d, e, f, g, h]) (basicString rest)
  | '\\' :: c :: rest => withChar (escape? c) (basicString rest)
  | c :: rest => if isShown c then withChar (some c) (basicString rest) else none

/-- A literal string of one line. -/
def literalString : List Char → Option (List Char × List Char)
  | [] => none
  | '\'' :: rest => some ([], rest)
  | c :: rest => if isShown c then withChar (some c) (literalString rest) else none

/-- The end of a string of several lines: up to two quotes may stand before the closing three. -/
def closing (quote : Char) (s : List Char) : List Char × List Char :=
  let extra := min 2 ((s.takeWhile (· == quote)).length - 3)
  (List.replicate extra quote, s.drop (extra + 3))

/-- A literal string of several lines. -/
def literalLines : List Char → Option (List Char × List Char)
  | [] => none
  | '\'' :: '\'' :: '\'' :: rest => some (closing '\'' ('\'' :: '\'' :: '\'' :: rest))
  | '\r' :: '\n' :: rest => withChar (some '\n') (literalLines rest)
  | c :: rest =>
    if c = '\n' ∨ isShown c then withChar (some c) (literalLines rest) else none

/-- A basic string of several lines; while skipping, white space is passed over. -/
def basicLines (skipping : Bool) : List Char → Option (List Char × List Char)
  | [] => none
  | '"' :: '"' :: '"' :: rest => some (closing '"' ('"' :: '"' :: '"' :: rest))
  | '\r' :: '\n' :: rest =>
    if skipping then basicLines true rest else withChar (some '\n') (basicLines false rest)
  | '\\' :: 'u' :: a :: b :: c :: d :: rest =>
    withChar (codeChar? [a, b, c, d]) (basicLines false rest)
  | '\\' :: 'U' :: a :: b :: c :: d :: e :: f :: g :: h :: rest =>
    withChar (codeChar? [a, b, c, d, e, f, g, h]) (basicLines false rest)
  | '\\' :: c :: rest =>
    if (newline? (skipSpaces (c :: rest))).isSome then
      if c = '\r' then basicLines true (c :: rest) else basicLines true rest
    else withChar (escape? c) (basicLines false rest)
  | c :: rest =>
    if skipping ∧ (c = '\n' ∨ isSpace c) then basicLines true rest
    else if c = '\n' ∨ isShown c then withChar (some c) (basicLines false rest)
    else none

/-- A string of any kind, from its opening quotes. -/
def string : List Char → Option (List Char × List Char)
  | '"' :: '"' :: '"' :: rest => basicLines false ((newline? rest).getD rest)
  | '\'' :: '\'' :: '\'' :: rest => literalLines ((newline? rest).getD rest)
  | '"' :: rest => basicString rest
  | '\'' :: rest => literalString rest
  | _ => none

/-- A character of a bare key. -/
def isBare (c : Char) : Bool :=
  c.isAlphanum || c == '_' || c == '-'

/-- One part of a key. -/
def simpleKey (s : List Char) : Option (String × List Char) :=
  match s with
  | '"' :: rest => (basicString rest).map fun (text, rest) => (String.ofList text, rest)
  | '\'' :: rest => (literalString rest).map fun (text, rest) => (String.ofList text, rest)
  | _ =>
    match s.takeWhile isBare with
    | [] => none
    | word => some (String.ofList word, s.dropWhile isBare)

/-- The parts of a key with dots between them, at most as many as allowed. -/
def key : Nat → List Char → Option (List String × List Char)
  | 0, _ => none
  | parts + 1, s => do
    let (first, rest) ← simpleKey s
    match skipSpaces rest with
    | '.' :: rest =>
      let (more, rest) ← key parts (skipSpaces rest)
      some (first :: more, rest)
    | _ => some ([first], rest)

/-- The most parts a key may have, and the most arrays and tables a value may nest. -/
def maxDepth : Nat := 79

end ScriptFold.Toml
