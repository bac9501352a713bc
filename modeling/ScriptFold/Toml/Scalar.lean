/-!
# TOML numbers and dates

Only whether a number or a date is well written matters, not its value. Every function returns
what follows.
-/

namespace ScriptFold.Toml

/-- More digits, each with at most one underscore before it. -/
def moreDigits (isDigit : Char → Bool) : List Char → Option (List Char × List Char)
  | [] => some ([], [])
  | ['_'] => none
  | '_' :: c :: rest =>
    if isDigit c then (moreDigits isDigit rest).map fun (ds, rest) => (c :: ds, rest) else none
  | c :: rest =>
    if isDigit c then (moreDigits isDigit rest).map fun (ds, rest) => (c :: ds, rest)
    else some ([], c :: rest)

/-- One or more digits with single underscores between them. -/
def digitRun (isDigit : Char → Bool) : List Char → Option (List Char × List Char)
  | [] => none
  | c :: rest =>
    if isDigit c then (moreDigits isDigit rest).map fun (ds, rest) => (c :: ds, rest) else none

/-- The number that decimal digits denote. -/
def decimal (ds : List Char) : Nat :=
  ds.foldl (fun n c => n * 10 + (c.toNat - '0'.toNat)) 0

/-- A sign, true for minus. -/
def sign : List Char → Bool × List Char
  | '-' :: rest => (true, rest)
  | '+' :: rest => (false, rest)
  | s => (false, s)

/-- Digits without a leading zero, unless it stands alone. -/
def wholeDigits : List Char → Option (List Char × List Char)
  | '0' :: rest => some (['0'], rest)
  | s => digitRun Char.isDigit s

/-- `digits * 10 ^ exponent` is so large that no double is nearest to it. -/
def overflows (digits : Nat) (exponent : Int) : Bool :=
  let size := (Nat.toDigits 10 digits).length + exponent
  if digits = 0 ∨ size < 300 then false
  else if 320 < size then true
  else
    let limit := Nat.pow 2 1024 - Nat.pow 2 970
    if 0 ≤ exponent then limit ≤ digits * Nat.pow 10 exponent.toNat
    else limit * Nat.pow 10 (-exponent).toNat ≤ digits

/-- An exponent: its value and what follows. -/
def exponent? : List Char → Option (Int × List Char)
  | c :: rest =>
    if c = 'e' ∨ c = 'E' then
      let (minus, rest) := sign rest
      (digitRun Char.isDigit rest).map fun (ds, rest) =>
        (if minus then -(decimal ds : Int) else decimal ds, rest)
    else none
  | [] => none

/-- A number with a fraction or an exponent, unless it is too large. -/
def float? (s : List Char) : Option (List Char) := do
  let (minus, rest) := sign s
  match rest with
  | 'i' :: 'n' :: 'f' :: rest => some rest
  | 'n' :: 'a' :: 'n' :: rest => some rest
  | _ =>
    let (whole, rest) ← wholeDigits rest
    match rest with
    | '.' :: rest =>
      let (fraction, rest) ← digitRun Char.isDigit rest
      let (e, rest) :=
        match exponent? rest with
        | some (e, rest) => (e, rest)
        | none => (0, rest)
      if !minus && overflows (decimal (whole ++ fraction)) (e - fraction.length) then none
      else some rest
    | rest =>
      let (e, rest) ← exponent? rest
      if !minus && overflows (decimal whole) e then none else some rest

/-- The number that digits of a base denote. -/
def inBase (base : Nat) (ds : List Char) : Nat :=
  ds.foldl
    (fun n c =>
      n * base +
        if c.isDigit then c.toNat - '0'.toNat
        else if 'a' ≤ c then c.toNat - 'a'.toNat + 10
        else c.toNat - 'A'.toNat + 10)
    0

/-- A hexadecimal digit. -/
def isHex (c : Char) : Bool :=
  c.isDigit || (decide ('a' ≤ c) && decide (c ≤ 'f')) || (decide ('A' ≤ c) && decide (c ≤ 'F'))

/-- A whole number of 64 bits. -/
def integer? (s : List Char) : Option (List Char) :=
  let based := fun (base : Nat) (isDigit : Char → Bool) (rest : List Char) => do
    let (ds, rest) ← digitRun isDigit rest
    if inBase base ds < Nat.pow 2 63 then some rest else none
  match s with
  | '0' :: 'x' :: rest => based 16 isHex rest
  | '0' :: 'o' :: rest => based 8 (fun c => decide ('0' ≤ c) && decide (c ≤ '7')) rest
  | '0' :: 'b' :: rest => based 2 (fun c => c == '0' || c == '1') rest
  | _ => do
    let (minus, rest) := sign s
    let (ds, rest) ← wholeDigits rest
    if decimal ds < Nat.pow 2 63 ∨ minus ∧ decimal ds = Nat.pow 2 63 then some rest else none

/-- A fixed number of digits with a value in a range. -/
def fixed? (count low high : Nat) (s : List Char) : Option (Nat × List Char) :=
  let ds := s.take count
  if ds.length = count ∧ ds.all Char.isDigit ∧ low ≤ decimal ds ∧ decimal ds ≤ high then
    some (decimal ds, s.drop count)
  else none

/-- A given character. -/
def char? (c : Char) : List Char → Option (List Char)
  | other :: rest => if other = c then some rest else none
  | [] => none

/-- The number of days in a month. -/
def daysIn (year month : Nat) : Nat :=
  if month = 2 then
    if year % 4 = 0 ∧ (year % 100 ≠ 0 ∨ year % 400 = 0) then 29 else 28
  else if month = 4 ∨ month = 6 ∨ month = 9 ∨ month = 11 then 30
  else 31

/-- A day. -/
def date? (s : List Char) : Option (List Char) := do
  let (year, rest) ← fixed? 4 0 9999 s
  let rest ← char? '-' rest
  let (month, rest) ← fixed? 2 1 12 rest
  let rest ← char? '-' rest
  let (_, rest) ← fixed? 2 1 (daysIn year month) rest
  some rest

/-- A time of day. -/
def time? (s : List Char) : Option (List Char) := do
  let (_, rest) ← fixed? 2 0 23 s
  let rest ← char? ':' rest
  let (_, rest) ← fixed? 2 0 59 rest
  let rest ← char? ':' rest
  let (_, rest) ← fixed? 2 0 60 rest
  match rest with
  | '.' :: c :: more => if c.isDigit then some (more.dropWhile Char.isDigit) else none
  | rest => some rest

/-- The text after the offset of a time, if there is one. -/
def offset (s : List Char) : Option (List Char) :=
  match s with
  | 'Z' :: rest | 'z' :: rest => some rest
  | c :: rest =>
    if c = '+' ∨ c = '-' then do
      let (_, rest) ← fixed? 2 0 23 rest
      let rest ← char? ':' rest
      let (_, rest) ← fixed? 2 0 59 rest
      some rest
    else some s
  | [] => some []

/-- A day, a time, or both. -/
def moment? (s : List Char) : Option (List Char) :=
  match date? s with
  | some (c :: rest) =>
    if c = 'T' ∨ c = 't' ∨ c = ' ' then
      match time? rest with
      | some rest => offset rest
      | none => some (c :: rest)
    else some (c :: rest)
  | some [] => some []
  | none => time? s

/-- The text after a value that is neither a string nor an array nor a table. -/
def scalar? : List Char → Option (List Char)
  | 't' :: 'r' :: 'u' :: 'e' :: rest => some rest
  | 'f' :: 'a' :: 'l' :: 's' :: 'e' :: rest => some rest
  | s => (moment? s).or ((float? s).or (integer? s))

end ScriptFold.Toml
