import ScriptFold.Decimal.Shortest

/-!
# Numbers in JSON

A number without fraction and exponent that fits 64 bits, with or without sign, is an integer;
any other is a double. The digits of a double are gathered into 64 bits while they fit and the
rest only counted, and the result is scaled by one power of ten at a time.
-/

namespace ScriptFold.Json

/-- A number: an integer of 64 bits or a double, given by its bits. -/
inductive Number
  | integer (value : Int)
  | double (bits : UInt64)
deriving DecidableEq, Repr

/-- The parts of a number as it is written; digits are values below ten. -/
structure Numeral where
  negative : Bool
  whole : List Nat
  fraction : Option (List Nat)
  /-- The sign of the exponent, true for minus, and its digits. -/
  exponent : Option (Bool × List Nat)
deriving DecidableEq, Repr

namespace Numeral

/-- Takes up digits while the number stays below `2 ^ 64`, and counts the digits left. -/
def gather : Nat → List Nat → Nat × Nat
  | n, [] => (n, 0)
  | n, d :: ds => if n * 10 + d < Nat.pow 2 64 then gather (n * 10 + d) ds else (n, ds.length + 1)

/-- The number that digits denote. -/
def ofDigits (ds : List Nat) : Nat :=
  ds.foldl (fun n d => n * 10 + d) 0

/-- `significand * 10 ^ exponent` as a double, unless it is too large. -/
def scale (significand : Float) (exponent : Int) : Option Float :=
  if 308 < exponent then
    if significand == 0.0 then some significand else none
  else if exponent < -308 then
    if significand == 0.0 then some significand else scale (significand / 1e308) (exponent + 308)
  else if 0 ≤ exponent then
    let scaled := significand * Float.ofScientific 1 false exponent.toNat
    if scaled.isInf then none else some scaled
  else some (significand / Float.ofScientific 1 false (-exponent).toNat)
termination_by exponent.natAbs

/-- The bits of a double given by its size and sign. -/
def signed (negative : Bool) (size : Float) : Number :=
  .double (if negative then -size else size).toBits

/-- The double that the parts denote, unless it is too large: the significand and the power of
ten gathered so far, then the written exponent. -/
def toDouble (n : Numeral) (significand : Nat) (power : Int) : Option Number :=
  let sized := fun power => (scale significand.toUInt64.toFloat power).map (signed n.negative)
  match n.exponent with
  | none => sized power
  | some (minus, ds) =>
    let e := ofDigits ds
    if Nat.pow 2 31 ≤ e then
      if significand = 0 ∨ minus then some (signed n.negative 0.0) else none
    else sized (if minus then power - e else power + e)

/-- The number a numeral denotes, unless it is too large for a double. -/
def value? (n : Numeral) : Option Number :=
  let (significand, surplus) := gather 0 n.whole
  match n.fraction with
  | some ds =>
    let (significand, dropped) := gather significand ds
    n.toDouble significand ((surplus : Int) - (ds.length - dropped : Nat))
  | none =>
    if surplus = 0 ∧ n.exponent.isNone then
      if !n.negative then some (.integer significand)
      else if significand = 0 ∨ Nat.pow 2 63 < significand then
        some (signed true significand.toUInt64.toFloat)
      else some (.integer (-significand))
    else n.toDouble significand surplus

end Numeral

namespace Number

/-- A decimal as JSON writes it: in plain notation with a fraction from `1e-5` up to `1e16`, else
with a signed exponent. -/
def scaledText (d : Decimal.Scaled) : List Char :=
  let all := Nat.toDigits 10 d.digits
  let kept := (all.reverse.dropWhile (· == '0')).reverse
  let point : Int := d.exponent + all.length
  if -5 < point ∧ point ≤ 16 then
    if point ≤ 0 then '0' :: '.' :: List.replicate (-point).toNat '0' ++ kept
    else if (kept.length : Int) ≤ point then
      kept ++ List.replicate (point.toNat - kept.length) '0' ++ ['.', '0']
    else kept.take point.toNat ++ '.' :: kept.drop point.toNat
  else
    let mantissa :=
      match kept with
      | lead :: more@(_ :: _) => lead :: '.' :: more
      | digits => digits
    let e := point - 1
    mantissa ++ 'e' :: (if e < 0 then '-' else '+') :: Nat.toDigits 10 e.natAbs

/-- The text of a number. -/
def chars : Number → List Char
  | .integer (.ofNat n) => Nat.toDigits 10 n
  | .integer (.negSucc n) => '-' :: Nat.toDigits 10 (n + 1)
  | .double bits =>
    (if Decimal.isNegative bits then ['-'] else []) ++
      if bits.toNat % Nat.pow 2 63 = 0 then ['0', '.', '0'] else scaledText (Decimal.shortest bits)

/-- The text of a number. -/
def text (n : Number) : String :=
  String.ofList n.chars

end Number

end ScriptFold.Json
