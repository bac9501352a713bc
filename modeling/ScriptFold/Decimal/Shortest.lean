/-!
# The shortest decimal of a double

A finite double is a whole number times a power of two, and every real that is nearer to it than
to its neighbours reads back as it. Of the decimals in that interval the shortest is chosen, and
among those the nearest. All comparisons are between whole numbers.
-/

namespace ScriptFold.Decimal

/-- A finite double without its sign: `mantissa * 2 ^ exponent`. -/
structure Binary where
  mantissa : Nat
  exponent : Int
  /-- The double below is only half as far away as the one above. -/
  narrow : Bool
deriving DecidableEq

/-- A decimal: `digits * 10 ^ exponent`. -/
structure Scaled where
  digits : Nat
  exponent : Int
deriving DecidableEq

/-- The sign of a double is minus. -/
def isNegative (bits : UInt64) : Bool :=
  decide (Nat.pow 2 63 ≤ bits.toNat)

/-- The parts of a finite double. -/
def Binary.ofBits (bits : UInt64) : Binary :=
  let field : Nat := bits.toNat / Nat.pow 2 52 % Nat.pow 2 11
  let fraction : Nat := bits.toNat % Nat.pow 2 52
  if field = 0 then ⟨fraction, -1074, false⟩
  else ⟨fraction + Nat.pow 2 52, (field : Int) - 1075, decide (fraction = 0 ∧ 1 < field)⟩

/-- `base ^ e` as a fraction. -/
def power (base : Nat) (e : Int) : Nat × Nat :=
  if 0 ≤ e then (base.pow e.toNat, 1) else (1, base.pow (-e).toNat)

/-- `a * 10 ^ p` compared with `b * 2 ^ q`. -/
def compareScaled (a : Nat) (p : Int) (b : Nat) (q : Int) : Ordering :=
  let ten := power 10 p
  let two := power 2 q
  compare (a * ten.1 * two.2) (b * two.1 * ten.2)

/-- The whole part of `b * 2 ^ q / 10 ^ p`. -/
def floorScaled (b : Nat) (q : Int) (p : Int) : Nat :=
  let ten := power 10 p
  let two := power 2 q
  b * two.1 * ten.2 / (two.2 * ten.1)

/-- The decimal reads back as the double: it is nearer to it than to its neighbours, or halfway
and the double is even. -/
def Binary.admits (v : Binary) (d : Scaled) : Bool :=
  let low := compareScaled d.digits d.exponent
    (4 * v.mantissa - if v.narrow then 1 else 2) (v.exponent - 2)
  let high := compareScaled d.digits d.exponent (4 * v.mantissa + 2) (v.exponent - 2)
  let even := v.mantissa % 2 == 0
  (low == .gt || even && low == .eq) && (high == .lt || even && high == .eq)

/-- The position of the leading decimal digit: the largest `p` with `10 ^ p` not above the
double. -/
def Binary.leading (v : Binary) : Int :=
  let two := power 2 v.exponent
  let whole := v.mantissa * two.1 / two.2
  if 0 < whole then ((Nat.toDigits 10 whole).length : Int) - 1
  else
    let guess := -((Nat.toDigits 10 (two.2 / (v.mantissa * two.1))).length : Int)
    if compareScaled 1 (guess + 1) v.mantissa v.exponent == .gt then guess else guess + 1

/-- The admitted decimal on a grid that is nearest to the double. -/
def Binary.onGrid? (v : Binary) (p : Int) : Option Scaled :=
  let below : Scaled := ⟨floorScaled v.mantissa v.exponent p, p⟩
  let above : Scaled := ⟨below.digits + 1, p⟩
  match v.admits below, v.admits above with
  | false, false => none
  | true, false => some below
  | false, true => some above
  | true, true =>
    match compareScaled (below.digits + above.digits) p (2 * v.mantissa) v.exponent with
    | .gt => some below
    | .lt => some above
    | .eq => some (if below.digits % 2 = 0 then below else above)

/-- The admitted decimal on the coarsest of the grids that has one, the finest being taken
unasked. -/
def Binary.search (v : Binary) : Nat → Int → Scaled
  | 0, p => (v.onGrid? p).getD ⟨floorScaled v.mantissa v.exponent p, p⟩
  | finer + 1, p => (v.onGrid? p).getD (v.search finer (p - 1))

/-- The shortest decimal that reads back as a finite double other than zero. -/
def shortest (bits : UInt64) : Scaled :=
  let v := Binary.ofBits bits
  v.search 16 v.leading

end ScriptFold.Decimal
