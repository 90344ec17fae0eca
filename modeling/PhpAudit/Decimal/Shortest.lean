/-!
The shortest decimal of a binary float: of all decimals that round to the float, one with the
fewest digits, and of those the nearest. It is found by trying one digit, two digits and so on,
with exact arithmetic on natural numbers.
-/

namespace PhpAudit

/-- A finite float without its sign: `mantissa * 2 ^ exponent`. -/
structure Binary where
  mantissa : Nat
  exponent : Int
  /-- The gap to the float below is half the gap to the float above. -/
  narrowBelow : Bool
deriving DecidableEq

namespace Binary

/-- Reads the bits of a float that is neither infinite nor undefined. -/
def ofBits (bits : UInt64) : Binary :=
  let exponent := ((bits >>> 52) &&& 0x7FF).toNat
  let fraction := (bits &&& 0xFFFFFFFFFFFFF).toNat
  if exponent == 0 then ⟨fraction, -1074, false⟩
  else ⟨Nat.pow 2 52 + fraction, (exponent : Int) - 1075, fraction == 0 && exponent > 1⟩

end Binary

/-- The value `digits * 10 ^ exponent`. -/
structure Decimal where
  digits : Nat
  exponent : Int
deriving DecidableEq

namespace Decimal

/-- Compares `a * 10 ^ i` with `n * 2 ^ j`. -/
def compareScaled (a : Nat) (i : Int) (n : Nat) (j : Int) : Ordering :=
  compare (a * Nat.pow 10 i.toNat * Nat.pow 2 (-j).toNat)
    (n * Nat.pow 2 j.toNat * Nat.pow 10 (-i).toNat)

/-- Whether the decimal lies among the reals that round to the float. The ends of that interval
belong to it when the mantissa is even. -/
def roundsTo (decimal : Decimal) (float : Binary) : Bool :=
  let low := if float.narrowBelow then 4 * float.mantissa - 1 else 4 * float.mantissa - 2
  let high := 4 * float.mantissa + 2
  let closed := float.mantissa % 2 == 0
  let fromLow := compareScaled decimal.digits decimal.exponent low (float.exponent - 2)
  let fromHigh := compareScaled decimal.digits decimal.exponent high (float.exponent - 2)
  (fromLow == .gt || (closed && fromLow == .eq)) && (fromHigh == .lt || (closed && fromHigh == .eq))

/-- The least power of ten above the float. -/
def scale (float : Binary) : Int :=
  let estimate := (((Nat.log2 float.mantissa : Nat) : Int) + float.exponent) * 30103 / 100000
  let above (power : Int) : Bool := compareScaled 1 power float.mantissa float.exponent == .gt
  ([estimate - 1, estimate, estimate + 1].find? above).getD (estimate + 2)

/-- The nearer of the float's neighbours with the given last place, if it rounds to the float; a
tie goes to the even one. -/
def onGrid (float : Binary) (place : Int) : Option Decimal :=
  let numerator := float.mantissa * Nat.pow 2 float.exponent.toNat * Nat.pow 10 (-place).toNat
  let denominator := Nat.pow 2 (-float.exponent).toNat * Nat.pow 10 place.toNat
  let below : Decimal := ⟨numerator / denominator, place⟩
  let above : Decimal := ⟨numerator / denominator + 1, place⟩
  match below.roundsTo float, above.roundsTo float with
  | false, false => none
  | true, false => some below
  | false, true => some above
  | true, true =>
      match compare (2 * numerator) ((below.digits + above.digits) * denominator) with
      | .lt => some below
      | .gt => some above
      | .eq => some (if below.digits % 2 == 0 then below else above)

/-- Moves the zeros at the end of the digits into the exponent. -/
def stripped : Nat → Decimal → Decimal
  | 0, decimal => decimal
  | count + 1, decimal =>
      if decimal.digits % 10 == 0 && decimal.digits != 0 then
        stripped count ⟨decimal.digits / 10, decimal.exponent + 1⟩
      else decimal

/-- The shortest decimal of a float other than zero; seventeen digits are always enough. -/
def shortest (float : Binary) : Decimal :=
  let top := scale float
  let found := (List.range 17).findSome? fun count => onGrid float (top - (count + 1 : Nat))
  stripped 20 (found.getD ⟨0, 0⟩)

/-- Rounds a quotient to the nearest natural number, a half to the even one. -/
def roundQuotient (numerator denominator : Nat) : Nat :=
  let quotient := numerator / denominator
  match compare (2 * (numerator % denominator)) denominator with
  | .lt => quotient
  | .gt => quotient + 1
  | .eq => if quotient % 2 == 0 then quotient else quotient + 1

/-- The float in units of the given number of decimal places. -/
def rounded (float : Binary) (places : Nat) : Nat :=
  roundQuotient (float.mantissa * Nat.pow 2 float.exponent.toNat * Nat.pow 10 places)
    (Nat.pow 2 (-float.exponent).toNat)

end Decimal

end PhpAudit
