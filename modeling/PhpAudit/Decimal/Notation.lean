import PhpAudit.Decimal.Shortest

/-!
How numbers are written: floats with the fewest digits that identify them, or with a fixed
number of places.
-/

namespace PhpAudit

namespace Decimal

def zeros (count : Nat) : String := String.ofList (List.replicate count '0')

/-- A decimal is written positionally when its leading digit stands for a power of ten from
-4 to 15, and otherwise with a signed exponent of at least two digits. -/
def layout (decimal : Decimal) : String :=
  let digits := toString decimal.digits
  let lead := decimal.exponent + (digits.length : Int) - 1
  if -4 ≤ lead && lead < 16 then
    if 0 ≤ decimal.exponent then digits ++ zeros decimal.exponent.toNat ++ ".0"
    else if 0 ≤ lead then
      let whole := (lead + 1).toNat
      String.ofList (digits.toList.take whole) ++ "." ++ String.ofList (digits.toList.drop whole)
    else "0." ++ zeros (-lead - 1).toNat ++ digits
  else
    let tail := String.ofList (digits.toList.drop 1)
    let power := toString lead.natAbs
    String.ofList (digits.toList.take 1) ++ (if tail.isEmpty then "" else "." ++ tail) ++ "e" ++
      (if lead < 0 then "-" else "+") ++ (if power.length < 2 then "0" ++ power else power)

end Decimal

/-- The texts of the values that no decimal has. -/
structure SpecialNumbers where
  undefined : String
  infinite : String

namespace SpecialNumbers

def plain : SpecialNumbers := ⟨"nan", "inf"⟩

def json : SpecialNumbers := ⟨"NaN", "Infinity"⟩

end SpecialNumbers

def isNegative (float : Float) : Bool := float.toBits >>> 63 == 1

/-- Writes the sign and the special values, and hands the rest to a writer of magnitudes. -/
def writeFloat (special : SpecialNumbers) (magnitude : Binary → String) (float : Float) : String :=
  if float.isNaN then special.undefined
  else
    let text := if float.isInf then special.infinite else magnitude (Binary.ofBits float.toBits)
    if isNegative float then "-" ++ text else text

/-- A float with the fewest digits that identify it. -/
def shortestText (special : SpecialNumbers) (float : Float) : String :=
  writeFloat special
    (fun binary => if binary.mantissa == 0 then "0.0" else (Decimal.shortest binary).layout) float

/-- A magnitude in hundredths, with two places after the point. -/
def hundredthsText (amount : Nat) : String :=
  let cents := toString (amount % 100)
  toString (amount / 100) ++ "." ++ (if cents.length < 2 then "0" ++ cents else cents)

/-- A float with two places, a half rounded to the even neighbour. -/
def twoPlacesText (float : Float) : String :=
  writeFloat .plain (fun binary => hundredthsText (Decimal.rounded binary 2)) float

end PhpAudit
