/-!
Numbers to the base 16, in lower-case digits.
-/

namespace PhpAudit

def hexDigit (value : Nat) : Char :=
  if value < 10 then Char.ofNat (0x30 + value) else Char.ofNat (0x61 + (value - 10))

/-- The last `width` digits of a number. -/
def hexDigits : Nat → Nat → List Char
  | 0, _ => []
  | width + 1, value => hexDigits width (value / 16) ++ [hexDigit (value % 16)]

end PhpAudit
