/-!
A number to one decimal place. The binary value is rounded exactly; a half goes to the even
neighbour, and the sign is kept even where nothing else is left.
-/

namespace LocalizationAudit

def powerOfTwo (exponent : Nat) : Nat :=
  1 <<< exponent

def roundHalfEven (numerator denominator : Nat) : Nat :=
  let quotient := numerator / denominator
  let rest := numerator % denominator
  if 2 * rest < denominator then quotient
  else if denominator < 2 * rest then quotient + 1
  else if quotient % 2 == 0 then quotient
  else quotient + 1

/-- Tenths in `mantissa` times two to the power of `exponent - 1075`. -/
def tenthsOf (mantissa exponent : Nat) : Nat :=
  if 1075 ≤ exponent then mantissa * 10 * powerOfTwo (exponent - 1075)
  else roundHalfEven (mantissa * 10) (powerOfTwo (1075 - exponent))

def tenthsText (negative : Bool) (exponent fraction : Nat) : String :=
  let sign := if negative then "-" else ""
  if exponent == 2047 then
    if fraction == 0 then sign ++ "inf" else "nan"
  else
    let tenths :=
      if exponent == 0 then tenthsOf fraction 1 else tenthsOf (fraction + powerOfTwo 52) exponent
    sign ++ toString (tenths / 10) ++ "." ++ toString (tenths % 10)

def tenths (value : Float) : String :=
  let bits := value.toBits.toNat
  tenthsText (powerOfTwo 63 ≤ bits) (bits / powerOfTwo 52 % powerOfTwo 11) (bits % powerOfTwo 52)

end LocalizationAudit
