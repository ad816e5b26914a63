/-!
# Exact values of floating-point numbers

A finite floating-point number is a sign and the exact value
`significand · 2 ^ exponent`.  The other direction rounds a quotient of natural
numbers to the nearest such value, a tie going to the even significand.
-/

namespace FragmentCompiler

structure Binary64 where
  negative : Bool
  significand : Nat
  exponent : Int
  /-- The next smaller number is nearer than the next larger one. -/
  narrowBelow : Bool
  deriving Repr, DecidableEq, Inhabited

namespace Binary64

/-- The exact value of a finite number; infinities and undefined results have none. -/
def ofFloat? (value : Float) : Option Binary64 :=
  let bits := value.toBits.toNat
  let fraction : Nat := bits % Nat.pow 2 52
  let scale : Nat := bits / Nat.pow 2 52 % Nat.pow 2 11
  let negative : Bool := bits / Nat.pow 2 63 = 1
  if scale = 2047 then none
  else if scale = 0 then some ⟨negative, fraction, -1074, false⟩
  else some ⟨negative, Nat.pow 2 52 + fraction, (scale : Int) - 1075, fraction = 0 && scale > 1⟩

/-- The quotient rounded to the nearest natural number, ties to even. -/
def roundQuotient (numerator denominator : Nat) : Nat :=
  let whole := numerator / denominator
  let twice := 2 * (numerator % denominator)
  if twice > denominator || (twice = denominator && whole % 2 = 1) then whole + 1 else whole

/-- The bits of the nearest number to `numerator / denominator`; a quotient beyond
the largest finite number gives the bits of infinity. -/
def nearestBits (numerator denominator : Nat) : Nat :=
  if numerator = 0 then 0
  else
    let estimate : Int := (numerator.log2 : Int) - denominator.log2 - 52
    let scaled (exponent : Int) : Nat :=
      if exponent < 0 then roundQuotient (numerator * Nat.pow 2 (-exponent).toNat) denominator
      else roundQuotient numerator (denominator * Nat.pow 2 exponent.toNat)
    -- The estimate is exact or one too large.
    let exact : Bool :=
      if estimate < 0 then numerator * Nat.pow 2 (-estimate).toNat ≥ denominator * Nat.pow 2 52
      else numerator ≥ denominator * Nat.pow 2 (estimate.toNat + 52)
    let exponent := max (if exact then estimate else estimate - 1) (-1074)
    let rounded := scaled exponent
    let (significand, exponent) :=
      if rounded = Nat.pow 2 53 then (Nat.pow 2 52, exponent + 1) else (rounded, exponent)
    if exponent > 971 then 2047 * Nat.pow 2 52
    else if significand < Nat.pow 2 52 then significand
    else (exponent + 1075).toNat * Nat.pow 2 52 + (significand - Nat.pow 2 52)

def nearest (negative : Bool) (numerator denominator : Nat) : Float :=
  let bits := nearestBits numerator denominator
  Float.ofBits (if negative then bits + Nat.pow 2 63 else bits).toUInt64

end Binary64

end FragmentCompiler
