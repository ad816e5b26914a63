import FragmentCompiler.Text.Basic
import FragmentCompiler.Number.Binary64

/-!
# Decimal text of floating-point numbers

Writing finds the fewest significant digits that read back as the same number
and, among those, the nearest to it.  Reading rounds the exact decimal value to
the nearest number.
-/

namespace FragmentCompiler

namespace Decimal

/-- Significant digits without trailing zeros; the value is the digits read as a
fraction `0.d₁d₂…` times ten to the power `point`. -/
structure Digits where
  digits : List Nat
  point : Int
  deriving Repr, DecidableEq, Inhabited

def digitsOf (value : Nat) : List Nat :=
  (Nat.toDigits 10 value).map fun digit => digit.toNat - 48

/-- The digits of `value · 10 ^ exponent`, trailing zeros dropped. -/
def Digits.ofScaled (value : Nat) (exponent : Int) : Digits :=
  let digits := digitsOf value
  { digits := (digits.reverse.dropWhile (· == 0)).reverse
    point := digits.length + exponent }

structure Neighbourhood where
  value : Nat
  low : Nat
  high : Nat
  denominator : Nat
  /-- The ends belong to the interval. -/
  closed : Bool

/-- The interval around a nonzero number: halfway to its neighbours. -/
def Neighbourhood.ofBinary (number : Binary64) : Neighbourhood :=
  let scale := if number.exponent < 2 then 1 else Nat.pow 2 (number.exponent - 2).toNat
  let denominator := if number.exponent < 2 then Nat.pow 2 (2 - number.exponent).toNat else 1
  { value := 4 * number.significand * scale
    low := (4 * number.significand - (if number.narrowBelow then 1 else 2)) * scale
    high := (4 * number.significand + 2) * scale
    denominator := denominator
    closed := number.significand % 2 = 0 }

/-- Whether `numerator / denominator`, over the interval's denominator, reads back. -/
def Neighbourhood.holds (interval : Neighbourhood) (numerator denominator : Nat) : Bool :=
  let candidate := numerator * interval.denominator
  let low := interval.low * denominator
  let high := interval.high * denominator
  if interval.closed then low ≤ candidate && candidate ≤ high
  else low < candidate && candidate < high

def Neighbourhood.magnitude (interval : Neighbourhood) : Int :=
  let estimate : Int :=
    (digitsOf interval.value).length - (digitsOf interval.denominator).length
  let reached : Bool :=
    if estimate < 0 then
      interval.value * Nat.pow 10 (-estimate).toNat ≥ interval.denominator
    else interval.value ≥ interval.denominator * Nat.pow 10 estimate.toNat
  if reached then estimate else estimate - 1

/-- The nearest value with `count` digits that reads back, if there is one.  If any
point of the decimal grid reads back then one of the two next to the value does. -/
def Neighbourhood.withDigits (interval : Neighbourhood) (magnitude : Int) (count : Nat) :
    Option Digits :=
  let unit : Int := magnitude - count + 1
  let up := if unit < 0 then 1 else Nat.pow 10 unit.toNat
  let down := if unit < 0 then Nat.pow 10 (-unit).toNat else 1
  let below := interval.value * down / (interval.denominator * up)
  let above := below + 1
  let gapBelow := interval.value * down - below * (interval.denominator * up)
  let gapAbove := above * (interval.denominator * up) - interval.value * down
  let belowHolds := below ≠ 0 && interval.holds (below * up) down
  let aboveHolds := interval.holds (above * up) down
  if belowHolds && (!aboveHolds || gapBelow < gapAbove ||
      (gapBelow = gapAbove && below % 2 = 0)) then
    some (Digits.ofScaled below unit)
  else if aboveHolds then some (Digits.ofScaled above unit)
  else none

/-- Tries `count`, `count + 1`, … digits for at most `tries` lengths. -/
def Neighbourhood.shortestFrom (interval : Neighbourhood) (magnitude : Int) :
    Nat → Nat → Digits
  | 0, _ => ⟨[0], 1⟩
  | tries + 1, count =>
    match interval.withDigits magnitude count with
    | some digits => digits
    | none => interval.shortestFrom magnitude tries (count + 1)

/-- The fewest digits that read back as the number; seventeen always suffice. -/
def shortest (number : Binary64) : Digits :=
  if number.significand = 0 then ⟨[0], 1⟩
  else
    let interval := Neighbourhood.ofBinary number
    interval.shortestFrom interval.magnitude 17 1

def digitText (digits : List Nat) : Text := digits.map fun digit => (48 + digit).toUInt8

/-- Which decimal exponents are written positionally. -/
structure Range where
  least : Int
  most : Int

/-- Numbers from `0.0001` up to `999999` are written positionally. -/
def general : Range := ⟨-4, 5⟩

/-- Scientific notation: one digit before the point, a signed exponent of at least
two digits. -/
def scientific (value : Digits) : Text :=
  let exponent := value.point - 1
  let mantissa : Text :=
    match value.digits with
    | [] => "0"
    | [digit] => digitText [digit]
    | first :: rest => digitText [first] ++ "." ++ digitText rest
  let magnitude := Text.decimal exponent.natAbs
  mantissa ++ (if exponent < 0 then "e-" else "e+") ++
    (if magnitude.length < 2 then "0" ++ magnitude else magnitude)

def positional (value : Digits) : Text :=
  if value.point ≤ 0 then
    "0." ++ Text.zeros value.point.natAbs ++ digitText value.digits
  else
    let whole := value.point.toNat
    let integer := digitText (value.digits.take whole) ++
      Text.zeros (whole - value.digits.length)
    match value.digits.drop whole with
    | [] => integer
    | rest => integer ++ "." ++ digitText rest

def render (value : Float) : Text :=
  match Binary64.ofFloat? value with
  | none => if value.isNaN then "NaN" else if value < 0 then "-Inf" else "+Inf"
  | some number =>
    let digits := shortest number
    let exponent := digits.point - 1
    let body :=
      if exponent < general.least || general.most < exponent then scientific digits
      else positional digits
    if number.negative then "-" ++ body else body

def fixed (places : Nat) (value : Float) : Text :=
  match Binary64.ofFloat? value with
  | none => render value
  | some number =>
    let scaled :=
      if number.exponent < 0 then
        Binary64.roundQuotient (number.significand * Nat.pow 10 places)
          (Nat.pow 2 (-number.exponent).toNat)
      else number.significand * Nat.pow 2 number.exponent.toNat * Nat.pow 10 places
    let digits := digitText (digitsOf scaled)
    let padded := Text.zeros (places + 1 - digits.length) ++ digits
    let fraction : Text :=
      if places = 0 then [] else "." ++ padded.drop (padded.length - places)
    let body := padded.take (padded.length - places) ++ fraction
    if number.negative then "-" ++ body else body

/-! ## Reading -/

def isDigit (byte : UInt8) : Bool := 48 ≤ byte && byte ≤ 57

def valueInBase (base : Nat) (digits : List Nat) : Nat :=
  digits.foldl (fun total digit => total * base + digit) 0

/-- The number nearest to `significand · 10 ^ exponent`.  A magnitude far outside
the representable range is decided without computing the power. -/
def ofScientific (negative : Bool) (significand : Nat) (exponent : Int) : Float :=
  let magnitude := (digitsOf significand).length + exponent
  if significand = 0 then Binary64.nearest negative 0 1
  else if magnitude > 400 then Binary64.nearest negative (Nat.pow 10 400) 1
  else if magnitude < -400 then Binary64.nearest negative 0 1
  else if exponent < 0 then Binary64.nearest negative significand (Nat.pow 10 (-exponent).toNat)
  else Binary64.nearest negative (significand * Nat.pow 10 exponent.toNat) 1

/-- The exponent part of a decimal text: a sign and digits after `e`. -/
def readExponent : Text → Option Int
  | [] => some 0
  | mark :: rest =>
    if mark = 101 || mark = 69 then
      let (negative, digits) : Bool × Text :=
        match rest with
        | 43 :: digits => (false, digits)
        | 45 :: digits => (true, digits)
        | digits => (false, digits)
      if digits.isEmpty || !digits.all isDigit then none
      else
        let value : Int := valueInBase 10 (digits.map fun digit => digit.toNat - 48)
        some (if negative then -value else value)
    else none

/-- Reads an unsigned decimal number: digits, an optional fraction, an optional
exponent. -/
def readUnsigned (negative : Bool) (value : Text) : Option Float :=
  let whole := value.takeWhile isDigit
  let afterWhole := value.dropWhile isDigit
  let (fraction, afterFraction) : Text × Text :=
    match afterWhole with
    | 46 :: rest => (rest.takeWhile isDigit, rest.dropWhile isDigit)
    | rest => ([], rest)
  if whole.isEmpty && fraction.isEmpty then none
  else
    (readExponent afterFraction).map fun exponent =>
      let digits := (whole ++ fraction).map fun digit => digit.toNat - 48
      ofScientific negative (valueInBase 10 digits) (exponent - fraction.length)

/-- Reads a decimal number with an optional sign, or the name of an infinity or of
an undefined result. -/
def read (value : Text) : Option Float :=
  let (negative, rest) : Bool × Text :=
    match value with
    | 43 :: rest => (false, rest)
    | 45 :: rest => (true, rest)
    | rest => (false, rest)
  let word : Text := rest.map fun byte => if 65 ≤ byte && byte ≤ 90 then byte + 32 else byte
  if word = "inf" || word = "infinity" then
    some (Float.ofBits (if negative then 0xFFF0000000000000 else 0x7FF0000000000000))
  else if word = "nan" && rest.length = value.length then
    some (Float.ofBits 0x7FF8000000000001)
  else readUnsigned negative rest

end Decimal

end FragmentCompiler
