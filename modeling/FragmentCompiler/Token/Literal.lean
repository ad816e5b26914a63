import FragmentCompiler.Number.Decimal
import FragmentCompiler.Token.Basic

/-!
# Values of literals

What the text of a literal token means.
-/

namespace FragmentCompiler.Literal

open FragmentCompiler

/-- The bytes an escaped body stands for.  An unknown escape and a lone backslash
at the end stand for themselves. -/
def unescape : Text → Text
  | [] => []
  | 92 :: byte :: rest =>
    if byte == 110 then 10 :: unescape rest
    else if byte == 116 then 9 :: unescape rest
    else if byte == 114 then 13 :: unescape rest
    else if byte == 34 || byte == 92 then byte :: unescape rest
    else 92 :: byte :: unescape rest
  | byte :: rest => byte :: unescape rest

/-- The text between surrounding quotes; a text without them is left alone. -/
def body (literal : Text) : Text :=
  if 2 ≤ literal.length && literal.head? == some 34 && literal.getLast? == some 34 then
    (literal.drop 1).dropLast
  else literal

def unquote (literal : Text) : Text := unescape (body literal)

def largestInteger : Nat := 9223372036854775807

def digitValue (byte : UInt8) : Nat :=
  if 48 ≤ byte && byte ≤ 57 then byte.toNat - 48
  else if 97 ≤ byte && byte ≤ 102 then byte.toNat - 87
  else byte.toNat - 55

def baseAndDigits (literal : Text) : Nat × Text :=
  match literal.filter (· != 95) with
  | 48 :: mark :: digits =>
    if mark == 120 || mark == 88 then (16, digits)
    else if mark == 98 || mark == 66 then (2, digits)
    else (10, 48 :: mark :: digits)
  | digits => (10, digits)

/-- The value of an integer literal; none when it is too large. -/
def integer? (literal : Text) : Option Nat :=
  let (base, digits) := baseAndDigits literal
  let value := Decimal.valueInBase base (digits.map digitValue)
  if value ≤ largestInteger then some value else none

/-- The value of a floating-point literal; none when it is too large. -/
def float? (literal : Text) : Option Float :=
  match Decimal.readUnsigned false (literal.filter (· != 95)) with
  | some value => if value.isInf then none else some value
  | none => none

end FragmentCompiler.Literal
