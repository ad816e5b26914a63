import FragmentCompiler.Number.Decimal
import FragmentCompiler.Toml.Quoted

/-!
# Numbers, truth values and dates of a TOML document

These values have no delimiters: a value is the longest run of the bytes that can
belong to one.
-/

namespace FragmentCompiler.Toml

open FragmentCompiler

inductive Scalar where
  | boolean (value : Bool)
  | integer (value : Int)
  | float (value : Float)
  | moment (written : Text)
  deriving Repr, Inhabited

def isAlphanumeric (byte : UInt8) : Bool :=
  (48 ≤ byte && byte ≤ 57) || (65 ≤ byte && byte ≤ 90) || (97 ≤ byte && byte ≤ 122)

def isScalarByte (byte : UInt8) : Bool :=
  isAlphanumeric byte || ("+-._:" : Text).contains byte

/-- Whether every underscore stands between digits of any base, given whether a
digit stands before the text. -/
def underscoresFit (afterDigit : Bool) : Text → Bool
  | [] => afterDigit
  | byte :: rest =>
    if byte = 95 && !afterDigit then false
    else underscoresFit (hexDigit? byte).isSome rest

/-- The digits of a base with underscores left out; none if there are no digits or
one is too large. -/
def digits? (base : Nat) (text : Text) : Option Nat :=
  let kept := text.filter (· != 95)
  if kept.isEmpty || !underscoresFit false text then none
  else kept.foldl (fun value byte => value.bind fun value =>
    (hexDigit? byte).bind fun digit =>
      if digit < base then some (value * base + digit) else none) (some 0)

def withoutSign : Text → Bool × Text
  | 45 :: rest => (true, rest)
  | 43 :: rest => (false, rest)
  | text => (false, text)

def hasLeadingZero (digits : Text) : Bool :=
  match digits with
  | 48 :: _ :: _ => true
  | _ => false

def integer? (text : Text) : Option Int :=
  let magnitude : Option Nat := match text with
    | 48 :: 120 :: rest => digits? 16 rest
    | 48 :: 111 :: rest => digits? 8 rest
    | 48 :: 98 :: rest => digits? 2 rest
    | _ =>
      let digits := (withoutSign text).2
      if hasLeadingZero digits then none else digits? 10 digits
  magnitude.bind fun magnitude =>
    let value : Int := if (withoutSign text).1 then -magnitude else magnitude
    if -9223372036854775808 ≤ value && value ≤ 9223372036854775807 then some value else none

def pointsFit : Text → Bool
  | [] => true
  | [byte] => byte != 46
  | byte :: next :: rest =>
    (byte != 46 || Decimal.isDigit next) && pointsFit (next :: rest)

def float? (text : Text) : Option Float :=
  let word := (withoutSign text).2
  if word = "inf" then Decimal.read text
  else if word = "nan" then Decimal.read word
  else
    let isMark (byte : UInt8) : Bool := byte == 46 || byte == 101 || byte == 69
    let whole := word.takeWhile (!isMark ·)
    let parts := (text.splitBy fun left right => isMark left == isMark right).filter
      fun part => !part.all isMark
    if !text.any isMark || hasLeadingZero whole || !pointsFit text ||
        !word.all (fun byte => Decimal.isDigit byte || isMark byte ||
          ("+-_" : Text).contains byte) ||
        parts.any (!underscoresFit false ·) then none
    else (Decimal.read (text.filter (· != 95))).bind fun value =>
      if value.isFinite then some value else none

def fixedDigits? (text : Text) (count most : Nat) : Option Nat :=
  if text.length = count && text.all Decimal.isDigit then
    (digits? 10 text).bind fun value => if value ≤ most then some value else none
  else none

def daysIn (year month : Nat) : Nat :=
  if month = 2 then
    if year % 4 = 0 && (year % 100 != 0 || year % 400 = 0) then 29 else 28
  else if [4, 6, 9, 11].contains month then 30
  else 31

def isDate (text : Text) : Bool :=
  match text.split 45 with
  | [year, month, day] =>
    match fixedDigits? year 4 9999, fixedDigits? month 2 12, fixedDigits? day 2 31 with
    | some year, some month, some day => 0 < month && 0 < day && day ≤ daysIn year month
    | _, _, _ => false
  | _ => false

def isTime (text : Text) : Bool :=
  match text.split 58 with
  | [hour, minute, second] =>
    let (whole, fraction) := second.cut 46
    ((fixedDigits? hour 2 23).or (fixedDigits? hour 1 9)).isSome &&
      (fixedDigits? minute 2 59).isSome && (fixedDigits? whole 2 59).isSome &&
      fraction.all fun digits => !digits.isEmpty && digits.all Decimal.isDigit
  | _ => false

def isZoneOffset (text : Text) : Bool :=
  match text.split 58 with
  | [hours, minutes] => (fixedDigits? hours 2 24).isSome && (fixedDigits? minutes 2 60).isSome
  | _ => false

def isZonedTime (text : Text) : Bool :=
  let isZone (byte : UInt8) : Bool := ("Zz+-" : Text).contains byte
  let time := text.takeWhile (!isZone ·)
  let zone := text.dropWhile (!isZone ·)
  isTime time && match zone with
    | [] => true
    | mark :: offset => if mark = 43 || mark = 45 then isZoneOffset offset else offset.isEmpty

def isMoment (text : Text) : Bool :=
  isDate text || isTime text ||
    (isDate (text.take 10) && ("Tt " : Text).contains (text.getD 10 0) &&
      isZonedTime (text.drop 11))

def Scalar.ofText? (text : Text) : Option Scalar :=
  if text = "true" then some (.boolean true)
  else if text = "false" then some (.boolean false)
  else ((integer? text).map .integer).or <|
    ((float? text).map .float).or (if isMoment text then some (.moment text) else none)

/-- A value without delimiters and the text after it.  A date may have its time
after a space. -/
def scalar? (text : Text) : Option (Scalar × Text) :=
  let run := text.takeWhile isScalarByte
  let rest := text.dropWhile isScalarByte
  let (run, rest) : Text × Text := match rest with
    | 32 :: next :: after =>
      if isDate run && Decimal.isDigit next then
        (run ++ [32] ++ (next :: after).takeWhile isScalarByte,
          (next :: after).dropWhile isScalarByte)
      else (run, rest)
    | _ => (run, rest)
  (Scalar.ofText? run).map (·, rest)

end FragmentCompiler.Toml
