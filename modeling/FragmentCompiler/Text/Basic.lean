/-!
# Byte text

Program text, names, messages and output are sequences of bytes.  They are
normally UTF-8, but nothing in the library requires it: a buffer may hold any
bytes and keeps them unchanged.
-/

namespace FragmentCompiler

abbrev Text := List UInt8

namespace Text

def ofString (value : String) : Text := value.toByteArray.data.toList

/-- The string of a text that is UTF-8; of another text, the empty one. -/
def toString (value : Text) : String := (String.fromUTF8? ⟨value.toArray⟩).getD ""

def decimal (value : Nat) : Text :=
  (Nat.toDigits 10 value).map fun digit => digit.toNat.toUInt8

def ofInt : Int → Text
  | .ofNat value => decimal value
  | .negSucc value => 45 :: decimal (value + 1)

def hexByte (byte : UInt8) : Text :=
  let digit (value : Nat) : UInt8 :=
    if value < 10 then (48 + value).toUInt8 else (87 + value).toUInt8
  [digit (byte.toNat / 16), digit (byte.toNat % 16)]

def hex (value : Text) : Text := value.flatMap hexByte

def hexValue (digit : UInt8) : UInt8 := if digit ≤ 57 then digit - 48 else digit - 87

def ofHex : Text → Text
  | high :: low :: rest => (hexValue high * 16 + hexValue low) :: ofHex rest
  | _ => []

/-- Lower-case hexadecimal digits of a number, padded with zeros to `width`. -/
def hexNumber (width value : Nat) : Text :=
  let digits : Text := (Nat.toDigits 16 value).map fun digit => digit.toNat.toUInt8
  List.replicate (width - digits.length) 48 ++ digits

def join (separator : Text) : List Text → Text
  | [] => []
  | [last] => last
  | first :: rest => first ++ separator ++ join separator rest

def times (count : Nat) (value : Text) : Text :=
  (List.replicate count value).flatten

def spaces (count : Nat) : Text := List.replicate count 32

def zeros (count : Nat) : Text := List.replicate count 48

def startsWith (value lead : Text) : Bool := lead.isPrefixOf value

def endsWith (value tail : Text) : Bool := tail.isSuffixOf value

/-- The text without the given beginning, or unchanged when it begins otherwise. -/
def withoutLead (value lead : Text) : Text :=
  if value.startsWith lead then value.drop lead.length else value

def withoutTail (value tail : Text) : Text :=
  if value.endsWith tail then value.take (value.length - tail.length) else value

/-- Splits at the first occurrence of a byte; the byte itself is dropped. -/
def cut (separator : UInt8) (value : Text) : Text × Option Text :=
  match value.dropWhile (· != separator) with
  | [] => (value, none)
  | _ :: rest => (value.takeWhile (· != separator), some rest)

def split (separator : UInt8) : Text → List Text
  | [] => [[]]
  | byte :: rest =>
    if byte = separator then
      [] :: split separator rest
    else
      match split separator rest with
      | [] => [[byte]]
      | first :: others => (byte :: first) :: others

/-- Splits at occurrences of a byte into at most `count` pieces. -/
def splitAtMost (separator : UInt8) : Nat → Text → List Text
  | 0, _ => []
  | 1, value => [value]
  | count + 2, value =>
    match value.cut separator with
    | (whole, none) => [whole]
    | (first, some rest) => first :: splitAtMost separator (count + 1) rest

def containsText (part : Text) : Text → Bool
  | [] => part.isEmpty
  | byte :: rest => part.isPrefixOf (byte :: rest) || containsText part rest

/-- The bytes before the first occurrence of a part; all of them when there is none. -/
def upTo (part : Text) : Text → Text
  | [] => []
  | byte :: rest => if part.isPrefixOf (byte :: rest) then [] else byte :: upTo part rest

def before : Text → Text → Bool
  | [], [] => false
  | [], _ :: _ => true
  | _ :: _, [] => false
  | left :: leftRest, right :: rightRest =>
    if left < right then true
    else if right < left then false
    else before leftRest rightRest

/-- Byte order: negative, zero or positive like `left - right`. -/
def order (left right : Text) : Ordering :=
  if left.before right then .lt else if right.before left then .gt else .eq

def sort (values : List Text) : List Text :=
  values.mergeSort fun left right => !right.before left

def padLeft (width : Nat) (value : Text) : Text :=
  spaces (width - value.length) ++ value

end Text

instance : Coe String Text := ⟨Text.ofString⟩

end FragmentCompiler
