import FragmentCompiler.Text.JsonText

/-!
# Recognizing JSON text

Decides whether a text is one JSON value.  Bytes of a string other than control
characters are taken as they are.
-/

namespace FragmentCompiler.JsonScan

open FragmentCompiler

def isBlank (byte : UInt8) : Bool := byte == 32 || byte == 9 || byte == 10 || byte == 13

def skip (text : Text) : Text := text.dropWhile isBlank

def isDigit (byte : UInt8) : Bool := 48 ≤ byte && byte ≤ 57

def isHexDigit (byte : UInt8) : Bool :=
  isDigit byte || (97 ≤ byte && byte ≤ 102) || (65 ≤ byte && byte ≤ 70)

def afterString : Text → Option Text
  | [] => none
  | 34 :: rest => some rest
  | 92 :: 117 :: first :: second :: third :: fourth :: rest =>
    if isHexDigit first && isHexDigit second && isHexDigit third && isHexDigit fourth then
      afterString rest
    else none
  | 92 :: byte :: rest =>
    if ("\"\\/bfnrt" : Text).contains byte then afterString rest else none
  | byte :: rest => if byte < 32 then none else afterString rest

def afterDigits : Text → Option Text
  | [] => none
  | byte :: rest => if isDigit byte then some (rest.dropWhile isDigit) else none

def afterExponent : Text → Option Text
  | [] => some []
  | mark :: rest =>
    if mark == 101 || mark == 69 then
      match rest with
      | sign :: digits =>
        if sign == 43 || sign == 45 then afterDigits digits else afterDigits rest
      | [] => none
    else some (mark :: rest)

def afterFraction : Text → Option Text
  | 46 :: rest => (afterDigits rest).bind afterExponent
  | rest => afterExponent rest

def afterNumber (text : Text) : Option Text :=
  let unsigned := if text.head? = some 45 then text.drop 1 else text
  match unsigned with
  | 48 :: rest => afterFraction rest
  | _ => (afterDigits unsigned).bind afterFraction

def afterWord (word text : Text) : Option Text :=
  if text.startsWith word then some (text.drop word.length) else none

mutual

def afterValue : Nat → Text → Option Text
  | 0, _ => none
  | fuel + 1, text =>
    match skip text with
    | [] => none
    | 34 :: rest => afterString rest
    | 91 :: rest =>
      match skip rest with
      | 93 :: rest => some rest
      | rest => afterItems fuel rest
    | 123 :: rest =>
      match skip rest with
      | 125 :: rest => some rest
      | rest => afterFields fuel rest
    | 116 :: rest => afterWord "rue" rest
    | 102 :: rest => afterWord "alse" rest
    | 110 :: rest => afterWord "ull" rest
    | number => afterNumber number

def afterItems : Nat → Text → Option Text
  | 0, _ => none
  | fuel + 1, text =>
    match (afterValue fuel text).map skip with
    | some (44 :: rest) => afterItems fuel rest
    | some (93 :: rest) => some rest
    | _ => none

def afterFields : Nat → Text → Option Text
  | 0, _ => none
  | fuel + 1, text =>
    match skip text with
    | 34 :: rest =>
      match (afterString rest).map skip with
      | some (58 :: rest) =>
        match (afterValue fuel rest).map skip with
        | some (44 :: rest) => afterFields fuel rest
        | some (125 :: rest) => some rest
        | _ => none
      | _ => none
    | _ => none

end

def isValid (text : Text) : Bool :=
  match afterValue (2 * text.length + 2) text with
  | some rest => (skip rest).isEmpty
  | none => false

/-- Drops the blanks between parts and escapes characters with a meaning in
markup. -/
def condense (quoted escaped : Bool) : Text → Text
  | [] => []
  | 0xE2 :: 0x80 :: 0xA8 :: rest => "\\u2028" ++ condense quoted false rest
  | 0xE2 :: 0x80 :: 0xA9 :: rest => "\\u2029" ++ condense quoted false rest
  | byte :: rest =>
    if quoted then
      let written : Text :=
        if byte == 60 || byte == 62 || byte == 38 then JsonText.unicodeEscape byte.toNat
        else [byte]
      written ++ condense (escaped || byte != 34) (!escaped && byte == 92) rest
    else if isBlank byte then condense false false rest
    else byte :: condense (byte == 34) false rest

def read? (text : Text) : Option JsonText :=
  if isValid text then some (.verbatim (condense false false text)) else none

end FragmentCompiler.JsonScan
