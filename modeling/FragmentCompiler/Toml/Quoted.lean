import FragmentCompiler.Text.Utf8

/-!
# Strings of a TOML document

A string is read from the text after its opening quotes; the result comes with
the text after its closing quotes.  Basic strings have escapes, literal strings
have none, and both exist on one line and over several lines.
-/

namespace FragmentCompiler.Toml

open FragmentCompiler

def isLineEnd (byte : UInt8) : Bool := byte == 10 || byte == 13

def isBlankByte (byte : UInt8) : Bool := byte == 32 || byte == 9

def hexDigit? (byte : UInt8) : Option Nat :=
  if 48 ≤ byte && byte ≤ 57 then some (byte.toNat - 48)
  else if 97 ≤ byte && byte ≤ 102 then some (byte.toNat - 87)
  else if 65 ≤ byte && byte ≤ 70 then some (byte.toNat - 55)
  else none

def escape? (letter : UInt8) : Option UInt8 :=
  match letter with
  | 98 => some 8
  | 116 => some 9
  | 110 => some 10
  | 102 => some 12
  | 114 => some 13
  | 34 => some 34
  | 92 => some 92
  | _ => none

def isScalar (code : Nat) : Bool := code < 0xD800 || (0xE000 ≤ code && code ≤ 0x10FFFF)

def prepend (lead : Text) (result : Option (Text × Text)) : Option (Text × Text) :=
  result.map fun (value, rest) => (lead ++ value, rest)

inductive StringState where
  | plain
  | escape
  /-- Digits of a numbered escape are missing. -/
  | numbered (missing value : Nat)
  /-- Blanks between a backslash and the end of its line. -/
  | gap
  /-- White space after the end of a line that a backslash joined to the next. -/
  | joined
  | quotes (count : Nat)
  deriving DecidableEq, Repr, Inhabited

def basicString : StringState → Text → Option (Text × Text)
  | _, [] => none
  | .escape, byte :: rest =>
    if byte = 117 then basicString (.numbered 4 0) rest
    else if byte = 85 then basicString (.numbered 8 0) rest
    else (escape? byte).bind fun byte => prepend [byte] (basicString .plain rest)
  | .numbered missing value, byte :: rest =>
    (hexDigit? byte).bind fun digit =>
      let value := value * 16 + digit
      if 1 < missing then basicString (.numbered (missing - 1) value) rest
      else if isScalar value then prepend (Utf8.encode value) (basicString .plain rest)
      else none
  | _, byte :: rest =>
    if byte = 34 then some ([], rest)
    else if byte = 92 then basicString .escape rest
    else if isLineEnd byte then none
    else prepend [byte] (basicString .plain rest)

def literalString : Text → Option (Text × Text)
  | [] => none
  | byte :: rest =>
    if byte = 39 then some ([], rest)
    else if isLineEnd byte then none
    else prepend [byte] (literalString rest)

/-- What a byte of a string over several lines adds outside of escapes and runs of
quotes, and the state after it. -/
def plainStep (quote : UInt8) (byte : UInt8) : Text × StringState :=
  if byte = quote then ([], .quotes 1)
  else if byte = 92 && quote == 34 then ([], .escape)
  else ([byte], .plain)

/-- A string over several lines.  Three quotes end it, and up to two quotes before
those belong to it. -/
def longString (quote : UInt8) : StringState → Text → Option (Text × Text)
  | .quotes count, [] =>
    if 3 ≤ count then some (List.replicate (count - 3) quote, []) else none
  | _, [] => none
  | .quotes count, byte :: rest =>
    if byte = quote then
      if count = 5 then none else longString quote (.quotes (count + 1)) rest
    else if 3 ≤ count then some (List.replicate (count - 3) quote, byte :: rest)
    else
      let (value, state) := plainStep quote byte
      prepend (List.replicate count quote ++ value) (longString quote state rest)
  | .escape, byte :: rest =>
    if isLineEnd byte then longString quote .joined rest
    else if isBlankByte byte then longString quote .gap rest
    else if byte = 117 then longString quote (.numbered 4 0) rest
    else if byte = 85 then longString quote (.numbered 8 0) rest
    else (escape? byte).bind fun byte => prepend [byte] (longString quote .plain rest)
  | .numbered missing value, byte :: rest =>
    (hexDigit? byte).bind fun digit =>
      let value := value * 16 + digit
      if 1 < missing then longString quote (.numbered (missing - 1) value) rest
      else if isScalar value then prepend (Utf8.encode value) (longString quote .plain rest)
      else none
  | .gap, byte :: rest =>
    if isLineEnd byte then longString quote .joined rest
    else if isBlankByte byte then longString quote .gap rest
    else none
  | .joined, byte :: rest =>
    if isLineEnd byte || isBlankByte byte then longString quote .joined rest
    else
      let (value, state) := plainStep quote byte
      prepend value (longString quote state rest)
  | .plain, byte :: rest =>
    let (value, state) := plainStep quote byte
    prepend value (longString quote state rest)

def withoutFirstLineEnd : Text → Text
  | 10 :: rest => rest
  | 13 :: 10 :: rest => rest
  | text => text

/-- A string value, from its first quote on; none if there is no string. -/
def string? : Text → Option (Text × Text)
  | 34 :: 34 :: 34 :: rest => longString 34 .plain (withoutFirstLineEnd rest)
  | 34 :: rest => basicString .plain rest
  | 39 :: 39 :: 39 :: rest => longString 39 .plain (withoutFirstLineEnd rest)
  | 39 :: rest => literalString rest
  | _ => none

end FragmentCompiler.Toml
