import FragmentCompiler.Text.Utf8

/-!
# JSON text

Values written as JSON, on one line or indented by two spaces.  Characters with a
meaning in markup are escaped, and bytes that are not well-formed text are shown
as the replacement character.
-/

namespace FragmentCompiler

/-- A value to be written as JSON; a number is given by its text. -/
inductive JsonText where
  | null
  | bool (value : Bool)
  | number (digits : Text)
  | string (value : Text)
  | array (items : List JsonText)
  | object (fields : List (Text × JsonText))
  /-- A value that is given as JSON text without blanks. -/
  | verbatim (text : Text)
  deriving Repr, Inhabited

namespace JsonText

def unicodeEscape (code : Nat) : Text :=
  "\\u" ++ Text.hexNumber 4 code

def escapeRune (rune : Rune) : Text :=
  if rune.isIllFormed then Utf8.encode Utf8.replacement
  else if rune.code = 34 then "\\\""
  else if rune.code = 92 then "\\\\"
  else if rune.code = 8 then "\\b"
  else if rune.code = 12 then "\\f"
  else if rune.code = 10 then "\\n"
  else if rune.code = 13 then "\\r"
  else if rune.code = 9 then "\\t"
  else if rune.code < 32 || rune.code = 60 || rune.code = 62 || rune.code = 38 ||
      rune.code = 0x2028 || rune.code = 0x2029 then unicodeEscape rune.code
  else rune.bytes

def quote (value : Text) : Text := "\"" ++ (Utf8.runes value).flatMap escapeRune ++ "\""

mutual

def compact : JsonText → Text
  | .null => "null"
  | .bool true => "true"
  | .bool false => "false"
  | .number digits => digits
  | .string value => quote value
  | .array items => "[" ++ compactItems items ++ "]"
  | .object fields => "\x7b" ++ compactFields fields ++ "\x7d"
  | .verbatim text => text

def compactItems : List JsonText → Text
  | [] => []
  | [last] => compact last
  | first :: rest => compact first ++ "," ++ compactItems rest

def compactFields : List (Text × JsonText) → Text
  | [] => []
  | [(name, value)] => quote name ++ ":" ++ compact value
  | (name, value) :: rest => quote name ++ ":" ++ compact value ++ "," ++ compactFields rest

end

def indentation (depth : Nat) : Text := "\n" ++ Text.spaces (2 * depth)

/-- Spreads JSON text without blanks over lines.  The byte before tells whether a
bracket is empty. -/
def spread (depth : Nat) (quoted escaped : Bool) (before : UInt8) : Text → Text
  | [] => []
  | byte :: rest =>
    if quoted then
      byte :: spread depth (escaped || byte != 34) (!escaped && byte == 92) byte rest
    else
      let opened : Text :=
        if (before == 91 || before == 123) && byte != 93 && byte != 125 then indentation depth
        else []
      if byte == 34 then opened ++ byte :: spread depth true false byte rest
      else if byte == 91 || byte == 123 then
        opened ++ byte :: spread (depth + 1) false false byte rest
      else if byte == 93 || byte == 125 then
        let closed : Text :=
          if before == 91 || before == 123 then [] else indentation (depth - 1)
        closed ++ byte :: spread (depth - 1) false false byte rest
      else if byte == 44 then byte :: indentation depth ++ spread depth false false byte rest
      else if byte == 58 then byte :: 32 :: spread depth false false byte rest
      else opened ++ byte :: spread depth false false byte rest

mutual

def indented (depth : Nat) : JsonText → Text
  | .array [] => "[]"
  | .array items =>
    "[" ++ indentedItems (depth + 1) items ++ indentation depth ++ "]"
  | .object [] => "\x7b\x7d"
  | .object fields =>
    "\x7b" ++ indentedFields (depth + 1) fields ++ indentation depth ++ "\x7d"
  | .null => "null"
  | .bool true => "true"
  | .bool false => "false"
  | .number digits => digits
  | .string value => quote value
  | .verbatim text => spread depth false false 0 text

def indentedItems (depth : Nat) : List JsonText → Text
  | [] => []
  | [last] => indentation depth ++ indented depth last
  | first :: rest => indentation depth ++ indented depth first ++ "," ++ indentedItems depth rest

def indentedFields (depth : Nat) : List (Text × JsonText) → Text
  | [] => []
  | [(name, value)] => indentation depth ++ quote name ++ ": " ++ indented depth value
  | (name, value) :: rest =>
    indentation depth ++ quote name ++ ": " ++ indented depth value ++ "," ++
      indentedFields depth rest

end

def nat (value : Nat) : JsonText := .number (Text.decimal value)

def optionalField (name value : Text) : List (Text × JsonText) :=
  if value.isEmpty then [] else [(name, .string value)]

def ofParts (parts : List (List (Text × JsonText))) : JsonText := .object parts.flatten

def ofTable (entries : List (Text × Text)) : JsonText :=
  .object ((entries.mergeSort fun left right => !Text.before right.1 left.1).map fun entry =>
    (entry.1, .string entry.2))

end JsonText

end FragmentCompiler
