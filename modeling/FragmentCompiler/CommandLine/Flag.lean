import FragmentCompiler.Text.Blank
import FragmentCompiler.Text.Quoted

/-!
# Flags of the command line

A flag is written `--name=value` or `--name value`, and one with a letter also
`-lvalue` or `-l value`.  A toggle needs no value.
-/

namespace FragmentCompiler

inductive FlagKind where
  | toggle
  | word
  | number
  /-- Words between commas; every use adds to those before. -/
  | words
  | duration
  deriving DecidableEq, Repr, Inhabited

structure Flag where
  name : Text
  letter : Option UInt8 := none
  kind : FlagKind := .toggle
  /-- The value of a flag that is not given, where that is worth showing. -/
  initial : Text := []
  usage : Text
  deriving DecidableEq, Repr, Inhabited

inductive FlagValue where
  | toggle (on : Bool)
  | word (value : Text)
  | number (value : Int)
  | words (values : List Text)
  | duration
  deriving DecidableEq, Repr, Inhabited

inductive FlagFault where
  | notTruth (value : Text)
  | notNumber (value : Text)
  | numberRange (value : Text)
  | durationForm (value : Text)
  | durationUnit (value : Text)
  | unknownUnit (unit value : Text)
  | bareQuote (column : Nat)
  | strayQuote (column : Nat)
  deriving DecidableEq, Repr

def FlagFault.message : FlagFault → Text
  | .notTruth value => "strconv.ParseBool: parsing " ++ value.quote ++ ": invalid syntax"
  | .notNumber value => "strconv.ParseInt: parsing " ++ value.quote ++ ": invalid syntax"
  | .numberRange value => "strconv.ParseInt: parsing " ++ value.quote ++ ": value out of range"
  | .durationForm value => "time: invalid duration " ++ value.quote
  | .durationUnit value => "time: missing unit in duration " ++ value.quote
  | .unknownUnit unit value =>
    "time: unknown unit " ++ unit.quote ++ " in duration " ++ value.quote
  | .bareQuote column =>
    "parse error on line 1, column " ++ Text.decimal column ++
      ": bare \" in non-quoted field"
  | .strayQuote column =>
    "parse error on line 1, column " ++ Text.decimal column ++
      ": extraneous or missing \" in quoted-field"

inductive FlagError where
  | malformed (written : Text)
  | unknown (name : Text)
  | unknownLetter (letter : UInt8) (group : Text)
  | missingValue (name : Text)
  | missingLetterValue (letter : UInt8) (group : Text)
  | invalid (value : Text) (flag : Flag) (fault : FlagFault)
  deriving DecidableEq, Repr

def Flag.names (flag : Flag) : Text :=
  match flag.letter with
  | some letter => "-" ++ [letter] ++ ", --" ++ flag.name
  | none => "--" ++ flag.name

def quoteLetter (letter : UInt8) : Text :=
  let body : Text :=
    if letter = 39 then "\\'" else if letter = 92 then "\\\\" else Utf8.encode letter.toNat
  "'" ++ body ++ "'"

def FlagError.message : FlagError → Text
  | .malformed written => "bad flag syntax: " ++ written
  | .unknown name => "unknown flag: --" ++ name
  | .unknownLetter letter group =>
    "unknown shorthand flag: " ++ quoteLetter letter ++ " in -" ++ group
  | .missingValue name => "flag needs an argument: --" ++ name
  | .missingLetterValue letter group =>
    "flag needs an argument: " ++ quoteLetter letter ++ " in -" ++ group
  | .invalid value flag fault =>
    "invalid argument " ++ value.quote ++ " for " ++ flag.names.quote ++ " flag: " ++
      fault.message

namespace FlagValue

def readToggle (value : Text) : Except FlagFault Bool :=
  if (["1", "t", "T", "true", "TRUE", "True"] : List Text).contains value then .ok true
  else if (["0", "f", "F", "false", "FALSE", "False"] : List Text).contains value then .ok false
  else .error (.notTruth value)

def digit? (byte : UInt8) : Option Nat :=
  if 48 ≤ byte && byte ≤ 57 then some (byte.toNat - 48)
  else if 97 ≤ byte && byte ≤ 122 then some (byte.toNat - 87)
  else if 65 ≤ byte && byte ≤ 90 then some (byte.toNat - 55)
  else none

/-- The digits of a number, its base and whether a mark of the base stands before
them. -/
def digitsOf (text : Text) : Nat × Bool × Text :=
  match text with
  | 48 :: mark :: digit :: rest =>
    if mark = 98 || mark = 66 then (2, true, digit :: rest)
    else if mark = 111 || mark = 79 then (8, true, digit :: rest)
    else if mark = 120 || mark = 88 then (16, true, digit :: rest)
    else (8, false, mark :: digit :: rest)
  | 48 :: rest => (8, false, rest)
  | _ => (10, false, text)

def underscoresFit (afterDigit : Bool) : Text → Bool
  | [] => true
  | [byte] => byte != 95
  | byte :: next :: rest =>
    (byte != 95 || (afterDigit && next != 95)) && underscoresFit (byte != 95) (next :: rest)

/-- An integer of 64 bits: decimal, or in the base that its beginning marks. -/
def readNumber (value : Text) : Except FlagFault Int :=
  let (negative, text) : Bool × Text := match value with
    | 45 :: rest => (true, rest)
    | 43 :: rest => (false, rest)
    | _ => (false, value)
  let (base, isMarked, digits) := digitsOf text
  let magnitude : Option Nat := (digits.filter (· != 95)).foldl (fun sum byte =>
    sum.bind fun sum => (digit? byte).bind fun digit =>
      if digit < base then some (sum * base + digit) else none) (some 0)
  match magnitude with
  | none => .error (.notNumber value)
  | some magnitude =>
    if text.isEmpty || !underscoresFit (isMarked || base == 8) digits then
      .error (.notNumber value)
    else if negative then
      if magnitude ≤ 9223372036854775808 then .ok (-magnitude) else .error (.numberRange value)
    else if magnitude ≤ 9223372036854775807 then .ok magnitude
    else .error (.numberRange value)

inductive WordState where
  | start
  | bare
  | quoted
  | closed
  deriving DecidableEq, Repr

/-- The words between commas from a column on, where `word` is the one being read;
a word in quotes may hold commas. -/
def wordsFrom (column : Nat) (word : Text) : WordState → Text → Except FlagFault (List Text)
  | .quoted, [] => .error (.strayQuote column)
  | _, [] => .ok [word]
  | .quoted, byte :: rest =>
    if byte = 34 then wordsFrom (column + 1) word .closed rest
    else wordsFrom (column + 1) (word ++ [byte]) .quoted rest
  | .closed, byte :: rest =>
    if byte = 34 then wordsFrom (column + 1) (word ++ [byte]) .quoted rest
    else if byte = 44 then (wordsFrom (column + 1) [] .start rest).map (word :: ·)
    else if byte = 10 then .ok [word]
    else .error (.strayQuote (column - 1))
  | state, byte :: rest =>
    if byte = 44 then (wordsFrom (column + 1) [] .start rest).map (word :: ·)
    else if byte = 10 then .ok [word]
    else if byte = 34 then
      if state = .start then wordsFrom (column + 1) [] .quoted rest
      else .error (.bareQuote column)
    else wordsFrom (column + 1) (word ++ [byte]) .bare rest

def readWords (value : Text) : Except FlagFault (List Text) :=
  if value.isEmpty then .ok [] else wordsFrom 1 [] .start value

def durationUnits : List Text := ["ns", "us", "µs", "μs", "ms", "s", "m", "h"]

def checkDuration (whole : Text) : Nat → Text → Except FlagFault Unit
  | 0, _ => .error (.durationForm whole)
  | fuel + 1, text =>
    let isNumeral (byte : UInt8) : Bool := (48 ≤ byte && byte ≤ 57) || byte == 46
    let number := text.takeWhile isNumeral
    let after := text.dropWhile isNumeral
    let unit := after.takeWhile (!isNumeral ·)
    let rest := after.dropWhile (!isNumeral ·)
    if number.isEmpty || number = "." || 1 < number.count 46 then .error (.durationForm whole)
    else if unit.isEmpty then .error (.durationUnit whole)
    else if !durationUnits.contains unit then .error (.unknownUnit unit whole)
    else if rest.isEmpty then .ok ()
    else checkDuration whole fuel rest

def readDuration (value : Text) : Except FlagFault Unit :=
  let text : Text := match value with
    | 45 :: rest => rest
    | 43 :: rest => rest
    | _ => value
  if text = "0" then .ok () else checkDuration value value.length text

def read (kind : FlagKind) (value : Text) : Except FlagFault FlagValue :=
  match kind with
  | .toggle => (readToggle value).map .toggle
  | .word => .ok (.word value)
  | .number => (readNumber value).map .number
  | .words => (readWords value).map .words
  | .duration => (readDuration value).map fun _ => .duration

end FlagValue

structure FlagReading where
  values : List (Text × FlagValue) := []
  arguments : List Text := []
  deriving DecidableEq, Repr, Inhabited

namespace FlagReading

def add (reading : FlagReading) (flag : Flag) (value : Text) : Except FlagError FlagReading :=
  match FlagValue.read flag.kind value with
  | .ok value => .ok { reading with values := reading.values ++ [(flag.name, value)] }
  | .error fault => .error (.invalid value flag fault)

def get? (reading : FlagReading) (name : Text) : Option FlagValue :=
  (reading.values.reverse.find? fun entry => entry.1 == name).map (·.2)

def has (reading : FlagReading) (name : Text) : Bool := (reading.get? name).isSome

def isOn (reading : FlagReading) (name : Text) : Bool := reading.get? name = some (.toggle true)

def word (reading : FlagReading) (name initial : Text) : Text :=
  match reading.get? name with
  | some (.word value) => value
  | _ => initial

def number (reading : FlagReading) (name : Text) (initial : Int) : Int :=
  match reading.get? name with
  | some (.number value) => value
  | _ => initial

def words (reading : FlagReading) (name : Text) : List Text :=
  reading.values.flatMap fun entry =>
    match entry with
    | (itsName, .words values) => if itsName = name then values else []
    | _ => []

/-- Reads a group of letters; a letter that takes a value ends it. -/
def readGroup (flags : List Flag) (reading : FlagReading) :
    Text → List Text → Except FlagError (FlagReading × List Text)
  | [], arguments => .ok (reading, arguments)
  | letter :: rest, arguments =>
    match flags.find? fun flag => flag.letter = some letter with
    | none => .error (.unknownLetter letter (letter :: rest))
    | some flag =>
      if 2 ≤ rest.length && rest.head? = some 61 then
        (reading.add flag rest.tail).map (·, arguments)
      else if flag.kind = .toggle then
        match reading.add flag "true" with
        | .ok reading => readGroup flags reading rest arguments
        | .error error => .error error
      else if !rest.isEmpty then (reading.add flag rest).map (·, arguments)
      else
        match arguments with
        | value :: others => (reading.add flag value).map (·, others)
        | [] => .error (.missingLetterValue letter [letter])

def readNamed (flags : List Flag) (reading : FlagReading) (written : Text)
    (arguments : List Text) : Except FlagError (FlagReading × List Text) :=
  let body := written.drop 2
  if body.head? = some 45 || body.head? = some 61 then .error (.malformed written)
  else
    let (name, value) := Text.cut 61 body
    match flags.find? fun flag => flag.name = name with
    | none => .error (.unknown name)
    | some flag =>
      match value, arguments with
      | some value, _ => (reading.add flag value).map (·, arguments)
      | none, [] =>
        if flag.kind = .toggle then (reading.add flag "true").map (·, arguments)
        else .error (.missingValue name)
      | none, value :: others =>
        if flag.kind = .toggle then (reading.add flag "true").map (·, arguments)
        else (reading.add flag value).map (·, others)

def readWithin (flags : List Flag) : Nat → FlagReading → List Text → Except FlagError FlagReading
  | 0, reading, _ => .ok reading
  | _ + 1, reading, [] => .ok reading
  | fuel + 1, reading, argument :: rest =>
    if argument.head? ≠ some 45 || argument.length = 1 then
      readWithin flags fuel { reading with arguments := reading.arguments ++ [argument] } rest
    else if argument = "--" then
      .ok { reading with arguments := reading.arguments ++ rest }
    else
      let taken :=
        if argument.startsWith "--" then readNamed flags reading argument rest
        else readGroup flags reading argument.tail rest
      match taken with
      | .ok (reading, rest) => readWithin flags fuel reading rest
      | .error error => .error error

/-- Reads the arguments of a command; flags may stand anywhere before two dashes. -/
def ofArguments (flags : List Flag) (arguments : List Text) : Except FlagError FlagReading :=
  readWithin flags arguments.length {} arguments

end FlagReading

end FragmentCompiler
