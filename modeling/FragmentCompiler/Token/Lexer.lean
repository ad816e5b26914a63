import FragmentCompiler.Diagnostic.Basic
import FragmentCompiler.Text.Letter
import FragmentCompiler.Token.Basic

/-!
# Reading tokens

The lexer cuts a buffer into tokens and what stands between them.  Every byte
belongs to exactly one piece.  Each piece is found by its length alone, so that
its span and its text follow from where it starts.
-/

namespace FragmentCompiler.Lexer

open FragmentCompiler

/-- The longest token; reading stops after a longer one. -/
def longestToken : Nat := 4096

def isNamePart (code : Nat) : Bool :=
  code == 95 || isLetter code || isDecimalDigit code || isNonspacingMark code

def isNameStart (byte : UInt8) : Bool :=
  byte == 95 || (65 ≤ byte && byte ≤ 90) || (97 ≤ byte && byte ≤ 122)

def isDigit (byte : UInt8) : Bool := 48 ≤ byte && byte ≤ 57

def isHexDigit (byte : UInt8) : Bool :=
  isDigit byte || (97 ≤ byte && byte ≤ 102) || (65 ≤ byte && byte ≤ 70)

def isBinaryDigit (byte : UInt8) : Bool := byte == 48 || byte == 49

structure Scan where
  kind : TokenKind
  length : Nat
  fault : Option (Code × Text) := none
  deriving DecidableEq, Repr, Inhabited

def Scan.bad (length : Nat) (code : Code) (message : Text) : Scan :=
  ⟨.invalid, length, some (code, message)⟩

/-- The length of the name a text starts with; `pending` bytes belong to the code
point being passed. -/
def nameLength (pending : Nat) : Text → Nat
  | [] => 0
  | byte :: rest =>
    match pending with
    | more + 1 => 1 + nameLength more rest
    | 0 =>
      let (code, size) := Utf8.decode (byte :: rest)
      if isNamePart code then 1 + nameLength (size - 1) rest else 0

def scanName (input : Text) : Scan :=
  let (code, size) := Utf8.decode input
  if 0x80 ≤ code && !isLetter code then
    .bad size Code.unknownCharacter "unknown character"
  else
    let length := nameLength 0 input
    match Keyword.ofText? (input.take length) with
    | some word => ⟨.keyword word, length, none⟩
    | none => ⟨.name, length, none⟩

/-- The digits a text starts with; underscores may separate them. -/
def digitRun (accept : UInt8 → Bool) (input : Text) : Text :=
  input.takeWhile fun byte => accept byte || byte == 95

def hasDigit (run : Text) : Bool := run.any (· != 95)

def scanBased (accept : UInt8 → Bool) (message : Text) (input : Text) : Scan :=
  let digits := digitRun accept (input.drop 2)
  if hasDigit digits then ⟨.integer, 2 + digits.length, none⟩
  else .bad (2 + digits.length) Code.badNumber message

def fractionLength : Text → Nat
  | 46 :: rest => 1 + (digitRun isDigit rest).length
  | _ => 0

def exponentLength : Text → Option (Nat × Bool)
  | mark :: rest =>
    if mark == 101 || mark == 69 then
      let sign := (rest.take 1).takeWhile fun byte => byte == 43 || byte == 45
      let digits := digitRun isDigit (rest.drop sign.length)
      some (1 + sign.length + digits.length, hasDigit digits)
    else none
  | [] => none

/-- The letters and digits that wrongly follow a number. -/
def suffixLength (input : Text) : Nat :=
  match input with
  | byte :: _ =>
    if isNameStart byte then
      (input.takeWhile fun byte => isNameStart byte || isDigit byte).length
    else 0
  | [] => 0

def scanDecimal (input : Text) : Scan :=
  let whole := (digitRun isDigit input).length
  let fraction := fractionLength (input.drop whole)
  let mantissa := whole + fraction
  match exponentLength (input.drop mantissa) with
  | some (length, false) =>
    .bad (mantissa + length) Code.badNumber "expected digit after exponent"
  | exponent =>
    let length := mantissa + (exponent.map (·.1)).getD 0
    let kind : TokenKind := if fraction = 0 && exponent.isNone then .integer else .float
    let suffix := suffixLength (input.drop length)
    if suffix = 0 then ⟨kind, length, none⟩
    else .bad (length + suffix) Code.badNumber "invalid suffix on numeric literal"

def scanNumber (input : Text) : Scan :=
  match input with
  | 48 :: mark :: _ =>
    if mark == 120 || mark == 88 then
      scanBased isHexDigit "expected hex digit after '0x'" input
    else if mark == 98 || mark == 66 then
      scanBased isBinaryDigit "expected binary digit after '0b'" input
    else scanDecimal input
  | _ => scanDecimal input

inductive StringEnd where
  | closed
  | newline
  | endOfInput
  deriving DecidableEq, Repr, Inhabited

/-- The length of a string literal after its opening quote, the closing one
included.  A backslash takes the next byte with it. -/
def stringLength : Text → Nat × StringEnd
  | [] => (0, .endOfInput)
  | [92] => (1, .endOfInput)
  | 92 :: _ :: rest =>
    let (length, ending) := stringLength rest
    (length + 2, ending)
  | byte :: rest =>
    if byte == 34 then (1, .closed)
    else if byte == 10 then (0, .newline)
    else
      let (length, ending) := stringLength rest
      (length + 1, ending)

def scanString (input : Text) : Scan :=
  match stringLength (input.drop 1) with
  | (length, .closed) => ⟨.string, length + 1, none⟩
  | (length, .newline) => .bad (length + 1) Code.unterminatedString "newline in string literal"
  | (length, .endOfInput) =>
    .bad (length + 1) Code.unterminatedString "unterminated string literal"

def longSymbol? (first second : UInt8) : Option Symbol :=
  if first == 38 && second == 38 then some .and
  else if first == 124 && second == 124 then some .or
  else if second == 61 then
    if first == 61 then some .equal
    else if first == 33 then some .notEqual
    else if first == 60 then some .lessEqual
    else if first == 62 then some .greaterEqual
    else none
  else none

def shortSymbol? (byte : UInt8) : Option Symbol :=
  if byte == 43 then some .plus
  else if byte == 45 then some .minus
  else if byte == 42 then some .star
  else if byte == 47 then some .slash
  else if byte == 37 then some .percent
  else if byte == 61 then some .assign
  else if byte == 33 then some .bang
  else if byte == 60 then some .less
  else if byte == 62 then some .greater
  else if byte == 59 then some .semicolon
  else if byte == 44 then some .comma
  else if byte == 40 then some .leftParen
  else if byte == 41 then some .rightParen
  else if byte == 123 then some .leftBrace
  else if byte == 125 then some .rightBrace
  else none

def scanSymbol : Text → Scan
  | [] => .bad 0 Code.unknownCharacter "unknown character"
  | first :: rest =>
    let long := match rest with
      | second :: _ => longSymbol? first second
      | [] => none
    match long with
    | some mark => ⟨.symbol mark, 2, none⟩
    | none =>
      match shortSymbol? first with
      | some mark => ⟨.symbol mark, 1, none⟩
      | none => .bad 1 Code.unknownCharacter "unknown character"

def lineLength (input : Text) : Nat := (input.takeWhile (· != 10)).length

def scan (input : Text) : Scan :=
  match input with
  | [] => .bad 0 Code.unknownCharacter "unknown character"
  | byte :: rest =>
    if isNameStart byte || 0x80 ≤ byte then scanName input
    else if isDigit byte then scanNumber input
    else if byte == 46 && (rest.take 1).any isDigit then scanNumber input
    else if byte == 34 then scanString input
    else if byte == 35 then ⟨.directive, lineLength input, none⟩
    else scanSymbol input

def blockCommentLength : Text → Nat × Bool
  | [] => (0, false)
  | 42 :: 47 :: _ => (2, true)
  | _ :: rest =>
    let (length, closed) := blockCommentLength rest
    (length + 1, closed)

def isSpace (byte : UInt8) : Bool := byte == 32 || byte == 9 || byte == 13

/-- The piece between tokens a text starts with: its kind, its length and whether
it is complete. -/
def scanTrivia? : Text → Option (TriviaKind × Nat × Bool)
  | [] => none
  | byte :: rest =>
    if isSpace byte then some (.space, ((byte :: rest).takeWhile isSpace).length, true)
    else if byte == 10 then some (.newline, ((byte :: rest).takeWhile (· == 10)).length, true)
    else
      match byte, rest with
      | 47, 47 :: _ => some (.lineComment, lineLength (byte :: rest), true)
      | 47, 42 :: body =>
        let (length, closed) := blockCommentLength body
        some (.blockComment, length + 2, closed)
      | _, _ => none

structure Cursor where
  file : FileId
  offset : Nat
  rest : Text
  deriving Repr, Inhabited

def Cursor.span (cursor : Cursor) (length : Nat) : Span :=
  ⟨cursor.file, cursor.offset, cursor.offset + length⟩

def Cursor.advance (cursor : Cursor) (length : Nat) : Cursor :=
  ⟨cursor.file, cursor.offset + length, cursor.rest.drop length⟩

/-- What stands before the next token, what is wrong with it, and where the token
starts.  Every step passes at least one byte. -/
def triviaWithin : Nat → Cursor → List Trivia × List Diagnostic × Cursor
  | 0, cursor => ([], [], cursor)
  | fuel + 1, cursor =>
    match scanTrivia? cursor.rest with
    | none => ([], [], cursor)
    | some (kind, length, complete) =>
      let span := cursor.span length
      let (trivia, faults, stop) := triviaWithin fuel (cursor.advance length)
      let fault : List Diagnostic :=
        if complete then []
        else [.error Code.unterminatedComment span "unterminated block comment"]
      (⟨kind, span, cursor.rest.take length⟩ :: trivia, fault ++ faults, stop)

structure Lexeme where
  token : Token
  faults : List Diagnostic := []
  deriving DecidableEq, Repr, Inhabited

/-- The next token and the cursor behind it; none after the end of the input. -/
def next (cursor : Cursor) : Lexeme × Option Cursor :=
  let (leading, early, start) := triviaWithin cursor.rest.length cursor
  if start.rest.isEmpty then
    (⟨{ kind := .endOfInput, span := start.span 0, leading }, early⟩, none)
  else
    let scanned := scan start.rest
    let span := start.span scanned.length
    let own : List Diagnostic := match scanned.fault with
      | some (code, message) => [.error code span message]
      | none => []
    if scanned.length > longestToken then
      let excess := Diagnostic.error Code.tokenTooLong span "token exceeds maximum length"
      (⟨{ kind := .invalid, span, leading }, early ++ own ++ [excess]⟩,
        some (start.advance start.rest.length))
    else
      let text := start.rest.take scanned.length
      (⟨{ kind := scanned.kind, span, text, leading }, early ++ own⟩,
        some (start.advance scanned.length))

def lexWithin : Nat → Cursor → List Lexeme
  | 0, _ => []
  | fuel + 1, cursor =>
    match next cursor with
    | (lexeme, none) => [lexeme]
    | (lexeme, some rest) => lexeme :: lexWithin fuel rest

/-- All tokens of a text up to and including the end of the input.  Every token
takes at least one byte. -/
def lex (file : FileId) (content : Text) : List Lexeme :=
  lexWithin (content.length + 1) ⟨file, 0, content⟩

/-! ## Looking ahead -/

/-- A lexer in use: where it reads on, and the token it has looked at. -/
structure Scanner where
  cursor : Cursor
  ahead : Option Lexeme := none
  deriving Repr, Inhabited

namespace Scanner

def ofText (file : FileId) (content : Text) : Scanner := { cursor := ⟨file, 0, content⟩ }

/-- The next token.  The end of the input is met as often as one asks. -/
def next (scanner : Scanner) : Lexeme × Scanner :=
  match scanner.ahead with
  | some lexeme => (lexeme, { scanner with ahead := none })
  | none =>
    let (lexeme, rest) := Lexer.next scanner.cursor
    (lexeme, { cursor := rest.getD (scanner.cursor.advance scanner.cursor.rest.length) })

def peek (scanner : Scanner) : Lexeme × Scanner :=
  match scanner.ahead with
  | some lexeme => (lexeme, scanner)
  | none =>
    let (lexeme, scanner) := scanner.next
    (lexeme, { scanner with ahead := some lexeme })

end Scanner

end FragmentCompiler.Lexer
