import FragmentCompiler.Parser.Stream
import FragmentCompiler.Text.Quoted
import FragmentCompiler.Token.Literal

/-!
# The grammar

Readers for expressions, statements and declarations.  Each reader of a nested
form takes a bound on the nesting; `Parser.nesting` is always enough, because at
most eight readers are entered between two tokens.
-/

namespace FragmentCompiler

namespace Reader

/-! ## Expressions -/

def literal (token : Token) (value : LiteralValue) : Expr :=
  .literal { span := token.span } token.text value

mutual

/-- An expression; assignment groups to the right and binds weakest. -/
def expression : Nat → Reader Expr
  | 0 => failure
  | fuel + 1 => do
      let left ← operation fuel 1
      if ← seesMark .assign then
        let equals ← take
        match left with
        | .name .. =>
          let value ← expression fuel
          return .assign { span := left.span.cover value.span } left value
        | _ => reject .unexpectedToken equals.span "left side of '=' must be a name"
      else return left

def operation : Nat → Nat → Reader Expr
  | 0, _ => failure
  | fuel + 1, least => do
      let left ← operand fuel
      operations fuel least left

def operations : Nat → Nat → Expr → Reader Expr
  | 0, _, _ => failure
  | fuel + 1, least, left => do
      match BinaryOp.ofKind? (← peek).kind with
      | none => return left
      | some op =>
        if op.strength < least then return left
        else
          let _ ← take
          let right ← operation fuel (op.strength + 1)
          operations fuel least
            (.binary { span := left.span.cover right.span } op left right)

def operand : Nat → Reader Expr
  | 0 => failure
  | fuel + 1 => do
      let token ← peek
      match token.kind with
      | .symbol .minus => signed fuel token .negate
      | .symbol .bang => signed fuel token .not
      | _ => do
          let callee ← primary fuel
          calls fuel callee

def signed : Nat → Token → UnaryOp → Reader Expr
  | 0, _, _ => failure
  | fuel + 1, mark, op => do
      let _ ← take
      let inner ← operand fuel
      return .unary { span := mark.span.cover inner.span } op inner

def calls : Nat → Expr → Reader Expr
  | 0, _ => failure
  | fuel + 1, callee => do
      if ← seesMark .leftParen then
        let opening ← take
        let arguments ← callArguments fuel opening []
        let _ ← take
        calls fuel (.call { span := callee.span.cover (← lastSpan) } callee arguments)
      else return callee

/-- Arguments up to the closing parenthesis; those read so far are in reverse. -/
def callArguments : Nat → Token → List Expr → Reader (List Expr)
  | 0, _, _ => failure
  | fuel + 1, opening, read => do
      if ← seesMark .rightParen then return read.reverse
      else
        if !read.isEmpty then
          if !(← seesMark .comma) then
            reject .unclosedParenthesis opening.span "expected ',' or ')' in call"
          let _ ← take
        let argument ← expression fuel
        callArguments fuel opening (argument :: read)

def primary : Nat → Reader Expr
  | 0 => failure
  | fuel + 1 => do
      let token ← peek
      match token.kind with
      | .name =>
        let _ ← take
        return .name { span := token.span } token.text .unresolved
      | .integer =>
        let _ ← take
        match Literal.integer? token.text with
        | some value => return literal token (.int (Int64.ofNat value))
        | none =>
          reject .badNumber token.span
            ("integer literal " ++ token.text.quote ++ " out of range")
      | .float =>
        let _ ← take
        match Literal.float? token.text with
        | some value => return literal token (.float value)
        | none =>
          reject .badNumber token.span ("invalid float literal " ++ token.text.quote)
      | .string =>
        let _ ← take
        return literal token (.string (Literal.unquote token.text))
      | .keyword .true =>
        let _ ← take
        return literal token (.bool true)
      | .keyword .false =>
        let _ ← take
        return literal token (.bool false)
      | .symbol .leftParen =>
        let opening ← take
        let inner ← expression fuel
        if ← seesMark .rightParen then
          let _ ← take
          return .group { span := opening.span.cover (← lastSpan) } inner
        else reject .unclosedParenthesis opening.span "expected ')'"
      | .invalid =>
        -- The lexical fault was reported already.
        let _ ← take
        failure
      | _ => rejectHere .expectedExpression "expected expression"

end

/-! ## Statements -/

def typeOf (token : Token) : Ty := (Ty.ofKind? token.kind).getD .invalid

/-- The declarators after the first name, up to the semicolon; those made so far
are in reverse. -/
def declarators : Nat → Token → Storage → Token → List DeclId → Reader (List DeclId)
  | 0, _, _, _, _ => failure
  | fuel + 1, typeToken, storage, nameToken, made => do
      let initial ←
        if ← seesMark .assign then do
          let _ ← take
          some <$> expression fuel
        else pure none
      let start := if made.isEmpty then typeToken.span else nameToken.span
      let id ← declare nameToken.text (start.cover (← lastSpan))
        (.variable { type := typeOf typeToken, initial, storage })
      if ← seesMark .comma then
        let _ ← take
        let nameToken ← expect .name .expectedIdentifier "expected identifier after ','"
        declarators fuel typeToken storage nameToken (id :: made)
      else
        let _ ← expect (.symbol .semicolon) .expectedSemicolon "expected ';' after declaration"
        return (id :: made).reverse

def variableList (fuel : Nat) (typeToken : Token) (storage : Storage) (nameToken : Token) :
    Reader (List DeclId) := do
  if typeOf typeToken = .void then
    reject .voidVariable typeToken.span "variable cannot have type void"
  declarators fuel typeToken storage nameToken []

def localVariables (fuel : Nat) : Reader Stmt := do
  let typeToken ← take
  let nameToken ← expect .name .expectedIdentifier "expected identifier"
  if ← seesMark .leftParen then
    rejectHere .unexpectedToken "function definitions are only allowed at top level"
  let ids ← variableList fuel typeToken .local nameToken
  return .declare (typeToken.span.cover (← lastSpan)) ids

def condition (fuel : Nat) : Reader Expr := do
  let opening ← expect (.symbol .leftParen) .unexpectedToken "expected '('"
  let value ← expression fuel
  if ← seesMark .rightParen then
    let _ ← take
    return value
  else reject .unclosedParenthesis opening.span "expected ')' to close condition"

def endWord (word : Token) : Reader Span := do
  let _ ← take
  let _ ← expect (.symbol .semicolon) .expectedSemicolon ("expected ';' after " ++ word.text)
  return word.span.cover (← lastSpan)

def returning (fuel : Nat) : Reader Stmt := do
  let word ← take
  let value ← if ← seesMark .semicolon then pure none else some <$> expression fuel
  let _ ← expect (.symbol .semicolon) .expectedSemicolon "expected ';' after return"
  return .return (word.span.cover (← lastSpan)) value

/-- An expression as a statement.  Directly in a wrapper the last one of a
fragment may lack its semicolon. -/
def expressionStatement (fuel : Nat) (top : Bool) : Reader Stmt := do
  let value ← expression fuel
  if ← seesMark .semicolon then
    let _ ← take
    return .expression (value.span.cover (← lastSpan)) value false
  else if ← if top then atFragmentEnd else pure false then
    return .expression value.span value true
  else rejectHere .expectedSemicolon "expected ';' after expression"

mutual

/-- A statement; `top` says that it stands directly in a wrapper. -/
def statement : Nat → Bool → Reader Stmt
  | 0, _ => failure
  | fuel + 1, top => do
      let token ← peek
      match token.kind with
      | .symbol .leftBrace => block fuel
      | .symbol .semicolon =>
        let _ ← take
        return .empty token.span
      | .keyword .if =>
        let _ ← take
        let test ← condition fuel
        let yes ← statement fuel false
        let no ←
          if ← sees (.keyword .else) then do
            let _ ← take
            some <$> statement fuel false
          else pure none
        return .branch (token.span.cover (← lastSpan)) test yes no
      | .keyword .while =>
        let _ ← take
        let test ← condition fuel
        let body ← statement fuel false
        return .loop (token.span.cover (← lastSpan)) test body
      | .keyword .return => returning fuel
      | .keyword .break => .break <$> endWord token
      | .keyword .continue => .continue <$> endWord token
      | .directive =>
        report (.error .badDirective token.span "directive is not allowed inside a block")
        let _ ← take
        failure
      | kind => if kind.isType then localVariables fuel else expressionStatement fuel top

/-- A block; a brace left open by a failure stays counted. -/
def block : Nat → Reader Stmt
  | 0 => failure
  | fuel + 1 => do
      let opening ← take
      modify fun parser => { parser with depth := parser.depth + 1 }
      let body ← blockBody fuel opening []
      let _ ← take
      modify fun parser => { parser with depth := parser.depth - 1 }
      return .block (opening.span.cover (← lastSpan)) body

/-- Statements up to the closing brace; those read so far are in reverse. -/
def blockBody : Nat → Token → List Stmt → Reader (List Stmt)
  | 0, _, _ => failure
  | fuel + 1, opening, read => do
      let token ← peek
      if token.kind = .symbol .rightBrace then return read.reverse
      else if token.kind = .endOfInput then
        reject .unclosedBrace opening.span "unclosed '\x7b'"
      else
        let next ← statement fuel false
        blockBody fuel opening (next :: read)

end

/-! ## Declarations -/

/-- Parameters up to the closing parenthesis, those made so far in reverse, and
whether one has no name. -/
def parameters : Nat → List DeclId → Bool → Reader (List DeclId × Bool)
  | 0, _, _ => failure
  | fuel + 1, made, unnamed => do
      if ← seesMark .rightParen then return (made.reverse, unnamed)
      else
        if !made.isEmpty then
          let _ ← expect (.symbol .comma) .unexpectedToken
            "expected ',' or ')' in parameter list"
        let typeToken ← peek
        match Ty.ofKind? typeToken.kind with
        | none => rejectHere .expectedType "expected parameter type"
        | some type =>
          let _ ← take
          if type = .void then
            reject .voidVariable typeToken.span "parameter cannot have type void"
          let data : Variable := { type, storage := .parameter, slot := made.length }
          if ← sees .name then
            let nameToken ← take
            let id ← declare nameToken.text (typeToken.span.cover nameToken.span)
              (.variable data)
            parameters fuel (id :: made) unnamed
          else
            let id ← declare [] typeToken.span (.variable data)
            parameters fuel (id :: made) true

/-- A function after its name: its parameters and its body, or a semicolon. -/
def function (fuel : Nat) (typeToken nameToken : Token) : Reader DeclId := do
  let _ ← take
  -- An empty list may be written as one `void`.
  if ← sees (.keyword .void) then
    if (← peekAt 1).kind = .symbol .rightParen then
      let _ ← take
  let (ids, unnamed) ← parameters fuel [] false
  let _ ← take
  let data : Function := { result := typeOf typeToken, parameters := ids }
  if ← seesMark .semicolon then
    let _ ← take
    declare nameToken.text (typeToken.span.cover (← lastSpan)) (.function data)
  else if ← seesMark .leftBrace then
    if unnamed then
      rejectHere .expectedIdentifier "parameters of a function definition must be named"
    let body ← block fuel
    declare nameToken.text (typeToken.span.cover (← lastSpan))
      (.function { data with body := some body })
  else rejectHere .expectedSemicolon "expected '\x7b' or ';' after parameter list"

def declaration (fuel : Nat) : Reader Group := do
  let typeToken ← take
  let nameToken ← expect .name .expectedIdentifier "expected identifier"
  if ← seesMark .leftParen then
    return [← function fuel typeToken nameToken]
  else variableList fuel typeToken .global nameToken

def seesFunction : Reader Bool := do
  if !(← peek).kind.isType then return false
  if (← peekAt 1).kind ≠ .name then return false
  return (← peekAt 2).kind = .symbol .leftParen

/-- Statements up to the end of the buffer, a directive or a function; those read
so far are in reverse. -/
def wrapperBody : Nat → List Stmt → Reader (List Stmt)
  | 0, _ => failure
  | fuel + 1, read => do
      let token ← peek
      if token.kind = .endOfInput || token.kind = .directive then return read.reverse
      else if ← seesFunction then return read.reverse
      else if token.kind = .symbol .rightBrace then
        report (.error .unexpectedTopLevel (← place) "unexpected '\x7d'")
        let _ ← take
        failure
      else
        let next ← statement fuel true
        wrapperBody fuel (next :: read)

def wrapperStem : Text := "__kiln_wrapper_"

/-- Statements outside all functions, as the body of a nameless function. -/
def wrapper (fuel : Nat) : Reader DeclId := do
  let start := (← peek).span
  let body ← wrapperBody fuel []
  let span := start.cover (← lastSpan)
  modify fun parser => { parser with wrappers := parser.wrappers + 1 }
  declare (wrapperStem ++ Text.decimal (← get).wrappers) span
    (.wrapper { result := .void, body := some (.block span body) })

end Reader

namespace Parser

/-- A bound on the nesting of readers in the current buffer. -/
def nesting (parser : Parser) : Nat := 8 * (parser.remaining + 2)

end Parser

end FragmentCompiler
