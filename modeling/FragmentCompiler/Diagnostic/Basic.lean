import FragmentCompiler.Source.Span

/-!
# Diagnostics

A diagnostic tells the user about a part of a buffer: how grave it is, a stable
code, a message, and notes that point to other places.
-/

namespace FragmentCompiler

/-- How grave a diagnostic is; higher ranks are graver. -/
structure Severity where
  rank : Nat
  deriving DecidableEq, Repr, Inhabited, Hashable

namespace Severity

def info : Severity := ⟨0⟩

def warning : Severity := ⟨1⟩

def error : Severity := ⟨2⟩

/-- Whether a diagnostic of this severity fails the call it belongs to. -/
def isError (severity : Severity) : Bool := 2 ≤ severity.rank

def name (severity : Severity) : Text :=
  if severity = info then "INFO"
  else if severity = warning then "WARNING"
  else if severity = error then "ERROR"
  else "UNKNOWN"

end Severity

structure Code where
  number : Nat
  deriving DecidableEq, Repr, Inhabited, Hashable

namespace Code

def titles : List (Nat × String) := [
  (0, "Unknown error"),
  (1000, "Lexical information"),
  (1001, "Unknown character"),
  (1002, "Unterminated string"),
  (1003, "Unterminated block comment"),
  (1004, "Bad number"),
  (1005, "Token too long"),
  (2000, "Syntax information"),
  (2001, "Unexpected token"),
  (2002, "Expected ';'"),
  (2003, "Expected identifier"),
  (2004, "Expected expression"),
  (2005, "Expected type"),
  (2006, "Unclosed parenthesis"),
  (2007, "Unclosed brace"),
  (2008, "Malformed directive"),
  (2009, "Included file not found"),
  (2010, "Recursive include"),
  (2011, "Unknown pragma"),
  (2012, "Variable of type void"),
  (2013, "Unexpected top level construct"),
  (3000, "Semantic information"),
  (3001, "Duplicate symbol"),
  (3002, "Unresolved symbol"),
  (3003, "Type mismatch"),
  (3004, "Value is not callable"),
  (3005, "Wrong number of arguments"),
  (3006, "Expression is not assignable"),
  (3007, "Invalid operand"),
  (3008, "Return outside of function"),
  (3009, "Missing return value"),
  (3010, "Void value used"),
  (3011, "Lossy conversion"),
  (3012, "Division by zero"),
  (3013, "Function declared but not defined"),
  (3014, "Conflicting function declaration"),
  (3015, "Invalid snapshot declaration"),
  (3016, "Dynamic lookup not available here"),
  (3017, "Redefinition of builtin"),
  (3018, "Break or continue outside of loop"),
  (4000, "Code generation information"),
  (4001, "Unresolved dynamic identifier"),
  (4500, "Runtime information"),
  (4501, "Runtime error"),
  (6000, "Observability information"),
  (6001, "Timings")]

def title (code : Code) : Text :=
  match titles.find? fun entry => entry.1 == code.number with
  | some entry => entry.2
  | none => "Unknown error"

/-- The family of a code and its number; numbers outside every family share one
identifier. -/
def identifier (code : Code) : Text :=
  let number := code.number
  let family : Option String :=
    if 1000 ≤ number && number < 2000 then some "LEX"
    else if 2000 ≤ number && number < 3000 then some "SYN"
    else if 3000 ≤ number && number < 4000 then some "SEM"
    else if 4000 ≤ number && number < 4500 then some "GEN"
    else if 4500 ≤ number && number < 5000 then some "RUN"
    else if 6000 ≤ number && number < 7000 then some "OBS"
    else none
  match family with
  | some letters => letters ++ Text.decimal number
  | none => "E0000"

def describe (code : Code) : Text := "[" ++ code.identifier ++ "]: " ++ code.title

def unknownCharacter : Code := ⟨1001⟩
def unterminatedString : Code := ⟨1002⟩
def unterminatedComment : Code := ⟨1003⟩
def badNumber : Code := ⟨1004⟩
def tokenTooLong : Code := ⟨1005⟩
def unexpectedToken : Code := ⟨2001⟩
def expectedSemicolon : Code := ⟨2002⟩
def expectedIdentifier : Code := ⟨2003⟩
def expectedExpression : Code := ⟨2004⟩
def expectedType : Code := ⟨2005⟩
def unclosedParenthesis : Code := ⟨2006⟩
def unclosedBrace : Code := ⟨2007⟩
def badDirective : Code := ⟨2008⟩
def includeNotFound : Code := ⟨2009⟩
def includeCycle : Code := ⟨2010⟩
def unknownPragma : Code := ⟨2011⟩
def voidVariable : Code := ⟨2012⟩
def unexpectedTopLevel : Code := ⟨2013⟩
def duplicateSymbol : Code := ⟨3001⟩
def unresolvedSymbol : Code := ⟨3002⟩
def typeMismatch : Code := ⟨3003⟩
def notCallable : Code := ⟨3004⟩
def argumentCount : Code := ⟨3005⟩
def badOperand : Code := ⟨3007⟩
def missingReturnValue : Code := ⟨3009⟩
def voidValue : Code := ⟨3010⟩
def lossyConversion : Code := ⟨3011⟩
def divisionByZero : Code := ⟨3012⟩
def prototypeUndefined : Code := ⟨3013⟩
def prototypeMismatch : Code := ⟨3014⟩
def snapshotDeclaration : Code := ⟨3015⟩
def builtinRedefined : Code := ⟨3017⟩
def breakOutsideLoop : Code := ⟨3018⟩
def generation : Code := ⟨4000⟩
def unresolvedDynamic : Code := ⟨4001⟩
def runtimeError : Code := ⟨4501⟩
def timings : Code := ⟨6001⟩

end Code

structure Note where
  span : Span
  message : Text
  deriving DecidableEq, Repr, Inhabited

structure Diagnostic where
  severity : Severity
  code : Code
  span : Span
  message : Text
  notes : List Note := []
  deriving DecidableEq, Repr, Inhabited

namespace Diagnostic

def error (code : Code) (span : Span) (message : Text) : Diagnostic :=
  { severity := .error, code, span, message }

def warning (code : Code) (span : Span) (message : Text) : Diagnostic :=
  { severity := .warning, code, span, message }

def withNote (diagnostic : Diagnostic) (span : Span) (message : Text) : Diagnostic :=
  { diagnostic with notes := diagnostic.notes ++ [⟨span, message⟩] }

def isError (diagnostic : Diagnostic) : Bool := diagnostic.severity.isError

/-- The listing order: by place, graver ones first, then by code. -/
def precedes (left right : Diagnostic) : Bool :=
  if left.span.file ≠ right.span.file then left.span.file < right.span.file
  else if left.span.start ≠ right.span.start then left.span.start < right.span.start
  else if left.span.stop ≠ right.span.stop then left.span.stop < right.span.stop
  else if left.severity ≠ right.severity then left.severity.rank > right.severity.rank
  else left.code.number < right.code.number

def sorted (diagnostics : List Diagnostic) : List Diagnostic :=
  diagnostics.mergeSort fun left right => !right.precedes left

def repeats (left right : Diagnostic) : Bool :=
  left.code == right.code && left.severity == right.severity && left.span == right.span &&
    left.message == right.message

end Diagnostic

end FragmentCompiler
