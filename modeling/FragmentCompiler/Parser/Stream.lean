import FragmentCompiler.Source.FileSet
import FragmentCompiler.Syntax.Basic
import FragmentCompiler.Token.Lexer

/-!
# The token stream of a parser

A parser reads from a stack of buffers: an included buffer is read before the
rest of the buffer that includes it.  Lexical faults are reported when their
token is first looked at, so reports appear in reading order.
-/

namespace FragmentCompiler

structure Input where
  file : FileId
  path : Text
  virtual : Bool
  /-- The buffer is a fragment, whose last expression may lack its semicolon. -/
  fragment : Bool
  /-- What is left to read; the last token is the end of input. -/
  pending : List Lexer.Lexeme
  /-- How many of the pending tokens were already looked at. -/
  seen : Nat := 0
  deriving Repr, Inhabited

structure Parser where
  files : FileSet := {}
  tree : FileTree := FileTree.empty []
  decls : Declarations := {}
  includePaths : List Text := []
  /-- Buffers that can be included by name without a file. -/
  virtuals : List (Text × Text) := []
  /-- Whether pragmas are passed on or have no effect. -/
  takesPragmas : Bool := false
  inputs : List Input := []
  wrappers : Nat := 0
  depth : Nat := 0
  lastSpan : Span := Span.none
  errors : Nat := 0
  /-- Everything reported, oldest first. -/
  reports : Array Diagnostic := #[]
  deriving Inhabited

namespace Parser

def enter (parser : Parser) (id : FileId) : Parser :=
  match parser.files.get? id with
  | none => parser
  | some buffer =>
    let input : Input :=
      { file := id
        path := buffer.path
        virtual := buffer.flags.virtual
        fragment := buffer.flags.fragment
        pending := Lexer.lex id buffer.content }
    { parser with inputs := input :: parser.inputs }

def isPending (parser : Parser) : Bool := !parser.inputs.isEmpty

def leave (parser : Parser) : Parser := { parser with inputs := parser.inputs.tail }

def abandon (parser : Parser) : Parser := { parser with inputs := [] }

def remaining (parser : Parser) : Nat :=
  match parser.inputs with
  | [] => 0
  | input :: _ => input.pending.length

def record (parser : Parser) (diagnostic : Diagnostic) : Parser :=
  { parser with
    errors := if diagnostic.severity = .error then parser.errors + 1 else parser.errors
    reports := parser.reports.push diagnostic }

def endToken : Token := { kind := .endOfInput, span := Span.none }

def lookAt (parser : Parser) (index : Nat) : Token × Parser :=
  match parser.inputs with
  | [] => (endToken, parser)
  | input :: below =>
    let token := match input.pending[index]? with
      | some lexeme => lexeme.token
      | none => (input.pending.getLast?.map Lexer.Lexeme.token).getD endToken
    if index < input.seen then (token, parser)
    else
      let fresh := (input.pending.take (index + 1)).drop input.seen
      (token,
        { parser with
          inputs := { input with seen := input.seen + fresh.length } :: below
          reports := parser.reports ++ fresh.flatMap Lexer.Lexeme.faults })

/-- Takes the next token; the end of input stays. -/
def take (parser : Parser) : Token × Parser :=
  let (token, parser) := parser.lookAt 0
  match parser.inputs with
  | [] => (token, parser)
  | input :: below =>
    if token.kind = .endOfInput then (token, parser)
    else
      (token,
        { parser with
          inputs := { input with pending := input.pending.tail, seen := input.seen - 1 } :: below
          lastSpan := if token.kind = .invalid then parser.lastSpan else token.span })

end Parser

/-- A reader of some grammatical form; when it fails, what it read stays read. -/
abbrev Reader := OptionT (StateM Parser)

namespace Reader

def peekAt (index : Nat) : Reader Token := fun parser =>
  let (token, parser) := parser.lookAt index
  (some token, parser)

def peek : Reader Token := peekAt 0

def take : Reader Token := fun parser =>
  let (token, parser) := parser.take
  (some token, parser)

def sees (kind : TokenKind) : Reader Bool := do
  return (← peek).kind = kind

def seesMark (mark : Symbol) : Reader Bool := sees (.symbol mark)

def report (diagnostic : Diagnostic) : Reader Unit := fun parser =>
  (some (), parser.record diagnostic)

def reject {α : Type} (code : Code) (span : Span) (message : Text) : Reader α := do
  report (.error code span message)
  failure

/-- Where an error about the next token is shown; at the end of the input that is
right after the last token. -/
def place : Reader Span := do
  let token ← peek
  let last := (← get).lastSpan
  if token.kind = .endOfInput && last.file = token.span.file && 0 < last.stop then
    return ⟨last.file, last.stop, last.stop⟩
  else return token.span

def rejectHere {α : Type} (code : Code) (message : Text) : Reader α := do
  reject code (← place) message

def expect (kind : TokenKind) (code : Code) (message : Text) : Reader Token := do
  if ← sees kind then take else rejectHere code message

def lastSpan : Reader Span := return (← get).lastSpan

def declare (name : Text) (span : Span) (body : DeclBody) : Reader DeclId := fun parser =>
  let (id, decls) := parser.decls.add { name, span, body }
  (some id, { parser with decls })

def atFragmentEnd : Reader Bool := do
  match (← get).inputs with
  | input :: _ => if input.fragment then sees .endOfInput else return false
  | [] => return false

end Reader

end FragmentCompiler
