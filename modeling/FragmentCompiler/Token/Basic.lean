import FragmentCompiler.Source.Span

/-!
# Tokens

A token is a meaningful piece of a buffer.  What stands between tokens (blanks,
line ends and comments) is kept with the token that follows it.
-/

namespace FragmentCompiler

inductive Keyword where
  | int | float | bool | string | void
  | if | else | while | break | continue | return
  | true | false
  deriving DecidableEq, Repr, Inhabited

namespace Keyword

def spelling : Keyword → String
  | .int => "int"
  | .float => "float"
  | .bool => "bool"
  | .string => "string"
  | .void => "void"
  | .if => "if"
  | .else => "else"
  | .while => "while"
  | .break => "break"
  | .continue => "continue"
  | .return => "return"
  | .true => "true"
  | .false => "false"

def all : List Keyword :=
  [.int, .float, .bool, .string, .void, .if, .else, .while, .break, .continue, .return,
    .true, .false]

def ofText? (word : Text) : Option Keyword :=
  all.find? fun keyword => word == Text.ofString keyword.spelling

def isType : Keyword → Bool
  | .int | .float | .bool | .string | .void => Bool.true
  | _ => Bool.false

end Keyword

inductive Symbol where
  | plus | minus | star | slash | percent | assign | equal | bang | notEqual
  | less | lessEqual | greater | greaterEqual | and | or
  | semicolon | comma | leftParen | rightParen | leftBrace | rightBrace
  deriving DecidableEq, Repr, Inhabited

def Symbol.spelling : Symbol → String
  | .plus => "+"
  | .minus => "-"
  | .star => "*"
  | .slash => "/"
  | .percent => "%"
  | .assign => "="
  | .equal => "=="
  | .bang => "!"
  | .notEqual => "!="
  | .less => "<"
  | .lessEqual => "<="
  | .greater => ">"
  | .greaterEqual => ">="
  | .and => "&&"
  | .or => "||"
  | .semicolon => ";"
  | .comma => ","
  | .leftParen => "("
  | .rightParen => ")"
  | .leftBrace => "\x7b"
  | .rightBrace => "\x7d"

inductive TokenKind where
  | invalid
  | endOfInput
  | name
  | integer
  | float
  | string
  | directive
  | keyword (word : Keyword)
  | symbol (mark : Symbol)
  deriving DecidableEq, Repr, Inhabited

namespace TokenKind

/-- The name of a kind; words and marks stand for themselves. -/
def describe : TokenKind → String
  | .invalid => "Invalid"
  | .endOfInput => "EOF"
  | .name => "Ident"
  | .integer => "IntLit"
  | .float => "FloatLit"
  | .string => "StringLit"
  | .directive => "Directive"
  | .keyword word => word.spelling
  | .symbol mark => mark.spelling

def isLiteral : TokenKind → Bool
  | .integer | .float | .string | .keyword .true | .keyword .false => true
  | _ => false

def isType : TokenKind → Bool
  | .keyword word => word.isType
  | _ => false

end TokenKind

inductive TriviaKind where
  | space
  | newline
  | lineComment
  | blockComment
  deriving DecidableEq, Repr, Inhabited

def TriviaKind.name : TriviaKind → Text
  | .space => "space"
  | .newline => "newline"
  | .lineComment => "line"
  | .blockComment => "block"

structure Trivia where
  kind : TriviaKind
  span : Span
  text : Text
  deriving DecidableEq, Repr, Inhabited

structure Token where
  kind : TokenKind
  span : Span
  text : Text := []
  leading : List Trivia := []
  deriving DecidableEq, Repr, Inhabited

def Token.startsLine (token : Token) : Bool :=
  token.leading.any fun trivia => trivia.kind == .newline

end FragmentCompiler
