import FragmentCompiler.Token.Basic

/-!
# Syntax trees

Expressions and statements are trees.  Declarations are numbered in the order
they are made and kept in a table, because later fragments and the statements
that introduce variables refer to them.
-/

namespace FragmentCompiler

inductive Ty where
  /-- Not analyzed, or rejected. -/
  | invalid
  | void
  | int
  | float
  | bool
  | string
  /-- Known only when the code runs. -/
  | dynamic
  deriving DecidableEq, Repr, Inhabited

namespace Ty

def name : Ty → Text
  | .invalid => "<invalid>"
  | .void => "void"
  | .int => "int"
  | .float => "float"
  | .bool => "bool"
  | .string => "string"
  | .dynamic => "dynamic"

def isNumeric : Ty → Bool
  | .int | .float => true
  | _ => false

def ofKind? : TokenKind → Option Ty
  | .keyword .int => some .int
  | .keyword .float => some .float
  | .keyword .bool => some .bool
  | .keyword .string => some .string
  | .keyword .void => some .void
  | _ => none

end Ty

inductive UnaryOp where
  | negate
  | not
  deriving DecidableEq, Repr, Inhabited

def UnaryOp.spelling : UnaryOp → Text
  | .negate => "-"
  | .not => "!"

inductive BinaryOp where
  | add | sub | mul | div | mod
  | lt | le | gt | ge | eq | ne
  | and | or
  deriving DecidableEq, Repr, Inhabited

namespace BinaryOp

def spelling : BinaryOp → Text
  | .add => "+"
  | .sub => "-"
  | .mul => "*"
  | .div => "/"
  | .mod => "%"
  | .lt => "<"
  | .le => "<="
  | .gt => ">"
  | .ge => ">="
  | .eq => "=="
  | .ne => "!="
  | .and => "&&"
  | .or => "||"

def all : List BinaryOp := [.add, .sub, .mul, .div, .mod, .lt, .le, .gt, .ge, .eq, .ne, .and, .or]

def ofText? (text : Text) : Option BinaryOp := all.find? fun operator => operator.spelling = text

def isComparison : BinaryOp → Bool
  | .lt | .le | .gt | .ge | .eq | .ne => true
  | _ => false

/-- Whether an operator may leave its right operand alone. -/
def isLogical : BinaryOp → Bool
  | .and | .or => true
  | _ => false

/-- How strongly an operator binds; higher binds stronger. -/
def strength : BinaryOp → Nat
  | .or => 1
  | .and => 2
  | .eq | .ne => 3
  | .lt | .le | .gt | .ge => 4
  | .add | .sub => 5
  | .mul | .div | .mod => 6

def ofKind? : TokenKind → Option BinaryOp
  | .symbol .or => some .or
  | .symbol .and => some .and
  | .symbol .equal => some .eq
  | .symbol .notEqual => some .ne
  | .symbol .less => some .lt
  | .symbol .lessEqual => some .le
  | .symbol .greater => some .gt
  | .symbol .greaterEqual => some .ge
  | .symbol .plus => some .add
  | .symbol .minus => some .sub
  | .symbol .star => some .mul
  | .symbol .slash => some .div
  | .symbol .percent => some .mod
  | _ => none

end BinaryOp

/-- The number of a declaration, counted from one; zero means none. -/
abbrev DeclId := Nat

inductive Reference where
  | unresolved
  | declaration (id : DeclId)
  | builtin
  /-- Left to be found when the code runs. -/
  | deferred
  deriving DecidableEq, Repr, Inhabited

inductive LiteralValue where
  | int (value : Int64)
  | float (value : Float)
  | string (value : Text)
  | bool (value : Bool)
  deriving Repr, Inhabited

structure ExprInfo where
  span : Span
  type : Ty := .invalid
  deriving DecidableEq, Repr, Inhabited

inductive Expr where
  | name (info : ExprInfo) (spelling : Text) (reference : Reference)
  /-- A name looked up when the code runs. -/
  | lookup (info : ExprInfo) (spelling : Text)
  | literal (info : ExprInfo) (spelling : Text) (value : LiteralValue)
  | unary (info : ExprInfo) (op : UnaryOp) (operand : Expr)
  | binary (info : ExprInfo) (op : BinaryOp) (left right : Expr)
  | assign (info : ExprInfo) (target value : Expr)
  | call (info : ExprInfo) (callee : Expr) (arguments : List Expr)
  | group (info : ExprInfo) (inner : Expr)
  /-- A conversion the analysis inserted. -/
  | convert (info : ExprInfo) (value : Expr) (target : Ty)
  deriving Repr, Inhabited

namespace Expr

def info : Expr → ExprInfo
  | .name info .. | .lookup info .. | .literal info .. | .unary info .. | .binary info ..
  | .assign info .. | .call info .. | .group info .. | .convert info .. => info

def span (expr : Expr) : Span := expr.info.span

def type (expr : Expr) : Ty := expr.info.type

def withType (expr : Expr) (type : Ty) : Expr :=
  match expr with
  | .name info spelling reference => .name { info with type } spelling reference
  | .lookup info spelling => .lookup { info with type } spelling
  | .literal info spelling value => .literal { info with type } spelling value
  | .unary info op operand => .unary { info with type } op operand
  | .binary info op left right => .binary { info with type } op left right
  | .assign info target value => .assign { info with type } target value
  | .call info callee arguments => .call { info with type } callee arguments
  | .group info inner => .group { info with type } inner
  | .convert info value target => .convert { info with type } value target

def converted (expr : Expr) (target : Ty) : Expr :=
  .convert { span := expr.span, type := target } expr target

end Expr

inductive Stmt where
  | block (span : Span) (body : List Stmt)
  | declare (span : Span) (declared : List DeclId)
  /-- An expression; the last one of a fragment may lack its semicolon. -/
  | expression (span : Span) (value : Expr) (unterminated : Bool)
  | echo (span : Span) (value : Expr)
  | branch (span : Span) (condition : Expr) (yes : Stmt) (no : Option Stmt)
  | loop (span : Span) (condition : Expr) (body : Stmt)
  | return (span : Span) (value : Option Expr)
  | break (span : Span)
  | continue (span : Span)
  | empty (span : Span)
  deriving Repr, Inhabited

def Stmt.span : Stmt → Span
  | .block span .. | .declare span .. | .expression span .. | .echo span .. | .branch span ..
  | .loop span .. | .return span .. | .break span | .continue span | .empty span => span

inductive Storage where
  | global
  | local
  | parameter
  deriving DecidableEq, Repr, Inhabited

structure Variable where
  type : Ty
  initial : Option Expr := none
  storage : Storage
  slot : Nat := 0
  /-- The initial value of a promoted variable; it is assigned where the variable
  was declared. -/
  hoisted : Option Expr := none
  deriving Repr, Inhabited

/-- A declared function; without a body it is a prototype. -/
structure Function where
  result : Ty
  parameters : List DeclId := []
  body : Option Stmt := none
  frame : Nat := 0
  deriving Repr, Inhabited

inductive DeclBody where
  | variable (data : Variable)
  | function (data : Function)
  | wrapper (data : Function)
  deriving Repr, Inhabited

def DeclBody.kind : DeclBody → Text
  | .variable _ => "var"
  | .function _ => "func"
  | .wrapper _ => "wrapper"

structure Decl where
  name : Text
  span : Span
  body : DeclBody
  invalid : Bool := false
  external : Bool := false
  promoted : Bool := false
  deriving Repr, Inhabited

namespace Decl

def flagBits (decl : Decl) : Nat :=
  decl.invalid.toNat + 2 * decl.external.toNat + 4 * decl.promoted.toNat

def asVariable (decl : Decl) : Option Variable :=
  match decl.body with
  | .variable data => some data
  | _ => none

def asFunction (decl : Decl) : Option Function :=
  match decl.body with
  | .function data | .wrapper data => some data
  | .variable _ => none

def isWrapper (decl : Decl) : Bool :=
  match decl.body with
  | .wrapper _ => true
  | _ => false

def isPrototype (decl : Decl) : Bool :=
  match decl.asFunction with
  | some data => data.body.isNone
  | none => false

end Decl

structure Declarations where
  entries : Array Decl := #[]
  deriving Repr, Inhabited

namespace Declarations

def get? (decls : Declarations) (id : DeclId) : Option Decl :=
  match id with
  | 0 => none
  | index + 1 => decls.entries[index]?

def add (decls : Declarations) (decl : Decl) : DeclId × Declarations :=
  (decls.entries.size + 1, ⟨decls.entries.push decl⟩)

def modify (decls : Declarations) (id : DeclId) (change : Decl → Decl) : Declarations :=
  match id with
  | 0 => decls
  | index + 1 => ⟨decls.entries.modify index change⟩

def asVariable (decls : Declarations) (id : DeclId) : Option Variable :=
  (decls.get? id).bind Decl.asVariable

def asFunction (decls : Declarations) (id : DeclId) : Option Function :=
  (decls.get? id).bind Decl.asFunction

def modifyVariable (decls : Declarations) (id : DeclId) (change : Variable → Variable) :
    Declarations :=
  decls.modify id fun decl =>
    match decl.body with
    | .variable data => { decl with body := .variable (change data) }
    | _ => decl

def modifyFunction (decls : Declarations) (id : DeclId) (change : Function → Function) :
    Declarations :=
  decls.modify id fun decl =>
    match decl.body with
    | .function data => { decl with body := .function (change data) }
    | .wrapper data => { decl with body := .wrapper (change data) }
    | .variable _ => decl

def isPrototype (decls : Declarations) (id : DeclId) : Bool :=
  match decls.get? id with
  | some decl => decl.isPrototype
  | none => false

end Declarations

abbrev Group := List DeclId

end FragmentCompiler
