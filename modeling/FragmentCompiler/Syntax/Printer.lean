import FragmentCompiler.Syntax.Basic

/-!
# Printing declarations

Declarations are written back in the language they were read from.  Conversions
the analysis inserted do not show, and names looked up at run time print as plain
names, so what is printed reads back as the same declaration.
-/

namespace FragmentCompiler

namespace Expr

mutual

def render : Expr → Text
  | .name _ spelling _ => spelling
  | .lookup _ spelling => spelling
  | .literal _ spelling _ => spelling
  | .unary _ op operand => op.spelling ++ operand.render
  | .binary _ op left right => left.render ++ " " ++ op.spelling ++ " " ++ right.render
  | .assign _ target value => target.render ++ " = " ++ value.render
  | .call _ callee arguments => callee.render ++ "(" ++ renderArguments arguments ++ ")"
  | .group _ inner => "(" ++ inner.render ++ ")"
  | .convert _ value _ => value.render

def renderArguments : List Expr → Text
  | [] => []
  | [last] => last.render
  | first :: rest => first.render ++ ", " ++ renderArguments rest

end

end Expr

def lineBreak (depth : Nat) : Text := "\n" ++ Text.spaces (4 * depth)

namespace Declarations

def renderVariable (decls : Declarations) (id : DeclId) : Text :=
  match decls.get? id with
  | none => []
  | some decl =>
    match decl.asVariable with
    | none => []
    | some data =>
      let head := data.type.name ++ " " ++ decl.name
      match data.initial.or data.hoisted with
      | some value => head ++ " = " ++ value.render
      | none => head

def renderVariables (decls : Declarations) (depth : Nat) (ids : List DeclId) : Text :=
  Text.join (lineBreak depth) (ids.map fun id => decls.renderVariable id ++ ";")

mutual

def renderStmt (decls : Declarations) (depth : Nat) : Stmt → Text
  | .block _ body =>
    "\x7b" ++ decls.renderBody (depth + 1) body ++ lineBreak depth ++ "\x7d"
  | .declare _ declared => decls.renderVariables depth declared
  | .expression _ value unterminated =>
    if unterminated then value.render else value.render ++ ";"
  | .echo _ value => value.render
  | .branch _ condition yes no =>
    "if (" ++ condition.render ++ ") " ++ decls.renderStmt depth yes ++
      decls.renderElse depth no
  | .loop _ condition body =>
    "while (" ++ condition.render ++ ") " ++ decls.renderStmt depth body
  | .return _ value =>
    match value with
    | some value => "return " ++ value.render ++ ";"
    | none => "return;"
  | .break _ => "break;"
  | .continue _ => "continue;"
  | .empty _ => ";"

def renderBody (decls : Declarations) (depth : Nat) : List Stmt → Text
  | [] => []
  | first :: rest =>
    lineBreak depth ++ decls.renderStmt depth first ++ decls.renderBody depth rest

def renderElse (decls : Declarations) (depth : Nat) : Option Stmt → Text
  | some no => " else " ++ decls.renderStmt depth no
  | none => []

end

def renderParameter (decls : Declarations) (id : DeclId) : Text :=
  match decls.get? id with
  | none => []
  | some decl =>
    let type := match decl.asVariable with
      | some data => data.type.name
      | none => []
    if decl.name.isEmpty then type else type ++ " " ++ decl.name

def render (decls : Declarations) (id : DeclId) : Text :=
  match decls.get? id with
  | none => "<nil decl>"
  | some decl =>
    match decl.asFunction with
    | none => decls.renderVariable id ++ ";"
    | some data =>
      let head := data.result.name ++ " " ++ decl.name ++ "(" ++
        Text.join ", " (data.parameters.map decls.renderParameter) ++ ")"
      match data.body with
      | none => head ++ ";"
      | some body => head ++ " " ++ decls.renderStmt 0 body

def renderGroup (decls : Declarations) (group : Group) : Text :=
  group.flatMap fun id => decls.render id ++ "\n"

end Declarations

end FragmentCompiler
