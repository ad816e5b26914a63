import FragmentCompiler.Analysis.Session

/-!
# What the stages do to declarations

Names left to be found at run time become lookups, variables of a wrapper become
global, and a last expression without its semicolon is shown.
-/

namespace FragmentCompiler

/-! ## Run-time lookups -/

namespace Expr

mutual

def withLookups : Expr → Expr
  | .name info spelling .deferred => .lookup { info with type := .dynamic } spelling
  | .name info spelling reference => .name info spelling reference
  | .lookup info spelling => .lookup info spelling
  | .literal info spelling value => .literal info spelling value
  | .unary info op operand => .unary info op operand.withLookups
  | .binary info op left right => .binary info op left.withLookups right.withLookups
  | .assign info target value => .assign info target.withLookups value.withLookups
  | .call info callee arguments => .call info callee.withLookups (withLookupsAll arguments)
  | .group info inner => .group info inner.withLookups
  | .convert info value target => .convert info value.withLookups target

def withLookupsAll : List Expr → List Expr
  | [] => []
  | first :: rest => first.withLookups :: withLookupsAll rest

end

end Expr

namespace Stmt

mutual

def mapExprs (change : Expr → Expr) : Stmt → Stmt
  | .block span body => .block span (mapExprsAll change body)
  | .declare span ids => .declare span ids
  | .expression span value unterminated => .expression span (change value) unterminated
  | .echo span value => .echo span (change value)
  | .branch span test yes no =>
    .branch span (change test) (yes.mapExprs change) (mapExprsOption change no)
  | .loop span test body => .loop span (change test) (body.mapExprs change)
  | .return span value => .return span (value.map change)
  | .break span => .break span
  | .continue span => .continue span
  | .empty span => .empty span

def mapExprsAll (change : Expr → Expr) : List Stmt → List Stmt
  | [] => []
  | first :: rest => first.mapExprs change :: mapExprsAll change rest

def mapExprsOption (change : Expr → Expr) : Option Stmt → Option Stmt
  | none => none
  | some no => some (no.mapExprs change)

end

mutual

def declared : Stmt → List DeclId
  | .block _ body => declaredAll body
  | .declare _ ids => ids
  | .branch _ _ yes no => yes.declared ++ declaredOption no
  | .loop _ _ body => body.declared
  | .expression .. | .echo .. | .return .. | .break _ | .continue _ | .empty _ => []

def declaredAll : List Stmt → List DeclId
  | [] => []
  | first :: rest => first.declared ++ declaredAll rest

def declaredOption : Option Stmt → List DeclId
  | none => []
  | some no => no.declared

end

end Stmt

namespace Declarations

def lookupsInInitial (decls : Declarations) (id : DeclId) : Declarations :=
  decls.modifyVariable id fun data =>
    { data with initial := data.initial.map Expr.withLookups }

def lookupsIn (decls : Declarations) (id : DeclId) : Declarations :=
  match decls.asFunction id with
  | none => decls.lookupsInInitial id
  | some data =>
    match data.body with
    | none => decls
    | some body =>
      let decls := decls.modifyFunction id fun data =>
        { data with body := some (body.mapExprs Expr.withLookups) }
      body.declared.foldl lookupsInInitial decls

/-! ## Shown values -/

def echoUnterminated : Stmt → Stmt
  | .expression span value true => .echo span value
  | statement => statement

def echoIn (decls : Declarations) (id : DeclId) : Declarations :=
  decls.modify id fun decl =>
    match decl.body with
    | .wrapper data =>
      match data.body with
      | some (.block span body) =>
        { decl with
          body := .wrapper { data with body := some (.block span (body.map echoUnterminated)) } }
      | _ => decl
    | _ => decl

end Declarations

/-! ## Promoted variables -/

namespace Analysis

/-- The assignment that stays behind in place of a promoted variable. -/
def assignmentOf (id : DeclId) (decl : Decl) (type : Ty) (value : Expr) : Stmt :=
  let span := decl.span.cover value.span
  let target : Expr := .name { span := decl.span, type } decl.name (.declaration id)
  .expression span (.assign { span, type } target value) false

structure Extraction where
  promoted : List DeclId := []
  assignments : List Stmt := []
  kept : List DeclId := []
  deriving Repr, Inhabited

def promoteAll (analysis : Analysis) : List DeclId → Extraction × Analysis
  | [] => ({}, analysis)
  | id :: rest =>
    let before := analysis.decls.get? id
    let (done, analysis) := analysis.promote id
    let (others, analysis) := analysis.promoteAll rest
    if done then
      let assignments := match before with
        | some decl =>
          match decl.asVariable with
          | some { type, initial := some value, .. } => [assignmentOf id decl type value]
          | _ => []
        | none => []
      ({ others with
          promoted := id :: others.promoted
          assignments := assignments ++ others.assignments },
        analysis)
    else ({ others with kept := id :: others.kept }, analysis)

/-- Promotes the variables of statements; gives the promoted ones and what the
statements become. -/
def extractStatements (analysis : Analysis) : List Stmt → (List DeclId × List Stmt) × Analysis
  | [] => (([], []), analysis)
  | .declare span ids :: rest =>
    let (extraction, analysis) := analysis.promoteAll ids
    let ((promoted, statements), analysis) := analysis.extractStatements rest
    let kept := if extraction.kept.isEmpty then [] else [Stmt.declare span extraction.kept]
    ((extraction.promoted ++ promoted, extraction.assignments ++ kept ++ statements), analysis)
  | statement :: rest =>
    let ((promoted, statements), analysis) := analysis.extractStatements rest
    ((promoted, statement :: statements), analysis)

def extract (analysis : Analysis) (id : DeclId) : List DeclId × Analysis :=
  match analysis.decls.get? id with
  | some { body := .wrapper { body := some (.block span body), .. }, invalid := false, .. } =>
    let ((promoted, statements), analysis) := analysis.extractStatements body
    if promoted.isEmpty then ([], analysis)
    else
      (promoted, analysis.updateDecls fun decls =>
        decls.modifyFunction id fun data =>
          { data with body := some (.block span statements) })
  | _ => ([], analysis)

/-- Promotes the variables of every wrapper of a group; they come before it. -/
def extractGroup (analysis : Analysis) : Group → Group × Analysis
  | [] => ([], analysis)
  | id :: rest =>
    let (promoted, analysis) := analysis.extract id
    let (others, analysis) := analysis.extractGroup rest
    (promoted ++ id :: others, analysis)

end Analysis

end FragmentCompiler
