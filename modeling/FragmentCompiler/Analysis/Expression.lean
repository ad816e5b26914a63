import FragmentCompiler.Analysis.Basic

/-!
# Checking expressions

Checking gives every expression its type, finds out what each name refers to and
inserts conversions.  A name that is not known yet may be fetched from an archive,
which is a parameter here because fetching means checking another declaration.
-/

namespace FragmentCompiler

structure BodyContext where
  result : Ty
  /-- The visible local names, the innermost scope first. -/
  scopes : List (List (Text × DeclId)) := [[]]
  nextSlot : Nat := 0
  loops : Nat := 0
  deriving Repr, Inhabited

def BodyContext.lookup (context : BodyContext) (name : Text) : Option DeclId :=
  context.scopes.findSome? fun scope => scope.lookup name

structure Checker where
  analysis : Analysis
  errors : Nat := 0
  body : BodyContext := { result := .void }
  deriving Inhabited

abbrev Check := StateM Checker

abbrev Fetch := Text → Span → Analysis → Option Meaning × Analysis

namespace Check

def report (diagnostic : Diagnostic) : Check Unit :=
  modify fun checker =>
    { checker with
      analysis := checker.analysis.report diagnostic
      errors := if diagnostic.severity = .error then checker.errors + 1 else checker.errors }

def reject (span : Span) (code : Code) (message : Text) : Check Unit :=
  report (.error code span message)

def decls : Check Declarations := return (← get).analysis.decls

def askResolver (name : Text) (span : Span) : Check Bool := do
  let checker ← get
  match checker.analysis.resolver with
  | none => return false
  | some resolver =>
    let (deferred, resolver) := resolver.ask name span
    set { checker with analysis := { checker.analysis with resolver := some resolver } }
    return deferred

def globalMeaning (fetch : Fetch) (name : Text) (span : Span) : Check (Option Meaning) := do
  let checker ← get
  match checker.analysis.names.lookup name with
  | some meaning => return some meaning
  | none =>
    let (meaning, analysis) := fetch name span checker.analysis
    set { checker with analysis }
    return meaning

/-- A name with what it refers to; `called` says that it is being called. -/
def name (fetch : Fetch) (called : Bool) (info : ExprInfo) (spelling : Text)
    (reference : Reference) : Check Expr := do
  let typed (type : Ty) (reference : Reference) : Expr :=
    .name { info with type } spelling reference
  match (← get).body.lookup spelling with
  | some id =>
    let type := (((← decls).asVariable id).map Variable.type).getD .invalid
    return typed type (.declaration id)
  | none =>
    match ← globalMeaning fetch spelling info.span with
    | none =>
      if ← askResolver spelling info.span then return typed .dynamic .deferred
      else
        reject info.span .unresolvedSymbol
          ("use of undeclared identifier '" ++ spelling ++ "'")
        return typed .invalid reference
    | some (.builtin _) =>
      if called then return typed .void .builtin
      else
        reject info.span .badOperand ("builtin '" ++ spelling ++ "' can only be called")
        return typed .invalid .builtin
    | some (.function id) =>
      if called then
        let result := (((← decls).asFunction id).map Function.result).getD .invalid
        return typed result (.declaration id)
      else
        reject info.span .badOperand ("function '" ++ spelling ++ "' used as a value")
        return typed .invalid (.declaration id)
    | some (.variable id) =>
      let type := (((← decls).asVariable id).map Variable.type).getD .invalid
      return typed type (.declaration id)

def convert (expr : Expr) (target : Ty) : Check Expr := do
  let source := expr.type
  if source = .invalid || source = target then return expr
  else if source = .void then
    reject expr.span .voidValue ("void value cannot be converted to " ++ target.name)
    return expr
  else if source = .dynamic then return expr.converted target
  else if source = .int && target = .float then return expr.converted target
  else if source = .float && target = .int then
    report (.warning .lossyConversion expr.span
      "implicit conversion from float to int may lose precision")
    return expr.converted target
  else
    reject expr.span .typeMismatch
      ("cannot use " ++ source.name ++ " value as " ++ target.name)
    return expr

def valueType (expr : Expr) : Check Ty := do
  if expr.type = .void then
    reject expr.span .voidValue "void value used where a value is required"
    return .invalid
  else return expr.type

inductive Demand where
  | nothing
  | value
  | length
  | type (target : Ty)
  deriving DecidableEq, Repr, Inhabited

def settle (demand : Demand) (expr : Expr) : Check Expr := do
  match demand with
  | .nothing => return expr
  | .value =>
    let _ ← valueType expr
    return expr
  | .length =>
    let type ← valueType expr
    if type ≠ .string && type ≠ .dynamic && type ≠ .invalid then
      reject expr.span .typeMismatch ("len expects string, got " ++ type.name)
    return expr
  | .type target => convert expr target

def withoutParentheses : Expr → Expr
  | .group _ inner => withoutParentheses inner
  | expr => expr

def isZeroLiteral (expr : Expr) : Bool :=
  match withoutParentheses expr with
  | .literal _ _ (.int value) => value == 0
  | .literal _ _ (.float value) => value == 0
  | _ => false

def unaryType (op : UnaryOp) (type : Ty) : Option Ty :=
  match op, type with
  | _, .invalid => some .invalid
  | .not, .dynamic => some .bool
  | .negate, .dynamic => some .dynamic
  | .negate, .int => some .int
  | .negate, .float => some .float
  | .not, .bool => some .bool
  | _, _ => none

/-- The type of an operator between two operands with values; none when it is not
defined on them. -/
def binaryType (op : BinaryOp) (left right : Ty) : Option Ty :=
  let numeric := left.isNumeric && right.isNumeric
  if left = .dynamic || right = .dynamic then
    some (if op.isComparison || op.isLogical then .bool else .dynamic)
  else if op.isLogical then if left = .bool && right = .bool then some .bool else none
  else if op = .eq || op = .ne then if numeric || left = right then some .bool else none
  else if op.isComparison then
    if numeric || (left = .string && right = .string) then some .bool else none
  else if op = .add && left = .string && right = .string then some .string
  else if op = .mod then if left = .int && right = .int then some .int else none
  else if numeric then some (if left = right then left else .float)
  else none

def promote (left right : Expr) : Expr × Expr :=
  if left.type = .int && right.type = .float then (left.converted .float, right)
  else if left.type = .float && right.type = .int then (left, right.converted .float)
  else (left, right)

def binary (info : ExprInfo) (op : BinaryOp) (left right : Expr) : Check Expr := do
  let failed : Expr := .binary { info with type := .invalid } op left right
  if left.type = .invalid || right.type = .invalid then return failed
  else if left.type = .void || right.type = .void then
    reject info.span .voidValue ("void value used in '" ++ op.spelling ++ "'")
    return failed
  else
    if (op = .div || op = .mod) && isZeroLiteral right then
      report (.warning .divisionByZero right.span "division by zero")
    match binaryType op left.type right.type with
    | none =>
      reject info.span .badOperand
        ("invalid operands to '" ++ op.spelling ++ "' (" ++ left.type.name ++ " and " ++
          right.type.name ++ ")")
      return failed
    | some type =>
      let (left, right) := promote left right
      return .binary { info with type } op left right

/-- The result of a call and what it demands of its arguments; without demands the
arguments stay unchecked. -/
structure CallPlan where
  result : Ty
  demands : Option (List Demand)
  deriving DecidableEq, Repr, Inhabited

def CallPlan.uniform (result : Ty) (demand : Demand) (count : Nat) : CallPlan :=
  { result, demands := some (List.replicate count demand) }

def planSingle (span : Span) (builtin : Builtin) (result : Ty) (demand : Demand) (count : Nat) :
    Check CallPlan := do
  if count = 1 then return .uniform result demand 1
  else
    reject span .argumentCount
      (builtin.name ++ " expects 1 argument, got " ++ Text.decimal count)
    return .uniform result .nothing count

def notePrototypeCall (name : Text) (span : Span) : Check Unit :=
  modify fun checker =>
    { checker with
      analysis :=
        { checker.analysis with
          prototypeCalls := checker.analysis.prototypeCalls ++ [{ name, span }] } }

def planFunction (span : Span) (name : Text) (declSpan : Span) (data : Function) (count : Nat) :
    Check CallPlan := do
  if data.body.isNone then notePrototypeCall name span
  if count = data.parameters.length then
    let decls ← decls
    let demands := data.parameters.map fun parameter =>
      Demand.type (((decls.asVariable parameter).map Variable.type).getD .invalid)
    return { result := data.result, demands := some demands }
  else
    report ((Diagnostic.error .argumentCount span
      ("wrong number of arguments to '" ++ name ++ "'")).withNote declSpan "declared here")
    return .uniform data.result .nothing count

def planCall (span : Span) (callee : Expr) (count : Nat) : Check CallPlan := do
  match callee with
  | .name _ spelling .builtin =>
    match Builtin.ofText? spelling with
    | some .len => planSingle span .len .int .length count
    | some .str => planSingle span .str .string .value count
    | _ => return .uniform .void .value count
  | .name _ _ .deferred => return .uniform .dynamic .value count
  | .name info spelling (.declaration id) =>
    match (← decls).get? id with
    | some { body := .function data, span := declSpan, .. } =>
      planFunction span spelling declSpan data count
    | _ =>
      reject info.span .notCallable ("'" ++ spelling ++ "' is not a function")
      return .uniform .invalid .nothing count
  | .name _ _ .unresolved => return .uniform .invalid .nothing count
  | _ =>
    reject callee.span .notCallable "called object is not a function"
    return { result := .invalid, demands := none }

def isName : Expr → Bool
  | .name .. => true
  | _ => false

mutual

/-- An expression with types and conversions; `called` says that it is being
called. -/
def expression (fetch : Fetch) (called : Bool) : Expr → Check Expr
  | .literal info spelling value =>
    let type := match value with
      | .int _ => Ty.int
      | .float _ => Ty.float
      | .string _ => Ty.string
      | .bool _ => Ty.bool
    return .literal { info with type } spelling value
  | .name info spelling reference => name fetch called info spelling reference
  | .lookup info spelling => return .lookup info spelling
  | .convert info value target => return .convert info value target
  | .group info inner => do
      let inner ← expression fetch false inner
      return .group { info with type := inner.type } inner
  | .unary info op operand => do
      let operand ← expression fetch false operand
      match unaryType op operand.type with
      | some type => return .unary { info with type } op operand
      | none =>
        reject info.span .badOperand
          ("invalid operand of type " ++ operand.type.name ++ " for unary '" ++
            op.spelling ++ "'")
        return .unary { info with type := .invalid } op operand
  | .binary info op left right => do
      let left ← expression fetch false left
      let right ← expression fetch false right
      binary info op left right
  | .assign info target value => do
      let target ← expression fetch false target
      let value ← expression fetch false value
      if target.type = .invalid then return .assign { info with type := .invalid } target value
      else if target.type = .dynamic then
        let _ ← valueType value
        return .assign { info with type := .dynamic } target value
      else
        let value ← convert value target.type
        return .assign { info with type := target.type } target value
  | .call info callee arguments => do
      let callee ← expression fetch (isName callee) callee
      let plan ← planCall info.span callee arguments.length
      let arguments ← match plan.demands with
        | some demands => demanded fetch demands arguments
        | none => pure arguments
      return .call { info with type := plan.result } callee arguments

def demanded (fetch : Fetch) (demands : List Demand) : List Expr → Check (List Expr)
  | [] => return []
  | argument :: rest => do
      let argument ← expression fetch false argument
      let argument ← settle (demands.headD .nothing) argument
      return argument :: (← demanded fetch demands.tail rest)

end

/-- A condition: a truth value, or a value that turns out to be one. -/
def condition (fetch : Fetch) (expr : Expr) : Check Expr := do
  let expr ← expression fetch false expr
  match expr.type with
  | .bool | .invalid => return expr
  | .dynamic => return expr.converted .bool
  | type =>
    reject expr.span .typeMismatch ("condition must be bool, got " ++ type.name)
    return expr

end Check

end FragmentCompiler
