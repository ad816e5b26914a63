import FragmentCompiler.Analysis.Expression

/-!
# Checking statements and declarations

A function is declared before its body is checked, so it may call itself.  A
variable is declared after its initial value is checked, so the value sees the
name as it was before.  An unknown name is fetched from the archive by checking
the archived declaration in between.
-/

namespace FragmentCompiler

namespace Check

/-! ## Statements -/

def updateDecls (change : Declarations → Declarations) : Check Unit :=
  modify fun checker => { checker with analysis := checker.analysis.updateDecls change }

def updateBody (change : BodyContext → BodyContext) : Check Unit :=
  modify fun checker => { checker with body := change checker.body }

def openScope : Check Unit :=
  updateBody fun body => { body with scopes := [] :: body.scopes }

def closeScope : Check Unit :=
  updateBody fun body => { body with scopes := body.scopes.tail }

def spanOf (id : DeclId) : Check Span :=
  return (((← decls).get? id).map Decl.span).getD Span.none

def rejectAfter (span : Span) (code : Code) (message : Text) (earlier : DeclId) (note : Text) :
    Check Unit := do
  report ((Diagnostic.error code span message).withNote (← spanOf earlier) note)

def bindName (name : Text) (id : DeclId) : Check Unit :=
  updateBody fun body =>
    { body with
      scopes := match body.scopes with
        | [] => [[(name, id)]]
        | scope :: outer => ((name, id) :: scope) :: outer
      nextSlot := body.nextSlot + 1 }

def inScope? (name : Text) : Check (Option DeclId) := do
  return ((← get).body.scopes.headD []).lookup name

def declareLocal (id : DeclId) : Check Unit := do
  match (← decls).get? id with
  | none => return
  | some decl =>
    match ← inScope? decl.name with
    | some earlier =>
      rejectAfter decl.span .duplicateSymbol ("redefinition of '" ++ decl.name ++ "'") earlier
        "previous definition is here"
    | none =>
      if (Builtin.ofText? decl.name).isSome then
        reject decl.span .builtinRedefined ("cannot redefine builtin '" ++ decl.name ++ "'")
      else
        let slot := (← get).body.nextSlot
        bindName decl.name id
        updateDecls fun decls =>
          decls.modifyVariable id fun data => { data with storage := .local, slot }

def initialValue (fetch : Fetch) (id : DeclId) : Check Unit := do
  match (← decls).asVariable id with
  | some { type, initial := some value, .. } =>
    let value ← expression fetch false value
    let value ← convert value type
    updateDecls fun decls =>
      decls.modifyVariable id fun data => { data with initial := some value }
  | _ => return

/-- Local variables in order; each sees those before it. -/
def localVariables (fetch : Fetch) : List DeclId → Check Unit
  | [] => return
  | id :: rest => do
      initialValue fetch id
      declareLocal id
      localVariables fetch rest

def returned (fetch : Fetch) (span : Span) (value : Option Expr) : Check (Option Expr) := do
  let result := (← get).body.result
  match value with
  | none =>
    if result ≠ .void then
      reject span .missingReturnValue
        ("non-void function must return a " ++ result.name ++ " value")
    return none
  | some value =>
    let value ← expression fetch false value
    if result = .void then
      reject span .typeMismatch "void function cannot return a value"
      return some value
    else return some (← convert value result)

def insideLoop (span : Span) : Check Unit := do
  if (← get).body.loops = 0 then
    reject span .breakOutsideLoop "break or continue outside of a loop"

mutual

def statement (fetch : Fetch) : Stmt → Check Stmt
  | .block span body => do
      openScope
      let body ← statements fetch body
      closeScope
      return .block span body
  | .declare span ids => do
      localVariables fetch ids
      return .declare span ids
  | .expression span value unterminated => do
      return .expression span (← expression fetch false value) unterminated
  | .echo span value => do
      let value ← expression fetch false value
      let _ ← valueType value
      return .echo span value
  | .branch span test yes no => do
      let test ← condition fetch test
      openScope
      let yes ← statement fetch yes
      closeScope
      let no ← optional fetch no
      return .branch span test yes no
  | .loop span test body => do
      let test ← condition fetch test
      updateBody fun context => { context with loops := context.loops + 1 }
      openScope
      let body ← statement fetch body
      closeScope
      updateBody fun context => { context with loops := context.loops - 1 }
      return .loop span test body
  | .return span value => do return .return span (← returned fetch span value)
  | .break span => do
      insideLoop span
      return .break span
  | .continue span => do
      insideLoop span
      return .continue span
  | .empty span => return .empty span

def statements (fetch : Fetch) : List Stmt → Check (List Stmt)
  | [] => return []
  | first :: rest => do
      let first ← statement fetch first
      return first :: (← statements fetch rest)

def optional (fetch : Fetch) : Option Stmt → Check (Option Stmt)
  | none => return none
  | some no => do
      openScope
      let no ← statement fetch no
      closeScope
      return some no

end

/-! ## Declarations -/

def declareName (name : Text) (meaning : Meaning) : Check Unit :=
  modify fun checker =>
    { checker with
      analysis :=
        { checker.analysis with names := checker.analysis.names.declare name meaning } }

def sameSignature (decls : Declarations) (left right : DeclId) : Bool :=
  let signature (id : DeclId) : Option (Ty × List (Option Ty)) :=
    (decls.asFunction id).map fun data =>
      (data.result, data.parameters.map fun parameter =>
        (decls.asVariable parameter).map Variable.type)
  signature left == signature right

def redeclareFunction (name : Text) (span : Span) (earlier id : DeclId) : Check Bool := do
  let decls ← decls
  if !sameSignature decls earlier id then
    rejectAfter span .prototypeMismatch ("conflicting declaration of '" ++ name ++ "'") earlier
      "previous declaration is here"
    return false
  else if decls.isPrototype id then return true
  else if decls.isPrototype earlier then
    declareName name (.function id)
    return true
  else
    rejectAfter span .duplicateSymbol ("redefinition of '" ++ name ++ "'") earlier
      "previous definition is here"
    return false

def declareGlobal (name : Text) (span : Span) (meaning : Meaning) : Check Bool := do
  match (← get).analysis.names.lookup name, meaning with
  | none, _ =>
    declareName name meaning
    return true
  | some (.builtin _), _ =>
    reject span .builtinRedefined ("cannot redefine builtin '" ++ name ++ "'")
    return false
  | some (.function earlier), .function id => redeclareFunction name span earlier id
  | some earlier, _ =>
    rejectAfter span .duplicateSymbol ("redefinition of '" ++ name ++ "'") earlier.decl
      "previous definition is here"
    return false

def bindParameters : List DeclId → Check Unit
  | [] => return
  | id :: rest => do
      match (← decls).get? id with
      | none => pure ()
      | some decl =>
        match ← inScope? decl.name with
        | some earlier =>
          rejectAfter decl.span .duplicateSymbol
            ("duplicate parameter '" ++ decl.name ++ "'") earlier
            "previous parameter is here"
        | none => bindName decl.name id
      bindParameters rest

/-- Checks the body of a function or wrapper; it shares its scope with the
parameters. -/
def functionBody (fetch : Fetch) (id : DeclId) (data : Function) : Check Unit := do
  updateBody fun _ => { result := data.result }
  bindParameters data.parameters
  let body ← match data.body with
    | some (.block span body) => do
        let body ← statements fetch body
        pure (some (Stmt.block span body))
    | body => pure body
  let frame := (← get).body.nextSlot
  updateDecls fun decls => decls.modifyFunction id fun data => { data with body, frame }

def declaration (fetch : Fetch) (id : DeclId) : Check Unit := do
  match (← decls).get? id with
  | none => return
  | some decl =>
    match decl.body with
    | .variable _ =>
      initialValue fetch id
      let _ ← declareGlobal decl.name decl.span (.variable id)
    | .function data =>
      if ← declareGlobal decl.name decl.span (.function id) then
        if data.body.isSome then functionBody fetch id data
    | .wrapper data => functionBody fetch id data

end Check

namespace Analysis

/-- Checks a declaration and says whether it is valid; an invalid one is marked. -/
def checkDecl (analysis : Analysis) (fetch : Fetch) (id : DeclId) : Bool × Analysis :=
  let (_, checker) := Check.declaration fetch id { analysis }
  if checker.errors = 0 then (true, checker.analysis)
  else
    (false, checker.analysis.updateDecls fun decls =>
      decls.modify id fun decl => { decl with invalid := true })

def parseArchived (analysis : Analysis) (name source : Text) : Option DeclId × Analysis :=
  let (file, files) := analysis.parser.files.addVirtual ("<snapshot:" ++ name ++ ">") source
  let ((ids, fine), parser) := { analysis.parser with files }.declarationsOf file
  let analysis := { analysis with parser }
  match ids with
  | [id] =>
    let named := ((parser.decls.get? id).map Decl.name) == some name
    (if fine && named then some id else none, analysis)
  | _ => (none, analysis)

def rejectArchived (analysis : Analysis) (name : Text) (use : Span) (problem : Text) : Analysis :=
  analysis.report
    (.error .snapshotDeclaration use ("snapshot entry for '" ++ name ++ "' " ++ problem))

def acquire (analysis : Analysis) (fetch : Fetch) (name : Text) (use : Span) (entry : ArchivedDecl) :
    Option Meaning × Analysis :=
  match analysis.parseArchived name entry.source with
  | (none, analysis) =>
    (none, analysis.rejectArchived name use "is not a single declaration of that name")
  | (some id, analysis) =>
    let isVariable := (analysis.decls.asVariable id).isSome
    let kind := ((analysis.decls.get? id).map fun decl => decl.body.kind).getD []
    if (entry.kind == ArchivedDecl.variableKind) != isVariable then
      (none, analysis.rejectArchived name use
        ("has kind " ++ entry.kind ++ " but declares a " ++ kind))
    else
      let analysis := analysis.updateDecls fun decls =>
        decls.modify id fun decl => { decl with external := true }
      match analysis.checkDecl fetch id with
      | (false, analysis) => (none, analysis)
      | (true, analysis) =>
        (analysis.names.lookup name, { analysis with fetched := analysis.fetched ++ [id] })

def tooDeep : Diagnostic :=
  .error .runtimeError Span.none "archived declarations nest too deeply"

/-- Fetches a name from the archive.  A name being fetched is not fetched again, so
the number of archived declarations bounds the nesting. -/
def fetchWithin : Nat → Fetch
  | 0, _, _, analysis => (none, analysis.report tooDeep)
  | fuel + 1, name, use, analysis =>
    match analysis.archive with
    | none => (none, analysis)
    | some archive =>
      if analysis.underway.contains name then (none, analysis)
      else
        match archive.lookup name with
        | none => (none, analysis)
        | some entry =>
          let (meaning, analysis) :=
            { analysis with underway := name :: analysis.underway }.acquire
              (fetchWithin fuel) name use entry
          (meaning, { analysis with underway := analysis.underway.erase name })

def fetcher (analysis : Analysis) : Fetch :=
  fetchWithin (((analysis.archive.map fun archive => archive.entries.length).getD 0) + 1)

def checkGroup (analysis : Analysis) : Group → Bool × Analysis
  | [] => (true, analysis)
  | id :: rest =>
    let (fine, analysis) := analysis.checkDecl analysis.fetcher id
    let (others, analysis) := analysis.checkGroup rest
    (fine && others, analysis)

end Analysis

end FragmentCompiler
