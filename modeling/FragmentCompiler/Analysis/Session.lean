import FragmentCompiler.Analysis.Declaration
import FragmentCompiler.Syntax.Printer

/-!
# What a session asks of the analysis

Warnings about functions that were called but never defined, variables of a
wrapper that become global, and the declarations worth keeping.
-/

namespace FragmentCompiler.Analysis

def firstCalls (seen : List Text) : List PrototypeCall → List PrototypeCall
  | [] => []
  | call :: rest =>
    if seen.contains call.name then firstCalls seen rest
    else call :: firstCalls (call.name :: seen) rest

def warnUndefined (analysis : Analysis) (call : PrototypeCall) : Analysis :=
  match analysis.names.lookup call.name with
  | some (.function id) =>
    match analysis.decls.get? id with
    | some decl =>
      if decl.isPrototype then
        analysis.report ((Diagnostic.warning .prototypeUndefined call.span
          ("function '" ++ call.name ++ "' is declared but never defined")).withNote
            decl.span "declared here")
      else analysis
    | none => analysis
  | _ => analysis

def finishPending (analysis : Analysis) : Analysis :=
  let warned := (firstCalls [] analysis.prototypeCalls).foldl warnUndefined analysis
  { warned with prototypeCalls := [] }

/-- Makes a local variable of a wrapper global, unless its name is taken.  Its
initial value is set aside; the wrapper keeps assigning it. -/
def promote (analysis : Analysis) (id : DeclId) : Bool × Analysis :=
  match analysis.decls.get? id with
  | none => (false, analysis)
  | some decl =>
    match decl.body with
    | .variable data =>
      if data.storage = .local && (analysis.names.lookup decl.name).isNone then
        let promoted : Variable :=
          { data with storage := .global, slot := 0, hoisted := data.initial, initial := none }
        let analysis := analysis.updateDecls fun decls =>
          decls.modify id fun decl =>
            { decl with body := .variable promoted, promoted := true }
        (true,
          { analysis with names := analysis.names.declare decl.name (.variable id) })
      else (false, analysis)
    | _ => (false, analysis)

def exportName (analysis : Analysis) (name : Text) : Option (DeclId × ArchivedDecl) :=
  match analysis.names.lookup name with
  | none | some (.builtin _) => none
  | some meaning =>
    match analysis.decls.get? meaning.decl with
    | none => none
    | some decl =>
      if decl.invalid then none
      else
        let kind :=
          if !meaning.isFunction then ArchivedDecl.variableKind
          else if decl.isPrototype then ArchivedDecl.prototypeKind
          else ArchivedDecl.functionKind
        some (meaning.decl, { kind, name, source := analysis.decls.render meaning.decl })

def exported (analysis : Analysis) : List ArchivedDecl :=
  let entries := analysis.names.order.filterMap analysis.exportName
  (entries.mergeSort fun left right => left.1 ≤ right.1).map Prod.snd

end FragmentCompiler.Analysis
