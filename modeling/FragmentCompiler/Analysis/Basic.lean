import FragmentCompiler.Analysis.Universe
import FragmentCompiler.Parser.Unit

/-!
# The state of the analysis

The analysis of a session keeps the global names, the declarations that were
fetched from an archive, and the calls of functions that are only announced.
-/

namespace FragmentCompiler

structure ArchivedDecl where
  kind : Text
  name : Text
  source : Text
  deriving DecidableEq, Repr, Inhabited

namespace ArchivedDecl

def variableKind : Text := "var"

def functionKind : Text := "func"

def prototypeKind : Text := "proto"

end ArchivedDecl

structure Archive where
  entries : List (Text × ArchivedDecl) := []
  deriving DecidableEq, Repr, Inhabited

def Archive.lookup (archive : Archive) (name : Text) : Option ArchivedDecl :=
  archive.entries.lookup name

structure Question where
  name : Text
  span : Span
  deferred : Bool
  deriving DecidableEq, Repr, Inhabited

/-- Decides which unknown names are left to be found when the code runs, and
remembers what it was asked. -/
structure Resolver where
  /-- The names it defers; all of them when absent. -/
  only : Option (List Text) := none
  asked : List Question := []
  deriving DecidableEq, Repr, Inhabited

namespace Resolver

def defers (resolver : Resolver) (name : Text) : Bool :=
  match resolver.only with
  | none => true
  | some names => names.contains name

def ask (resolver : Resolver) (name : Text) (span : Span) : Bool × Resolver :=
  let deferred := resolver.defers name
  (deferred, { resolver with asked := resolver.asked ++ [{ name, span, deferred }] })

end Resolver

structure PrototypeCall where
  name : Text
  span : Span
  deriving DecidableEq, Repr, Inhabited

structure Analysis where
  parser : Parser := {}
  names : Universe := {}
  resolver : Option Resolver := none
  archive : Option Archive := none
  fetched : List DeclId := []
  underway : List Text := []
  prototypeCalls : List PrototypeCall := []
  deriving Inhabited

structure AnalysisMark where
  changes : Nat := 0
  fetched : Nat := 0
  calls : Nat := 0
  deriving DecidableEq, Repr, Inhabited

namespace Analysis

def decls (analysis : Analysis) : Declarations := analysis.parser.decls

def updateDecls (analysis : Analysis) (change : Declarations → Declarations) : Analysis :=
  { analysis with parser := { analysis.parser with decls := change analysis.parser.decls } }

def report (analysis : Analysis) (diagnostic : Diagnostic) : Analysis :=
  { analysis with
    parser := { analysis.parser with reports := analysis.parser.reports.push diagnostic } }

def takeReports (analysis : Analysis) : List Diagnostic × Analysis :=
  (analysis.parser.reports.toList,
    { analysis with parser := { analysis.parser with reports := #[] } })

def mark (analysis : Analysis) : AnalysisMark :=
  { changes := analysis.names.mark
    fetched := analysis.fetched.length
    calls := analysis.prototypeCalls.length }

def rollback (analysis : Analysis) (point : AnalysisMark) : Analysis :=
  { analysis with
    names := analysis.names.rollback point.changes
    fetched := analysis.fetched.take point.fetched
    prototypeCalls := analysis.prototypeCalls.take point.calls }

def takeFetched (analysis : Analysis) : List DeclId × Analysis :=
  (analysis.fetched, { analysis with fetched := [] })

end Analysis

end FragmentCompiler
