import FragmentCompiler.Proofs.Lowering.Unit

/-!
# What lowering reports

Lowering reports errors only, and never one about the text.  A declaration about which it
reports nothing has joined the unit.
-/

set_option autoImplicit false

namespace FragmentCompiler

open List Lower

def Diagnostic.FromCode (diagnostic : Diagnostic) : Prop :=
  diagnostic.isError = true ∧ ¬ diagnostic.FromText

def Code.IsLowering (code : Code) : Prop := code = .generation ∨ code = .unresolvedDynamic

def Diagnostic.FromLowering (diagnostic : Diagnostic) : Prop :=
  diagnostic.isError = true ∧ diagnostic.code.IsLowering

theorem Diagnostic.FromLowering.fromCode {diagnostic : Diagnostic}
    (isLowering : diagnostic.FromLowering) : diagnostic.FromCode := by
  refine ⟨isLowering.1, ?_⟩
  unfold Diagnostic.FromText
  rcases isLowering.2 with isCode | isCode <;> rw [isCode] <;> decide

namespace Lower

variable {α β : Type}

def Blames (lower : Lower α) : Prop :=
  ∀ reports : Array Diagnostic, ∃ new, (lower reports).2.toList = reports.toList ++ new ∧
    ∀ entry ∈ new, Diagnostic.FromLowering entry

theorem Blames.pure (value : α) : Blames (pure value : Lower α) :=
  fun _ => ⟨[], (append_nil _).symm, by simp⟩

variable {lower : Lower α}

theorem Blames.bind {next : α → Lower β} (first : Blames lower)
    (second : ∀ value, Blames (next value)) :
    Blames (lower >>= next) := by
  intro reports
  obtain ⟨early, isEarly, areEarly⟩ := first reports
  obtain ⟨late, isLate, areLate⟩ := second (lower reports).1 (lower reports).2
  refine ⟨early ++ late, ?_, fun entry member => ?_⟩
  · rw [← append_assoc, ← isEarly]
    exact isLate
  · exact (mem_append.mp member).elim (areEarly entry) (areLate entry)

theorem Blames.map (change : α → β) (blames : Blames lower) : Blames (change <$> lower) := by
  rw [map_eq_pure_bind]
  exact blames.bind fun value => .pure (change value)

theorem Blames.reject {code} (isCode : code.IsLowering) (span : Span) (message : Text) :
    Blames (reject code span message) := by
  intro reports
  refine ⟨[.error code span message], ?_, fun entry member => ?_⟩
  · show (reports.push (.error code span message)).toList = _
    simp
  · rw [mem_singleton.mp member]
    exact ⟨rfl, isCode⟩

theorem Blames.generation (span : Span) (message : Text) :
    Blames (Lower.reject .generation span message) :=
  .reject (.inl rfl) span message

theorem Blames.unresolved (span : Span) (spelling : Text) :
    Blames (rejectDeferred span spelling) :=
  .reject (.inr rfl) span _

theorem Blames.name (decls : Declarations) (span : Span) (spelling : Text)
    (reference : Reference) : Blames (name decls span spelling reference) := by
  unfold Lower.name
  split
  · split
    · exact .generation _ _
    · split <;> exact .pure _
  · exact .unresolved _ _
  · exact .generation _ _
  · exact .generation _ _

theorem Blames.assign (decls : Declarations) (span : Span) (target : Expr) (value : Computation) :
    Blames (assign decls span target value) := by
  unfold Lower.assign
  split
  · exact .pure _
  · split
    · exact .generation span _
    · split <;> exact .pure _
  · exact .unresolved _ _
  · exact .generation span _

theorem Blames.call (span : Span) (callee : Expr) (arguments : List Computation) :
    Blames (call span callee arguments) := by
  unfold Lower.call
  split
  · exact .pure _
  · exact .pure _
  · split
    · exact .pure _
    · exact .generation _ _
  · exact .unresolved _ _
  · exact .generation _ _
  · exact .generation _ _

mutual

open Blames

theorem Blames.expression (decls : Declarations) (expr : Expr) :
    Blames (Lower.expression decls expr) := by
  cases expr with
  | literal info spelling value => exact .pure _
  | name info spelling reference => exact .name _ _ _ _
  | lookup info spelling => exact .pure _
  | group info inner => exact .expression decls inner
  | convert info value target => exact (expression decls value).bind fun _ => .pure _
  | unary info op operand => exact (expression decls operand).bind fun _ => .pure _
  | binary info op left right =>
    simp only [Lower.expression]
    refine (expression decls left).bind fun _ =>
      (expression decls right).bind fun _ => ?_
    split <;> exact .pure _
  | assign info target value =>
    exact (expression decls value).bind fun _ => .assign _ _ _ _
  | call info callee arguments =>
    exact (expressions decls arguments).bind fun _ => .call _ _ _

theorem Blames.expressions (decls : Declarations) (arguments : List Expr) :
    Blames (expressions decls arguments) := by
  cases arguments with
  | nil => exact .pure _
  | cons first rest =>
    exact (expression decls first).bind fun _ =>
      (expressions decls rest).bind fun _ => .pure _

end

theorem Blames.locals (decls : Declarations) (ids : List DeclId) :
    Blames (Lower.locals decls ids) := by
  induction ids with
  | nil => exact .pure _
  | cons id rest ih =>
    simp only [Lower.locals]
    split
    · exact ih
    · rename_i data _
      split
      · exact ih
      · refine .bind ?_ fun _ => ih.bind fun _ => .pure _
        cases data.initial with
        | none => exact .pure _
        | some value => exact (Blames.expression decls value).map _

mutual

theorem Blames.statement (decls : Declarations) (stmt : Stmt) :
    Blames (statement decls stmt) := by
  cases stmt with
  | block span body => exact (Blames.statements decls body).bind fun _ => .pure _
  | declare span ids => exact (Blames.locals decls ids).bind fun _ => .pure _
  | expression span value unterminated =>
    exact (Blames.expression decls value).bind fun _ => .pure _
  | echo span value => exact (Blames.expression decls value).bind fun _ => .pure _
  | branch span test yes no =>
    exact (Blames.expression decls test).bind fun _ =>
      (Blames.statement decls yes).bind fun _ =>
      (Blames.otherwise decls no).bind fun _ => .pure _
  | loop span test body =>
    exact (Blames.expression decls test).bind fun _ =>
      (Blames.statement decls body).bind fun _ => .pure _
  | «return» span value =>
    cases value with
    | none => exact .pure _
    | some value => exact (Blames.expression decls value).bind fun _ => .pure _
  | «break» span => exact .pure _
  | «continue» span => exact .pure _
  | empty span => exact .pure _

theorem Blames.statements (decls : Declarations) (body : List Stmt) :
    Blames (statements decls body) := by
  cases body with
  | nil => exact .pure _
  | cons first rest =>
    exact (Blames.statement decls first).bind fun _ =>
      (Blames.statements decls rest).bind fun _ => .pure _

theorem Blames.otherwise (decls : Declarations) (no : Option Stmt) :
    Blames (otherwise decls no) := by
  cases no with
  | none => exact .pure _
  | some no => exact .statement decls no

end

theorem Blames.function (decls : Declarations) (decl : Decl) (data : Function) (body : Stmt) :
    Blames (function decls decl data body) :=
  (Blames.statement decls body).bind fun _ => .pure _

theorem Blames.result (blames : Blames lower) :
    (∀ entry ∈ lower.result.2, entry.FromLowering) ∧
      (lower.result.2 = [] → lower.result.1 = some (lower #[]).1) := by
  obtain ⟨new, isNew, areNew⟩ := blames #[]
  unfold Lower.result
  rcases run : lower #[] with ⟨value, reports⟩
  rw [run] at isNew
  refine ⟨fun entry member => areNew entry ?_, fun silent => ?_⟩
  · have inReports : entry ∈ reports.toList := member
    rw [show reports.toList = #[].toList ++ new from isNew] at inReports
    simpa using inReports
  · have empty : reports.isEmpty = true := by simpa using silent
    exact if_pos empty

end Lower

/-! ## Declarations -/

namespace CodeUnit

section

variable (unit : CodeUnit) (decls : Declarations) (id : DeclId) (decl : Decl)

theorem addVariable_reports (data : Variable) :
    ∀ entry ∈ (unit.addVariable decls id decl data).2, entry.FromLowering := by
  unfold addVariable
  split
  · simp
  · dsimp only
    split
    · simp
    · rename_i value _
      have blames := (Lower.Blames.expression decls value).result.1
      split <;> rename_i isResult <;> rw [isResult] at blames <;> exact blames

theorem addFunction_reports (data : Function) :
    ∀ entry ∈ (unit.addFunction decls decl data).2, entry.FromLowering := by
  unfold addFunction
  split
  · simp
  · rename_i body _
    have blames := (Lower.Blames.function decls decl data body).result.1
    split <;> rename_i isResult <;> rw [isResult] at blames
    · exact blames
    · split <;> exact blames

theorem addDecl_reports : ∀ entry ∈ (unit.addDecl decls id).2, entry.FromLowering := by
  unfold addDecl
  split
  · simp
  · split
    · simp
    · split
      · exact addVariable_reports _ _ _ _ _
      · exact addFunction_reports _ _ _ _
      · exact addFunction_reports _ _ _ _

end

theorem addAll_fromLowering (decls : Declarations) (ids : List DeclId) :
    ∀ unit : CodeUnit, ∀ entry ∈ (unit.addAll decls ids).2, entry.FromLowering := by
  induction ids with
  | nil => simp [addAll]
  | cons id rest ih =>
    exact fun unit => forall_mem_append.mpr ⟨addDecl_reports unit decls id, ih _⟩

/-! ## Declarations that were lowered -/

/-- A unit holds the code of a declaration: a variable is defined and gets its initial value,
the body of a function is there, and a wrapper is run. -/
def Carries (unit : CodeUnit) (decls : Declarations) (id : DeclId) (decl : Decl) : Prop :=
  match decl.body with
  | .variable data =>
    data.storage = .global ∧ ⟨id, decl.name, .ofType data.type⟩ ∈ unit.globals ∧
      ∀ value, data.initial = some value → ∃ code,
        (expression decls value).result = (some code, []) ∧
        ⟨decl.name, decl.span, .assign id code⟩ ∈ unit.runs
  | .function data =>
    ∀ body, data.body = some body → ∃ code,
      (function decls decl data body).result = (some code, []) ∧ code ∈ unit.functions
  | .wrapper data =>
    ∃ body code, data.body = some body ∧
      (function decls decl data body).result = (some code, []) ∧
      ⟨decl.name, decl.span, .invoke code⟩ ∈ unit.runs

theorem exists_result {α : Type} {lower : Lower α} (blames : lower.Blames)
    (silent : lower.result.2 = []) : ∃ code, lower.result = (some code, []) :=
  ⟨_, Prod.ext (blames.result.2 silent) silent⟩

theorem addAll_silent {decls ids} :
    ∀ {unit : CodeUnit}, (unit.addAll decls ids).2 = [] → ∀ id ∈ ids,
      ∃ before : CodeUnit, (before.addDecl decls id).2 = [] := by
  induction ids with
  | nil => simp
  | cons first rest ih =>
    intro unit silent id member
    have both : (unit.addDecl decls first).2 ++
        ((unit.addDecl decls first).1.addAll decls rest).2 = [] := silent
    obtain ⟨head, tail⟩ := append_eq_nil_iff.mp both
    rcases mem_cons.mp member with isFirst | inRest
    · exact ⟨unit, isFirst ▸ head⟩
    · exact ih tail id inRest

theorem carries_of_silent {decl decls} {unit before : CodeUnit} {id : DeclId}
    (found : decls.get? id = some decl) (valid : decl.invalid = false)
    (stored : ∀ data, decl.body = .variable data → data.storage = .global)
    (present : ∀ data, decl.body = .wrapper data → data.body.isSome = true)
    (silent : (before.addDecl decls id).2 = [])
    (globals : ∀ start, decls.globalStart? id = some start → start ∈ unit.globals)
    (functions : ∀ code, decls.lowered? id = some code → code ∈ unit.functions)
    (runs : ∀ run, decls.initializer? id = some run → run ∈ unit.runs) :
    unit.Carries decls id decl := by
  have isValid := Declarations.valid?_eq_some.mpr ⟨found, valid⟩
  have lowered : ∀ (data : Function) (body : Stmt), data.body = some body →
      (before.addFunction decls decl data).2 = [] →
      ∃ code, (function decls decl data body).result = (some code, []) := by
    intro data body isBody quiet
    refine exists_result (.function decls decl data body) ?_
    unfold addFunction at quiet
    rw [isBody] at quiet
    dsimp only at quiet
    split at quiet <;> rename_i isResult <;> rw [isResult]
    · exact quiet
    · split at quiet <;> exact quiet
  unfold addDecl at silent
  simp only [found, valid, Bool.false_eq_true, if_false] at silent
  unfold Carries
  split <;> rename_i data isBody <;> rw [isBody] at silent <;> dsimp only at silent
  · have isGlobal := stored data isBody
    refine ⟨isGlobal, globals _ ?_, fun value isValue => ?_⟩
    · exact Declarations.globalStart?_eq_some.mpr ⟨decl, data, found, valid, isBody, isGlobal, rfl⟩
    · obtain ⟨code, isCode⟩ : ∃ code, (expression decls value).result = (some code, []) := by
        refine exists_result (.expression decls value) ?_
        unfold addVariable at silent
        rw [if_neg (by simp [isGlobal]), isValue] at silent
        dsimp only at silent
        split at silent <;> rename_i isResult <;> rw [isResult] <;> exact silent
      refine ⟨code, isCode, runs _ ?_⟩
      simp [Declarations.initializer?, isValid, isBody, isGlobal, isValue, isCode]
  · intro body present
    obtain ⟨code, isCode⟩ := lowered data body present silent
    refine ⟨code, isCode, functions code (Declarations.lowered?_eq_some.mpr ?_)⟩
    exact ⟨decl, data, body, found, valid, isBody, present, by rw [isCode]⟩
  · obtain ⟨body, isSome⟩ := Option.isSome_iff_exists.mp (present data isBody)
    obtain ⟨code, isCode⟩ := lowered data body isSome silent
    refine ⟨body, code, isSome, isCode, runs _ ?_⟩
    simp [Declarations.initializer?, isValid, isBody, isSome, isCode]

end CodeUnit

end FragmentCompiler
