import FragmentCompiler.Lowering.Generator
import FragmentCompiler.Proofs.Lowering.Statement
import FragmentCompiler.Proofs.Stages.Batch

/-!
# Code units

What a unit holds after a group was lowered: one global variable for each valid variable
of the group, one function for each valid definition, in the order of the group.  The
code of an accepted declaration stays the same while other declarations are checked.
-/

set_option autoImplicit false

namespace FragmentCompiler

open List Lower

namespace Declarations

variable {id : DeclId} {decls : Declarations}

def valid? (decls : Declarations) (id : DeclId) : Option Decl :=
  (decls.get? id).filter fun decl => !decl.invalid

def globalStart? (decls : Declarations) (id : DeclId) : Option GlobalStart :=
  (decls.valid? id).bind fun decl =>
    match decl.body with
    | .variable data =>
      if data.storage = .global then
        some { id, name := decl.name, kind := .ofType data.type }
      else none
    | _ => none

def lowered? (decls : Declarations) (id : DeclId) : Option LoweredFunction :=
  (decls.valid? id).bind fun decl =>
    match decl.body with
    | .function data => data.body.bind fun body => (function decls decl data body).result.1
    | _ => none

/-- What is run once for a declaration. -/
def initializer? (decls : Declarations) (id : DeclId) : Option Initializer :=
  (decls.valid? id).bind fun decl =>
    let initializer (action : InitialAction) : Initializer :=
      { name := decl.name, span := decl.span, action }
    match decl.body with
    | .variable data =>
      if data.storage = .global then
        data.initial.bind fun value =>
          (expression decls value).result.1.map fun code => initializer (.assign id code)
      else none
    | .function _ => none
    | .wrapper data => data.body.bind fun body =>
      (function decls decl data body).result.1.map fun code => initializer (.invoke code)

def isFetched (decls : Declarations) (id : DeclId) : Bool :=
  ((decls.get? id).map Decl.external).getD false

/-- The initializers of those declarations that were fetched, or of those that were not. -/
def initializers (decls : Declarations) (fetched : Bool) (ids : List DeclId) : List Initializer :=
  (ids.filter fun id => decls.isFetched id == fetched).filterMap decls.initializer?

/-- What is run once for declarations, in order: what was fetched goes first. -/
def runs (decls : Declarations) (ids : List DeclId) : List Initializer :=
  decls.initializers true ids ++ decls.initializers false ids

theorem initializers_cons (decls : Declarations) (fetched : Bool) (id : DeclId)
    (rest : List DeclId) : decls.initializers fetched (id :: rest) =
      decls.initializers fetched [id] ++ decls.initializers fetched rest := by
  simp only [initializers, ← filterMap_append, ← filter_append, singleton_append]

theorem initializers_singleton (decls : Declarations) (fetched : Bool) (id : DeclId) :
    decls.initializers fetched [id] =
      if decls.isFetched id = fetched then (decls.initializer? id).toList else [] := by
  unfold initializers
  by_cases same : decls.isFetched id = fetched
  · cases made : decls.initializer? id <;> simp [same, made]
  · simp [same]

theorem mem_runs {ids run} :
    run ∈ decls.runs ids ↔ ∃ id ∈ ids, decls.initializer? id = some run := by
  simp only [runs, initializers, mem_append, mem_filterMap, mem_filter, beq_iff_eq]
  constructor
  · rintro (⟨id, ⟨member, _⟩, made⟩ | ⟨id, ⟨member, _⟩, made⟩) <;> exact ⟨id, member, made⟩
  · rintro ⟨id, member, made⟩
    cases fetched : decls.isFetched id with
    | true => exact .inl ⟨id, ⟨member, fetched⟩, made⟩
    | false => exact .inr ⟨id, ⟨member, fetched⟩, made⟩

theorem valid?_eq_some {decl} :
    decls.valid? id = some decl ↔ decls.get? id = some decl ∧ decl.invalid = false := by
  simp [valid?, Option.filter_eq_some_iff]

theorem globalStart?_eq_some {start} :
    decls.globalStart? id = some start ↔
      ∃ decl data, decls.get? id = some decl ∧ decl.invalid = false ∧ decl.body = .variable data ∧
        data.storage = .global ∧ start = ⟨id, decl.name, .ofType data.type⟩ := by
  unfold globalStart?
  rw [Option.bind_eq_some_iff]
  constructor
  · intro ⟨decl, isValid, made⟩
    obtain ⟨found, valid⟩ := valid?_eq_some.mp isValid
    split at made
    · rename_i data body
      split at made
      · rename_i isGlobal
        exact ⟨decl, data, found, valid, body, isGlobal, (Option.some.inj made).symm⟩
      · cases made
    · cases made
  · intro ⟨decl, data, found, valid, body, isGlobal, isStart⟩
    exact ⟨decl, valid?_eq_some.mpr ⟨found, valid⟩, by simp [body, isGlobal, isStart]⟩

theorem name_of_lowered {decl data body code}
    (isLowered : (function decls decl data body).result.1 = some code) : code.name = decl.name := by
  have made : (if (function decls decl data body #[]).2.isEmpty then
      some (function decls decl data body #[]).1 else none) = some code := isLowered
  split at made
  · rw [← Option.some.inj made]
    rfl
  · cases made

theorem lowered?_eq_some {code} :
    decls.lowered? id = some code ↔
      ∃ decl data body, decls.get? id = some decl ∧ decl.invalid = false ∧
        decl.body = .function data ∧ data.body = some body ∧
        (function decls decl data body).result.1 = some code := by
  unfold lowered?
  rw [Option.bind_eq_some_iff]
  constructor
  · intro ⟨decl, isValid, made⟩
    obtain ⟨found, valid⟩ := valid?_eq_some.mp isValid
    split at made
    · rename_i data isFunction
      obtain ⟨body, isBody, isCode⟩ := Option.bind_eq_some_iff.mp made
      exact ⟨decl, data, body, found, valid, isFunction, isBody, isCode⟩
    · cases made
  · intro ⟨decl, data, body, found, valid, isFunction, isBody, isCode⟩
    exact ⟨decl, valid?_eq_some.mpr ⟨found, valid⟩, by simp [isFunction, isBody, isCode]⟩

end Declarations

namespace CodeUnit

def runs (unit : CodeUnit) : List Initializer := unit.fetched ++ unit.initializers

/-- What a unit gains. -/
structure Gains (before : CodeUnit) (globals : List GlobalStart) (functions : List LoweredFunction)
    (runs : Bool → List Initializer) (after : CodeUnit) : Prop where
  globals : after.globals = before.globals ++ globals
  functions : after.functions = before.functions ++ functions
  fetched : after.fetched = before.fetched ++ runs true
  initializers : after.initializers = before.initializers ++ runs false

theorem Gains.refl (unit : CodeUnit) : unit.Gains [] [] (fun _ => []) unit := by
  constructor <;> rw [append_nil]

theorem Gains.trans {first second third : CodeUnit} {globals globals' : List GlobalStart}
    {functions functions' : List LoweredFunction} {runs runs' : Bool → List Initializer}
    (left : first.Gains globals functions runs second)
    (right : second.Gains globals' functions' runs' third) :
    first.Gains (globals ++ globals') (functions ++ functions')
      (fun fetched => runs fetched ++ runs' fetched) third where
  globals := by rw [right.globals, left.globals, append_assoc]
  functions := by rw [right.functions, left.functions, append_assoc]
  fetched := by rw [right.fetched, left.fetched, append_assoc]
  initializers := by rw [right.initializers, left.initializers, append_assoc]

theorem addInitializer_gains (unit : CodeUnit) (decl : Decl) (action : InitialAction) :
    unit.Gains [] []
      (fun fetched => if decl.external = fetched then
        [{ name := decl.name, span := decl.span, action }] else [])
      (unit.addInitializer decl action) := by
  unfold addInitializer
  cases decl.external <;> constructor <;> simp

theorem addVariable_gains (unit : CodeUnit) (decls : Declarations) (id : DeclId) (decl : Decl)
    {data : Variable} (isGlobal : data.storage = .global) :
    unit.Gains [{ id, name := decl.name, kind := .ofType data.type }] []
      (fun fetched => if decl.external = fetched then
        (data.initial.bind fun value => (expression decls value).result.1.map fun code =>
          { name := decl.name, span := decl.span, action := .assign id code }).toList else [])
      (unit.addVariable decls id decl data).1 := by
  have start : unit.Gains [{ id, name := decl.name, kind := .ofType data.type }] [] (fun _ => [])
      { unit with
        globals := unit.globals ++ [{ id, name := decl.name, kind := .ofType data.type }] } := by
    constructor <;> simp
  unfold addVariable
  rw [if_neg (by simp [isGlobal])]
  cases data.initial with
  | none => simpa using start
  | some value =>
    simp only [Option.bind_some]
    rcases (expression decls value).result with ⟨_ | code, reports⟩
    · simpa using start
    · exact start.trans (addInitializer_gains _ decl (.assign id code))

theorem addDecl_gains (unit : CodeUnit) (decls : Declarations) (id : DeclId) :
    unit.Gains (decls.globalStart? id).toList (decls.lowered? id).toList
      (fun fetched => decls.initializers fetched [id]) (unit.addDecl decls id).1 := by
  simp only [Declarations.initializers_singleton]
  unfold addDecl Declarations.isFetched Declarations.globalStart? Declarations.lowered?
    Declarations.initializer? Declarations.valid?
  cases decls.get? id with
  | none => simpa using .refl unit
  | some decl =>
    cases invalid : decl.invalid with
    | true => simpa [Option.filter, invalid] using .refl unit
    | false =>
      simp only [Option.filter, invalid, Bool.not_false, if_true, Option.bind_some,
        Bool.false_eq_true, if_false, Option.map_some, Option.getD_some]
      rcases body : decl.body with data | data | data
      · simp only
        by_cases isGlobal : data.storage = .global
        · simp only [isGlobal, if_true]
          exact addVariable_gains unit decls id decl isGlobal
        · simpa [addVariable, isGlobal] using .refl unit
      · simp only [addFunction, Option.toList_none, ite_self]
        cases data.body with
        | none => exact .refl unit
        | some statement =>
          simp only [Option.bind_some]
          rcases (function decls decl data statement).result with ⟨_ | code, reports⟩
          · exact .refl unit
          · simp only [Decl.isWrapper, body, Bool.false_eq_true, if_false]
            constructor <;> simp
      · simp only [addFunction]
        cases data.body with
        | none => simpa using .refl unit
        | some statement =>
          simp only [Option.bind_some]
          rcases (function decls decl data statement).result with ⟨_ | code, reports⟩
          · simpa using .refl unit
          · simp only [Decl.isWrapper, body, if_true]
            exact addInitializer_gains unit decl (.invoke code)

theorem addAll_gains (decls : Declarations) (group : Group) :
    ∀ unit : CodeUnit, unit.Gains (group.filterMap decls.globalStart?)
      (group.filterMap decls.lowered?) (fun fetched => decls.initializers fetched group)
      (unit.addAll decls group).1 := by
  induction group with
  | nil => exact fun unit => .refl unit
  | cons id rest ih =>
    intro unit
    have split : ∀ {α : Type} (made : DeclId → Option α),
        (id :: rest).filterMap made = (made id).toList ++ rest.filterMap made := by
      intro α made
      cases isMade : made id <;> simp [isMade]
    rw [split, split]
    simp only [decls.initializers_cons _ id rest]
    exact (unit.addDecl_gains decls id).trans (ih (unit.addDecl decls id).1)

theorem runs_addAll (decls : Declarations) (ids : List DeclId) :
    (({} : CodeUnit).addAll decls ids).1.runs = decls.runs ids := by
  have gains := addAll_gains decls ids {}
  unfold runs
  rw [gains.fetched, gains.initializers]
  rfl

end CodeUnit

/-! ## Accepted declarations -/

namespace Analysis

theorem Accepted.addDecl_reports {lookups} {known : Analysis} {base id : DeclId}
    (accepted : known.Accepted False lookups base id) (unit : CodeUnit) :
    (unit.addDecl known.decls id).2 = [] := by
  obtain ⟨decl, found, valid, sound⟩ := accepted.valid
  unfold CodeUnit.addDecl
  simp only [found, valid, Bool.false_eq_true, if_false]
  have function : ∀ data : Function, data.Sound known False lookups →
      (unit.addFunction known.decls decl data).2 = [] := by
    intro data sound
    unfold CodeUnit.addFunction
    cases isBody : data.body with
    | none => rfl
    | some statement =>
      obtain ⟨code, yields, _⟩ := sound.lowers decl isBody
      simp only [(yields known.decls (.refl _ _)).result]
      split <;> rfl
  generalize decl.body = body at sound
  cases sound with
  | @«variable» data isGlobal type initial =>
    simp only [CodeUnit.addVariable, isGlobal, ne_eq, not_true_eq_false, if_false]
    cases isInitial : data.initial with
    | none => rfl
    | some value =>
      obtain ⟨sound, _⟩ := initial value isInitial
      obtain ⟨code, yields, _⟩ := sound.lowers
      simp only [(yields known.decls (.refl _ _)).result]
  | function sound => exact function _ sound
  | wrapper sound _ _ _ => exact function _ sound

end Analysis

/-! ## Settled declarations -/

namespace Declarations

section Settled

variable {before after : Declarations} {id : DeclId} {decl : Decl}

section

variable (settled : before.Settled id) (grown : before.Extends after)
  (same : before.Intact after id)

include settled grown same

theorem Settled.initial {data value} (found : before.get? id = some decl)
    (isVariable : decl.body = .variable data) (isInitial : data.initial = some value) :
    expression after value = expression before value := by
  refine expression_congr value fun other member => settled.place? grown same found other ?_
  rw [isVariable]
  show other ∈ data.mentions
  rw [Variable.mentions_of_initial isInitial]
  exact member

theorem Settled.addDecl (unit : CodeUnit) : unit.addDecl after id = unit.addDecl before id := by
  unfold CodeUnit.addDecl
  rw [same id (.inl rfl)]
  cases found : before.get? id with
  | none => rfl
  | some decl =>
    dsimp only
    split
    · rfl
    · rcases isBody : decl.body with data | data | data
      · simp only [CodeUnit.addVariable]
        cases isInitial : data.initial with
        | none => rfl
        | some value => simp only [settled.initial grown same found isBody isInitial]
      · simp only [CodeUnit.addFunction]
        cases present : data.body with
        | none => rfl
        | some body => simp only [settled.function grown same found (.inl isBody) present]
      · simp only [CodeUnit.addFunction]
        cases present : data.body with
        | none => rfl
        | some body => simp only [settled.function grown same found (.inr isBody) present]

end

theorem addAll_congr {ids} (grown : before.Extends after) (settled : ∀ id ∈ ids, before.Settled id)
    (same : ∀ id ∈ ids, before.Intact after id) :
    ∀ unit : CodeUnit, unit.addAll after ids = unit.addAll before ids := by
  induction ids with
  | nil => exact fun _ => rfl
  | cons id rest ih =>
    intro unit
    have others := ih (fun other member => settled other (mem_cons_of_mem _ member))
      fun other member => same other (mem_cons_of_mem _ member)
    have first := (settled id mem_cons_self).addDecl grown (same id mem_cons_self) unit
    simp only [CodeUnit.addAll, first, others]

theorem Settled.lowered? (settled : before.Settled id) (grown : before.Extends after)
    (same : before.Intact after id) :
    after.lowered? id = before.lowered? id := by
  refine Option.ext fun code => ?_
  rw [lowered?_eq_some, lowered?_eq_some, same id (.inl rfl)]
  constructor <;> rintro ⟨decl, data, body, found, valid, isFunction, isBody, isLowered⟩ <;>
    refine ⟨decl, data, body, found, valid, isFunction, isBody, ?_⟩
  · rw [← settled.function grown same found (.inl isFunction) isBody]
    exact isLowered
  · rw [settled.function grown same found (.inl isFunction) isBody]
    exact isLowered

end Settled

end Declarations

/-! ## Declarations that may be lowered -/

/-- How far the declarations of a call may stray from those of a plain text. -/
structure Leeway where
  /-- Wrappers may be taken apart. -/
  prompts : Prop
  deferrals : Prop
  /-- Such names may be lowered as they are. -/
  leftovers : Prop
  /-- Names may be looked up at run time. -/
  lookups : Prop

namespace Analysis

/-- A declaration that may be lowered: accepted, or a wrapper that was taken apart. -/
def Placed (known : Analysis) (leeway : Leeway) (base id : DeclId) : Prop :=
  known.Accepted leeway.leftovers leeway.lookups base id ∨
    (leeway.prompts ∧ known.decls.IsOpened id)

section Placed

variable {known before after : Analysis} {leeway : Leeway} {base id : DeclId}

theorem Placed.extends (grown : before.Extends after) (placed : before.Placed leeway base id)
    (same : before.decls.Intact after.decls id) :
    after.Placed leeway base id :=
  placed.imp (fun accepted => accepted.extends grown (Nat.le_refl _) same)
    fun isPrompt => ⟨isPrompt.1, isPrompt.2.extends grown.decls same⟩

theorem Placed.settled (placed : known.Placed leeway base id) : known.decls.Settled id :=
  placed.elim (fun accepted => accepted.settled) fun isPrompt => isPrompt.2.1

theorem Placed.valid (placed : known.Placed leeway base id) :
    ∃ decl, known.decls.get? id = some decl ∧ decl.invalid = false := by
  rcases placed with accepted | ⟨_, _, decl, _, found, valid, _⟩
  · obtain ⟨decl, found, valid, _⟩ := accepted.valid
    exact ⟨decl, found, valid⟩
  · exact ⟨decl, found, valid⟩

theorem Placed.accepted (placed : known.Placed leeway base id)
    (strange : ¬ known.decls.IsWrapper id) :
    known.Accepted leeway.leftovers leeway.lookups base id := by
  rcases placed with accepted | ⟨_, _, decl, data, found, _, isWrapper, _⟩
  · exact accepted
  · exact absurd ⟨decl, data, found, isWrapper⟩ strange

end Placed

end Analysis

end FragmentCompiler
