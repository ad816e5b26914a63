import Mathlib.Data.List.Basic
import FragmentCompiler.Lowering.Lower
import FragmentCompiler.Proofs.Typing

/-!
# Lowering depends on the variables that are mentioned

Lowering an expression looks at the variables it reads or assigns, and only at where they
live.  So the code of a declaration that mentions nothing but its own variables and global
ones stays the same while other declarations come and go.
-/

set_option autoImplicit false

namespace FragmentCompiler

open List Stmt Declarations

/-! ## Mentioned variables -/

namespace Expr

mutual

/-- The variables an expression reads or assigns; a function that is called is found by its
name. -/
def mentions : Expr → List DeclId
  | .name _ _ (.declaration id) => [id]
  | .name .. | .lookup .. | .literal .. => []
  | .unary _ _ operand => operand.mentions
  | .binary _ _ left right => left.mentions ++ right.mentions
  | .assign _ target value => target.mentions ++ value.mentions
  | .call _ _ arguments => mentionsAll arguments
  | .group _ inner => inner.mentions
  | .convert _ value _ => value.mentions

/-- The variables expressions read or assign. -/
def mentionsAll : List Expr → List DeclId
  | [] => []
  | first :: rest => first.mentions ++ mentionsAll rest

end

theorem mem_mentionsAll {arguments} {id : DeclId} :
    id ∈ mentionsAll arguments ↔ ∃ argument ∈ arguments, id ∈ argument.mentions := by
  induction arguments with
  | nil => simp [mentionsAll]
  | cons first rest ih => simp [mentionsAll, ih]

end Expr

namespace Stmt

mutual

/-- The variables the expressions of a statement mention; initial values are not looked
at. -/
def mentions : Stmt → List DeclId
  | .block _ body => mentionsAll body
  | .expression _ value _ | .echo _ value => value.mentions
  | .branch _ test yes no => test.mentions ++ (yes.mentions ++ mentionsOption no)
  | .loop _ test body => test.mentions ++ body.mentions
  | .return _ (some value) => value.mentions
  | .return _ none | .declare .. | .break _ | .continue _ | .empty _ => []

/-- The variables the expressions of statements mention. -/
def mentionsAll : List Stmt → List DeclId
  | [] => []
  | first :: rest => first.mentions ++ mentionsAll rest

/-- The variables the second branch of a condition mentions. -/
def mentionsOption : Option Stmt → List DeclId
  | none => []
  | some no => no.mentions

end

theorem mentionsAll_append (first second : List Stmt) :
    mentionsAll (first ++ second) = mentionsAll first ++ mentionsAll second := by
  induction first with
  | nil => rfl
  | cons head tail ih => simp [mentionsAll, ih]

theorem mentionsAll_toList (no : Option Stmt) : mentionsAll no.toList = mentionsOption no := by
  cases no <;> simp [mentionsAll, mentionsOption]

end Stmt

def Variable.mentions (data : Variable) : List DeclId := (data.initial.map Expr.mentions).getD []

theorem Variable.mentions_of_initial {value} {data : Variable}
    (isInitial : data.initial = some value) : data.mentions = value.mentions := by
  simp [mentions, isInitial]

namespace Declarations

variable {id : DeclId}

/-- Where lowering finds a variable: under its number if it is global, in a slot
otherwise. -/
def place? (decls : Declarations) (id : DeclId) : Option (Option Nat) :=
  (decls.asVariable id).map fun data => if data.storage = .global then none else some data.slot

/-- A variable that lives outside all functions. -/
def IsGlobal (decls : Declarations) (id : DeclId) : Prop :=
  ∃ data, decls.asVariable id = some data ∧ data.storage = .global

theorem IsGlobal.extends {before after : Declarations} (grown : before.Extends after)
    (isGlobal : before.IsGlobal id) : after.IsGlobal id := by
  obtain ⟨data, isData, storage⟩ := isGlobal
  obtain ⟨data', isData', same⟩ := grown.asVariable isData
  exact ⟨data', isData', same.storage storage⟩

theorem IsGlobal.place? {decls : Declarations} (isGlobal : decls.IsGlobal id) :
    decls.place? id = some none := by
  obtain ⟨data, isData, storage⟩ := isGlobal
  simp [Declarations.place?, isData, storage]

theorem place?_congr {before after : Declarations}
    (same : after.get? id = before.get? id) : after.place? id = before.place? id := by
  unfold place?
  rw [asVariable_congr same]

def startMentions (decls : Declarations) (ids : List DeclId) : List DeclId :=
  ids.flatMap fun id => ((decls.asVariable id).map Variable.mentions).getD []

theorem mem_startMentions {ids other} {decls : Declarations} :
    other ∈ decls.startMentions ids ↔
      ∃ id ∈ ids, ∃ data, decls.asVariable id = some data ∧ other ∈ data.mentions := by
  unfold startMentions
  simp only [mem_flatMap]
  constructor
  · rintro ⟨id, member, isMentioned⟩
    cases isData : decls.asVariable id with
    | none => simp [isData] at isMentioned
    | some data => exact ⟨id, member, data, isData, by simpa [isData] using isMentioned⟩
  · rintro ⟨id, member, data, isData, isMentioned⟩
    exact ⟨id, member, by simpa [isData] using isMentioned⟩

end Declarations

/-! ## Lowering -/

namespace Lower

variable {decls decls' : Declarations}

theorem name_eq (decls : Declarations) (span : Span) (spelling : Text) (id : DeclId) :
    name decls span spelling (.declaration id) =
      match decls.place? id with
      | none => reject .generation span ("'" ++ spelling ++ "' is not a variable")
      | some none => return .global span id spelling
      | some (some slot) => return .slot slot := by
  unfold name place?
  dsimp only
  cases decls.asVariable id with
  | none => rfl
  | some data => by_cases isGlobal : data.storage = .global <;> simp [isGlobal]

theorem assign_eq (decls : Declarations) (span : Span) (info : ExprInfo) (spelling : Text)
    (id : DeclId) (value : Computation) :
    assign decls span (.name info spelling (.declaration id)) value =
      match decls.place? id with
      | none => reject .generation span ("'" ++ spelling ++ "' is not a variable")
      | some none => return .setGlobal span id spelling value
      | some (some slot) => return .setSlot slot value := by
  unfold assign place?
  dsimp only
  cases decls.asVariable id with
  | none => rfl
  | some data => by_cases isGlobal : data.storage = .global <;> simp [isGlobal]

theorem assign_congr (span : Span) (target : Expr) (value : Computation)
    (same : ∀ id ∈ target.mentions, decls'.place? id = decls.place? id) :
    assign decls' span target value = assign decls span target value := by
  cases target with
  | name info spelling reference =>
    cases reference with
    | declaration id =>
      rw [assign_eq, assign_eq, same id (by simp [Expr.mentions])]
    | _ => rfl
  | _ => rfl

mutual

theorem expression_congr (expr : Expr)
    (same : ∀ id ∈ expr.mentions, decls'.place? id = decls.place? id) :
    expression decls' expr = expression decls expr := by
  cases expr with
  | name info spelling reference =>
    cases reference with
    | declaration id =>
      simp only [expression]
      rw [name_eq, name_eq, same id (by simp [Expr.mentions])]
    | _ => rfl
  | lookup info spelling => rfl
  | literal info spelling value => rfl
  | unary info op operand =>
    simp only [expression]
    rw [expression_congr operand same]
  | binary info op left right =>
    simp only [expression]
    rw [expression_congr left fun id member => same id (mem_append_left _ member),
      expression_congr right fun id member => same id (mem_append_right _ member)]
  | assign info target value =>
    simp only [expression]
    rw [expression_congr value fun id member => same id (mem_append_right _ member)]
    refine bind_congr fun code => ?_
    exact assign_congr _ _ _ fun id member => same id (mem_append_left _ member)
  | call info callee arguments =>
    simp only [expression]
    rw [expressions_congr arguments same]
  | group info inner =>
    simp only [expression]
    exact expression_congr inner same
  | convert info value target =>
    simp only [expression]
    rw [expression_congr value same]

theorem expressions_congr (arguments : List Expr)
    (same : ∀ id ∈ Expr.mentionsAll arguments, decls'.place? id = decls.place? id) :
    expressions decls' arguments = expressions decls arguments := by
  cases arguments with
  | nil => rfl
  | cons first rest =>
    simp only [expressions]
    rw [expression_congr first fun id member => same id (mem_append_left _ member),
      expressions_congr rest fun id member => same id (mem_append_right _ member)]

end

theorem optional_congr (value : Option Expr)
    (same : ∀ id ∈ (value.map Expr.mentions).getD [], decls'.place? id = decls.place? id) :
    optional decls' value = optional decls value := by
  cases value with
  | none => rfl
  | some value =>
    simp only [optional]
    rw [expression_congr value same]

theorem locals_congr (ids : List DeclId)
    (entries : ∀ id ∈ ids, decls'.asVariable id = decls.asVariable id)
    (same : ∀ id ∈ decls.startMentions ids, decls'.place? id = decls.place? id) :
    locals decls' ids = locals decls ids := by
  induction ids with
  | nil => rfl
  | cons id rest ih =>
    have others := ih (fun other member => entries other (mem_cons_of_mem _ member))
      fun other member => same other (mem_append_right _ member)
    simp only [locals]
    rw [entries id mem_cons_self, others]
    cases isData : decls.asVariable id with
    | none => rfl
    | some data =>
      dsimp only
      rw [optional_congr data.initial fun other member => same other
        (mem_startMentions.mpr ⟨id, mem_cons_self, data, isData, member⟩)]

mutual

theorem statement_congr (stmt : Stmt)
    (entries : ∀ id ∈ stmt.declared, decls'.asVariable id = decls.asVariable id)
    (starts : ∀ id ∈ decls.startMentions stmt.declared, decls'.place? id = decls.place? id)
    (same : ∀ id ∈ stmt.mentions, decls'.place? id = decls.place? id) :
    statement decls' stmt = statement decls stmt := by
  cases stmt with
  | block span body =>
    simp only [statement]
    rw [statements_congr body entries starts same]
  | declare span ids =>
    simp only [statement]
    rw [locals_congr ids entries starts]
  | expression span value | echo span value =>
    simp only [statement]
    rw [expression_congr value same]
  | branch span test yes no =>
    simp only [declared, mentions, startMentions, flatMap_append,
      mem_append] at entries starts same
    simp only [statement]
    rw [expression_congr test fun id member => same id (.inl member),
      statement_congr yes (fun id member => entries id (.inl member))
        (fun id member => starts id (.inl member)) fun id member => same id (.inr (.inl member)),
      otherwise_congr no (fun id member => entries id (.inr member))
        (fun id member => starts id (.inr member)) fun id member => same id (.inr (.inr member))]
  | loop span test body =>
    simp only [statement]
    rw [expression_congr test fun id member => same id (mem_append_left _ member),
      statement_congr body entries starts fun id member => same id (mem_append_right _ member)]
  | «return» span value =>
    cases value with
    | none => rfl
    | some value =>
      simp only [statement]
      rw [expression_congr value same]
  | «break» span => rfl
  | «continue» span => rfl
  | empty span => rfl

theorem statements_congr (body : List Stmt)
    (entries : ∀ id ∈ declaredAll body, decls'.asVariable id = decls.asVariable id)
    (starts : ∀ id ∈ decls.startMentions (declaredAll body),
      decls'.place? id = decls.place? id)
    (same : ∀ id ∈ mentionsAll body, decls'.place? id = decls.place? id) :
    statements decls' body = statements decls body := by
  cases body with
  | nil => rfl
  | cons first rest =>
    simp only [declaredAll, mentionsAll, startMentions,
      flatMap_append, mem_append] at entries starts same
    simp only [statements]
    rw [statement_congr first (fun id member => entries id (.inl member))
        (fun id member => starts id (.inl member)) fun id member => same id (.inl member),
      statements_congr rest (fun id member => entries id (.inr member))
        (fun id member => starts id (.inr member)) fun id member => same id (.inr member)]

theorem otherwise_congr (no : Option Stmt)
    (entries : ∀ id ∈ declaredOption no, decls'.asVariable id = decls.asVariable id)
    (starts : ∀ id ∈ decls.startMentions (declaredOption no),
      decls'.place? id = decls.place? id)
    (same : ∀ id ∈ mentionsOption no, decls'.place? id = decls.place? id) :
    otherwise decls' no = otherwise decls no := by
  cases no with
  | none => rfl
  | some no =>
    simp only [otherwise]
    exact statement_congr no entries starts same

end

end Lower

/-! ## Settled declarations -/

theorem Declarations.startMentions_congr {ids} {before after : Declarations}
    (same : ∀ id ∈ ids, after.get? id = before.get? id) :
    after.startMentions ids = before.startMentions ids := by
  unfold startMentions
  exact flatMap_congr fun id member => by rw [asVariable_congr (same id member)]

/-- The variables a function mentions, initial values of its own variables included. -/
def Function.mentions (data : Function) (decls : Declarations) : List DeclId :=
  (data.body.map fun body => body.mentions ++ decls.startMentions body.declared).getD []

def DeclBody.mentions (decls : Declarations) : DeclBody → List DeclId
  | .variable data => data.mentions
  | .function data | .wrapper data => data.mentions decls

namespace Declarations

def Settled (decls : Declarations) (id : DeclId) : Prop :=
  ∀ decl, decls.get? id = some decl → ∀ other ∈ decl.body.mentions decls,
    other ∈ decl.body.owned ∨ decls.IsGlobal other

variable {data : Function}

theorem mem_owned_of_declared {body} (isBody : data.body = some body) {id : DeclId}
    (member : id ∈ body.declared) : id ∈ data.owned := by
  unfold Function.owned
  rw [isBody]
  exact mem_append_right _ member

theorem mentions_congr {before after : Declarations}
    (same : ∀ id ∈ data.owned, after.get? id = before.get? id) :
    data.mentions after = data.mentions before := by
  unfold Function.mentions
  cases isBody : data.body with
  | none => rfl
  | some body =>
    rw [Option.map_some, Option.map_some, startMentions_congr fun id member =>
      same id (mem_owned_of_declared isBody member)]

section Extends

variable {before after : Declarations} {id : DeclId} {decl : Decl}

section

variable (settled : before.Settled id) (grown : before.Extends after)
  (same : before.Intact after id)

include settled grown same

theorem Settled.extends : after.Settled id := by
  intro decl found
  have found' : before.get? id = some decl := (same id (.inl rfl)).symm.trans found
  have mine : ∀ other ∈ decl.body.owned, after.get? other = before.get? other := by
    intro other member
    refine same other (.inr ?_)
    rw [owned_of_get? found']
    exact member
  have mentions : decl.body.mentions after = decl.body.mentions before := by
    rcases isBody : decl.body with data | data | data
    · rfl
    · rw [isBody] at mine
      exact mentions_congr mine
    · rw [isBody] at mine
      exact mentions_congr mine
  rw [mentions]
  exact fun other member => (settled decl found' other member).imp_right fun isGlobal =>
    isGlobal.extends grown

theorem Settled.place? (found : before.get? id = some decl) :
    ∀ other ∈ decl.body.mentions before, after.place? other = before.place? other := by
  intro other member
  rcases settled decl found other member with isOwned | isGlobal
  · refine place?_congr (same other (.inr ?_))
    rw [owned_of_get? found]
    exact isOwned
  · rw [isGlobal.place?, (isGlobal.extends grown).place?]

theorem Settled.function {body} (found : before.get? id = some decl)
    (isFunction : decl.body = .function data ∨ decl.body = .wrapper data)
    (isBody : data.body = some body) :
    Lower.function after decl data body = Lower.function before decl data body := by
  have isOwned : before.owned id = data.owned := by
    rw [owned_of_get? found]
    rcases isFunction with isFunction | isFunction <;> rw [isFunction] <;> rfl
  have isMentions : decl.body.mentions before = body.mentions ++ before.startMentions body.declared := by
    rcases isFunction with isFunction | isFunction <;>
      simp [isFunction, DeclBody.mentions, Function.mentions, isBody]
  have mine : ∀ other ∈ data.owned, after.asVariable other = before.asVariable other :=
    fun other member => asVariable_congr (same other (.inr (isOwned ▸ member)))
  have places := settled.place? grown same found
  rw [isMentions] at places
  have parameters : (data.parameters.filterMap fun id =>
        (after.asVariable id).map fun parameter => ValueKind.ofType parameter.type) =
      data.parameters.filterMap fun id =>
        (before.asVariable id).map fun parameter => ValueKind.ofType parameter.type :=
    filterMap_congr fun other member => by rw [mine other (mem_append_left _ member)]
  unfold Lower.function
  rw [parameters, Lower.statement_congr body
    (fun other member => mine other (mem_owned_of_declared isBody member))
    (fun other member => places other (mem_append_right _ member))
    fun other member => places other (mem_append_left _ member)]

end

end Extends

/-- A valid wrapper whose variables may have become global. -/
def IsOpened (decls : Declarations) (id : DeclId) : Prop :=
  decls.Settled id ∧ ∃ decl data, decls.get? id = some decl ∧ decl.invalid = false ∧
    decl.body = .wrapper data ∧ data.body.isSome = true

theorem IsOpened.extends {before after : Declarations} {id : DeclId} (opened : before.IsOpened id)
    (grown : before.Extends after)
    (same : before.Intact after id) :
    after.IsOpened id := by
  obtain ⟨settled, decl, data, found, rest⟩ := opened
  exact ⟨settled.extends grown same, decl, data, (same id (.inl rfl)).trans found, rest⟩

end Declarations

/-! ## What is accepted is settled -/

section Sound

variable {id : DeclId}

variable {known : Analysis} {deferrals lookups : Prop}

theorem Analysis.NamesVariable.isGlobal {name type} (named : known.NamesVariable name id type) :
    known.decls.IsGlobal id := by
  obtain ⟨_, data, isData, storage, _⟩ := named
  exact ⟨data, isData, storage⟩

theorem Expr.Sound.mentions {visible} {expr : Expr}
    (sound : expr.Sound known deferrals lookups visible) :
    ∀ id ∈ expr.mentions, id ∈ visible ∨ known.decls.IsGlobal id := by
  induction sound with
  | literal | deferred | lookup => simp [Expr.mentions]
  | localName spelling seen isLocal =>
    intro id member
    rw [mem_singleton.mp member]
    exact .inl seen
  | globalName named =>
    intro id member
    rw [mem_singleton.mp member]
    exact .inr named.isGlobal
  | group inside typed ih => exact ih
  | convert inside converts typed ih => exact ih
  | unary inside typed ih => exact ih
  | binary first second leftValue rightValue unmixed typed ihFirst ihSecond =>
    exact fun id member => (mem_append.mp member).elim (ihFirst id) (ihSecond id)
  | assign place isPlace inside fits typed ihPlace ihInside =>
    exact fun id member => (mem_append.mp member).elim (ihPlace id) (ihInside id)
  | call called given ih =>
    intro id member
    obtain ⟨argument, isArgument, inArgument⟩ := Expr.mem_mentionsAll.mp member
    exact ih argument isArgument id inArgument

theorem Declarations.Starts.mentions {scope data}
    (starts : Declarations.Starts known deferrals lookups scope id data) :
    ∀ other ∈ data.mentions, other ∈ scope.visible ∨ known.decls.IsGlobal other := by
  intro other member
  cases isInitial : data.initial with
  | none => simp [Variable.mentions, isInitial] at member
  | some value =>
    rw [Variable.mentions_of_initial isInitial] at member
    exact (starts.initial value isInitial).1.mentions other member

/-- What statements may mention: what is visible before them, what they declare, and global
variables. -/
theorem Stmt.Sound.mentions {result scope statements last}
    (sound : Stmt.Sound known deferrals lookups result scope statements last) :
    ∀ id ∈ Stmt.mentionsAll statements ++ known.decls.startMentions (Stmt.declaredAll statements),
      (id ∈ scope.visible ∨ id ∈ Stmt.declaredAll statements) ∨ known.decls.IsGlobal id := by
  induction sound with
  | nil scope => simp [Stmt.mentionsAll, Stmt.declaredAll, startMentions]
  | block span inside others ihInside ihOthers =>
    simp only [Stmt.mentionsAll, Stmt.mentions, Stmt.declaredAll, Stmt.declared,
      startMentions, flatMap_append, mem_append, Scope.leave] at *
    grind
  | declared span others ih => exact ih
  | declare span starts others ih =>
    have isData := starts.isData
    have own := starts.mentions
    simp only [Stmt.mentionsAll, Stmt.mentions, Stmt.declaredAll, Stmt.declared, cons_append,
      startMentions, flatMap_cons, isData, Option.map_some, Option.getD_some,
      mem_append, Scope.push, mem_cons] at *
    grind
  | expression span _ inside | returnValue span inside =>
    have own := inside.mentions
    simp only [Stmt.mentionsAll, Stmt.mentions, Stmt.declaredAll, Stmt.declared,
      nil_append, mem_append] at *
    grind
  | branch span tested isTest chosen otherwise others ihChosen ihOtherwise ihOthers =>
    have own := tested.mentions
    rw [Stmt.mentionsAll_toList, Stmt.declaredAll_toList] at ihOtherwise
    simp only [Stmt.mentionsAll, Stmt.mentions, Stmt.declaredAll, Stmt.declared,
      startMentions, flatMap_append, append_nil, mem_append,
      Scope.leave] at *
    grind
  | loop span tested isTest inside others ihInside ihOthers =>
    have own := tested.mentions
    simp only [Stmt.mentionsAll, Stmt.mentions, Stmt.declaredAll, Stmt.declared,
      startMentions, flatMap_append, append_nil, mem_append,
      Scope.leave] at *
    grind
  | _ => assumption

theorem Function.Sound.mentions {data : Function} (sound : data.Sound known deferrals lookups) :
    ∀ id ∈ data.mentions known.decls, id ∈ data.owned ∨ known.decls.IsGlobal id := by
  intro id member
  cases isBody : data.body with
  | none => simp [Function.mentions, isBody] at member
  | some statement =>
    obtain ⟨span, body, after, rfl, inside, _⟩ := sound.body statement isBody
    have inBody : id ∈ mentionsAll body ++
        known.decls.startMentions (declaredAll body) := by
      simpa [Function.mentions, isBody, Stmt.mentions, Stmt.declared] using member
    refine (inside.mentions id inBody).imp_left fun mine => ?_
    simpa [Function.owned, isBody, Function.scope, declared] using mine

theorem Analysis.Accepted.settled {base} (accepted : known.Accepted deferrals lookups base id) :
    known.decls.Settled id := by
  intro decl found other member
  obtain ⟨decl', found', _, sound⟩ := accepted.valid
  cases found.symm.trans found'
  generalize decl.body = body at sound member
  cases sound with
  | @«variable» data isGlobal type initial =>
    cases isInitial : data.initial with
    | none => simp [DeclBody.mentions, Variable.mentions, isInitial] at member
    | some value =>
      have inValue : other ∈ value.mentions := by
        simpa [DeclBody.mentions, Variable.mentions, isInitial] using member
      exact .inr (((initial value isInitial).1.mentions other inValue).resolve_left
        not_mem_nil)
  | function sound => exact sound.mentions other member
  | wrapper sound _ _ _ => exact sound.mentions other member

end Sound

end FragmentCompiler
