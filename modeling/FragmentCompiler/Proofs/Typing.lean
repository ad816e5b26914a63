import FragmentCompiler.Proofs.Reading.Basic

/-!
# Typed declarations

What the analysis promises about a declaration it accepted: every expression has the
type its operands give it, every name stands for something of that type, and local
variables are used only after the statement that declares them, each in a slot of its
own.  The judgements speak about an analysis, because global names are found there,
and they stay true while the analysis learns more.
-/

set_option autoImplicit false

namespace FragmentCompiler

open List

variable {after before known : Analysis} {id : DeclId} {decls : Declarations} {base : Nat}
  {deferrals deferrals' lookups lookups' : Prop}

def LiteralValue.type : LiteralValue → Ty
  | .int _ => .int
  | .float _ => .float
  | .string _ => .string
  | .bool _ => .bool

/-! ## What names stand for -/

def Declarations.IsLocal (decls : Declarations) (id : DeclId) (type : Ty) : Prop :=
  ∃ data, decls.asVariable id = some data ∧ data.storage ≠ .global ∧ data.type = type ∧
    type.IsValue

theorem Declarations.IsLocal.congr {type} {before after : Declarations}
    (same : after.get? id = before.get? id) (known : before.IsLocal id type) :
    after.IsLocal id type := by
  obtain ⟨data, found, rest⟩ := known
  exact ⟨data, (asVariable_congr same).trans found, rest⟩

def Declarations.IsDefined (decls : Declarations) (id : DeclId) : Prop :=
  ∃ decl data, decls.get? id = some decl ∧ decl.body = .function data ∧ data.body.isSome = true

theorem Declarations.IsDefined.extends {before after : Declarations} (grown : before.Extends after)
    (known : before.IsDefined id) : after.IsDefined id := by
  obtain ⟨decl, data, found, body, present⟩ := known
  obtain ⟨decl', found', same⟩ := grown id decl found
  obtain ⟨data', body', sameData⟩ := same.function body
  exact ⟨decl', data', found', body', sameData.body.trans present⟩

theorem Declarations.IsDefined.isPrototype
    (known : decls.IsDefined id) : decls.isPrototype id = false := by
  obtain ⟨decl, data, found, body, present⟩ := known
  unfold Declarations.isPrototype Decl.isPrototype Decl.asFunction
  rw [found]
  simpa [body, ← Option.not_isSome] using present

namespace Analysis

variable {after before : Analysis}

def NamesVariable (known : Analysis) (name : Text) (id : DeclId) (type : Ty) : Prop :=
  known.names.lookup name = some (.variable id) ∧
    ∃ data, known.decls.asVariable id = some data ∧ data.storage = .global ∧ data.type = type ∧
      type.IsValue

def NamesFunction (known : Analysis) (name : Text) (result : Ty) (types : List Ty) : Prop :=
  ∃ id, known.names.lookup name = some (.function id) ∧
    known.decls.HasSignature id result types ∧ result.IsResult ∧ ∀ type ∈ types, type.IsValue

/-- Everything an analysis knows, a later one still knows: a variable stays what it is,
and a function keeps its signature when a definition follows its prototype. -/
structure Extends (before after : Analysis) : Prop where
  decls : before.decls.Extends after.decls
  globals : ∀ name id, before.names.lookup name = some (.variable id) →
    after.names.lookup name = some (.variable id)
  functions : ∀ name result types, before.NamesFunction name result types →
    after.NamesFunction name result types
  defined : ∀ name id, before.names.lookup name = some (.function id) →
    before.decls.IsDefined id → after.names.lookup name = some (.function id)

theorem Extends.refl (analysis : Analysis) : analysis.Extends analysis :=
  ⟨.refl _, fun _ _ known => known, fun _ _ _ known => known,
    fun _ _ known _ => known⟩

theorem Extends.of_decls (decls : before.decls.Extends after.decls)
    (names : after.names = before.names) : before.Extends after := by
  refine ⟨decls, fun _ _ known => by rw [names]; exact known, fun _ _ _ known => ?_,
    fun _ _ known _ => by rw [names]; exact known⟩
  obtain ⟨id, isKnown, signature, rest⟩ := known
  exact ⟨id, by rw [names]; exact isKnown, signature.extends decls, rest⟩

theorem Extends.of_same (decls : after.decls = before.decls)
    (names : after.names = before.names) : before.Extends after :=
  .of_decls (by rw [decls]; exact .refl _) names

theorem Extends.trans {first second third : Analysis} (left : first.Extends second)
    (right : second.Extends third) : first.Extends third :=
  ⟨left.decls.trans right.decls,
    fun name id known => right.globals name id (left.globals name id known),
    fun name result types known =>
      right.functions name result types (left.functions name result types known),
    fun name id known isDefined =>
      right.defined name id (left.defined name id known isDefined) (isDefined.extends left.decls)⟩

theorem NamesVariable.extends {name type} (grown : before.Extends after)
    (known : before.NamesVariable name id type) : after.NamesVariable name id type := by
  obtain ⟨named, data, found, isGlobal, isType, isValue⟩ := known
  obtain ⟨data', found', same⟩ := grown.decls.asVariable found
  exact ⟨grown.globals name id named, data', found', same.storage isGlobal,
    same.type.trans isType, isValue⟩

end Analysis

/-! ## Expressions -/

/-- An expression that can be assigned to. -/
inductive Expr.IsPlace : Expr → Prop
  | variable (info : ExprInfo) (spelling : Text) (id : DeclId) :
      IsPlace (.name info spelling (.declaration id))
  | deferred (info : ExprInfo) (spelling : Text) : IsPlace (.name info spelling .deferred)
  | lookup (info : ExprInfo) (spelling : Text) : IsPlace (.lookup info spelling)

section

variable (known) (deferrals lookups) (visible : List DeclId)

/-- A callee with arguments of the right types, and the type of the result.  `deferrals`
and `lookups` say whether names may be left to be found at run time. -/
inductive Expr.Callee : Expr → List Expr → Ty → Prop
  | function (info : ExprInfo) {spelling : Text} (id : DeclId) {result : Ty} {arguments : List Expr}
      (named : known.NamesFunction spelling result (arguments.map Expr.type)) :
      Callee (.name info spelling (.declaration id)) arguments result
  | print (info : ExprInfo) {spelling : Text} {arguments : List Expr}
      (isPrint : Builtin.ofText? spelling = some .print)
      (values : ∀ argument ∈ arguments, argument.type ≠ .void) :
      Callee (.name info spelling .builtin) arguments .void
  | len (info : ExprInfo) {spelling : Text} {argument : Expr}
      (isLen : Builtin.ofText? spelling = some .len)
      (measured : argument.type = .string ∨ argument.type = .dynamic) :
      Callee (.name info spelling .builtin) [argument] .int
  | str (info : ExprInfo) {spelling : Text} {argument : Expr}
      (isStr : Builtin.ofText? spelling = some .str) (value : argument.type ≠ .void) :
      Callee (.name info spelling .builtin) [argument] .string
  | deferred {arguments} (info : ExprInfo) (spelling : Text) (allowed : deferrals)
      (values : ∀ argument ∈ arguments, argument.type ≠ .void) :
      Callee (.name info spelling .deferred) arguments .dynamic
  | lookup {arguments} (info : ExprInfo) (spelling : Text) (allowed : lookups)
      (values : ∀ argument ∈ arguments, argument.type ≠ .void) :
      Callee (.lookup info spelling) arguments .dynamic

/-- The conversions the analysis inserts. -/
def Ty.ConvertsTo (source target : Ty) : Prop :=
  target.IsValue ∧
    (source = .dynamic ∨ (source = .int ∧ target = .float) ∨ (source = .float ∧ target = .int))

/-- A typed expression over visible local variables. -/
inductive Expr.Sound : Expr → Prop
  | literal {info : ExprInfo} (spelling : Text) {value : LiteralValue}
      (typed : info.type = value.type) : Sound (.literal info spelling value)
  | localName {info : ExprInfo} (spelling : Text) {id : DeclId} (seen : id ∈ visible)
      (isLocal : known.decls.IsLocal id info.type) : Sound (.name info spelling (.declaration id))
  | globalName {spelling} {info : ExprInfo} {id : DeclId}
      (named : known.NamesVariable spelling id info.type) :
      Sound (.name info spelling (.declaration id))
  | deferred {info : ExprInfo} (spelling : Text) (allowed : deferrals)
      (typed : info.type = .dynamic) : Sound (.name info spelling .deferred)
  | lookup {info : ExprInfo} (spelling : Text) (allowed : lookups) (typed : info.type = .dynamic) :
      Sound (.lookup info spelling)
  | group {info : ExprInfo} {inner : Expr} (inside : Sound inner) (typed : info.type = inner.type) :
      Sound (.group info inner)
  | convert {info : ExprInfo} {value : Expr} {target : Ty} (inside : Sound value)
      (converts : value.type.ConvertsTo target) (typed : info.type = target) :
      Sound (.convert info value target)
  | unary {info : ExprInfo} {op : UnaryOp} {operand : Expr} (inside : Sound operand)
      (typed : Check.unaryType op operand.type = some info.type) : Sound (.unary info op operand)
  | binary {info : ExprInfo} {op : BinaryOp} {left right : Expr} (first : Sound left)
      (second : Sound right) (leftValue : left.type ≠ .void) (rightValue : right.type ≠ .void)
      (unmixed : left.type.isNumeric = true → right.type.isNumeric = true →
        left.type = right.type)
      (typed : Check.binaryType op left.type right.type = some info.type) :
      Sound (.binary info op left right)
  | assign {info : ExprInfo} {target value : Expr} (place : Sound target) (isPlace : target.IsPlace)
      (inside : Sound value)
      (fits : value.type = target.type ∨ (target.type = .dynamic ∧ value.type ≠ .void))
      (typed : info.type = target.type) : Sound (.assign info target value)
  | call {info : ExprInfo} {callee : Expr} {arguments : List Expr}
      (called : callee.Callee known deferrals lookups arguments info.type)
      (given : ∀ argument ∈ arguments, Sound argument) : Sound (.call info callee arguments)

end

namespace Expr

variable {after before known : Analysis} {expr : Expr} {visible : List DeclId}
  {deferrals lookups : Prop}

theorem Callee.result_ne_invalid {arguments result} {callee : Expr}
    (called : callee.Callee known deferrals lookups arguments result) : result ≠ .invalid := by
  cases called with
  | function _ _ named =>
    obtain ⟨_, _, _, isResult, _⟩ := named
    exact isResult.ne_invalid
  | _ => simp

theorem Sound.type_ne_invalid (sound : expr.Sound known deferrals lookups visible) :
    expr.type ≠ .invalid := by
  induction sound with
  | @literal info spelling value typed =>
    show info.type ≠ .invalid
    rw [typed]
    cases value <;> simp [LiteralValue.type]
  | localName _ _ isLocal =>
    obtain ⟨_, _, _, _, isValue⟩ := isLocal
    exact isValue.ne_invalid
  | globalName named =>
    obtain ⟨_, _, _, _, _, isValue⟩ := named
    exact isValue.ne_invalid
  | @deferred info _ _ typed | @lookup info _ _ typed =>
    show info.type ≠ .invalid
    simp [typed]
  | @group info _ _ typed ih | @assign info _ _ _ _ _ _ typed ih =>
    show info.type ≠ .invalid
    rw [typed]
    exact ih
  | @convert info _ _ _ converts typed _ =>
    show info.type ≠ .invalid
    rw [typed]
    exact converts.1.ne_invalid
  | @unary info op operand _ typed ih =>
    show info.type ≠ .invalid
    intro isInvalid
    rw [isInvalid] at typed
    cases op <;> cases type : operand.type <;> simp_all [Check.unaryType]
  | @binary info op left right _ _ _ _ _ typed ihLeft _ =>
    show info.type ≠ .invalid
    intro isInvalid
    rw [isInvalid] at typed
    unfold Check.binaryType at typed
    dsimp only at typed
    repeat' split at typed
    all_goals simp_all
  | call called _ _ => exact called.result_ne_invalid

theorem Sound.variable_isValue {spelling} {info : ExprInfo}
    (sound : (Expr.name info spelling (.declaration id)).Sound known deferrals lookups visible) :
    info.type.IsValue := by
  cases sound with
  | localName _ _ isLocal =>
    obtain ⟨_, _, _, _, isValue⟩ := isLocal
    exact isValue
  | globalName named =>
    obtain ⟨_, _, _, _, _, isValue⟩ := named
    exact isValue

theorem Callee.weaken {arguments result} (grown : before.Extends after)
    (deferred : deferrals → deferrals') (looked : lookups → lookups') {callee : Expr}
    (called : callee.Callee before deferrals lookups arguments result) :
    callee.Callee after deferrals' lookups' arguments result := by
  cases called with
  | function info id named => exact .function info id (grown.functions _ _ _ named)
  | print info isPrint values => exact .print info isPrint values
  | len info isLen measured => exact .len info isLen measured
  | str info isStr value => exact .str info isStr value
  | deferred info spelling allowed values => exact .deferred info spelling (deferred allowed) values
  | lookup info spelling allowed values => exact .lookup info spelling (looked allowed) values

/-- An expression stays typed while the analysis learns more, the local variables it may
use stay as they are, and more names may be found at run time. -/
theorem Sound.weaken {visible'} (grown : before.Extends after) (deferred : deferrals → deferrals')
    (looked : lookups → lookups')
    (more : ∀ id ∈ visible, id ∈ visible' ∧ after.decls.get? id = before.decls.get? id)
    (sound : expr.Sound before deferrals lookups visible) :
    expr.Sound after deferrals' lookups' visible' := by
  induction sound with
  | literal spelling typed => exact .literal spelling typed
  | localName spelling seen isLocal =>
    obtain ⟨seen', same⟩ := more _ seen
    exact .localName spelling seen' (isLocal.congr same)
  | globalName named => exact .globalName (named.extends grown)
  | deferred spelling allowed typed => exact .deferred spelling (deferred allowed) typed
  | lookup spelling allowed typed => exact .lookup spelling (looked allowed) typed
  | group _ typed ih => exact .group ih typed
  | convert _ converts typed ih => exact .convert ih converts typed
  | unary _ typed ih => exact .unary ih typed
  | binary _ _ leftValue rightValue unmixed typed ihLeft ihRight =>
    exact .binary ihLeft ihRight leftValue rightValue unmixed typed
  | assign _ isPlace _ fits typed ihTarget ihValue =>
    exact .assign ihTarget isPlace ihValue fits typed
  | call called _ ih => exact .call (called.weaken grown deferred looked) ih

theorem Sound.extends (grown : before.Extends after)
    (same : ∀ id ∈ visible, after.decls.get? id = before.decls.get? id)
    (sound : expr.Sound before deferrals lookups visible) :
    expr.Sound after deferrals lookups visible :=
  sound.weaken grown id id fun id seen => ⟨seen, same id seen⟩

end Expr

/-! ## Statements -/

/-- The visible local variables, and the first slot none of them has. -/
structure Scope where
  visible : List DeclId
  next : Nat

def Scope.leave (scope inner : Scope) : Scope := { scope with next := inner.next }

/-- The scope with one more variable. -/
def Scope.push (scope : Scope) (id : DeclId) : Scope := ⟨id :: scope.visible, scope.next + 1⟩

/-- A local variable that takes the next slot and has a typed initial value. -/
structure Declarations.Starts (known : Analysis) (deferrals lookups : Prop) (scope : Scope)
    (id : DeclId) (data : Variable) : Prop where
  entry : ∃ decl, known.decls.get? id = some decl ∧ decl.invalid = false ∧
    decl.body = .variable data
  isLocal : data.storage = .local
  slot : data.slot = scope.next
  type : data.type.IsValue
  initial : ∀ value, data.initial = some value →
    value.Sound known deferrals lookups scope.visible ∧ value.type = data.type

theorem Declarations.Starts.isData {scope data}
    (starts : Declarations.Starts known deferrals lookups scope id data) :
    known.decls.asVariable id = some data := by
  obtain ⟨decl, found, _, body⟩ := starts.entry
  exact asVariable_of_get? found body

section

variable (known) (deferrals lookups) (result : Ty)

/-- Typed statements of a function with a result, from one scope to another.  The rules
take the statements of a list one after another; the variables of a declaration are
taken one after another too, as each sees those before it. -/
inductive Stmt.Sound : Scope → List Stmt → Scope → Prop
  | nil (scope : Scope) : Sound scope [] scope
  | block {body rest} {scope inner after : Scope} (span : Span) (inside : Sound scope body inner)
      (others : Sound (scope.leave inner) rest after) : Sound scope (.block span body :: rest) after
  | declared {rest} {scope after : Scope} (span : Span) (others : Sound scope rest after) :
      Sound scope (.declare span [] :: rest) after
  | declare {scope after : Scope} (span : Span) {id : DeclId} {data : Variable}
      {ids : List DeclId} {rest : List Stmt}
      (starts : Declarations.Starts known deferrals lookups scope id data)
      (others : Sound (scope.push id) (.declare span ids :: rest)
        after) : Sound scope (.declare span (id :: ids) :: rest) after
  | expression {rest value} {scope after : Scope} (span : Span) (unterminated : Bool)
      (inside : value.Sound known deferrals lookups scope.visible)
      (others : Sound scope rest after) :
      Sound scope (.expression span value unterminated :: rest) after
  | branch {scope first second after : Scope} (span : Span) {test : Expr} {yes : Stmt}
      {no : Option Stmt} {rest : List Stmt}
      (tested : test.Sound known deferrals lookups scope.visible) (isTest : test.type = .bool)
      (chosen : Sound scope [yes] first) (otherwise : Sound (scope.leave first) no.toList second)
      (others : Sound (scope.leave second) rest after) :
      Sound scope (.branch span test yes no :: rest) after
  | loop {body rest test} {scope inner after : Scope} (span : Span)
      (tested : test.Sound known deferrals lookups scope.visible) (isTest : test.type = .bool)
      (inside : Sound scope [body] inner) (others : Sound (scope.leave inner) rest after) :
      Sound scope (.loop span test body :: rest) after
  | return {rest} {scope after : Scope} (span : Span) (isVoid : result = .void)
      (others : Sound scope rest after) : Sound scope (.return span none :: rest) after
  | returnValue {rest value} {scope after : Scope} (span : Span)
      (inside : value.Sound known deferrals lookups scope.visible) (fits : value.type = result)
      (notVoid : result ≠ .void) (others : Sound scope rest after) :
      Sound scope (.return span (some value) :: rest) after
  | break {rest} {scope after : Scope} (span : Span) (others : Sound scope rest after) :
      Sound scope (.break span :: rest) after
  | continue {rest} {scope after : Scope} (span : Span) (others : Sound scope rest after) :
      Sound scope (.continue span :: rest) after
  | empty {rest} {scope after : Scope} (span : Span) (others : Sound scope rest after) :
      Sound scope (.empty span :: rest) after

end

theorem Stmt.Sound.append {result first second} {scope middle after : Scope}
    (left : Stmt.Sound known deferrals lookups result scope first middle)
    (right : Stmt.Sound known deferrals lookups result middle second after) :
    Stmt.Sound known deferrals lookups result scope (first ++ second) after := by
  induction left with
  | nil scope => exact right
  | block span inside _ _ ih => exact .block span inside (ih right)
  | declared span _ ih => exact .declared span (ih right)
  | declare span starts _ ih => exact .declare span starts (ih right)
  | expression span unterminated inside _ ih => exact .expression span unterminated inside (ih right)
  | branch span tested isTest chosen otherwise _ _ _ ih =>
    exact .branch span tested isTest chosen otherwise (ih right)
  | loop span tested isTest inside _ _ ih => exact .loop span tested isTest inside (ih right)
  | «return» span isVoid _ ih => exact .return span isVoid (ih right)
  | returnValue span inside fits notVoid _ ih => exact .returnValue span inside fits notVoid (ih right)
  | «break» span _ ih => exact .break span (ih right)
  | «continue» span _ ih => exact .continue span (ih right)
  | empty span _ ih => exact .empty span (ih right)

theorem Declarations.Starts.weaken {scope data} (grown : before.Extends after)
    (deferred : deferrals → deferrals') (looked : lookups → lookups')
    (starts : Declarations.Starts before deferrals lookups scope id data)
    (own : after.decls.get? id = before.decls.get? id)
    (same : ∀ other ∈ scope.visible, after.decls.get? other = before.decls.get? other) :
    Declarations.Starts after deferrals' lookups' scope id data := { starts with
  entry := by
    obtain ⟨decl, found, rest⟩ := starts.entry
    exact ⟨decl, own.trans found, rest⟩
  initial := by
    intro value isValue
    obtain ⟨sound, typed⟩ := starts.initial value isValue
    exact ⟨sound.weaken grown deferred looked fun other seen => ⟨seen, same other seen⟩, typed⟩ }

/-- Statements stay typed while the analysis learns more and the variables they see and
declare stay as they are. -/
theorem Stmt.Sound.weaken {result statements last scope} (grown : before.Extends after)
    (deferred : deferrals → deferrals') (looked : lookups → lookups')
    (sound : Stmt.Sound before deferrals lookups result scope statements last)
    (seen : ∀ id ∈ scope.visible, after.decls.get? id = before.decls.get? id)
    (made : ∀ id ∈ Stmt.declaredAll statements, after.decls.get? id = before.decls.get? id) :
    Stmt.Sound after deferrals' lookups' result scope statements last := by
  have expression : ∀ {scope : Scope} {value : Expr},
      (∀ id ∈ scope.visible, after.decls.get? id = before.decls.get? id) →
      value.Sound before deferrals lookups scope.visible →
      value.Sound after deferrals' lookups' scope.visible := by
    intro scope value seen sound
    exact sound.weaken grown deferred looked fun other member => ⟨member, seen other member⟩
  induction sound with
  | nil scope => exact .nil scope
  | block span _ _ ihInside ihOthers =>
    obtain ⟨inside, others⟩ := forall_mem_append.mp made
    exact .block span (ihInside seen inside) (ihOthers seen others)
  | declared span _ ih => exact .declared span (ih seen made)
  | declare span starts _ ih =>
    obtain ⟨own, made⟩ := forall_mem_cons.mp made
    exact .declare span (starts.weaken grown deferred looked own seen)
      (ih (forall_mem_cons.mpr ⟨own, seen⟩) made)
  | expression span unterminated inside _ ih =>
    exact .expression span unterminated (expression seen inside) (ih seen made)
  | branch span tested isTest _ _ _ ihYes ihNo ih =>
    rw [Stmt.declaredAll_branch, forall_mem_append, forall_mem_append] at made
    exact .branch span (expression seen tested) isTest (ihYes seen made.1) (ihNo seen made.2.1)
      (ih seen made.2.2)
  | loop span tested isTest _ _ ihInside ih =>
    rw [Stmt.declaredAll_loop, forall_mem_append] at made
    exact .loop span (expression seen tested) isTest (ihInside seen made.1) (ih seen made.2)
  | «return» span isVoid _ ih => exact .return span isVoid (ih seen made)
  | returnValue span inside fits notVoid _ ih =>
    exact .returnValue span (expression seen inside) fits notVoid (ih seen made)
  | «break» span _ ih => exact .break span (ih seen made)
  | «continue» span _ ih => exact .continue span (ih seen made)
  | empty span _ ih => exact .empty span (ih seen made)

/-! ## Declarations -/

def Function.scope (data : Function) : Scope :=
  ⟨data.parameters.reverse, data.parameters.length⟩

def Declarations.IsTypedParameter (decls : Declarations) (index : Nat) (id : DeclId) : Prop :=
  ∃ data, decls.asVariable id = some data ∧ data.storage = .parameter ∧ data.slot = index ∧
    data.type.IsValue

section

variable (known) (deferrals lookups)

/-- A typed function: its body is a block whose statements are typed in the scope of the
parameters, and a frame has room for every variable. -/
structure Function.Sound (data : Function) : Prop where
  parameters : ∀ (index : Nat) (id : DeclId), data.parameters[index]? = some id →
    known.decls.IsTypedParameter index id
  body : ∀ statement, data.body = some statement →
    ∃ span body after, statement = .block span body ∧
      Stmt.Sound known deferrals lookups data.result data.scope body after ∧
      data.frame = after.next

/-- What is declared at top level, typed. -/
inductive DeclBody.Sound : DeclBody → Prop
  | variable {data : Variable} (isGlobal : data.storage = .global) (type : data.type.IsValue)
      (initial : ∀ value, data.initial = some value →
        value.Sound known deferrals lookups [] ∧ value.type = data.type) : Sound (.variable data)
  | function {data} (sound : data.Sound known deferrals lookups) : Sound (.function data)
  | wrapper {data} (sound : data.Sound known deferrals lookups) (isVoid : data.result = .void)
      (alone : data.parameters = []) (present : data.body.isSome = true) : Sound (.wrapper data)

/-- The numbers of a declaration at top level: its own and those it owns. -/
def Declarations.Family (decls : Declarations) (id other : DeclId) : Prop :=
  other = id ∨ other ∈ decls.owned id

/-- The entries of such numbers are the same afterwards. -/
def Declarations.Intact (before after : Declarations) (id : DeclId) : Prop :=
  ∀ other, before.Family id other → after.get? other = before.get? other

def Declarations.Below (decls : Declarations) (base : Nat) (ids : List DeclId) : Prop :=
  ∀ id ∈ ids, ∀ other, decls.Family id other → other ≤ base

/-- The name of a declaration stands for it.  A prototype may be announced under the
number of an earlier declaration of the function, and a wrapper has no name. -/
def Analysis.Holds (known : Analysis) (id : DeclId) (decl : Decl) : Prop :=
  match decl.body with
  | .variable _ => known.names.lookup decl.name = some (.variable id)
  | .function data => data.body.isSome = true → known.names.lookup decl.name = some (.function id)
  | .wrapper _ => True

/-- A declaration at top level that was accepted, all of whose numbers are larger than
`base`. -/
structure Analysis.Accepted (base : Nat) (id : DeclId) : Prop where
  valid : ∃ decl, known.decls.get? id = some decl ∧ decl.invalid = false ∧
    decl.body.Sound known deferrals lookups
  ordered : (known.decls.owned id).Pairwise (· < ·)
  below : ∀ other ∈ known.decls.owned id, other < id
  above : ∀ other, known.decls.Family id other → base < other
  held : ∀ decl, known.decls.get? id = some decl → known.Holds id decl

end

theorem Analysis.Holds.extends {decl} (grown : before.Extends after)
    (found : before.decls.get? id = some decl) (holds : before.Holds id decl) : after.Holds id decl := by
  unfold Holds at holds ⊢
  split
  · rename_i data body
    rw [body] at holds
    exact grown.globals _ id holds
  · rename_i data body
    intro present
    rw [body] at holds
    exact grown.defined _ id (holds present) ⟨decl, data, found, body, present⟩
  · trivial

theorem Declarations.IsTypedParameter.congr {index} {before after : Declarations}
    (same : after.get? id = before.get? id) (known : before.IsTypedParameter index id) :
    after.IsTypedParameter index id := by
  obtain ⟨data, found, rest⟩ := known
  exact ⟨data, (asVariable_congr same).trans found, rest⟩

theorem Function.Sound.weaken (grown : before.Extends after) (deferred : deferrals → deferrals')
    (looked : lookups → lookups') {data : Function} (sound : data.Sound before deferrals lookups)
    (same : ∀ id ∈ data.owned, after.decls.get? id = before.decls.get? id) : data.Sound after
    deferrals' lookups' where
  parameters := fun index id isId =>
    (sound.parameters index id isId).congr
      (same id (mem_append_left _ (mem_of_getElem? isId)))
  body := by
    intro statement isBody
    obtain ⟨span, body, last, isBlock, inside, frame⟩ := sound.body statement isBody
    refine ⟨span, body, last, isBlock, inside.weaken grown deferred looked ?_ ?_, frame⟩
    · intro id member
      exact same id (mem_append_left _ (mem_reverse.mp member))
    · intro id member
      refine same id (mem_append_right _ ?_)
      rw [isBody, isBlock]
      exact member

def DeclBody.owned : DeclBody → List DeclId
  | .variable _ => []
  | .function data | .wrapper data => data.owned

theorem Declarations.owned_of_get? {decl} (found : decls.get? id = some decl) :
    decls.owned id = decl.body.owned := by
  unfold owned asFunction
  rw [found]
  rcases body : decl.body with data | data | data <;>
    simp [Decl.asFunction, body, DeclBody.owned]

theorem Declarations.owned_congr {before after : Declarations}
    (same : after.get? id = before.get? id) : after.owned id = before.owned id := by
  unfold owned
  rw [asFunction_congr same]

def Declarations.Grounded (decls : Declarations) : Prop :=
  ∀ id decl, decls.get? id = some decl → ∀ other ∈ decl.body.owned, other < id

theorem Declarations.Grounded.owned_below (grounded : decls.Grounded)
    (id : DeclId) : ∀ other ∈ decls.owned id, other < id := by
  cases found : decls.get? id with
  | none =>
    unfold owned asFunction
    simp [found]
  | some decl =>
    rw [owned_of_get? found]
    exact grounded id decl found

theorem Declarations.Grounded.congr {before after : Declarations} (grounded : before.Grounded)
    (same : ∀ id, after.owned id = before.owned id) : after.Grounded := by
  intro id decl found other member
  rw [← owned_of_get? found, same] at member
  exact grounded.owned_below id other member

theorem Declarations.Grounded.modify {change} (grounded : decls.Grounded)
    (same : ∀ decl, decls.get? id = some decl → ∀ other ∈ (change decl).body.owned, other < id) :
    (decls.modify id change).Grounded := by
  intro other entry found
  by_cases isId : other = id
  · rw [isId, get?_modify_self] at found
    obtain ⟨decl, isDecl, isEntry⟩ := Option.map_eq_some_iff.mp found
    rw [isId, ← isEntry]
    exact same decl isDecl
  · rw [get?_modify_of_ne decls change isId] at found
    exact grounded other entry found

theorem Declarations.Grounded.modifyVariable (grounded : decls.Grounded)
    (id : DeclId) (change : Variable → Variable) : (decls.modifyVariable id change).Grounded := by
  refine grounded.modify fun decl found other member => ?_
  split at member
  · exact absurd member not_mem_nil
  · exact grounded id decl found other member

theorem Declarations.Grounded.modifyFunction {change} (grounded : decls.Grounded)
    (owned : ∀ data, decls.asFunction id = some data → ∀ other ∈ (change data).owned, other < id) :
    (decls.modifyFunction id change).Grounded := by
  refine grounded.modify fun decl found other member => ?_
  have known : decls.asFunction id = decl.asFunction := by
    unfold asFunction
    rw [found]
    rfl
  unfold Decl.asFunction at known
  split at member
  · rename_i data body
    rw [body] at known
    exact owned data known other member
  · rename_i data body
    rw [body] at known
    exact owned data known other member
  · exact grounded id decl found other member

theorem DeclBody.Sound.weaken (grown : before.Extends after) (deferred : deferrals → deferrals')
    (looked : lookups → lookups') {body : DeclBody} (sound : body.Sound before deferrals lookups)
    (same : ∀ id ∈ body.owned, after.decls.get? id = before.decls.get? id) :
    body.Sound after deferrals' lookups' := by
  cases sound with
  | «variable» isGlobal type initial =>
    refine .variable isGlobal type fun value isValue => ?_
    obtain ⟨inside, typed⟩ := initial value isValue
    exact ⟨inside.weaken grown deferred looked (by simp), typed⟩
  | function sound => exact .function (sound.weaken grown deferred looked same)
  | wrapper sound isVoid alone present =>
    exact .wrapper (sound.weaken grown deferred looked same) isVoid alone present

theorem Declarations.Family.of_owned {other} {before after : Declarations}
    (family : after.Family id other) (same : after.owned id = before.owned id) :
    before.Family id other :=
  family.imp_right fun isOwned => same ▸ isOwned

theorem Declarations.Family.alone {other} {decls : Declarations} (family : decls.Family id other)
    (alone : decls.owned id = []) : other = id :=
  family.resolve_right (alone ▸ not_mem_nil)

theorem Declarations.Family.congr {other} {before after : Declarations}
    (same : after.get? id = before.get? id) : after.Family id other ↔ before.Family id other :=
  ⟨(·.of_owned (owned_congr same)), (·.of_owned (owned_congr same.symm))⟩

theorem Analysis.Accepted.le_count (accepted : known.Accepted deferrals lookups base id) :
    ∀ other, known.decls.Family id other → other ≤ known.decls.count := by
  obtain ⟨decl, found, _⟩ := accepted.valid
  have own := Declarations.le_count_of_get? found
  intro other member
  rcases member with isId | owned
  · rw [isId]
    exact own
  · exact Nat.le_trans (Nat.le_of_lt (accepted.below other owned)) own

theorem Analysis.Accepted.weaken {less} (grown : before.Extends after)
    (deferred : deferrals → deferrals')
    (looked : lookups → lookups') (accepted : before.Accepted deferrals lookups base id)
    (lower : less ≤ base) (same : before.decls.Intact after.decls id) :
    after.Accepted deferrals' lookups' less id := by
  have own := same id (.inl rfl)
  have owned := Declarations.owned_congr own
  refine ⟨?_, ?_, ?_, ?_, ?_⟩
  · obtain ⟨decl, found, valid, sound⟩ := accepted.valid
    refine ⟨decl, own.trans found, valid, sound.weaken grown deferred looked fun other member => ?_⟩
    rw [← Declarations.owned_of_get? found] at member
    exact same other (.inr member)
  · rw [owned]
    exact accepted.ordered
  · rw [owned]
    exact accepted.below
  · intro other member
    exact Nat.lt_of_le_of_lt lower (accepted.above other ((Declarations.Family.congr own).mp member))
  · intro decl found
    have known := own.symm.trans found
    exact (accepted.held decl known).extends grown known

theorem Analysis.Accepted.extends {less} (grown : before.Extends after)
    (accepted : before.Accepted deferrals lookups base id) (lower : less ≤ base)
    (same : before.decls.Intact after.decls id) :
    after.Accepted deferrals lookups less id :=
  accepted.weaken grown (fun deferred => deferred) (fun looked => looked) lower same

end FragmentCompiler
