import FragmentCompiler.Lowering.Lower
import FragmentCompiler.Proofs.Checking.Fetching
import FragmentCompiler.Proofs.Execution.Typing

/-!
# Typed expressions have code

Lowering a typed expression reports nothing, and the code stays the same while the
analysis learns more.  Where no name was left to be found at run time the code is typed
as well.
-/

set_option autoImplicit false

namespace FragmentCompiler

open List Lower

variable {op : BinaryOp} {left right type : Ty}

/-! ## Operators -/

/-- A value of the kind of a type that has values. -/
inductive Value.Of : Ty → Value → Prop
  | int (number : Int64) : Of .int (.int number)
  | float (number : Float) : Of .float (.float number)
  | bool (truth : Bool) : Of .bool (.bool truth)
  | string (text : Text) : Of .string (.string text)

theorem Value.of_kind (isValue : type.IsValue) {value : Value}
    (isKind : value.kind = .ofType type) : value.Of type := by
  cases type <;> simp only [Ty.IsValue] at isValue <;> cases value <;>
    simp only [Value.kind, ValueKind.ofType, reduceCtorEq] at isKind <;> constructor

theorem takes_unaryType {operand} {op : UnaryOp} (isValue : operand.IsValue)
    (typed : Check.unaryType op operand = some type) :
    op.Takes (.ofType operand) (.ofType type) := by
  intro value isKind
  cases Value.of_kind isValue isKind <;> cases op <;>
    simp only [Check.unaryType, Option.some.injEq, reduceCtorEq] at typed <;> rw [← typed] <;> rfl

theorem integerOperation_sure (notLogical : op.isLogical = false)
    (typed : Check.binaryType op .int .int = some type) (left right : Int64) :
    Fault.Sure (.ofType type) (Value.integerOperation op left right) := by
  have divides : ∀ quotient : Int64, Fault.Sure .int
      (if right = 0 then .error .divisionByZero else .ok (.int quotient)) := by
    intro quotient
    split <;> trivial
  cases op with
  | div => cases typed; exact divides _
  | mod => cases typed; exact divides _
  | and => cases notLogical
  | or => cases notLogical
  | _ => cases typed; rfl

theorem floatOperation_sure (notLogical : op.isLogical = false)
    (typed : Check.binaryType op .float .float = some type) (left right : Float) :
    Fault.Sure (.ofType type) (Value.floatOperation op left right) := by
  cases op with
  | and => cases notLogical
  | or => cases notLogical
  | mod => cases typed
  | _ => cases typed; rfl

theorem takes_binaryType (leftValue : left.IsValue) (rightValue : right.IsValue)
    (unmixed : left.isNumeric = true → right.isNumeric = true → left = right)
    (notLogical : op.isLogical = false) (typed : Check.binaryType op left right = some type) :
    op.Takes (.ofType left) (.ofType right) (.ofType type) := by
  intro first second isLeft isRight
  cases Value.of_kind leftValue isLeft with
  | int number =>
    cases Value.of_kind rightValue isRight with
    | int other => exact integerOperation_sure notLogical typed number other
    | float _ => cases unmixed rfl rfl
    | bool _ | string _ => cases op <;> cases typed
  | float number =>
    cases Value.of_kind rightValue isRight with
    | int _ => cases unmixed rfl rfl
    | float other => exact floatOperation_sure notLogical typed number other
    | bool _ | string _ => cases op <;> cases typed
  | bool truth =>
    cases Value.of_kind rightValue isRight with
    | bool other => cases op <;> cases typed <;> first | rfl | cases notLogical
    | int _ | float _ | string _ => cases op <;> cases typed
  | string text =>
    cases Value.of_kind rightValue isRight with
    | int _ | float _ | bool _ => cases op <;> cases typed
    | string other => cases op <;> cases typed <;> rfl

/-! ## Types without dynamic names -/

theorem unaryType_isValue {operand} {op : UnaryOp} (result : operand.IsResult)
    (typed : Check.unaryType op operand = some type) : operand.IsValue ∧ type.IsValue := by
  cases op <;> cases operand <;>
    first | cases result; done | (cases typed; exact ⟨trivial, trivial⟩) | cases typed

theorem binaryType_isValue (leftValue : left.IsValue) (rightValue : right.IsValue)
    (typed : Check.binaryType op left right = some type) : type.IsValue := by
  cases left <;> cases right <;> first | (cases leftValue; done) | (cases rightValue; done) |
    (cases op <;> cases typed <;> trivial)

theorem binaryType_logical (leftValue : left.IsValue) (rightValue : right.IsValue)
    (isLogical : op.isLogical = true) (typed : Check.binaryType op left right = some type) : left =
    .bool ∧ right = .bool ∧ type = .bool := by
  cases op <;> first | (cases isLogical; done) |
    (cases left <;> cases right <;> first | (cases leftValue; done) | (cases rightValue; done) |
      (cases typed; exact ⟨rfl, rfl, rfl⟩) | cases typed)

variable {arguments : List Expr}

theorem Expr.Callee.isResult {known lookups} {callee : Expr} {result : Ty}
    (called : callee.Callee known False lookups arguments result) (static : ¬ lookups) :
    result.IsResult := by
  cases called with
  | function _ _ named =>
    obtain ⟨_, _, _, isResult, _⟩ := named
    exact isResult
  | print _ _ _ => trivial
  | len _ _ _ => trivial
  | str _ _ _ => trivial
  | deferred _ _ allowed _ => exact allowed.elim
  | lookup _ _ allowed _ => exact absurd allowed static

theorem Expr.Sound.isResult {known lookups visible} {expr : Expr}
    (sound : expr.Sound known False lookups visible) (static : ¬ lookups) :
    expr.type.IsResult := by
  induction sound with
  | @literal info spelling value typed =>
    show info.type.IsResult
    rw [typed]
    cases value <;> trivial
  | localName _ _ isLocal =>
    obtain ⟨_, _, _, _, isValue⟩ := isLocal
    exact isValue.isResult
  | globalName named =>
    obtain ⟨_, _, _, _, _, isValue⟩ := named
    exact isValue.isResult
  | deferred _ allowed _ => exact allowed.elim
  | lookup _ allowed _ => exact absurd allowed static
  | @group info _ _ typed ih | @assign info _ _ _ _ _ _ typed ih =>
    show info.type.IsResult
    rw [typed]
    exact ih
  | @convert info _ _ _ converts typed _ =>
    show info.type.IsResult
    rw [typed]
    exact converts.1.isResult
  | unary _ typed ih => exact (unaryType_isValue ih typed).2.isResult
  | binary _ _ leftValue rightValue _ typed ihLeft ihRight =>
    exact (binaryType_isValue (ihLeft.isValue leftValue) (ihRight.isValue rightValue) typed).isResult
  | call called _ _ => exact called.isResult static

/-! ## Expressions -/

namespace Lower

variable {α β : Type}

def Yields (lower : Lower α) (value : α) : Prop := ∀ reports, lower reports = (value, reports)

theorem Yields.pure (value : α) : Yields (pure value) value := fun _ => rfl

variable {lower : Lower α}

theorem Yields.bind {value last} {next : α → Lower β} (first : Yields lower value)
    (second : Yields (next value) last) :
    Yields (lower >>= next) last := by
  intro reports
  show next (lower reports).1 (lower reports).2 = _
  rw [first reports]
  exact second reports

theorem Yields.map {value} (yields : Yields lower value) (change : α → β) :
    Yields (change <$> lower) (change value) := by
  intro reports
  show (change (lower reports).1, (lower reports).2) = _
  rw [yields reports]

theorem Yields.result {value} (yields : Yields lower value) :
    lower.result = (some value, []) := by
  unfold Lower.result
  rw [yields]
  rfl

end Lower

/-- A later table under which code stays the same: it has the same heads, and the visible
local variables are as they were. -/
structure Declarations.Agrees (known decls : Declarations) (visible : List DeclId) : Prop where
  grown : known.Extends decls
  same : ∀ id ∈ visible, decls.get? id = known.get? id

theorem Declarations.Agrees.refl (known : Declarations) (visible : List DeclId) :
    known.Agrees known visible := ⟨.refl known, fun _ _ => rfl⟩

theorem Declarations.Agrees.mono {visible fewer} {known decls : Declarations}
    (agrees : known.Agrees decls visible) (less : ∀ id ∈ fewer, id ∈ visible) :
    known.Agrees decls fewer :=
  ⟨agrees.grown, fun id member => agrees.same id (less id member)⟩

def Analysis.interface (known : Analysis) : Interface where
  IsVariable id kind := ∃ name type, known.NamesVariable name id type ∧ kind = .ofType type
  IsFunction name kinds result := ∃ type types, known.NamesFunction name type types ∧
    kinds = types.map ValueKind.ofType ∧ result = .ofType type

def Declarations.Laid (decls : Declarations) (visible : List DeclId) (layout : Layout) : Prop :=
  ∀ id ∈ visible, ∀ data, decls.asVariable id = some data →
    layout data.slot = some (.ofType data.type)

/-- An expression has code, the same under every later table; without names that are
found at run time the code is typed. -/
def Expr.Lowers (known : Analysis) (lookups : Prop) (visible : List DeclId) (expr : Expr) : Prop :=
  ∃ code, (∀ decls, known.decls.Agrees decls visible →
      (expression decls expr).Yields code) ∧
    (¬ lookups → ∀ layout, known.decls.Laid visible layout →
      code.Typed known.interface layout (.ofType expr.type))

namespace Expr

variable {info : ExprInfo}

variable {known : Analysis} {lookups : Prop} {visible : List DeclId}

theorem localName_lowers {spelling} {id : DeclId} (seen : id ∈ visible)
    (isLocal : known.decls.IsLocal id info.type) :
    (Expr.name info spelling (.declaration id)).Lowers known lookups visible := by
  obtain ⟨data, isData, notGlobal, isType, _⟩ := isLocal
  refine ⟨.slot data.slot, fun decls agrees => ?_, fun _ layout laid => .slot ?_⟩
  · have isLater : decls.asVariable id = some data :=
      (Declarations.asVariable_congr (agrees.same id seen)).trans isData
    unfold expression Lower.name
    simp only [isLater, if_neg notGlobal]
    exact .pure _
  · rw [laid id seen data isData, isType]
    rfl

theorem globalName_lowers {spelling} {id : DeclId}
    (named : known.NamesVariable spelling id info.type) :
    (Expr.name info spelling (.declaration id)).Lowers known lookups visible := by
  refine ⟨.global info.span id spelling, fun decls agrees => ?_, fun _ layout _ =>
    .global _ _ ⟨spelling, info.type, named, rfl⟩⟩
  obtain ⟨_, data, isData, isGlobal, _⟩ := named
  obtain ⟨data', isLater, same⟩ := agrees.grown.asVariable isData
  unfold expression Lower.name
  simp only [isLater, if_pos (same.storage isGlobal)]
  exact .pure _

theorem arguments_lower
    (each : ∀ argument ∈ arguments, argument.Lowers known lookups visible) :
    ∃ codes, (∀ decls, known.decls.Agrees decls visible →
        (expressions decls arguments).Yields codes) ∧
      codes.length = arguments.length ∧
      (¬ lookups → ∀ layout, known.decls.Laid visible layout →
        ∀ (index : Nat) (code : Computation) (kind : ValueKind), codes[index]? = some code →
          (arguments.map fun argument => ValueKind.ofType argument.type)[index]? = some kind →
          code.Typed known.interface layout kind) := by
  induction arguments with
  | nil =>
    refine ⟨[], fun decls _ => ?_, rfl, by simp⟩
    rw [expressions]
    exact .pure _
  | cons first rest ih =>
    obtain ⟨code, yields, typed⟩ := each first mem_cons_self
    obtain ⟨codes, yieldsRest, length, typedRest⟩ :=
      ih fun argument member => each argument (mem_cons_of_mem _ member)
    refine ⟨code :: codes, fun decls agrees => ?_, by simp [length],
      fun static layout laid index => ?_⟩
    · rw [expressions]
      exact (yields decls agrees).bind ((yieldsRest decls agrees).bind (.pure _))
    · cases index with
      | zero =>
        intro other kind isOther isKind
        cases isOther
        cases isKind
        exact typed static layout laid
      | succ index => exact typedRest static layout laid index

theorem assign_lowers {target value} (place : target.Sound known False lookups visible)
    (isPlace : target.IsPlace) (inside : value.Lowers known lookups visible)
    (fits : value.type = target.type ∨ (target.type = .dynamic ∧ value.type ≠ .void))
    (typed : info.type = target.type) : (Expr.assign info target value).Lowers known lookups visible
    := by
  obtain ⟨code, yields, codeTyped⟩ := inside
  have assigns : ∀ {last : Computation},
      (∀ decls, known.decls.Agrees decls visible →
        (Lower.assign decls info.span target code).Yields last) →
      ∀ decls, known.decls.Agrees decls visible →
        (Lower.expression decls (.assign info target value)).Yields last := by
    intro last assigned decls agrees
    rw [Lower.expression]
    exact (yields decls agrees).bind (assigned decls agrees)
  cases isPlace with
  | «variable» targetInfo spelling id =>
    have isValue := place.variable_isValue
    have same : value.type = targetInfo.type := by
      rcases fits with same | ⟨isDynamic, _⟩
      · exact same
      · have isDynamic : targetInfo.type = .dynamic := isDynamic
        rw [isDynamic] at isValue
        exact isValue.elim
    have kind : ValueKind.ofType info.type = .ofType value.type := by
      rw [same]
      exact congrArg ValueKind.ofType typed
    cases place with
    | localName _ seen isLocal =>
      obtain ⟨data, isData, notGlobal, isType, _⟩ := isLocal
      refine ⟨.setSlot data.slot code, assigns fun decls agrees => ?_, fun static layout laid => ?_⟩
      · have isLater : decls.asVariable id = some data :=
          (Declarations.asVariable_congr (agrees.same id seen)).trans isData
        unfold Lower.assign
        simp only [isLater, if_neg notGlobal]
        exact .pure _
      · show Computation.Typed _ _ _ (.ofType info.type)
        rw [kind]
        refine .setSlot ?_ (codeTyped static layout laid)
        rw [laid id seen data isData, isType, same]
    | globalName named =>
      refine ⟨.setGlobal info.span id spelling code, assigns fun decls agrees => ?_,
        fun static layout laid => ?_⟩
      · obtain ⟨_, data, isData, isGlobal, _⟩ := named
        obtain ⟨data', isLater, sameData⟩ := agrees.grown.asVariable isData
        unfold Lower.assign
        simp only [isLater, if_pos (sameData.storage isGlobal)]
        exact .pure _
      · show Computation.Typed _ _ _ (.ofType info.type)
        rw [kind]
        refine .setGlobal _ _ ⟨spelling, targetInfo.type, named, ?_⟩ (codeTyped static layout laid)
        rw [same]
  | deferred _ _ =>
    cases place with
    | deferred _ allowed _ => exact allowed.elim
  | lookup _ spelling =>
    cases place with
    | lookup _ allowed _ =>
      exact ⟨.setNamed info.span spelling code,
        assigns fun _ _ => .pure _, fun static => absurd allowed static⟩

theorem call_lowers {callee} (called : callee.Callee known False lookups arguments info.type)
    (given : ∀ argument ∈ arguments, argument.Sound known False lookups visible)
    (each : ∀ argument ∈ arguments, argument.Lowers known lookups visible) :
    (Expr.call info callee arguments).Lowers known lookups visible := by
  obtain ⟨codes, yields, length, codesTyped⟩ := arguments_lower each
  have calls : ∀ target : CallTarget,
      (Lower.call info.span callee codes).Yields (.call info.span target codes) →
      (¬ lookups → target.Takes known.interface
        (arguments.map fun argument => .ofType argument.type) (.ofType info.type)) →
      (Expr.call info callee arguments).Lowers known lookups visible := by
    intro target yieldsCall takes
    refine ⟨_, fun decls agrees => ?_, fun static layout laid =>
      .call info.span (takes static) (by simp [length]) (codesTyped static layout laid)⟩
    rw [expression]
    exact (yields decls agrees).bind yieldsCall
  generalize isType : info.type = result at called calls
  cases called with
  | @function _ spelling _ _ _ named =>
    refine calls (.function spelling) (Lower.Yields.pure _) fun _ => .function ?_
    exact ⟨result, _, named, by simp, rfl⟩
  | @print _ spelling _ isPrint _ =>
    refine calls (.builtin .print) ?_ fun _ => .print _
    unfold Lower.call
    simp only [isPrint]
    exact Lower.Yields.pure _
  | @len _ spelling argument isLen measured =>
    refine calls (.builtin .len) ?_ fun static => ?_
    · unfold Lower.call
      simp only [isLen]
      exact Lower.Yields.pure _
    · have isResult := (given argument mem_cons_self).isResult static
      rcases measured with isString | isDynamic
      · simp only [map_cons, map_nil, isString]
        exact .len
      · rw [isDynamic] at isResult
        exact isResult.elim
  | @str _ spelling argument isStr value =>
    refine calls (.builtin .str) ?_ fun static => ?_
    · unfold Lower.call
      simp only [isStr]
      exact .pure _
    · have isValue := ((given argument mem_cons_self).isResult static).isValue value
      simp only [map_cons, map_nil]
      refine .str ?_ ?_ <;> cases type : argument.type <;> simp_all [Ty.IsValue, ValueKind.ofType]
  | deferred _ _ allowed _ => exact allowed.elim
  | lookup _ spelling allowed _ =>
    exact calls (.function spelling) (.pure _) fun static =>
      absurd allowed static

theorem Sound.lowers {expr : Expr} (sound : expr.Sound known False lookups visible) :
    expr.Lowers known lookups visible := by
  induction sound with
  | @literal info spelling value typed =>
    refine ⟨.constant (.ofLiteral value), fun decls _ => ?_, fun _ layout _ => .constant ?_⟩
    · rw [expression]
      exact .pure _
    · show (Value.ofLiteral value).kind = .ofType info.type
      rw [typed]
      cases value <;> rfl
  | localName _ seen isLocal => exact localName_lowers seen isLocal
  | globalName named => exact globalName_lowers named
  | deferred _ allowed _ => exact allowed.elim
  | @lookup info spelling allowed _ =>
    refine ⟨.named info.span spelling, fun decls _ => ?_, fun static => absurd allowed static⟩
    rw [expression]
    exact .pure _
  | @group info inner _ typed ih =>
    obtain ⟨code, yields, codeTyped⟩ := ih
    refine ⟨code, fun decls agrees => ?_, fun static layout laid => ?_⟩
    · rw [expression]
      exact yields decls agrees
    · show code.Typed known.interface layout (.ofType info.type)
      rw [typed]
      exact codeTyped static layout laid
  | @convert info value target inside converts typed ih =>
    obtain ⟨code, yields, codeTyped⟩ := ih
    refine ⟨.convert info.span code (.ofType target), fun decls agrees => ?_,
      fun static layout laid => ?_⟩
    · rw [expression]
      exact (yields decls agrees).bind (.pure _)
    · show Computation.Typed _ _ _ (.ofType info.type)
      rw [typed]
      refine .convert _ (codeTyped static layout laid) ?_
      rcases converts.2 with isDynamic | ⟨isInt, isFloat⟩ | ⟨isFloat, isInt⟩
      · have isResult := inside.isResult static
        rw [isDynamic] at isResult
        exact isResult.elim
      · rw [isInt, isFloat]
        exact .inl ⟨rfl, rfl⟩
      · rw [isInt, isFloat]
        exact .inr ⟨rfl, rfl⟩
  | @unary info op operand inside typed ih =>
    obtain ⟨code, yields, codeTyped⟩ := ih
    refine ⟨.unary info.span op code, fun decls agrees => ?_, fun static layout laid => ?_⟩
    · rw [expression]
      exact (yields decls agrees).bind (.pure _)
    · have isValue := (unaryType_isValue (inside.isResult static) typed).1
      exact .unary _ (codeTyped static layout laid) (takes_unaryType isValue typed)
  | @binary info op left right first second leftValue rightValue unmixed typed ihLeft ihRight =>
    obtain ⟨code, yields, codeTyped⟩ := ihLeft
    obtain ⟨code', yields', codeTyped'⟩ := ihRight
    by_cases isLogical : op.isLogical = true
    · refine ⟨.logical info.span (op == .or) code code', fun decls agrees => ?_,
        fun static layout laid => ?_⟩
      · rw [expression]
        refine (yields decls agrees).bind ((yields' decls agrees).bind ?_)
        rw [if_pos isLogical]
        exact .pure _
      · obtain ⟨isLeft, isRight, isBool⟩ := binaryType_logical
          ((first.isResult static).isValue leftValue)
          ((second.isResult static).isValue rightValue) isLogical typed
        show Computation.Typed _ _ _ (.ofType info.type)
        have codeLeft := codeTyped static layout laid
        have codeRight := codeTyped' static layout laid
        rw [isLeft] at codeLeft
        rw [isRight] at codeRight
        rw [isBool]
        exact .logical _ _ codeLeft codeRight
    · refine ⟨.binary info.span op code code', fun decls agrees => ?_,
        fun static layout laid => ?_⟩
      · rw [expression]
        refine (yields decls agrees).bind ((yields' decls agrees).bind ?_)
        rw [if_neg isLogical]
        exact .pure _
      · refine .binary _ (codeTyped static layout laid) (codeTyped' static layout laid) ?_
        exact takes_binaryType ((first.isResult static).isValue leftValue)
          ((second.isResult static).isValue rightValue) unmixed (by simpa using isLogical) typed
  | assign place isPlace _ fits typed _ ih => exact assign_lowers place isPlace ih fits typed
  | call called given ih => exact call_lowers called given ih

end Expr

end FragmentCompiler
