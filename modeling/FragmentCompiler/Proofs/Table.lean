import FragmentCompiler.Syntax.Basic

/-!
# The table of declarations

What can be read from the table after a change, which part of a declaration no
change ever touches, and which numbers a declaration owns.
-/

set_option autoImplicit false

namespace FragmentCompiler

open List

namespace Ty

variable {type : Ty}

/-- The types variables can have. -/
def IsValue : Ty → Prop
  | .int | .float | .bool | .string => True
  | _ => False

/-- The types functions can have as their result. -/
def IsResult : Ty → Prop
  | .int | .float | .bool | .string | .void => True
  | _ => False

theorem IsValue.isResult (value : type.IsValue) : type.IsResult := by
  cases type <;> first | exact True.intro | exact value

theorem IsValue.ne_invalid (value : type.IsValue) : type ≠ .invalid := by
  rintro rfl
  exact value

theorem IsResult.ne_invalid (result : type.IsResult) : type ≠ .invalid := by
  rintro rfl
  exact result

theorem IsResult.isValue (result : type.IsResult) (notVoid : type ≠ .void) : type.IsValue := by
  cases type <;> first | exact True.intro | exact result | exact absurd rfl notVoid

end Ty

/-! ## Heads -/

/-- What stays of a variable: its type, and that it is global once it is. -/
structure Variable.SameHead (before after : Variable) : Prop where
  type : after.type = before.type
  storage : before.storage = .global → after.storage = .global

/-- What stays of a function: its result, its parameters and whether it has a body. -/
structure Function.SameHead (before after : Function) : Prop where
  result : after.result = before.result
  parameters : after.parameters = before.parameters
  body : after.body.isSome = before.body.isSome

def DeclBody.SameHead : DeclBody → DeclBody → Prop
  | .variable before, .variable after => before.SameHead after
  | .function before, .function after => before.SameHead after
  | .wrapper before, .wrapper after => before.SameHead after
  | _, _ => False

/-- What no change of the table touches in a declaration. -/
structure Decl.SameHead (before after : Decl) : Prop where
  name : after.name = before.name
  body : before.body.SameHead after.body
  external : before.external = true → after.external = true

theorem Variable.SameHead.refl (data : Variable) : data.SameHead data := ⟨rfl, id⟩

theorem Variable.SameHead.trans {first second third : Variable} (left : first.SameHead second)
    (right : second.SameHead third) : first.SameHead third :=
  ⟨right.type.trans left.type, fun isGlobal => right.storage (left.storage isGlobal)⟩

theorem Function.SameHead.refl (data : Function) : data.SameHead data := ⟨rfl, rfl, rfl⟩

theorem Function.SameHead.trans {first second third : Function} (left : first.SameHead second)
    (right : second.SameHead third) : first.SameHead third :=
  ⟨right.result.trans left.result, right.parameters.trans left.parameters,
    right.body.trans left.body⟩

theorem DeclBody.SameHead.refl (body : DeclBody) : body.SameHead body := by
  rcases body with data | data | data
  · exact Variable.SameHead.refl data
  · exact Function.SameHead.refl data
  · exact Function.SameHead.refl data

theorem DeclBody.SameHead.trans {first second third : DeclBody} (left : first.SameHead second)
    (right : second.SameHead third) : first.SameHead third := by
  cases first <;> cases second <;> cases third <;>
    first
      | exact Variable.SameHead.trans left right
      | exact Function.SameHead.trans left right
      | exact False.elim left
      | exact False.elim right

theorem Decl.SameHead.refl (decl : Decl) : decl.SameHead decl :=
  ⟨rfl, .refl decl.body, id⟩

theorem Decl.SameHead.trans {first second third : Decl} (left : first.SameHead second)
    (right : second.SameHead third) : first.SameHead third :=
  ⟨right.name.trans left.name, left.body.trans right.body,
    fun isExternal => right.external (left.external isExternal)⟩

theorem Decl.SameHead.variable {data} {before after : Decl} (same : before.SameHead after)
    (declared : before.body = .variable data) :
    ∃ data', after.body = .variable data' ∧ data.SameHead data' := by
  have kept := same.body
  rw [declared] at kept
  rcases body : after.body with data' | data' | data' <;> rw [body] at kept
  · exact ⟨data', rfl, kept⟩
  · exact False.elim kept
  · exact False.elim kept

theorem Decl.SameHead.function {data} {before after : Decl} (same : before.SameHead after)
    (declared : before.body = .function data) :
    ∃ data', after.body = .function data' ∧ data.SameHead data' := by
  have kept := same.body
  rw [declared] at kept
  rcases body : after.body with data' | data' | data' <;> rw [body] at kept
  · exact False.elim kept
  · exact ⟨data', rfl, kept⟩
  · exact False.elim kept

namespace Declarations

variable {decl : Decl} {id other : DeclId} {after before decls : Declarations} {data : Variable}

/-- The number of declarations made so far. -/
def count (decls : Declarations) : Nat := decls.entries.size

/-! ## Reading after a change -/

theorem get?_succ (decls : Declarations) (index : Nat) :
    decls.get? (index + 1) = decls.entries[index]? := rfl

theorem get?_eq_none (decls : Declarations) (beyond : decls.count < id) : decls.get? id = none := by
  cases id with
  | zero => rfl
  | succ index =>
    rw [get?_succ]
    unfold count at beyond
    exact Array.getElem?_eq_none (by omega)

theorem le_count_of_get? (found : decls.get? id = some decl) : id ≤ decls.count := by
  apply Nat.le_of_not_lt
  intro beyond
  rw [decls.get?_eq_none beyond] at found
  cases found

section

variable (decls : Declarations)

@[simp] theorem count_modify (id : DeclId) (change : Decl → Decl) :
    (decls.modify id change).count = decls.count := by
  cases id with
  | zero => rfl
  | succ index => simp [modify, count]

theorem get?_modify (id other : DeclId) (change : Decl → Decl) :
    (decls.modify id change).get? other =
      if other = id then (decls.get? other).map change else decls.get? other := by
  cases id with
  | zero =>
    cases other with
    | zero => rfl
    | succ index => simp [modify]
  | succ index =>
    cases other with
    | zero => simp [get?]
    | succ place =>
      simp only [modify, get?_succ, Array.getElem?_modify, Nat.succ.injEq]
      by_cases same : index = place
      · simp [same]
      · simp [same, Ne.symm same]

theorem get?_modify_self (id : DeclId) (change : Decl → Decl) :
    (decls.modify id change).get? id = (decls.get? id).map change := by
  simp [get?_modify]

theorem get?_modify_of_ne (change : Decl → Decl) (different : other ≠ id) :
    (decls.modify id change).get? other = decls.get? other := by
  simp [get?_modify, different]

@[simp] theorem count_add (decl : Decl) : (decls.add decl).2.count = decls.count + 1 := by
  simp [add, count]

theorem get?_add (decl : Decl) (other : DeclId) :
    (decls.add decl).2.get? other =
      if other = decls.count + 1 then some decl else decls.get? other := by
  cases other with
  | zero => rfl
  | succ index =>
    simp only [add, get?_succ, count, Nat.succ.injEq, Array.getElem?_push]

theorem get?_add_self (decl : Decl) : (decls.add decl).2.get? (decls.count + 1) = some decl := by
  simp [get?_add]

theorem get?_add_of_le (decl : Decl) (known : other ≤ decls.count) :
    (decls.add decl).2.get? other = decls.get? other := by
  have different : other ≠ decls.count + 1 := Nat.ne_of_lt (Nat.lt_succ_of_le known)
  simp [get?_add, different]

end

theorem asVariable_eq_some :
    decls.asVariable id = some data ↔
      ∃ decl, decls.get? id = some decl ∧ decl.body = .variable data := by
  unfold asVariable
  cases found : decls.get? id with
  | none => simp
  | some decl =>
    simp only [Option.bind_some, Option.some.injEq]
    cases body : decl.body <;> simp [Decl.asVariable, body]

theorem asVariable_of_get? (found : decls.get? id = some decl) (body : decl.body = .variable data) :
    decls.asVariable id = some data :=
  asVariable_eq_some.mpr ⟨decl, found, body⟩

/-- A number that does not stand for a wrapper. -/
def IsPlain (decls : Declarations) (id : DeclId) : Prop :=
  ∃ decl, decls.get? id = some decl ∧ ∀ data, decl.body ≠ .wrapper data

theorem asVariable_congr
    (same : after.get? id = before.get? id) : after.asVariable id = before.asVariable id := by
  unfold asVariable
  rw [same]

theorem asFunction_congr
    (same : after.get? id = before.get? id) : after.asFunction id = before.asFunction id := by
  unfold asFunction
  rw [same]

section

variable (decls : Declarations)

theorem modifyVariable_get?_self (id : DeclId) (change : Variable → Variable)
    (found : decls.get? id = some decl) (body : decl.body = .variable data) :
    (decls.modifyVariable id change).get? id =
      some { decl with body := .variable (change data) } := by
  unfold modifyVariable
  rw [get?_modify_self, found]
  simp [body]

theorem modifyFunction_get?_self (id : DeclId) (change : Function → Function) {data : Function}
    (found : decls.get? id = some decl) (body : decl.body = .function data) :
    (decls.modifyFunction id change).get? id =
      some { decl with body := .function (change data) } := by
  unfold modifyFunction
  rw [get?_modify_self, found]
  simp [body]

theorem modifyFunction_get?_wrapper (id : DeclId) (change : Function → Function) {data : Function}
    (found : decls.get? id = some decl) (body : decl.body = .wrapper data) :
    (decls.modifyFunction id change).get? id =
      some { decl with body := .wrapper (change data) } := by
  unfold modifyFunction
  rw [get?_modify_self, found]
  simp [body]

@[simp] theorem count_modifyVariable (id : DeclId) (change : Variable → Variable) :
    (decls.modifyVariable id change).count = decls.count :=
  count_modify decls id _

@[simp] theorem count_modifyFunction (id : DeclId) (change : Function → Function) :
    (decls.modifyFunction id change).count = decls.count :=
  count_modify decls id _

theorem get?_modifyVariable_of_ne (change : Variable → Variable) (different : other ≠ id) :
    (decls.modifyVariable id change).get? other = decls.get? other :=
  get?_modify_of_ne decls _ different

theorem get?_modifyFunction_of_ne (change : Function → Function) (different : other ≠ id) :
    (decls.modifyFunction id change).get? other = decls.get? other :=
  get?_modify_of_ne decls _ different

/-! ## Tables that grow -/

def Extends (before after : Declarations) : Prop :=
  ∀ id decl, before.get? id = some decl →
    ∃ decl', after.get? id = some decl' ∧ decl.SameHead decl'

theorem Extends.refl : decls.Extends decls :=
  fun _ decl found => ⟨decl, found, .refl decl⟩

end

theorem Extends.trans {first second third : Declarations} (left : first.Extends second)
    (right : second.Extends third) : first.Extends third := by
  intro id decl found
  obtain ⟨middle, foundMiddle, sameMiddle⟩ := left id decl found
  obtain ⟨last, foundLast, sameLast⟩ := right id middle foundMiddle
  exact ⟨last, foundLast, sameMiddle.trans sameLast⟩

theorem extends_modify (decls : Declarations) (id : DeclId) (change : Decl → Decl)
    (same : ∀ decl, decls.get? id = some decl → decl.SameHead (change decl)) :
    decls.Extends (decls.modify id change) := by
  intro other decl found
  by_cases isId : other = id
  · subst isId
    refine ⟨change decl, ?_, same decl found⟩
    rw [get?_modify_self, found]
    rfl
  · exact ⟨decl, by rw [get?_modify_of_ne decls change isId, found], .refl decl⟩

theorem extends_modifyVariable (decls : Declarations) (id : DeclId)
    (change : Variable → Variable) (same : ∀ data, decls.asVariable id = some data →
      data.SameHead (change data)) : decls.Extends (decls.modifyVariable id change) := by
  refine extends_modify decls id _ fun decl found => ?_
  rcases body : decl.body with data | data | data
  · refine ⟨rfl, ?_, fun isExternal => isExternal⟩
    rw [body]
    exact same data (asVariable_of_get? found body)
  · exact .refl decl
  · exact .refl decl

theorem extends_modifyFunction (decls : Declarations) (id : DeclId)
    (change : Function → Function) (same : ∀ data, decls.asFunction id = some data →
      data.SameHead (change data)) : decls.Extends (decls.modifyFunction id change) := by
  refine extends_modify decls id _ fun decl found => ?_
  have known : decls.asFunction id = decl.asFunction := by
    unfold asFunction
    rw [found]
    rfl
  rcases body : decl.body with data | data | data
  · exact .refl decl
  · refine ⟨rfl, ?_, fun isExternal => isExternal⟩
    rw [body]
    exact same data (by rw [known]; simp [Decl.asFunction, body])
  · refine ⟨rfl, ?_, fun isExternal => isExternal⟩
    rw [body]
    exact same data (by rw [known]; simp [Decl.asFunction, body])

theorem Extends.asVariable (grown : before.Extends after) (found : before.asVariable id = some data)
    : ∃ data', after.asVariable id = some data' ∧ data.SameHead data' := by
  obtain ⟨decl, found, body⟩ := asVariable_eq_some.mp found
  obtain ⟨decl', found', same⟩ := grown id decl found
  obtain ⟨data', body', sameData⟩ := same.variable body
  exact ⟨data', asVariable_of_get? found' body', sameData⟩

/-! ## Signatures -/

def signature (decls : Declarations) (id : DeclId) : Option (Ty × List (Option Ty)) :=
  (decls.asFunction id).map fun data =>
    (data.result, data.parameters.map fun parameter =>
      (decls.asVariable parameter).map Variable.type)

def HasSignature (decls : Declarations) (id : DeclId) (result : Ty) (types : List Ty) : Prop :=
  ∃ decl data, decls.get? id = some decl ∧ decl.body = .function data ∧ data.result = result ∧
    data.parameters.map (fun parameter => (decls.asVariable parameter).map Variable.type) =
      types.map some

theorem HasSignature.signature {result types} (has : decls.HasSignature id result types) :
    decls.signature id = some (result, types.map some) := by
  obtain ⟨decl, data, found, body, resultEq, typesEq⟩ := has
  unfold Declarations.signature asFunction
  rw [found]
  simp [Decl.asFunction, body, resultEq, typesEq]

theorem exists_types {parameters : List DeclId}
    (declared : ∀ id ∈ parameters, ∃ data, decls.asVariable id = some data) :
    ∃ types : List Ty, parameters.map (fun id => (decls.asVariable id).map Variable.type) =
        types.map some ∧
      ∀ type ∈ types, ∃ id ∈ parameters, ∃ data, decls.asVariable id = some data ∧
        data.type = type := by
  induction parameters with
  | nil => exact ⟨[], rfl, by simp⟩
  | cons id rest ih =>
    obtain ⟨data, isData⟩ := declared id mem_cons_self
    obtain ⟨types, isTypes, each⟩ := ih fun other member => declared other (mem_cons_of_mem _ member)
    refine ⟨data.type :: types, by simp [isData, isTypes], fun type member => ?_⟩
    rcases mem_cons.mp member with isType | inTypes
    · exact ⟨id, mem_cons_self, data, isData, isType.symm⟩
    · obtain ⟨other, inRest, found⟩ := each type inTypes
      exact ⟨other, mem_cons_of_mem _ inRest, found⟩

theorem parameterTypes_extends (grown : before.Extends after) :
    ∀ (parameters : List DeclId) (types : List Ty),
      parameters.map (fun parameter => (before.asVariable parameter).map Variable.type) =
        types.map some →
      parameters.map (fun parameter => (after.asVariable parameter).map Variable.type) =
        types.map some := by
  intro parameters
  induction parameters with
  | nil =>
    intro types same
    exact same
  | cons parameter rest ih =>
    intro types same
    cases types with
    | nil => simp at same
    | cons type types =>
      simp only [map_cons, List.cons.injEq] at same ⊢
      obtain ⟨head, tail⟩ := same
      refine ⟨?_, ih types tail⟩
      cases found : before.asVariable parameter with
      | none => rw [found] at head; cases head
      | some data =>
        rw [found] at head
        obtain ⟨data', found', sameData⟩ := grown.asVariable found
        rw [found']
        simp only [Option.map_some, Option.some.injEq] at head ⊢
        rw [sameData.type, head]

theorem HasSignature.extends {result types} (grown : before.Extends after)
    (has : before.HasSignature id result types) : after.HasSignature id result types := by
  obtain ⟨decl, data, found, body, resultEq, typesEq⟩ := has
  obtain ⟨decl', found', same⟩ := grown id decl found
  obtain ⟨data', body', sameData⟩ := same.function body
  refine ⟨decl', data', found', body', sameData.result.trans resultEq, ?_⟩
  rw [sameData.parameters]
  exact parameterTypes_extends grown data.parameters types typesEq

end Declarations

end FragmentCompiler
