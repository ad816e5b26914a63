import FragmentCompiler.Proofs.Execution.Shape
import FragmentCompiler.Proofs.Lowering.Unit

/-!
# The machine mirrors the global names

For every global variable the analysis knows, the machine has one with the same number,
name and kind; for every function with a body it has the code of that declaration; and it
has nothing else.  Committing a unit keeps this so.
-/

set_option autoImplicit false

namespace FragmentCompiler

open List Machine

/-! ## Defining variables and functions -/

namespace Machine

variable {id : DeclId} {machine : Machine} {name : Text} {kind : ValueKind}

theorem mem_put {α : Type} {value : α} {table : List (Text × α)} {entry : Text × α}
    (member : entry ∈ put name value table) : entry = (name, value) ∨ entry ∈ table := by
  induction table with
  | nil => exact .inl (mem_singleton.mp member)
  | cons first rest ih =>
    obtain ⟨known, old⟩ := first
    by_cases isKnown : known = name
    · simp only [put, beq_iff_eq, isKnown, if_true, mem_cons] at member
      rcases member with isEntry | inRest
      · exact .inl isEntry
      · exact .inr (mem_cons_of_mem _ inRest)
    · simp only [put, beq_iff_eq, isKnown, if_false, mem_cons] at member
      rcases member with isEntry | inRest
      · exact .inr (mem_cons.mpr (.inl isEntry))
      · exact (ih inRest).imp_right (mem_cons_of_mem _)

def Has (machine : Machine) (id : DeclId) (name : Text) (kind : ValueKind) : Prop :=
  ∃ entry, machine.global? id = some entry ∧ entry.name = name ∧ entry.kind = kind ∧
    machine.names.lookup name = some id

theorem Has.named (has : machine.Has id name kind) :
    ∃ entry, machine.global? id = some entry ∧ entry.name = name ∧ entry.kind = kind ∧
      machine.named? name = some entry := by
  obtain ⟨entry, found, isName, isKind, known⟩ := has
  exact ⟨entry, found, isName, isKind, by simp [named?, known, found]⟩

/-- Adds a global variable. -/
def defineStart (machine : Machine) (start : GlobalStart) : Machine :=
  machine.define start.id start.name start.kind

theorem Has.define (has : machine.Has id name kind) (start : GlobalStart)
    (apart : start.name = name → start.id = id) : (machine.defineStart start).Has id name kind := by
  obtain ⟨entry, found, isName, isKind, known⟩ := has
  unfold defineStart Machine.define
  split
  · exact ⟨entry, found, isName, isKind, known⟩
  · refine ⟨entry, ?_, isName, isKind, ?_⟩
    · unfold global? at found ⊢
      simp [find?_append, found]
    · show (put start.name start.id machine.names).lookup name = some id
      rw [lookup_put]
      by_cases isStart : name = start.name
      · rw [if_pos isStart, apart isStart.symm]
      · rw [if_neg isStart, known]

theorem has_defineStart (start : GlobalStart)
    (same : ∀ entry, machine.global? start.id = some entry →
      machine.Has start.id start.name start.kind) :
    (machine.defineStart start).Has start.id start.name start.kind := by
  unfold defineStart define
  split
  · rename_i entry found
    exact same entry found
  · rename_i absent
    refine ⟨{ id := start.id, name := start.name, kind := start.kind, value := .zero start.kind },
      ?_, rfl, rfl, ?_⟩
    · unfold global? at absent ⊢
      simp [find?_append, absent]
    · show (put start.name start.id machine.names).lookup start.name = some start.id
      rw [lookup_put, if_pos rfl]

theorem global?_defineStart {start entry}
    (found : (machine.defineStart start).global? id = some entry) :
    machine.global? id = some entry ∨ id = start.id := by
  unfold defineStart define at found
  split at found
  · exact .inl found
  · unfold global? at found ⊢
    simp only [find?_append, Option.or_eq_some_iff, find?_singleton] at found
    rcases found with old | ⟨_, new⟩
    · exact .inl old
    · split at new
      · rename_i isStart
        exact .inr (beq_iff_eq.mp isStart).symm
      · cases new

/-- Starts that do not contradict each other or the variables of a machine. -/
structure Coherent (machine : Machine) (starts : List GlobalStart) : Prop where
  names : ∀ first ∈ starts, ∀ second ∈ starts, first.name = second.name → first.id = second.id
  ids : ∀ first ∈ starts, ∀ second ∈ starts, first.id = second.id → first = second
  known : ∀ start ∈ starts, ∀ entry, machine.global? start.id = some entry →
    machine.Has start.id start.name start.kind

theorem Coherent.tail {start rest} (coherent : machine.Coherent (start :: rest)) :
    (machine.defineStart start).Coherent rest where
  names := fun first inFirst second inSecond =>
    coherent.names first (mem_cons_of_mem _ inFirst) second (mem_cons_of_mem _ inSecond)
  ids := fun first inFirst second inSecond =>
    coherent.ids first (mem_cons_of_mem _ inFirst) second (mem_cons_of_mem _ inSecond)
  known := by
    intro other member entry found
    have inStarts := mem_cons_of_mem start member
    rcases global?_defineStart found with old | isStart
    · exact (coherent.known other inStarts entry old).define start fun isName =>
        coherent.names start mem_cons_self other inStarts isName
    · have same := coherent.ids other inStarts start mem_cons_self isStart
      rw [same]
      exact has_defineStart start (coherent.known start mem_cons_self)

section

variable (starts : List GlobalStart)

theorem Has.foldl {machine : Machine} (has : machine.Has id name kind)
    (apart : ∀ start ∈ starts, start.name = name → start.id = id) :
    (starts.foldl defineStart machine).Has id name kind :=
  foldlRecOn (motive := fun now : Machine => now.Has id name kind) starts defineStart has
    fun _ has start member => has.define start (apart start member)

theorem has_foldl :
    ∀ {machine : Machine}, machine.Coherent starts → ∀ start ∈ starts,
      (starts.foldl defineStart machine).Has start.id start.name start.kind := by
  induction starts with
  | nil => simp
  | cons first rest ih =>
    intro machine coherent start member
    rcases mem_cons.mp member with isFirst | inRest
    · subst isFirst
      refine (has_defineStart start (coherent.known start mem_cons_self)).foldl rest
        fun other inRest isName => ?_
      exact coherent.names other (mem_cons_of_mem _ inRest) start mem_cons_self isName
    · exact ih coherent.tail start inRest

/-- What defining variables may add to a machine. -/
structure Gains (machine : Machine) (starts : List GlobalStart) (after : Machine) : Prop where
  globals : ∀ entry ∈ after.globals, entry ∈ machine.globals ∨
    ∃ start ∈ starts, entry.id = start.id ∧ entry.name = start.name
  names : ∀ name id, (name, id) ∈ after.names → (name, id) ∈ machine.names ∨
    ∃ start ∈ starts, id = start.id ∧ name = start.name
  functions : after.functions = machine.functions

theorem gains_foldl (machine : Machine) :
    machine.Gains starts (starts.foldl defineStart machine) := by
  refine foldlRecOn starts defineStart ⟨fun _ => .inl, fun _ _ => .inl, rfl⟩ ?_
  intro now gains start member
  unfold defineStart define
  split
  · exact gains
  · refine ⟨forall_mem_append.mpr ⟨gains.globals, forall_mem_singleton.mpr
      (.inr ⟨start, member, rfl, rfl⟩)⟩, fun name id inNames => ?_, gains.functions⟩
    rcases mem_put inNames with new | old
    · cases new
      exact .inr ⟨start, member, rfl, rfl⟩
    · exact gains.names name id old

end

section

variable (codes : List LoweredFunction)

theorem foldl_addFunction_globals (machine : Machine) :
    (codes.foldl addFunction machine).globals = machine.globals ∧
      (codes.foldl addFunction machine).names = machine.names ∧
      (codes.foldl addFunction machine).stack = machine.stack :=
  foldlRecOn (motive := fun after : Machine => after.globals = machine.globals ∧
    after.names = machine.names ∧ after.stack = machine.stack) codes addFunction ⟨rfl, rfl, rfl⟩
    fun _ same _ _ => same

theorem function?_foldl_of_ne (machine : Machine) (others : ∀ code ∈ codes, code.name ≠ name) :
    (codes.foldl addFunction machine).function? name = machine.function? name := by
  refine foldlRecOn (motive := fun now : Machine => now.function? name = machine.function? name)
    codes addFunction rfl ?_
  intro now same code member
  show (put code.name code now.functions).lookup name = _
  rw [lookup_put, if_neg fun isName => others code member isName.symm]
  exact same

theorem function?_foldl :
    ∀ machine : Machine, (∀ first ∈ codes, ∀ second ∈ codes, first.name = second.name →
      first = second) → ∀ code ∈ codes,
      (codes.foldl addFunction machine).function? code.name = some code := by
  induction codes with
  | nil => simp
  | cons first rest ih =>
    intro machine same code member
    by_cases inRest : code ∈ rest
    · exact ih _ (fun first inFirst second inSecond =>
        same first (mem_cons_of_mem _ inFirst) second (mem_cons_of_mem _ inSecond))
        code inRest
    · have isFirst := (mem_cons.mp member).resolve_right inRest
      subst isFirst
      rw [foldl_cons, function?_foldl_of_ne rest _ fun other inRest' isName => ?_]
      · show (put code.name code machine.functions).lookup code.name = _
        rw [lookup_put, if_pos rfl]
      · exact inRest (same other (mem_cons_of_mem _ inRest') code member isName ▸ inRest')

theorem mem_functions_foldl (machine : Machine) : ∀ pair ∈ (codes.foldl addFunction machine).functions,
    pair ∈ machine.functions ∨ pair.2 ∈ codes ∧ pair.2.name = pair.1 := by
  refine foldlRecOn (motive := fun now : Machine => ∀ pair ∈ now.functions,
    pair ∈ machine.functions ∨ pair.2 ∈ codes ∧ pair.2.name = pair.1) codes addFunction
    (fun _ => .inl) ?_
  intro now known code isCode pair member
  rcases mem_put member with rfl | old
  · exact .inr ⟨isCode, rfl⟩
  · exact known pair old

end

end Machine

/-! ## Mirrors -/

/-- A machine has exactly the variables and functions an analysis knows. -/
structure Machine.Mirrors (machine : Machine) (analysis : Analysis) : Prop where
  /-- Every global variable has its place in the machine, under its own name. -/
  places : ∀ name id, analysis.names.lookup name = some (.variable id) →
    ∃ data entry, analysis.decls.asVariable id = some data ∧ machine.global? id = some entry ∧
      entry.name = name ∧ entry.kind = .ofType data.type ∧ machine.named? name = some entry
  /-- Every function with a body has the code of its declaration. -/
  functions : ∀ name id, analysis.names.lookup name = some (.function id) →
    analysis.decls.IsDefined id →
    ∃ code, analysis.decls.lowered? id = some code ∧ machine.function? name = some code
  globals : ∀ entry ∈ machine.globals,
    analysis.names.lookup entry.name = some (.variable entry.id)
  bindings : ∀ name id, (name, id) ∈ machine.names →
    analysis.names.lookup name = some (.variable id)
  definitions : ∀ name code, (name, code) ∈ machine.functions →
    ∃ id, analysis.names.lookup name = some (.function id) ∧ analysis.decls.IsDefined id ∧
      analysis.decls.lowered? id = some code

namespace Analysis

def Sane (analysis : Analysis) (leeway : Leeway) : Prop :=
  ∀ name meaning, analysis.names.lookup name = some meaning → meaning.isBuiltin = false →
    analysis.Accepted leeway.leftovers leeway.lookups 0 meaning.decl

/-- An analysis has learned the declarations `ids` since it was mirrored. -/
structure Joins (before : Analysis) (leeway : Leeway) (ids : List DeclId) (after : Analysis) :
    Prop where
  kept : ∀ id, id ≤ before.decls.count → after.decls.get? id = before.decls.get? id
  learns : before.Extends after
  placed : ∀ id ∈ ids, after.Placed leeway before.decls.count id
  covered : ∀ name meaning, after.names.lookup name = some meaning →
    before.names.lookup name = some meaning ∨ meaning.decl ∈ ids

theorem Sane.extends {leeway name meaning} {before after : Analysis} (sane : before.Sane leeway)
    (kept : ∀ id, id ≤ before.decls.count → after.decls.get? id = before.decls.get? id)
    (learns : before.Extends after) (known : before.names.lookup name = some meaning)
    (declared : meaning.isBuiltin = false) :
    after.Accepted leeway.leftovers leeway.lookups 0 meaning.decl := by
  have accepted := sane name meaning known declared
  exact accepted.extends learns (Nat.le_refl _) fun other family =>
    kept other (accepted.le_count other family)

theorem Named.not_wrapper {name meaning} {analysis : Analysis} (named : analysis.Named)
    (known : analysis.names.lookup name = some meaning) :
    ¬ analysis.decls.IsWrapper meaning.decl := by
  intro ⟨decl, data, found, body⟩
  have suits := named name meaning known
  cases meaning with
  | «variable» id =>
    obtain ⟨decl', _, found', _, body', _⟩ := suits
    cases found.symm.trans found'
    cases body.symm.trans body'
  | function id =>
    obtain ⟨_, _, _, ⟨decl', _, found', body', _⟩, _⟩ := suits
    cases found.symm.trans found'
    cases body.symm.trans body'
  | builtin which => cases found

theorem Joins.sane {leeway ids} {before after : Analysis} (joins : before.Joins leeway ids after)
    (sane : before.Sane leeway) (named : after.Named) :
    after.Sane leeway := by
  intro name meaning known declared
  rcases joins.covered name meaning known with old | inIds
  · exact sane.extends joins.kept joins.learns old declared
  · have accepted := (joins.placed _ inIds).accepted (named.not_wrapper known)
    exact accepted.extends (.refl after) (Nat.zero_le _) fun _ _ => rfl

/-! ## Committing -/

section Commit

variable {id : DeclId} {machine : Machine} {name : Text}

variable {before after : Analysis} {leeway : Leeway} {ids : List DeclId}

section

variable (joins : before.Joins leeway ids after)

include joins

open Declarations

theorem Joins.start {start : GlobalStart}
    (member : start ∈ ids.filterMap after.decls.globalStart?) :
    after.decls.globalStart? start.id = some start ∧ before.decls.count < start.id ∧
      after.names.lookup start.name = some (.variable start.id) := by
  obtain ⟨id, inIds, isStart⟩ := mem_filterMap.mp member
  obtain ⟨decl, data, found, valid, body, isGlobal, rfl⟩ := globalStart?_eq_some.mp isStart
  have accepted := (joins.placed id inIds).accepted fun ⟨_, _, found', body'⟩ => by
    cases found.symm.trans found'
    cases body.symm.trans body'
  have held := accepted.held decl found
  unfold Holds at held
  rw [body] at held
  exact ⟨isStart, accepted.above id (.inl rfl), held⟩

theorem Joins.code {code : LoweredFunction} (member : code ∈ ids.filterMap after.decls.lowered?) :
    ∃ id, after.decls.lowered? id = some code ∧ before.decls.count < id ∧
      after.names.lookup code.name = some (.function id) ∧ after.decls.IsDefined id := by
  obtain ⟨id, inIds, isCode⟩ := mem_filterMap.mp member
  obtain ⟨decl, data, body, found, valid, isFunction, isBody, isLowered⟩ :=
    Declarations.lowered?_eq_some.mp isCode
  have accepted := (joins.placed id inIds).accepted fun ⟨_, _, found', body'⟩ => by
    cases found.symm.trans found'
    cases isFunction.symm.trans body'
  have held := accepted.held decl found
  unfold Holds at held
  rw [isFunction] at held
  have present : data.body.isSome = true := by rw [isBody]; rfl
  refine ⟨id, isCode, accepted.above id (.inl rfl), ?_, decl, data, found, isFunction, present⟩
  rw [name_of_lowered isLowered]
  exact held present

theorem Joins.coherent (named : before.Named) (mirrors : machine.Mirrors before) :
    machine.Coherent (ids.filterMap after.decls.globalStart?) where
  names := by
    intro first inFirst second inSecond isName
    have known := (joins.start inFirst).2.2
    rw [isName, (joins.start inSecond).2.2] at known
    exact (Meaning.variable.inj (Option.some.inj known)).symm
  ids := by
    intro first inFirst second inSecond isId
    have made := (joins.start inFirst).1
    rw [isId, (joins.start inSecond).1] at made
    exact (Option.some.inj made).symm
  known := by
    intro start member entry found
    have inGlobals := mem_of_find?_eq_some found
    have isId : entry.id = start.id := by simpa using find?_some found
    have known := mirrors.globals entry inGlobals
    rw [isId] at known
    exact absurd (joins.start member).2.1 (Nat.not_lt.mpr (named.le_count known))

theorem Joins.lowered (sane : before.Sane leeway)
    (known : before.names.lookup name = some (.function id)) :
    after.decls.lowered? id = before.decls.lowered? id := by
  have accepted := sane name _ known rfl
  exact accepted.settled.lowered? joins.learns.decls fun other family =>
    joins.kept other (accepted.le_count other family)

theorem Joins.mirrors_variables (named : before.Named) (named' : after.Named)
    (mirrors : machine.Mirrors before) (known : after.names.lookup name = some (.variable id)) :
    ∃ data, after.decls.asVariable id = some data ∧
      ((ids.filterMap after.decls.globalStart?).foldl defineStart machine).Has id name
        (.ofType data.type) := by
  obtain ⟨decl, data, found, isName, body, isGlobal, _⟩ := named' name _ known
  have isData := asVariable_of_get? found body
  refine ⟨data, isData, ?_⟩
  rcases joins.covered name _ known with old | inIds
  · obtain ⟨data', entry, isData', isEntry, isName', isKind, isNamed⟩ := mirrors.places name id old
    have sameData : data' = data := by
      have same := asVariable_congr (joins.kept id (named.le_count old))
      rw [isData', isData] at same
      exact (Option.some.inj same).symm
    rw [sameData] at isKind
    have binds : machine.names.lookup name = some id := by
      obtain ⟨other, isOther, found'⟩ := Option.bind_eq_some_iff.mp isNamed
      have first : entry.id = id := by simpa using find?_some isEntry
      have second : entry.id = other := by simpa using find?_some found'
      rw [isOther, ← second, first]
    refine .foldl _ ⟨entry, isEntry, isName', isKind, binds⟩ fun start member same => ?_
    have known' := (joins.start member).2.2
    rw [same, known] at known'
    cases known'
    rfl
  · obtain ⟨decl', found', valid⟩ := (joins.placed _ inIds).valid
    cases found.symm.trans found'
    have made : after.decls.globalStart? id = some ⟨id, decl.name, .ofType data.type⟩ :=
      globalStart?_eq_some.mpr ⟨decl, data, found, valid, body, isGlobal, rfl⟩
    rw [← isName]
    exact has_foldl _ (joins.coherent named mirrors) _
      (mem_filterMap.mpr ⟨id, inIds, made⟩)

end

theorem Accepted.exists_lowered {lookups base} {known : Analysis}
    (accepted : known.Accepted False lookups base id) (isDefined : known.decls.IsDefined id) :
    ∃ decl code, known.decls.get? id = some decl ∧ known.decls.lowered? id = some code ∧
      code.name = decl.name := by
  obtain ⟨decl, data, found, isFunction, present⟩ := isDefined
  obtain ⟨decl', found', valid, sound⟩ := accepted.valid
  cases found.symm.trans found'
  obtain ⟨body, isBody⟩ := Option.isSome_iff_exists.mp present
  rw [isFunction] at sound
  cases sound with
  | function sound =>
    obtain ⟨code, yields, isName, _⟩ := sound.lowers decl isBody
    exact ⟨decl, code, found, Declarations.lowered?_eq_some.mpr ⟨decl, data, body, found, valid,
      isFunction, isBody, by rw [(yields _ (.refl _ _)).result]⟩, isName⟩

theorem Joins.mirrors_functions {machine'} (joins : before.Joins leeway ids after)
    (strict : ¬ leeway.leftovers) (sane : before.Sane leeway) (named : before.Named)
    (named' : after.Named) (mirrors : machine.Mirrors before)
    (same : machine'.functions = machine.functions)
    (known : after.names.lookup name = some (.function id)) (isDefined : after.decls.IsDefined id) :
    ∃ code, after.decls.lowered? id = some code ∧
      ((ids.filterMap after.decls.lowered?).foldl addFunction machine').function? name =
        some code := by
  rcases joins.covered name _ known with old | inIds
  · have isDefined' : before.decls.IsDefined id := by
      obtain ⟨decl, data, found, rest⟩ := isDefined
      exact ⟨decl, data, (joins.kept id (named.le_count old)).symm.trans found, rest⟩
    obtain ⟨code, isCode, isFunction⟩ := mirrors.functions name id old isDefined'
    refine ⟨code, (joins.lowered sane old).trans isCode, ?_⟩
    rw [function?_foldl_of_ne _ _ fun other member isName => ?_]
    · unfold function?
      rw [same]
      exact isFunction
    · obtain ⟨id', _, above, known', _⟩ := joins.code member
      rw [isName, known] at known'
      cases known'
      exact Nat.not_lt.mpr (named.le_count old) above
  · have accepted := (joins.placed _ inIds).accepted (named'.not_wrapper known)
    obtain ⟨decl, code, found, isCode, isName⟩ := (accepted.weaken (.refl after) strict
      (fun looked => looked) (Nat.le_refl _) fun _ _ => rfl).exists_lowered isDefined
    obtain ⟨⟨decl', found', isName'⟩, _⟩ := named' name _ known
    cases found.symm.trans found'
    have member : code ∈ ids.filterMap after.decls.lowered? :=
      mem_filterMap.mpr ⟨id, inIds, isCode⟩
    refine ⟨code, isCode, (isName.trans isName') ▸ function?_foldl _ _ ?_ code member⟩
    intro first inFirst second inSecond same
    obtain ⟨id', isFirst, _, known', _⟩ := joins.code inFirst
    obtain ⟨id'', isSecond, _, known'', _⟩ := joins.code inSecond
    rw [same, known''] at known'
    cases known'
    exact Option.some.inj (isFirst.symm.trans isSecond)

theorem Joins.mirrors (joins : before.Joins leeway ids after) (strict : ¬ leeway.leftovers)
    (sane : before.Sane leeway) (named : before.Named) (named' : after.Named)
    (mirrors : machine.Mirrors before) :
    ((ids.filterMap after.decls.lowered?).foldl addFunction
      ((ids.filterMap after.decls.globalStart?).foldl defineStart machine)).Mirrors after := by
  obtain ⟨sameGlobals, sameNames, _⟩ := foldl_addFunction_globals
    (ids.filterMap after.decls.lowered?)
    ((ids.filterMap after.decls.globalStart?).foldl .defineStart machine)
  obtain ⟨globals, names, sameFunctions⟩ := gains_foldl
    (ids.filterMap after.decls.globalStart?) machine
  refine ⟨fun name id known => ?_, fun name id known isDefined => ?_, fun entry member => ?_,
    fun name id member => ?_, fun name code member => ?_⟩
  · obtain ⟨data, isData, has⟩ := joins.mirrors_variables named named' mirrors known
    obtain ⟨entry, found, isName, isKind, isNamed⟩ := has.named
    refine ⟨data, entry, isData, ?_, isName, isKind, ?_⟩
    · unfold global? at found ⊢
      rw [sameGlobals]
      exact found
    · unfold named? global? at isNamed ⊢
      rw [sameGlobals, sameNames]
      exact isNamed
  · exact joins.mirrors_functions strict sane named named' mirrors sameFunctions known isDefined
  · rw [sameGlobals] at member
    rcases globals entry member with old | ⟨start, isStart, isId, isName⟩
    · exact joins.learns.globals _ _ (mirrors.globals entry old)
    · rw [isId, isName]
      exact (joins.start isStart).2.2
  · rw [sameNames] at member
    rcases names name id member with old | ⟨start, isStart, isId, isName⟩
    · exact joins.learns.globals _ _ (mirrors.bindings name id old)
    · rw [isId, isName]
      exact (joins.start isStart).2.2
  · rcases mem_functions_foldl _ _ _ member with old | ⟨isCode, (isName : code.name = name)⟩
    · rw [sameFunctions] at old
      obtain ⟨id, known, isDefined, isLowered⟩ := mirrors.definitions name code old
      exact ⟨id, joins.learns.defined name id known isDefined, isDefined.extends joins.learns.decls,
        (joins.lowered sane known).trans isLowered⟩
    · obtain ⟨id, isLowered, _, known, isDefined⟩ := joins.code isCode
      exact ⟨id, isName ▸ known, isDefined, isLowered⟩

end Commit

end Analysis

theorem Machine.Mirrors.sameShape {analysis} {before after : Machine}
    (mirrors : before.Mirrors analysis) (same : before.SameShape after) :
    after.Mirrors analysis where
  places := by
    intro name id known
    obtain ⟨data, entry, isData, found, isName, isKind, isNamed⟩ := mirrors.places name id known
    have heads := same.global? id
    rw [found] at heads
    obtain ⟨entry', found', isHead⟩ := Option.map_eq_some_iff.mp heads
    obtain ⟨other, isOther, foundOther⟩ := Option.bind_eq_some_iff.mp isNamed
    have sameId : other = id := by
      have first : entry.id = id := by simpa using find?_some found
      have second : entry.id = other := by simpa using find?_some foundOther
      rw [← second, first]
    simp only [Global.head, Prod.mk.injEq] at isHead
    refine ⟨data, entry', isData, found', isHead.2.1.trans isName, isHead.2.2.trans isKind, ?_⟩
    unfold named?
    rw [same.names, isOther, sameId]
    exact found'
  functions := by
    intro name id known isDefined
    obtain ⟨code, isCode, isFunction⟩ := mirrors.functions name id known isDefined
    refine ⟨code, isCode, ?_⟩
    unfold function?
    rw [same.functions]
    exact isFunction
  globals := by
    intro entry member
    have inHeads : entry.head ∈ after.globals.map Global.head := mem_map_of_mem member
    rw [same.globals] at inHeads
    obtain ⟨entry', member', isHead⟩ := mem_map.mp inHeads
    simp only [Global.head, Prod.mk.injEq] at isHead
    rw [← isHead.1, ← isHead.2.1]
    exact mirrors.globals entry' member'
  bindings := by
    rw [same.names]
    exact mirrors.bindings
  definitions := by
    rw [same.functions]
    exact mirrors.definitions

end FragmentCompiler
