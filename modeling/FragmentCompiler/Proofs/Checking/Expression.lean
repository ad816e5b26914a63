import FragmentCompiler.Proofs.Checking.Check

/-!
# Checked expressions are typed

If checking an expression counts no error, the result is typed over the local variables
in scope.  A way to fetch names is good if it changes the analysis as checking may and
finds what the name then stands for.
-/

set_option autoImplicit false

namespace FragmentCompiler

open List

variable {id : DeclId}

def Fetch.Good (fetch : Fetch) (around : Analysis) : Prop :=
  ∀ (name : Text) (span : Span) (analysis : Analysis), analysis.Ready →
    analysis.surroundings = around.surroundings → analysis.names.lookup name = none →
    (∃ fetched reports,
      analysis.EvolvesBy Check.nothing fetched reports (fetch name span analysis).2) ∧
    ∀ meaning, (fetch name span analysis).1 = some meaning →
      (fetch name span analysis).2.names.lookup name = some meaning

variable {own : DeclId → Prop}

theorem Fetch.Good.evolves {before fetched reports} {after : Analysis} {fetch : Fetch}
    (good : fetch.Good before)
    (evolves : before.EvolvesBy own fetched reports after) : fetch.Good after :=
  fun name span analysis ready around =>
    good name span analysis ready (around.trans evolves.surroundings)

/-- The local variables in scope, the innermost first. -/
def BodyContext.ids (context : BodyContext) : List DeclId :=
  context.scopes.flatMap fun scope => scope.map Prod.snd

theorem mem_of_lookup {name} {scope : List (Text × DeclId)} (found : scope.lookup name = some id) :
    id ∈ scope.map Prod.snd := by
  induction scope with
  | nil => simp at found
  | cons entry rest ih =>
    obtain ⟨known, other⟩ := entry
    rw [lookup_cons] at found
    split at found
    · cases found
      exact mem_cons_self
    · exact mem_cons_of_mem _ (ih found)

theorem BodyContext.mem_ids {name} {context : BodyContext} (found : context.lookup name = some id) :
    id ∈ context.ids := by
  obtain ⟨scope, inScopes, inScope⟩ := exists_of_findSome?_eq_some found
  exact mem_flatMap.mpr ⟨scope, inScopes, mem_of_lookup inScope⟩

/-- The local variables in scope are variables, and names can be fetched. -/
def Checker.Scoped (fetch : Fetch) (checker : Checker) : Prop :=
  fetch.Good checker.analysis ∧
    ∀ id ∈ checker.body.ids, ∃ type, checker.analysis.decls.IsLocal id type

theorem Declarations.IsLocal.le_count {type} {decls : Declarations}
    (isLocal : decls.IsLocal id type) : id ≤ decls.count := by
  obtain ⟨data, found, _⟩ := isLocal
  obtain ⟨decl, isDecl, _⟩ := asVariable_eq_some.mp found
  exact le_count_of_get? isDecl

def Checker.Types (checker : Checker) (visible : List DeclId) (value : Expr) : Prop :=
  value.Sound checker.analysis checker.analysis.Defers False visible

namespace Checker

variable {own : DeclId → Prop} {before after : Checker} {fetch : Fetch}

theorem Moves.good (moves : before.Moves own after) (good : fetch.Good before.analysis) :
    fetch.Good after.analysis := by
  obtain ⟨_, _, evolves, _⟩ := moves.evolves
  exact good.evolves evolves

theorem Scoped.same (locals : before.Scoped fetch) (moves : before.Moves own after)
    (strange : ∀ id ∈ before.body.ids, ¬ own id) :
    ∀ id ∈ before.body.ids, after.analysis.decls.get? id = before.analysis.decls.get? id := by
  intro id member
  obtain ⟨_, isLocal⟩ := locals.2 id member
  exact moves.kept isLocal.le_count (strange id member)

theorem Scoped.moves (locals : before.Scoped fetch) (moves : before.Moves own after)
    (strange : ∀ id ∈ before.body.ids, ¬ own id) (body : after.body.ids = before.body.ids) :
    after.Scoped fetch := by
  refine ⟨moves.good locals.1, fun id member => ?_⟩
  rw [body] at member
  obtain ⟨type, isLocal⟩ := locals.2 id member
  exact ⟨type, isLocal.congr (locals.same moves strange id member)⟩

theorem Types.moves {visible value} (types : before.Types visible value)
    (moves : before.Moves own after)
    (same : ∀ id ∈ visible, after.analysis.decls.get? id = before.analysis.decls.get? id) :
    after.Types visible value := by
  unfold Types at types ⊢
  rw [moves.defers]
  exact types.extends moves.learns same

/-- Typed over the local variables in scope. -/
def Typed (checker : Checker) (value : Expr) : Prop := checker.Types checker.body.ids value

theorem Typed.kept {value} (typed : before.Typed value) (locals : before.Scoped fetch)
    (moves : before.Moves Check.nothing after) (body : after.body = before.body) :
    after.Typed value := by
  unfold Typed
  rw [body]
  exact typed.moves moves (locals.same moves fun _ _ impossible => impossible)

theorem Scoped.kept (locals : before.Scoped fetch) (moves : before.Moves Check.nothing after)
    (body : after.body = before.body) : after.Scoped fetch :=
  locals.moves moves (fun _ _ impossible => impossible) (by rw [body])

end Checker

namespace Check

variable {demand : Demand} {callee : Expr} {arguments : List Expr}

variable {α β : Type}

def Sure (before : Checker) (good : α → Checker → Prop) (value : α) (after : Checker) : Prop :=
  after.body = before.body ∧ (after.errors = before.errors → good value after)

variable {good : α → Checker → Prop}

variable {before : Checker}

/-- One check after another.  What the first one ensures is used where the second one
knows that no error was counted before. -/
theorem Sure.bind {check fine} {next : α → Check β}
    (first : Spec own before check (Sure before good))
    (second : ∀ value middle, before.Moves own middle → middle.body = before.body →
      (middle.errors = before.errors → good value middle) →
      Spec own middle (next value) (Sure middle fun result after =>
        middle.errors = before.errors → fine result after)) :
    Spec own before (check >>= next) (Sure before fine) := by
  refine first.bind fun value middle moves known => ?_
  refine (second value middle moves known.1 known.2).mono fun result after movesMore last => ?_
  refine ⟨last.1.trans known.1, fun same => ?_⟩
  obtain ⟨sameMiddle, sameLast⟩ := moves.same_errors movesMore same
  exact last.2 sameLast sameMiddle

theorem Sure.pure {value} (holds : good value before) : Spec own before (pure value)
    (Sure before good) :=
  .pure ⟨rfl, fun _ => holds⟩

/-- One check after another.  What was typed before stays typed. -/
theorem Sure.next {fetch check fine} {next : α → Check β} (locals : before.Scoped fetch)
    (first : Spec nothing before check (Sure before good))
    (second : ∀ value middle, middle.Scoped fetch →
      (∀ expr, before.Typed expr → middle.Typed expr) →
      (middle.errors = before.errors → good value middle) →
      Spec nothing middle (next value) (Sure middle fun result after =>
        middle.errors = before.errors → fine result after)) :
    Spec nothing before (check >>= next) (Sure before fine) :=
  Sure.bind first fun value middle moves body known => second value middle
    (locals.kept moves body) (fun _ typed => typed.kept locals moves body) known

theorem Sure.rejected {value} {check : Check Unit}
    (reports : Spec own before check fun _ after => Rejected before after) :
    Spec own before (do check; return value) (Sure before good) :=
  reports.bind fun _ _ _ known =>
    .pure ⟨known.body, fun same => absurd same (Nat.ne_of_gt known.counted)⟩

theorem Sure.reject {value span code message} (text : code.number < 4000 := by decide) :
    Spec own before (do reject span code message; return value) (Sure before good) :=
  Sure.rejected (reject_spec text)

variable {fetch : Fetch} {before : Checker}

/-! ## Names -/

theorem globalMeaning_spec (good : fetch.Good before.analysis) (name : Text) (span : Span) :
    Spec nothing before (globalMeaning fetch name span) (Sure before fun meaning after =>
      ∀ found, meaning = some found → after.analysis.names.lookup name = some found) := by
  unfold globalMeaning
  refine .get_bind ?_
  split
  · rename_i meaning known
    refine Sure.pure fun found isFound => ?_
    cases isFound
    exact known
  · rename_i unknown
    intro ready _
    obtain ⟨⟨_, _, evolves⟩, finds⟩ := good name span before.analysis ready rfl unknown
    exact ⟨.of_evolves evolves, rfl, fun _ => finds⟩

theorem askResolver_spec (name : Text) (span : Span) :
    Spec nothing before (askResolver name span) (Sure before fun deferred after =>
      deferred = true → after.analysis.Defers) := by
  unfold askResolver
  refine .get_bind ?_
  split
  · exact Sure.pure (by simp)
  · rename_i resolver isResolver
    intro ready _
    have asked : before.analysis.EvolvesBy nothing [] []
        { before.analysis with resolver := some (resolver.ask name span).2 } := by
      refine .of_fields ready rfl rfl ?_ (Nat.le_refl _)
        (fun _ _ _ => rfl) (.refl _) ready.grounded rfl rfl
        (append_nil _).symm (by simp)
      rw [isResolver]
      rfl
    exact ⟨.of_evolves asked, rfl, fun _ _ => rfl⟩

theorem warn_spec {code span message} (text : code.number < 4000 := by decide) :
    Spec own before (report (.warning code span message)) (Sure before fun _ _ => True) :=
  (Spec.report (.warning code span message) text).mono fun _ _ _ known => ⟨known.1, fun _ => trivial⟩

/-- What checking makes of a name: a value, or something to be called. -/
inductive Resolves (checker : Checker) (called : Bool) (spelling : Text) : Expr → Prop
  | value {info reference} (types : checker.Typed (.name info spelling reference)) :
      Resolves checker called spelling (.name info spelling reference)
  | function (info : ExprInfo) {id : DeclId} (isCalled : called = true)
      (known : checker.analysis.names.lookup spelling = some (.function id)) :
      Resolves checker called spelling (.name info spelling (.declaration id))
  | builtin (info : ExprInfo) {which : Builtin} (isCalled : called = true)
      (isBuiltin : Builtin.ofText? spelling = some which) :
      Resolves checker called spelling (.name info spelling .builtin)

theorem name_spec (locals : before.Scoped fetch) (called : Bool) (info : ExprInfo)
    (spelling : Text) (reference : Reference) :
    Spec nothing before (name fetch called info spelling reference)
      (Sure before fun value after => Resolves after called spelling value) := by
  unfold name
  refine .get_bind ?_
  dsimp only
  split
  · rename_i id inScope
    refine .decls_bind ?_
    refine Sure.pure (.value ?_)
    have member := BodyContext.mem_ids inScope
    obtain ⟨type, data, found, notGlobal, isType, isValue⟩ := locals.2 id member
    refine .localName spelling member ⟨data, found, notGlobal, ?_, ?_⟩
    · simp [found]
    · simpa [found, isType] using isValue
  · refine Sure.bind (globalMeaning_spec locals.1 spelling info.span)
      fun meaning middle _ _ finds => ?_
    split
    · refine Sure.bind (askResolver_spec spelling info.span) fun deferred later _ _ defers => ?_
      split
      · rename_i isDeferred
        exact .pure ⟨rfl, fun _ same _ =>
          .value (.deferred spelling (defers same isDeferred) rfl)⟩
      · exact Sure.reject
    · rename_i which
      split
      · rename_i isCalled
        refine .assuming fun ready => .pure ⟨rfl, fun _ same => ?_⟩
        exact .builtin _ isCalled (ready.named spelling _ (finds same _ rfl))
      · exact Sure.reject
    · rename_i id
      split
      · rename_i isCalled
        refine .decls_bind ?_
        exact .pure ⟨rfl, fun _ same => .function _ isCalled (finds same _ rfl)⟩
      · exact Sure.reject
    · rename_i id
      refine .decls_bind ?_
      refine .assuming fun ready => .pure ⟨rfl, fun _ same => .value ?_⟩
      obtain ⟨data, found, named⟩ := ready.named.variable (finds same _ rfl)
      refine .globalName ?_
      simpa [found] using named

/-! ## Conversions and operators -/

theorem convert_spec (locals : before.Scoped fetch) (expr : Expr) (target : Ty) :
    Spec nothing before (convert expr target) (Sure before fun value after =>
      target.IsValue → before.Typed expr → after.Typed value ∧ value.type = target) := by
  have converted : ∀ {after : Checker}, expr.type.ConvertsTo target → after.Typed expr →
      after.Typed (expr.converted target) ∧ (expr.converted target).type = target :=
    fun converts types => ⟨.convert types converts rfl, rfl⟩
  unfold convert
  dsimp only
  split
  · rename_i unchanged
    simp only [Bool.or_eq_true, decide_eq_true_eq] at unchanged
    refine Sure.pure fun _ types => ⟨types, ?_⟩
    rcases unchanged with isInvalid | isTarget
    · exact absurd isInvalid types.type_ne_invalid
    · exact isTarget
  · split
    · exact Sure.reject
    · split
      · rename_i isDynamic
        exact Sure.pure fun isTarget types => converted ⟨isTarget, .inl isDynamic⟩ types
      · split
        · rename_i widens
          simp only [Bool.and_eq_true, decide_eq_true_eq] at widens
          exact Sure.pure fun isTarget types => converted ⟨isTarget, .inr (.inl widens)⟩ types
        · split
          · rename_i narrows
            simp only [Bool.and_eq_true, decide_eq_true_eq] at narrows
            refine Sure.next locals warn_spec fun _ _ _ keeps _ => ?_
            exact .pure ⟨rfl, fun _ _ isTarget types =>
              converted ⟨isTarget, .inr (.inr narrows)⟩ (keeps _ types)⟩
          · exact Sure.reject

theorem valueType_spec (expr : Expr) :
    Spec nothing before (valueType expr) (Sure before fun type _ =>
      type = expr.type ∧ expr.type ≠ .void) := by
  unfold valueType
  split
  · exact Sure.reject
  · rename_i notVoid
    exact Sure.pure ⟨rfl, notVoid⟩

def Demand.Met : Demand → Expr → Prop
  | .nothing, _ => True
  | .value, expr => expr.type ≠ .void
  | .length, expr => expr.type = .string ∨ expr.type = .dynamic
  | .type target, expr => expr.type = target

theorem settle_spec (locals : before.Scoped fetch) (demand : Demand) (expr : Expr) :
    Spec nothing before (settle demand expr) (Sure before fun value after =>
      (∀ target, demand = .type target → target.IsValue) → before.Typed expr →
        after.Typed value ∧ demand.Met value) := by
  unfold settle
  split
  · exact Sure.pure fun _ types => ⟨types, trivial⟩
  · refine Sure.next locals (valueType_spec expr) fun type middle _ keeps known => ?_
    exact .pure ⟨rfl, fun _ same _ types => ⟨keeps _ types, (known same).2⟩⟩
  · refine Sure.next locals (valueType_spec expr) fun type middle _ keeps known => ?_
    split
    · exact Sure.reject
    · rename_i measured
      refine .pure ⟨rfl, fun _ same _ types => ⟨keeps _ types, ?_⟩⟩
      rw [(known same).1] at measured
      have notInvalid := types.type_ne_invalid
      show expr.type = .string ∨ expr.type = .dynamic
      cases type : expr.type <;> simp_all
  · exact (convert_spec locals expr _).mono fun value after _ known =>
      ⟨known.1, fun same isTarget => known.2 same (isTarget _ rfl)⟩

theorem promote_sound {op type left right known deferrals lookups visible}
    (first : left.Sound known deferrals lookups visible)
    (second : right.Sound known deferrals lookups visible) (leftValue : left.type ≠ .void)
    (rightValue : right.type ≠ .void) (typed : binaryType op left.type right.type = some type)
    (info : ExprInfo) :
    (Expr.binary { info with type } op (promote left right).1 (promote left right).2).Sound
      known deferrals lookups visible := by
  unfold promote
  split
  · rename_i mixed
    simp only [Bool.and_eq_true, decide_eq_true_eq] at mixed
    have widened : (left.converted .float).Sound known deferrals lookups visible :=
      .convert first ⟨True.intro, .inr (.inl ⟨mixed.1, rfl⟩)⟩ rfl
    refine .binary widened second (by simp [Expr.converted, Expr.type, Expr.info]) rightValue ?_ ?_
    · exact fun _ _ => mixed.2.symm
    · rw [mixed.1, mixed.2] at typed
      rw [show (left.converted .float).type = .float from rfl, mixed.2, ← typed]
      cases op <;> rfl
  · split
    · rename_i mixed
      simp only [Bool.and_eq_true, decide_eq_true_eq] at mixed
      have widened : (right.converted .float).Sound known deferrals lookups visible :=
        .convert second ⟨True.intro, .inr (.inl ⟨mixed.2, rfl⟩)⟩ rfl
      refine .binary first widened leftValue (by simp [Expr.converted, Expr.type, Expr.info]) ?_ ?_
      · exact fun _ _ => mixed.1
      · rw [mixed.1, mixed.2] at typed
        rw [show (right.converted .float).type = .float from rfl, mixed.1, ← typed]
        cases op <;> rfl
    · rename_i notFirst notSecond
      refine .binary first second leftValue rightValue ?_ typed
      intro leftNumeric rightNumeric
      cases leftType : left.type <;> cases rightType : right.type <;>
        simp_all [Ty.isNumeric]

theorem binary_spec (locals : before.Scoped fetch) (info : ExprInfo) (op : BinaryOp)
    (left right : Expr) :
    Spec nothing before (binary info op left right) (Sure before fun value after =>
      before.Typed left → before.Typed right → after.Typed value ∧ isName value = false) := by
  unfold binary
  dsimp only
  split
  · rename_i failed
    simp only [Bool.or_eq_true, decide_eq_true_eq] at failed
    refine Sure.pure fun typesLeft typesRight => ?_
    rcases failed with isInvalid | isInvalid
    · exact absurd isInvalid typesLeft.type_ne_invalid
    · exact absurd isInvalid typesRight.type_ne_invalid
  · split
    · exact Sure.reject
    · rename_i notVoid
      simp only [Bool.or_eq_true, decide_eq_true_eq, not_or] at notVoid
      cases typed : binaryType op left.type right.type with
      | none =>
        split
        · exact Sure.bind warn_spec fun _ _ _ _ _ => Sure.reject
        · exact Sure.reject
      | some type =>
        have sound {middle : Checker} (typesLeft : middle.Typed left)
            (typesRight : middle.Typed right) :=
          promote_sound typesLeft typesRight notVoid.1 notVoid.2 typed info
        split
        · refine Sure.next locals warn_spec fun _ _ _ keeps _ => ?_
          exact Sure.pure fun _ typesLeft typesRight =>
            ⟨sound (keeps _ typesLeft) (keeps _ typesRight), rfl⟩
        · exact Sure.pure fun typesLeft typesRight => ⟨sound typesLeft typesRight, rfl⟩

/-! ## Calls -/

/-- Demands met by arguments one after another. -/
inductive DemandsMet : List Demand → List Expr → Prop
  | nil (demands : List Demand) : DemandsMet demands []
  | cons {demands : List Demand} {argument : Expr} {rest : List Expr}
      (first : (demands.headD .nothing).Met argument) (others : DemandsMet demands.tail rest) :
      DemandsMet demands (argument :: rest)

theorem DemandsMet.replicate {count : Nat}
    (met : DemandsMet (List.replicate count demand) arguments) (all : arguments.length ≤ count) :
    ∀ argument ∈ arguments, demand.Met argument := by
  induction arguments generalizing count with
  | nil => simp
  | cons argument rest ih =>
    cases count with
    | zero => simp at all
    | succ count =>
      cases met with
      | cons first others =>
        exact forall_mem_cons.mpr ⟨first, ih others (Nat.le_of_succ_le_succ all)⟩

theorem DemandsMet.types {types : List Ty} (met : DemandsMet (types.map Demand.type) arguments)
    (all : arguments.length = types.length) : arguments.map Expr.type = types := by
  induction arguments generalizing types with
  | nil =>
    cases types with
    | nil => rfl
    | cons _ _ => simp at all
  | cons argument rest ih =>
    cases types with
    | nil => simp at all
    | cons type types =>
      cases met with
      | cons first others =>
        have isType : argument.type = type := first
        rw [map_cons, isType, ih others (Nat.succ.inj all)]

def CallPlan.Leads (checker : Checker) (callee : Expr) (count : Nat) (plan : CallPlan) : Prop :=
  ∃ demands, plan.demands = some demands ∧
    (∀ target, .type target ∈ demands → target.IsValue) ∧
    ∀ {later : Checker} {arguments : List Expr}, checker.Moves nothing later →
      arguments.length = count → DemandsMet demands arguments →
      callee.Callee later.analysis later.analysis.Defers False arguments plan.result

theorem CallPlan.Leads.uniform {checker} {count : Nat} (result : Ty)
    (plain : ∀ target, demand ≠ .type target)
    (leads : ∀ {later : Checker} {arguments : List Expr}, checker.Moves nothing later →
      arguments.length = count → (∀ argument ∈ arguments, demand.Met argument) →
      callee.Callee later.analysis later.analysis.Defers False arguments result) :
    (CallPlan.uniform result demand count).Leads checker callee count := by
  refine ⟨_, rfl, fun target member => ?_, fun moves isCount met => ?_⟩
  · exact absurd (eq_of_mem_replicate member).symm (plain target)
  · exact leads moves isCount (met.replicate (Nat.le_of_eq isCount))

theorem planSingle_spec (span : Span) (builtin : Builtin) (result : Ty)
    (count : Nat) (plain : ∀ target, demand ≠ .type target)
    (leads : ∀ {known : Analysis} {deferrals : Prop} {argument : Expr}, demand.Met argument →
      callee.Callee known deferrals False [argument] result) :
    Spec nothing before (planSingle span builtin result demand count)
      (Sure before fun plan after => plan.Leads after callee count) := by
  unfold planSingle
  split
  · rename_i isOne
    rw [isOne]
    refine Sure.pure (.uniform result plain fun _ isCount met => ?_)
    obtain ⟨argument, isSingle⟩ := length_eq_one_iff.mp isCount
    rw [isSingle] at met ⊢
    exact leads (met argument mem_cons_self)
  · exact Sure.reject

theorem notePrototypeCall_spec (name : Text) (span : Span) :
    Spec nothing before (notePrototypeCall name span) (Sure before fun _ _ => True) := by
  intro ready _
  have noted : before.analysis.EvolvesBy nothing [] []
      { before.analysis with
        prototypeCalls := before.analysis.prototypeCalls ++ [{ name, span }] } :=
    .of_fields ready rfl rfl rfl (Nat.le_refl _) (fun _ _ _ => rfl)
      (.refl _) ready.grounded rfl rfl (append_nil _).symm
      (by simp)
  exact ⟨.of_evolves noted, rfl, fun _ => trivial⟩

theorem demands_eq {decls : Declarations} {parameters : List DeclId} {types : List Ty}
    (typed : parameters.map (fun parameter => (decls.asVariable parameter).map Variable.type) =
      types.map some) :
    parameters.map (fun parameter =>
      Demand.type (((decls.asVariable parameter).map Variable.type).getD .invalid)) =
      types.map Demand.type := by
  have mapped := congrArg (List.map fun type : Option Ty => Demand.type (type.getD .invalid)) typed
  simpa [map_map, Function.comp_def] using mapped

theorem planFunction_spec {decl data} (span : Span) (info : ExprInfo) (spelling : Text)
    (declSpan : Span) (count : Nat) (found : before.analysis.decls.get? id = some decl)
    (body : decl.body = .function data) :
    Spec nothing before (planFunction span spelling declSpan data count)
      (Sure before fun plan after =>
        before.analysis.names.lookup spelling = some (.function id) →
          plan.Leads after (.name info spelling (.declaration id)) count) := by
  refine Spec.assuming fun ready => ?_
  unfold planFunction
  dsimp only
  by_cases isCount : count = data.parameters.length
  · have leads {middle : Checker} (moves : before.Moves nothing middle)
        (known : before.analysis.names.lookup spelling = some (.function id)) :
        CallPlan.Leads middle (.name info spelling (.declaration id)) count
          { result := data.result
            demands := some (data.parameters.map fun parameter => Demand.type
              (((middle.analysis.decls.asVariable parameter).map Variable.type).getD .invalid)) } := by
      obtain ⟨result, types, signature, named⟩ := ready.named.function known
      obtain ⟨decl', data', found', body', isResult, typed⟩ := signature
      have isDecl : decl' = decl := Option.some.inj (found'.symm.trans found)
      rw [isDecl, body] at body'
      cases body'
      have typedLater := Declarations.parameterTypes_extends moves.learns.decls _ _ typed
      have length : data.parameters.length = types.length := by
        simpa using congrArg List.length typed
      rw [demands_eq typedLater]
      refine ⟨_, rfl, ?_, ?_⟩
      · intro target member
        obtain ⟨type, isType, same⟩ := mem_map.mp member
        cases same
        obtain ⟨_, _, _, _, areValues⟩ := named
        exact areValues _ isType
      · intro later arguments movesLater isArguments met
        refine .function info id ?_
        rw [met.types (by omega), isResult]
        exact movesLater.learns.functions _ _ _ (moves.learns.functions _ _ _ named)
    simp only [if_pos isCount]
    split
    · exact Sure.bind (notePrototypeCall_spec spelling span) fun _ middle moves _ _ =>
        .decls_bind (Sure.pure fun _ known => leads moves known)
    · exact .decls_bind (Sure.pure (leads (.refl ready _)))
  · have text : Code.argumentCount.number < 4000 := by decide
    simp only [if_neg isCount]
    split
    · exact Sure.bind (notePrototypeCall_spec spelling span) fun _ _ _ _ _ =>
        Sure.rejected (reportError_spec text rfl)
    · exact Sure.rejected (reportError_spec text rfl)

theorem planCall_spec (span : Span) (callee : Expr) (count : Nat) :
    Spec nothing before (planCall span callee count) (Sure before fun plan after =>
      isName callee = true ∧ ∀ called spelling,
        Resolves before called spelling callee → plan.Leads after callee count) := by
  have single : ∀ {info : ExprInfo} {spelling : Text} {builtin : Builtin} {result : Ty}
      {demand : Demand}, (∀ target, demand ≠ .type target) →
      (∀ {known : Analysis} {deferrals : Prop} {argument : Expr}, demand.Met argument →
        (Expr.name info spelling .builtin).Callee known deferrals False [argument] result) →
      Spec nothing before (planSingle span builtin result demand count)
        (Sure before fun plan after =>
          isName (.name info spelling .builtin) = true ∧ ∀ called spelling',
            Resolves before called spelling' (.name info spelling .builtin) →
              plan.Leads after (.name info spelling .builtin) count) := by
    intro info spelling builtin result demand plain leads
    refine (planSingle_spec span builtin result count plain leads).mono fun plan after _ known => ?_
    exact ⟨known.1, fun same => ⟨rfl, fun _ _ _ => known.2 same⟩⟩
  unfold planCall
  split
  · rename_i info spelling
    split
    · rename_i isLen
      exact single (by simp) fun met => .len info isLen met
    · rename_i isStr
      exact single (by simp) fun met => .str info isStr met
    · rename_i notLen notStr
      refine Sure.pure ⟨rfl, fun called spelling' resolves => ?_⟩
      cases resolves with
      | value types => cases types
      | @builtin _ which isCalled isBuiltin =>
        refine .uniform .void (by simp) fun _ _ met => .print info ?_ met
        cases which with
        | print => exact isBuiltin
        | len => exact absurd isBuiltin notLen
        | str => exact absurd isBuiltin notStr
  · rename_i info spelling
    refine Sure.pure ⟨rfl, fun called spelling' resolves => ?_⟩
    cases resolves with
    | value types =>
      cases types with
      | deferred _ allowed _ =>
        refine .uniform .dynamic (by simp) fun moves _ met => .deferred info _ ?_ met
        rw [moves.defers]
        exact allowed
  · rename_i info spelling id
    refine .decls_bind ?_
    split
    · rename_i name declSpan data invalid external promoted found
      refine (planFunction_spec span info spelling declSpan count found rfl).mono
        fun plan after _ known => ⟨known.1, fun same => ⟨rfl, fun called spelling' resolves => ?_⟩⟩
      have notVariable : before.analysis.decls.asVariable id = none := by
        unfold Declarations.asVariable
        rw [found]
        rfl
      cases resolves with
      | value types =>
        cases types with
        | localName _ _ isLocal =>
          obtain ⟨data, isData, _⟩ := isLocal
          rw [notVariable] at isData
          cases isData
        | globalName named =>
          obtain ⟨_, data, isData, _⟩ := named
          rw [notVariable] at isData
          cases isData
      | function _ _ isFunction => exact known.2 same isFunction
    · exact Sure.reject
  · refine Sure.pure ⟨rfl, fun called spelling' resolves => ?_⟩
    cases resolves with
    | value types => cases types
  · exact Sure.reject

/-! ## Expressions -/

def ExpressionSpec (fetch : Fetch) (expr : Expr) : Prop :=
  ∀ before : Checker, before.Scoped fetch →
    Spec nothing before (expression fetch false expr) (Sure before fun value after =>
      after.Typed value ∧ isName value = isName expr)

theorem demanded_spec
    (each : ∀ argument ∈ arguments, ExpressionSpec fetch argument) (demands : List Demand)
    (before : Checker) (locals : before.Scoped fetch) :
    Spec nothing before (demanded fetch demands arguments) (Sure before fun values after =>
      (∀ target, .type target ∈ demands → target.IsValue) →
        values.length = arguments.length ∧ DemandsMet demands values ∧
          ∀ value ∈ values, after.Typed value) := by
  induction arguments generalizing demands before with
  | nil =>
    rw [demanded]
    exact Sure.pure fun _ => ⟨rfl, .nil demands, by simp⟩
  | cons argument rest ih =>
    rw [demanded]
    refine Sure.next locals (each argument mem_cons_self before locals)
      fun value first locals _ known => ?_
    refine Sure.next locals (settle_spec locals (demands.headD .nothing) value)
      fun settled second locals _ knownSecond => ?_
    refine Sure.next locals (ih (fun other member => each other (mem_cons_of_mem _ member))
      demands.tail second locals) fun values third _ keeps knownThird => ?_
    refine .pure ⟨rfl, fun _ sameThird sameSecond sameFirst isTarget => ?_⟩
    have head : ∀ target, demands.headD .nothing = .type target → target.IsValue := by
      intro target isHead
      cases demands with
      | nil => cases isHead
      | cons demand demands => exact isTarget target (isHead ▸ mem_cons_self)
    obtain ⟨length, met, typed⟩ := knownThird sameThird fun target member =>
      isTarget target (mem_of_mem_tail member)
    obtain ⟨typesSettled, metSettled⟩ := knownSecond sameSecond head (known sameFirst).1
    exact ⟨by simp [length], .cons metSettled met,
      forall_mem_cons.mpr ⟨keeps _ typesSettled, typed⟩⟩

theorem assignment_spec {value info target spelling} (inner : ExpressionSpec fetch value) :
    ExpressionSpec fetch (.assign info (.name target spelling .unresolved) value) := by
  intro before locals
  rw [expression]
  refine Sure.next locals (name_spec locals false target spelling .unresolved)
    fun place first locals _ known => ?_
  refine Sure.next locals (inner first locals) fun given second locals keeps knownSecond => ?_
  have places : first.errors = before.errors → second.Typed place ∧ place.IsPlace := by
    intro sameFirst
    cases known sameFirst with
    | value types =>
      refine ⟨keeps _ types, ?_⟩
      cases types with
      | localName => exact .variable _ _ _
      | globalName => exact .variable _ _ _
      | deferred => exact .deferred _ _
    | function _ isCalled => cases isCalled
    | builtin _ isCalled => cases isCalled
  split
  · rename_i isInvalid
    exact .pure ⟨rfl, fun _ _ sameFirst =>
      absurd isInvalid (places sameFirst).1.type_ne_invalid⟩
  · split
    · rename_i isDynamic
      refine Sure.next locals (valueType_spec given) fun type third _ keeps knownThird => ?_
      refine .pure ⟨rfl, fun _ sameThird sameSecond sameFirst => ⟨?_, rfl⟩⟩
      obtain ⟨typesPlace, isPlace⟩ := places sameFirst
      exact .assign (keeps _ typesPlace) isPlace (keeps _ (knownSecond sameSecond).1)
        (.inr ⟨isDynamic, (knownThird sameThird).2⟩) isDynamic.symm
    · rename_i notInvalid notDynamic
      refine Sure.next locals (convert_spec locals given place.type)
        fun converted third _ keeps knownThird => ?_
      refine .pure ⟨rfl, fun _ sameThird sameSecond sameFirst => ⟨?_, rfl⟩⟩
      obtain ⟨typesPlace, isPlace⟩ := places sameFirst
      have isValue : place.type.IsValue := by
        cases isPlace with
        | «variable» => exact typesPlace.variable_isValue
        | deferred =>
          cases typesPlace with
          | deferred _ _ typed => exact absurd typed notDynamic
        | lookup =>
          cases typesPlace with
          | lookup _ allowed _ => exact allowed.elim
      obtain ⟨typesConverted, isType⟩ := knownThird sameThird isValue (knownSecond sameSecond).1
      exact .assign (keeps _ typesPlace) isPlace typesConverted (.inl isType) rfl

theorem call_spec {info} (raw : callee.Raw) (inner : ExpressionSpec fetch callee)
    (each : ∀ argument ∈ arguments, ExpressionSpec fetch argument) : ExpressionSpec fetch
    (.call info callee arguments) := by
  intro before locals
  -- A name that is called may be a function; anything else is a value.
  have called : Spec nothing before (expression fetch (isName callee) callee)
      (Sure before fun value after => isName value = true →
        ∃ spelling, Resolves after true spelling value) := by
    cases raw with
    | name info spelling =>
      rw [expression]
      exact (name_spec locals true info spelling .unresolved).mono
        fun value after _ known => ⟨known.1, fun same _ => ⟨spelling, known.2 same⟩⟩
    | _ =>
      refine (inner before locals).mono fun value after _ known =>
        ⟨known.1, fun same isCallee => ?_⟩
      rw [(known.2 same).2] at isCallee
      cases isCallee
  rw [expression]
  refine Sure.next locals called fun callee' first locals _ known => ?_
  refine Sure.next locals (planCall_spec info.span callee' arguments.length)
    fun plan second locals _ knownSecond => ?_
  have leads : second.errors = first.errors → first.errors = before.errors →
      plan.Leads second callee' arguments.length := by
    intro sameSecond sameFirst
    obtain ⟨isCallee, leads⟩ := knownSecond sameSecond
    obtain ⟨spelling, resolves⟩ := known sameFirst isCallee
    exact leads _ spelling resolves
  dsimp only
  split
  · rename_i demands isDemands
    refine Sure.bind (demanded_spec each demands second locals)
      fun values third movesThird _ knownThird => ?_
    refine .pure ⟨rfl, fun _ sameThird sameSecond sameFirst => ⟨?_, rfl⟩⟩
    obtain ⟨demands', isDemands', isTarget, leads⟩ := leads sameSecond sameFirst
    rw [isDemands] at isDemands'
    cases isDemands'
    obtain ⟨length, met, typed⟩ := knownThird sameThird isTarget
    exact .call (leads movesThird length met) typed
  · rename_i noDemands
    refine .pure ⟨rfl, fun _ sameSecond sameFirst => ?_⟩
    obtain ⟨_, isDemands, _⟩ := leads sameSecond sameFirst
    rw [noDemands] at isDemands
    cases isDemands

theorem expression_spec {expr} (raw : expr.Raw) : ExpressionSpec fetch expr := by
  induction raw with
  | name info spelling =>
    intro before locals
    rw [expression]
    refine (name_spec locals false info spelling .unresolved).mono
      fun value after _ known => ⟨known.1, fun same => ?_⟩
    cases known.2 same with
    | value types => exact ⟨types, rfl⟩
    | function _ isCalled => cases isCalled
    | builtin _ isCalled => cases isCalled
  | literal info spelling value =>
    intro before locals
    cases value <;> rw [expression] <;> exact Sure.pure ⟨.literal spelling rfl, rfl⟩
  | unary info op _ ih =>
    intro before locals
    rw [expression]
    refine Sure.bind (ih before locals) fun operand middle moves body known => ?_
    split
    · rename_i type typed
      exact .pure ⟨rfl, fun _ same => ⟨.unary (known same).1 typed, rfl⟩⟩
    · exact Sure.reject
  | binary info op _ _ ihLeft ihRight =>
    intro before locals
    rw [expression]
    refine Sure.next locals (ihLeft before locals) fun left first locals _ knownLeft => ?_
    refine Sure.next locals (ihRight first locals) fun right second locals keeps knownRight => ?_
    exact (binary_spec locals info op left right).mono fun value after _ known =>
      ⟨known.1, fun same sameSecond sameFirst =>
        known.2 same (keeps _ (knownLeft sameFirst).1) (knownRight sameSecond).1⟩
  | assign info target spelling _ ih => exact assignment_spec ih
  | @call info callee arguments called _ ihCallee ihArguments =>
    exact call_spec called ihCallee ihArguments
  | group info _ ih =>
    intro before locals
    rw [expression]
    refine Sure.bind (ih before locals) fun inner middle moves body known => ?_
    exact .pure ⟨rfl, fun _ same => ⟨.group (known same).1 rfl, rfl⟩⟩

end Check

end FragmentCompiler
