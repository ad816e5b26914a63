import FragmentCompiler.Proofs.Checking.Statement

/-!
# Checked declarations are accepted

A declaration that is checked without an error is typed, and its name stands for it or
for an earlier declaration of the same function.
-/

set_option autoImplicit false

namespace FragmentCompiler

open List Declarations

theorem Function.Raw.typedParameter {decls index other} {data : Function} {base id : Nat}
    (raw : data.Raw decls base id)
    (isOther : data.parameters[index]? = some other) : decls.IsTypedParameter index other := by
  obtain ⟨entry, isEntry, isParameter, isSlot, _⟩ := raw.parameters index other isOther
  obtain ⟨decl, data', isDecl, _, body, rawData⟩ :=
    raw.entries other (mem_append_left _ (mem_of_getElem? isOther))
  have same := isEntry.symm.trans (asVariable_of_get? isDecl body)
  refine ⟨entry, isEntry, isParameter, isSlot, ?_⟩
  rw [Option.some.inj same]
  exact rawData.type

theorem Function.Raw.signature {data decls} {base id : Nat} (raw : data.Raw decls base id)
    {decl : Decl} (found : decls.get? id = some decl) (body : decl.body = .function data) :
    ∃ types, decls.HasSignature id data.result types ∧ ∀ type ∈ types, type.IsValue := by
  have typed : ∀ other ∈ data.parameters,
      ∃ entry, decls.asVariable other = some entry ∧ entry.type.IsValue := by
    intro other member
    obtain ⟨index, isOther⟩ := getElem?_of_mem member
    obtain ⟨entry, isEntry, _, _, isValue⟩ := raw.typedParameter isOther
    exact ⟨entry, isEntry, isValue⟩
  obtain ⟨types, isTypes, each⟩ := exists_types fun other member => by
    obtain ⟨entry, isEntry, _⟩ := typed other member
    exact ⟨entry, isEntry⟩
  refine ⟨types, ⟨decl, data, found, body, rfl, isTypes⟩, fun type member => ?_⟩
  obtain ⟨other, inParameters, entry, isEntry, isType⟩ := each type member
  obtain ⟨entry', isEntry', isValue⟩ := typed other inParameters
  rw [isEntry] at isEntry'
  cases isEntry'
  rw [← isType]
  exact isValue

namespace Check

variable {decl : Decl} {base id : DeclId} {decls : Declarations} {data : Function}
  {meaning : Meaning} {name : Text}

variable {fetch : Fetch} {before : Checker}

/-! ## Global names -/

theorem Function.Raw.no_function {other} (raw : data.Raw decls base id)
    (isOwned : other ∈ data.owned) :
    ∃ decl, decls.get? other = some decl ∧ ∀ data, decl.body ≠ .function data := by
  obtain ⟨entry, _, isEntry, _, body, _⟩ := raw.entries other isOwned
  exact ⟨entry, isEntry, by simp [body]⟩

theorem taken_of_raw {analysis : Analysis} (found : analysis.decls.get? id = some decl)
    (raw : data.Raw analysis.decls base id)
    (claimed : ∀ data, decl.body = .function data → analysis.names.lookup decl.name ≠ none) :
    ∀ other, other = id ∨ other ∈ data.owned → ∃ decl, analysis.decls.get? other = some decl ∧
      ∀ data, decl.body = .function data → analysis.names.lookup decl.name ≠ none := by
  intro other isOwn
  rcases isOwn with rfl | isOwned
  · exact ⟨decl, found, claimed⟩
  · obtain ⟨entry, isEntry, none⟩ := Function.Raw.no_function raw isOwned
    exact ⟨entry, isEntry, fun data body => absurd body (none data)⟩

/-- What declaring a global name ensures: the table stays and a refusal is an error.
Otherwise the name stands for what was declared, unless that only announces a
function. -/
structure Declared (before : Checker) (name : Text) (meaning : Meaning) (done : Bool)
    (after : Checker) : Prop where
  decls : after.analysis.decls = before.analysis.decls
  fetched : after.analysis.fetched = before.analysis.fetched
  refused : done = false → before.errors < after.errors
  known : done = true → after.analysis.names.lookup name = some meaning ∨
    ∃ id, meaning = .function id ∧ before.analysis.decls.isPrototype id = true ∧
      before.analysis.names.lookup name ≠ none

variable {own : DeclId → Prop}

theorem declareName_spec
    (isOwn : own meaning.decl) (suits : before.analysis.Suits name meaning)
    (free : ∀ earlier, before.analysis.names.lookup name = some earlier →
      ∃ id, earlier = .function id ∧ before.analysis.decls.isPrototype id = true)
    (kept : ∀ result types, before.analysis.NamesFunction name result types →
      ∃ id, meaning = .function id ∧ before.analysis.decls.HasSignature id result types) :
    Spec own before (do declareName name meaning; return true) (Declared before name meaning) :=
  fun ready _ =>
    ⟨.of_evolves (Analysis.declare_evolves ready isOwn suits free kept), rfl, rfl,
      fun impossible => Bool.noConfusion impossible,
      fun _ => .inl (Universe.lookup_declare_self _ _ _)⟩

theorem rejected_declared {check}
    (reports : Spec own before check fun _ after => Rejected before after) :
    Spec own before (do check; return false) (Declared before name meaning) :=
  reports.bind fun _ _ _ known => .pure
    ⟨known.decls, known.fetched, fun _ => known.counted,
      fun impossible => Bool.noConfusion impossible⟩

theorem sameSignature_iff {left right} :
    sameSignature decls left right = true ↔ decls.signature left = decls.signature right := by
  unfold sameSignature signature
  exact beq_iff_eq

theorem redeclareFunction_spec {earlier} (span : Span) (isOwn : own id)
    (suits : before.analysis.Suits name (.function id))
    (known : before.analysis.names.lookup name = some (.function earlier)) :
    Spec own before (redeclareFunction name span earlier id)
      (Declared before name (.function id)) := by
  unfold redeclareFunction
  refine .decls_bind ?_
  split
  · exact rejected_declared rejectAfter_spec
  · rename_i same
    split
    · rename_i announced
      exact .pure ⟨rfl, rfl, fun impossible => Bool.noConfusion impossible,
        fun _ => .inr ⟨id, rfl, announced, by simp [known]⟩⟩
    · split
      · rename_i announced
        refine declareName_spec isOwn suits (fun other isOther => ?_) fun result types named => ?_
        · rw [known] at isOther
          exact ⟨earlier, (Option.some.inj isOther).symm, announced⟩
        · obtain ⟨other, isOther, signature, _⟩ := named
          rw [known] at isOther
          cases isOther
          obtain ⟨_, result', types', signature', _⟩ := suits
          have equal := sameSignature_iff.mp (by simpa using same)
          rw [signature.signature, signature'.signature] at equal
          obtain ⟨isResult, areTypes⟩ := Prod.mk.inj (Option.some.inj equal)
          have isTypes : types = types' := (List.map_inj_right fun _ _ => Option.some.inj).mp areTypes
          rw [isResult, isTypes]
          exact ⟨id, rfl, signature'⟩
      · exact rejected_declared rejectAfter_spec

theorem declareGlobal_spec (span : Span)
    (isOwn : own meaning.decl) (suits : before.analysis.Suits name meaning) :
    Spec own before (declareGlobal name span meaning) (Declared before name meaning) := by
  unfold declareGlobal
  refine .get_bind ?_
  cases known : before.analysis.names.lookup name with
  | none =>
    refine declareName_spec isOwn suits (by simp [known]) fun result types named => ?_
    obtain ⟨id, isFunction, _⟩ := named
    cases known.symm.trans isFunction
  | some earlier =>
    cases earlier with
    | builtin _ => exact rejected_declared reject_spec
    | «variable» _ => exact rejected_declared rejectAfter_spec
    | function earlier =>
      cases meaning with
      | function id => exact redeclareFunction_spec span isOwn suits known
      | «variable» _ | builtin _ => exact rejected_declared rejectAfter_spec

/-! ## Bodies -/

theorem bindParameters_spec (parameters : List DeclId) :
    ∀ before : Checker, (∃ head tail, before.body.scopes = head :: tail) → before.Scoped fetch →
      (∀ id ∈ parameters, ∃ type, before.analysis.decls.IsLocal id type) →
      Spec nothing before (bindParameters parameters) fun _ after =>
        before.body.Adds parameters after.body ∧ after.Scoped fetch ∧
          (after.errors = before.errors →
            after.body.ids = parameters.reverse ++ before.body.ids ∧
              after.body.nextSlot = before.body.nextSlot + parameters.length) := by
  induction parameters with
  | nil =>
    intro before opened locals _
    rw [bindParameters]
    exact .pure ⟨.refl _ opened, locals, fun _ => ⟨rfl, rfl⟩⟩
  | cons id rest ih =>
    intro before opened locals typed
    obtain ⟨type, data, isData, isLocal⟩ := typed id mem_cons_self
    obtain ⟨decl, found, _⟩ := asVariable_eq_some.mp isData
    have tail : ∀ middle : Checker, before.Moves nothing middle →
        before.body.Adds [id] middle.body → middle.Scoped fetch →
        (middle.errors = before.errors → middle.body.ids = id :: before.body.ids ∧
          middle.body.nextSlot = before.body.nextSlot + 1) →
        Spec nothing middle (bindParameters rest) fun _ after =>
          before.body.Adds (id :: rest) after.body ∧ after.Scoped fetch ∧
            (after.errors = before.errors →
              after.body.ids = (id :: rest).reverse ++ before.body.ids ∧
                after.body.nextSlot = before.body.nextSlot + (id :: rest).length) := by
      intro middle moves adds localsMiddle known
      refine (ih middle adds.opened localsMiddle ?_).mono fun _ after movesAfter last => ?_
      · intro other member
        obtain ⟨type, isLocal⟩ := typed other (mem_cons_of_mem _ member)
        exact ⟨type, isLocal.congr (moves.kept isLocal.le_count fun impossible => impossible)⟩
      · obtain ⟨addsAfter, localsAfter, bound⟩ := last
        refine ⟨adds.trans addsAfter, localsAfter, fun same => ?_⟩
        obtain ⟨sameMiddle, sameAfter⟩ := moves.same_errors movesAfter same
        obtain ⟨idsMiddle, slotMiddle⟩ := known sameMiddle
        obtain ⟨idsAfter, slotAfter⟩ := bound sameAfter
        rw [idsAfter, slotAfter, idsMiddle, slotMiddle]
        refine ⟨by simp, ?_⟩
        rw [length_cons]
        omega
    rw [bindParameters]
    refine .decls_bind ?_
    rw [found]
    refine (inScope?_spec decl.name).bind fun earlier _ _ isBefore => ?_
    rw [isBefore]
    split
    · refine Spec.bind rejectAfter_spec fun _ middle moves known => ?_
      refine tail middle moves ?_ (locals.kept moves known.body) fun same => ?_
      · rw [known.body]
        exact .refl _ opened
      · exact absurd same (Nat.ne_of_gt known.counted)
    · refine (Spec.updateBody (bound decl.name id)).bind fun _ middle moves isMiddle => ?_
      subst isMiddle
      obtain ⟨adds, ids⟩ := bound_adds decl.name id opened
      refine tail _ moves adds ?_ fun _ => ⟨ids, rfl⟩
      refine ⟨locals.1, ?_⟩
      show ∀ other ∈ (bound decl.name id before.body).ids, _
      rw [ids]
      exact forall_mem_cons.mpr ⟨typed id mem_cons_self, locals.2⟩

def Wraps (wrap : Function → DeclBody) : Prop := wrap = .function ∨ wrap = .wrapper

variable {wrap : Function → DeclBody}

theorem Wraps.modifyFunction (wraps : Wraps wrap)
    (found : decls.get? id = some decl) (body : decl.body = wrap data)
    (change : Function → Function) :
    (decls.modifyFunction id change).get? id = some { decl with body := wrap (change data) } := by
  rcases wraps with isWrap | isWrap
  · rw [isWrap] at body ⊢
    exact modifyFunction_get?_self decls id change found body
  · rw [isWrap] at body ⊢
    exact modifyFunction_get?_wrapper decls id change found body

theorem Wraps.asFunction (wraps : Wraps wrap) (found : decls.get? id = some decl)
    (body : decl.body = wrap data) : decls.asFunction id = some data := by
  unfold Declarations.asFunction Decl.asFunction
  rw [found]
  rcases wraps with isWrap | isWrap <;> simp [body, isWrap]

/-- Changing the function of a number of `own`. -/
theorem modifyFunction_spec {change} (own : DeclId → Prop) (isOwn : own id)
    (same : ∀ data, before.analysis.decls.asFunction id = some data →
      data.SameHead (change data) ∧ ∀ other ∈ (change data).owned, other < id) :
    Spec own before (updateDecls fun decls => decls.modifyFunction id change) fun _ after =>
      after = { before with
        analysis := before.analysis.updateDecls fun decls => decls.modifyFunction id change } := by
  intro ready _
  refine ⟨.of_evolves (Analysis.updateDecls_evolves ready
    (count_modifyFunction _ _ _) (fun other strange => ?_)
    (extends_modifyFunction _ _ _ fun data isData => (same data isData).1)
    (ready.grounded.modifyFunction fun data isData => (same data isData).2)), rfl⟩
  exact Declarations.get?_modifyFunction_of_ne _ _ fun isId => strange (isId ▸ isOwn)

/-- What checking the body of a function ensures. -/
structure BodyChecked (before : Checker) (id : DeclId) (decl : Decl)
    (wrap : Function → DeclBody) (data : Function) (after : Checker) : Prop where
  ensures : ∃ data', after.analysis.decls.get? id = some { decl with body := wrap data' } ∧
    data'.result = data.result ∧ data'.parameters = data.parameters ∧
    data'.body.isSome = true ∧ data'.owned = data.owned ∧
    (after.errors = before.errors → data'.Sound after.analysis after.analysis.Defers False)

theorem functionBody_spec (good : fetch.Good before.analysis)
    (wraps : Wraps wrap)
    (found : before.analysis.decls.get? id = some decl) (body : decl.body = wrap data)
    (raw : data.Raw before.analysis.decls base id) (present : data.body.isSome = true) :
    Spec (fun other => other = id ∨ other ∈ data.owned) before (functionBody fetch id data)
      fun _ after => BodyChecked before id decl wrap data after := by
  obtain ⟨statement, isBody⟩ := Option.isSome_iff_exists.mp present
  obtain ⟨span, statements, isBlock⟩ := raw.block statement isBody
  have isOwned : data.owned = data.parameters ++ Stmt.declaredAll statements := by
    unfold Function.owned
    rw [isBody, isBlock]
    rfl
  have rawBody : ∀ stmt ∈ statements, stmt.Raw := by
    have known := raw.body statement isBody
    rw [isBlock] at known
    cases known with
    | block _ each => exact each
  have typed : ∀ other ∈ data.parameters, ∃ type, before.analysis.decls.IsLocal other type := by
    intro other member
    obtain ⟨index, isOther⟩ := getElem?_of_mem member
    obtain ⟨entry, isEntry, isParameter, _, isValue⟩ := raw.typedParameter isOther
    exact ⟨_, entry, isEntry, by simp [isParameter], rfl, isValue⟩
  obtain ⟨_, orderedLocals, cross⟩ := pairwise_append.mp (isOwned ▸ raw.ordered)
  unfold functionBody
  refine (Spec.updateBody _).bind fun _ first movesFirst isFirst => ?_
  subst isFirst
  have opening := bindParameters_spec data.parameters { before with body := { result := data.result } }
    ⟨[], [], rfl⟩ ⟨good, forall_mem_nil _⟩ typed
  refine opening.anywhere.bind fun _ second _ known => ?_
  obtain ⟨moves, adds, locals, bound⟩ := known
  have kept : ∀ other, other ≤ before.analysis.decls.count →
      second.analysis.decls.get? other = before.analysis.decls.get? other :=
    fun other inTable => moves.kept inTable fun impossible => impossible
  have awaits : second.Awaits fetch (Stmt.declaredAll statements) := by
    refine ⟨?_, adds.opened, locals, orderedLocals, ?_, ?_, ?_⟩
    · rw [adds.result]
      exact raw.result
    · intro other member inScope
      rcases adds.mem inScope with inParameters | impossible
      · exact Nat.lt_irrefl _ (cross other inParameters other member)
      · exact absurd impossible not_mem_nil
    · intro other member
      have known := raw.entries other (isOwned ▸ mem_append_right _ member)
      exact known.congr (kept other known.le_count)
    · intro other member
      have known := raw.locals other (by rw [isBody, isBlock]; exact member)
      exact known.congr (kept other known.le_count)
  have reads : (∀ stmt ∈ statements, StatementSpec fetch stmt) :=
    fun stmt member => statement_spec (rawBody stmt member)
  rw [isBody, isBlock]
  dsimp only
  refine ((statements_spec reads second awaits).widen fun other member =>
    .inr (isOwned ▸ mem_append_right _ member)).bind fun values third _ known => ?_
  obtain ⟨movesThird, checks⟩ := known
  rw [pure_bind]
  refine .get_bind ?_
  have inTable := le_count_of_get? found
  have others : ∀ other ∈ data.owned, other ≠ id :=
    fun other member isId => Nat.lt_irrefl _ (isId ▸ raw.below other member)
  have foundThird : third.analysis.decls.get? id = some decl := by
    rw [movesThird.kept (Nat.le_trans inTable moves.count) ?_, kept id inTable, found]
    intro member
    exact others id (isOwned ▸ mem_append_right _ member) rfl
  have isDeclared : Stmt.declaredAll values = Stmt.declaredAll statements := checks.declared
  have owned : ({ data with body := some (.block span values), frame := third.body.nextSlot } :
      Function).owned = data.owned := by
    rw [isOwned, ← isDeclared]
    rfl
  refine ((modifyFunction_spec (· = id) rfl ?_).widen fun _ isId => .inl isId).mono
    fun _ after _ known => ?_
  · intro data' isData
    rw [wraps.asFunction foundThird body] at isData
    cases isData
    refine ⟨⟨rfl, rfl, present.symm⟩, ?_⟩
    rw [owned]
    exact raw.below
  · obtain ⟨movesAfter, isAfter⟩ := known
    subst isAfter
    refine ⟨_, wraps.modifyFunction foundThird body _, rfl, rfl, rfl, owned, fun same => ?_⟩
    obtain ⟨sameSecond, sameThird⟩ := moves.same_errors movesThird same
    obtain ⟨isIds, isNext⟩ := bound sameSecond
    have isScope : second.scope = data.scope := by
      unfold Checker.scope Function.scope
      rw [isIds, isNext]
      simp [BodyContext.ids]
    have sound := checks.sound sameThird
    rw [adds.result, isScope] at sound
    have inThird : ∀ other ∈ data.owned, other ≤ third.analysis.decls.count :=
      fun other member => Nat.le_trans (raw.entries other member).le_count
        (Nat.le_trans moves.count movesThird.count)
    have unchanged := fun other member => movesAfter.kept (inThird other member) (others other member)
    refine ⟨fun index other isOther => ?_, fun statement isStatement => ?_⟩
    · have member := mem_of_getElem? isOther
      have inOwned : other ∈ data.owned := mem_append_left _ member
      have inBefore := (raw.entries other inOwned).le_count
      refine ((raw.typedParameter isOther).congr ?_)
      rw [unchanged other inOwned, movesThird.kept (Nat.le_trans inBefore moves.count) ?_,
        kept other inBefore]
      intro inLocals
      exact Nat.lt_irrefl _ (cross other member other inLocals)
    · cases isStatement
      rw [movesAfter.defers]
      refine ⟨span, values, third.scope, rfl, sound.weaken movesAfter.learns
        (fun deferred => deferred) (fun looked => looked) ?_ ?_, rfl⟩
      · intro other member
        exact unchanged other (mem_append_left _ (mem_reverse.mp member))
      · intro other member
        rw [isDeclared] at member
        exact unchanged other (isOwned ▸ mem_append_right _ member)

/-! ## Declarations -/

/-- What checking a declaration ensures: it owns what it owned, and without an error it
is accepted. -/
structure Settles (before : Checker) (base id : DeclId) (after : Checker) : Prop where
  owned : after.analysis.decls.owned id = before.analysis.decls.owned id
  named : after.errors = before.errors → ∀ decl, before.analysis.decls.get? id = some decl →
    before.analysis.names.lookup decl.name = none → (∀ data, decl.body ≠ .wrapper data) →
    ∃ meaning, after.analysis.names.lookup decl.name = some meaning ∧ meaning.decl = id
  accepted : after.errors = before.errors →
    after.analysis.Accepted after.analysis.Defers False base id

theorem variable_settles (good : fetch.Good before.analysis) (empty : before.body.ids = [])
    {data : Variable} (above : base < id)
    (found : before.analysis.decls.get? id = some decl) (valid : decl.invalid = false)
    (body : decl.body = .variable data) (raw : data.Raw) (isGlobal : data.storage = .global) :
    Spec (· = id) before (do
      initialValue fetch id
      let _ ← declareGlobal decl.name decl.span (.variable id)) fun _ after =>
        Settles before base id after := by
  have locals : before.Scoped fetch := by
    refine ⟨good, fun other member => ?_⟩
    rw [empty] at member
    exact absurd member not_mem_nil
  refine (initialValue_spec locals found body raw (by simp [empty])).bind
    fun _ middle moves known => ?_
  obtain ⟨sameBody, initial, foundMiddle, typed⟩ := known
  have suits : middle.analysis.Suits decl.name (.variable id) :=
    ⟨_, _, foundMiddle, rfl, rfl, isGlobal, raw.type⟩
  have declaring : Spec (· = id) middle (declareGlobal decl.name decl.span (.variable id)) _ :=
    declareGlobal_spec decl.span rfl suits
  refine declaring.bind fun done after movesAfter declared => .pure ?_
  have foundAfter := foundMiddle
  rw [← declared.decls] at foundAfter
  have noneOwned : after.analysis.decls.owned id = [] := owned_of_get? foundAfter
  have isKnown : after.errors = before.errors →
      after.analysis.names.lookup decl.name = some (.variable id) := by
    intro same
    cases done with
    | true =>
      rcases declared.known rfl with isKnown | ⟨_, impossible, _⟩
      · exact isKnown
      · cases impossible
    | false =>
      exact absurd (moves.same_errors movesAfter same).2 (Nat.ne_of_gt (declared.refused rfl))
  refine ⟨?_, fun same entry isEntry _ _ => ?_, fun same => ?_⟩
  · rw [noneOwned, owned_of_get? found, body]
    rfl
  · cases found.symm.trans isEntry
    exact ⟨_, isKnown same, rfl⟩
  · refine ⟨⟨_, foundAfter, valid, .variable isGlobal raw.type fun value isValue => ?_⟩, ?_, ?_, ?_,
      ?_⟩
    · obtain ⟨types, isType⟩ := typed (moves.same_errors movesAfter same).1 value isValue
      rw [Checker.Typed, sameBody, empty] at types
      exact ⟨types.moves movesAfter (by simp), isType⟩
    · rw [noneOwned]
      exact .nil
    · simp [noneOwned]
    · intro other member
      rcases member with rfl | isOwned
      · exact above
      · rw [noneOwned] at isOwned
        exact absurd isOwned not_mem_nil
    · intro entry isEntry
      cases foundAfter.symm.trans isEntry
      exact isKnown same

theorem accepted_function {analysis data' deferrals lookups} (wraps : Wraps wrap)
    (raw : data.Raw decls base id)
    (above : base < id) (found : analysis.decls.get? id = some { decl with body := wrap data' })
    (valid : decl.invalid = false) (owned : data'.owned = data.owned)
    (sound : (wrap data').Sound analysis deferrals lookups)
    (held : analysis.Holds id { decl with body := wrap data' }) :
    analysis.Accepted deferrals lookups base id := by
  have isOwned : analysis.decls.owned id = data.owned := by
    rw [owned_of_get? found, ← owned]
    rcases wraps with isWrap | isWrap <;> rw [isWrap] <;> rfl
  refine ⟨⟨_, found, valid, sound⟩, ?_, ?_, ?_, ?_⟩
  · rw [isOwned]
    exact raw.ordered
  · rw [isOwned]
    exact raw.below
  · intro other member
    rcases member with rfl | inOwned
    · exact above
    · rw [isOwned] at inOwned
      exact raw.above other inOwned
  · intro entry isEntry
    cases found.symm.trans isEntry
    exact held

theorem body_settles (good : fetch.Good before.analysis)
    (wraps : Wraps wrap) (above : base < id)
    (found : before.analysis.decls.get? id = some decl) (valid : decl.invalid = false)
    (body : decl.body = wrap data) (raw : data.Raw before.analysis.decls base id)
    (present : data.body.isSome = true)
    (sound : ∀ {analysis : Analysis} {deferrals : Prop} {data' : Function},
      data'.result = data.result → data'.parameters = data.parameters →
      data'.body.isSome = true → data'.Sound analysis deferrals False →
      (wrap data').Sound analysis deferrals False)
    (held : ∀ analysis data', before.analysis.Extends analysis →
      analysis.Holds id { decl with body := wrap data' })
    (named : ∀ analysis, before.analysis.Extends analysis → (∀ data, decl.body ≠ .wrapper data) →
      ∃ meaning, analysis.names.lookup decl.name = some meaning ∧ meaning.decl = id) :
    Spec (fun other => other = id ∨ other ∈ data.owned) before (functionBody fetch id data)
      fun _ after => Settles before base id after := by
  refine (functionBody_spec good wraps found body raw present).mono fun _ after moves known => ?_
  obtain ⟨data', foundAfter, result, parameters, present', owned, typed⟩ := known.ensures
  refine ⟨?_, fun _ entry isEntry _ plain => ?_, fun same => ?_⟩
  · rw [owned_of_get? foundAfter, owned_of_get? found, body]
    rcases wraps with isWrap | isWrap <;> rw [isWrap] <;> exact owned
  · cases found.symm.trans isEntry
    exact named _ moves.learns plain
  · exact accepted_function wraps raw above foundAfter valid owned
      (sound result parameters present' (typed same)) (held _ _ moves.learns)

theorem function_settles (good : fetch.Good before.analysis) (above : base < id)
    (found : before.analysis.decls.get? id = some decl)
    (valid : decl.invalid = false) (body : decl.body = .function data)
    (raw : data.Raw before.analysis.decls base id) :
    Spec (fun other => other = id ∨ other ∈ data.owned) before (do
      if ← declareGlobal decl.name decl.span (.function id) then
        if data.body.isSome then functionBody fetch id data) fun _ after =>
          Settles before base id after ∧ after.analysis.Imports before.analysis := by
  have suits : before.analysis.Suits decl.name (.function id) := by
    obtain ⟨types, signature, areValues⟩ := raw.signature found body
    exact ⟨⟨decl, found, rfl⟩, data.result, types, signature, raw.result, areValues⟩
  have declaring : Spec (fun other => other = id ∨ other ∈ data.owned) before
      (declareGlobal decl.name decl.span (.function id)) _ :=
    declareGlobal_spec decl.span (.inl rfl) suits
  refine declaring.bind fun done middle moves declared => ?_
  have foundMiddle : middle.analysis.decls.get? id = some decl := by rw [declared.decls, found]
  have rawMiddle : data.Raw middle.analysis.decls base id := by rw [declared.decls]; exact raw
  have owned : middle.analysis.decls.owned id = before.analysis.decls.owned id := by
    rw [declared.decls]
  cases done with
  | false =>
    rw [if_neg Bool.false_ne_true]
    have refused := Nat.ne_of_gt (declared.refused rfl)
    exact .pure ⟨⟨owned, fun same => absurd same refused, fun same => absurd same refused⟩,
      Analysis.imports_of_fetched declared.fetched⟩
  | true =>
    rw [if_pos rfl]
    by_cases present : data.body.isSome = true
    · rw [if_pos present]
      have isDefined : middle.analysis.decls.IsDefined id :=
        ⟨decl, data, foundMiddle, body, present⟩
      have known : middle.analysis.names.lookup decl.name = some (.function id) := by
        rcases declared.known rfl with isKnown | ⟨_, isFunction, announced⟩
        · exact isKnown
        · obtain ⟨announced, _⟩ := announced
          cases isFunction
          rw [← declared.decls, isDefined.isPrototype] at announced
          cases announced
      refine (body_settles (moves.good good) (.inl rfl) above foundMiddle valid body rawMiddle
        present (fun _ _ _ sound => .function sound) ?_ ?_).mono fun _ after movesAfter settles => ?_
      · intro analysis data' grown _
        exact grown.defined _ id known isDefined
      · exact fun analysis grown _ => ⟨_, grown.defined _ id known isDefined, rfl⟩
      · have taken := taken_of_raw foundMiddle rawMiddle fun _ _ => by simp [known]
        have imports := movesAfter.imports taken
        unfold Analysis.Imports at imports
        rw [declared.fetched] at imports
        refine ⟨⟨settles.owned.trans owned, fun _ entry isEntry _ _ => ?_,
          fun same => settles.accepted (moves.same_errors movesAfter same).2⟩, imports⟩
        cases found.symm.trans isEntry
        exact ⟨_, movesAfter.learns.defined _ id known isDefined, rfl⟩
    · rw [if_neg present]
      have isDecl : decl = { decl with body := .function data } := by rw [← body]
      refine .pure ⟨⟨owned, fun _ entry isEntry unknown _ => ?_, fun _ =>
        accepted_function (.inl rfl) rawMiddle above (isDecl ▸ foundMiddle) valid rfl
          (.function ⟨?_, ?_⟩) fun isPresent => absurd isPresent present⟩,
        Analysis.imports_of_fetched declared.fetched⟩
      · cases found.symm.trans isEntry
        rcases declared.known rfl with isKnown | ⟨_, _, _, earlier⟩
        · exact ⟨_, isKnown, rfl⟩
        · exact absurd unknown earlier
      · intro index other isOther
        exact rawMiddle.typedParameter isOther
      · intro statement isBody
        rw [isBody] at present
        exact absurd rfl present

theorem declaration_spec (good : fetch.Good before.analysis) (empty : before.body.ids = [])
    (raw : before.analysis.decls.RawRoot base id) :
    Spec (before.analysis.decls.Family id) before (declaration fetch id) fun _ after =>
      Settles before base id after ∧ after.analysis.Imports before.analysis := by
  obtain ⟨above, decl, found, valid, rawBody⟩ := raw
  have family : before.analysis.decls.Family id =
      fun other => other = id ∨ other ∈ decl.body.owned := by
    unfold Declarations.Family
    rw [owned_of_get? found]
  rw [family]
  unfold declaration
  refine .decls_bind ?_
  rw [found]
  dsimp only
  generalize body : decl.body = declared at rawBody ⊢
  cases rawBody with
  | «variable» raw isGlobal =>
    refine ((variable_settles good empty above found valid body raw isGlobal).widen
      fun _ isId => .inl isId).mono fun _ _ _ known => ⟨known.2, known.1.imports ?_⟩
    rintro _ rfl
    exact ⟨decl, found, by simp [body]⟩
  | function raw => exact function_settles good above found valid body raw
  | wrapper raw isVoid alone present =>
    refine (body_settles good (.inr rfl) above found valid body raw present ?_
      (fun _ _ _ => trivial) fun _ _ plain => absurd body (plain _)).mono
        fun _ _ moves settles => ⟨settles, moves.imports (taken_of_raw found raw (by simp [body]))⟩
    intro _ _ _ result parameters present' sound
    exact .wrapper sound (result.trans isVoid) (parameters.trans alone) present'

end Check

end FragmentCompiler
