import FragmentCompiler.Proofs.Stages.Batch

/-!
# Run-time lookups keep declarations typed

Turning deferred names into run-time lookups changes no type.  A declaration that was
accepted with deferred names is afterwards accepted without any.
-/

set_option autoImplicit false

namespace FragmentCompiler

open List

variable {after before : Analysis} {deferrals lookups : Prop}

/-! ## Expressions -/

namespace Expr

variable {expr : Expr} {deferrals lookups : Prop}

theorem withLookupsAll_eq_map (arguments : List Expr) :
    withLookupsAll arguments = arguments.map withLookups := by
  induction arguments with
  | nil => rfl
  | cons first rest ih => simp only [withLookupsAll, map_cons, ih]

theorem Sound.type_withLookups {known visible}
    (sound : expr.Sound known deferrals lookups visible) : expr.withLookups.type = expr.type := by
  cases sound with
  | deferred spelling allowed typed => exact typed.symm
  | _ => rfl

theorem IsPlace.withLookups (place : expr.IsPlace) : expr.withLookups.IsPlace := by
  cases place with
  | «variable» info spelling id => exact .variable info spelling id
  | deferred info spelling => exact .lookup _ spelling
  | lookup info spelling => exact .lookup info spelling

theorem Callee.withLookups {arguments result arguments'} (grown : before.Extends after)
    {callee : Expr} (called : callee.Callee before deferrals lookups arguments result)
    (same : arguments'.map Expr.type = arguments.map Expr.type) :
    callee.withLookups.Callee after False (deferrals ∨ lookups) arguments' result := by
  have values : (∀ argument ∈ arguments, argument.type ≠ .void) →
      ∀ argument ∈ arguments', argument.type ≠ .void := by
    intro given argument member
    have typed := mem_map_of_mem (f := Expr.type) member
    rw [same] at typed
    obtain ⟨old, inOld, isType⟩ := mem_map.mp typed
    rw [← isType]
    exact given old inOld
  cases called with
  | function info id named =>
    refine .function info id ?_
    rw [same]
    exact grown.functions _ _ _ named
  | print info isPrint given => exact .print info isPrint (values given)
  | @len info spelling argument isLen measured =>
    obtain ⟨argument', isSingle, isType⟩ := map_eq_singleton_iff.mp same
    rw [isSingle]
    exact .len info isLen (by rw [isType]; exact measured)
  | @str info spelling argument isStr value =>
    obtain ⟨argument', isSingle, isType⟩ := map_eq_singleton_iff.mp same
    rw [isSingle]
    exact .str info isStr (by rw [isType]; exact value)
  | deferred info spelling allowed given =>
    exact .lookup { info with type := .dynamic } spelling (.inl allowed) (values given)
  | lookup info spelling allowed given => exact .lookup info spelling (.inr allowed) (values given)

theorem Sound.withLookups {visible} (grown : before.Extends after)
    (locals : ∀ id ∈ visible, ∀ type, before.decls.IsLocal id type → after.decls.IsLocal id type)
    (sound : expr.Sound before deferrals lookups visible) :
    expr.withLookups.Sound after False (deferrals ∨ lookups) visible := by
  induction sound with
  | literal spelling typed => exact .literal spelling typed
  | localName spelling seen isLocal => exact .localName spelling seen (locals _ seen _ isLocal)
  | globalName named => exact .globalName (named.extends grown)
  | deferred spelling allowed typed => exact .lookup spelling (.inl allowed) rfl
  | lookup spelling allowed typed => exact .lookup spelling (.inr allowed) typed
  | group inside typed ih => exact .group ih (typed.trans inside.type_withLookups.symm)
  | convert inside converts typed ih =>
    exact .convert ih (by rw [inside.type_withLookups]; exact converts) typed
  | unary inside typed ih => exact .unary ih (by rw [inside.type_withLookups]; exact typed)
  | binary first second leftValue rightValue unmixed typed ihLeft ihRight =>
    rw [← first.type_withLookups] at leftValue unmixed typed
    rw [← second.type_withLookups] at rightValue unmixed typed
    exact .binary ihLeft ihRight leftValue rightValue unmixed typed
  | assign place isPlace inside fits typed ihTarget ihValue =>
    rw [← place.type_withLookups, ← inside.type_withLookups] at fits
    rw [← place.type_withLookups] at typed
    exact .assign ihTarget isPlace.withLookups ihValue fits typed
  | @call info callee arguments called given ih =>
    have same : (withLookupsAll arguments).map Expr.type = arguments.map Expr.type := by
      rw [withLookupsAll_eq_map, map_map]
      exact map_congr_left fun argument member => (given argument member).type_withLookups
    refine .call (called.withLookups grown same) fun argument member => ?_
    rw [withLookupsAll_eq_map] at member
    obtain ⟨old, inOld, isArgument⟩ := mem_map.mp member
    rw [← isArgument]
    exact ih old inOld

end Expr

/-! ## Statements -/

namespace Stmt

mutual

theorem declared_mapExprs (change : Expr → Expr) (statement : Stmt) :
    (statement.mapExprs change).declared = statement.declared := by
  cases statement with
  | block span body => exact declaredAll_mapExprsAll change body
  | branch span test yes no =>
    cases no with
    | none =>
      simp only [mapExprs, mapExprsOption, declared, declaredOption,
        declared_mapExprs change yes]
    | some no =>
      simp only [mapExprs, mapExprsOption, declared, declaredOption,
        declared_mapExprs change yes, declared_mapExprs change no]
  | loop span test body => exact declared_mapExprs change body
  | _ => simp only [mapExprs, declared]

theorem declaredAll_mapExprsAll (change : Expr → Expr) (statements : List Stmt) :
    declaredAll (mapExprsAll change statements) = declaredAll statements := by
  cases statements with
  | nil => simp only [mapExprsAll]
  | cons first rest =>
    simp only [mapExprsAll, declaredAll, declared_mapExprs change first,
      declaredAll_mapExprsAll change rest]

end

theorem mapExprsAll_toList (change : Expr → Expr) (no : Option Stmt) :
    mapExprsAll change no.toList = (mapExprsOption change no).toList := by
  cases no <;> simp [mapExprsAll, mapExprsOption]

end Stmt

def Variable.withLookups (data : Variable) : Variable :=
  { data with initial := data.initial.map Expr.withLookups }

def Function.withLookups (data : Function) : Function :=
  { data with body := data.body.map fun body => body.mapExprs Expr.withLookups }

theorem Function.owned_withLookups (data : Function) : data.withLookups.owned = data.owned := by
  unfold Function.owned Function.withLookups
  cases data.body with
  | none => rfl
  | some body => simp only [Option.map_some, Stmt.declared_mapExprs]

theorem Function.withLookups_of_none {data : Function} (isBody : data.body = none) :
    data.withLookups = data := by
  cases data
  cases isBody
  rfl

/-- The declaration with run-time lookups in it; what it owns is not looked at. -/
def Decl.withLookups (decl : Decl) : Decl :=
  { decl with
    body := match decl.body with
      | .variable data => .variable data.withLookups
      | .function data => .function data.withLookups
      | .wrapper data => .wrapper data.withLookups }

def Decl.withInitialLookups (decl : Decl) : Decl :=
  match decl.body with
  | .variable data => { decl with body := .variable data.withLookups }
  | _ => decl

/-- Local variables stay what they are. -/
def Declarations.KeepsLocals (before after : Declarations) (visible : List DeclId) : Prop :=
  ∀ id ∈ visible, ∀ type, before.IsLocal id type → after.IsLocal id type

open Decl

theorem Declarations.Starts.withLookups {scope data} (grown : before.Extends after) {id : DeclId}
    (starts : Declarations.Starts before deferrals lookups scope id data)
    (own : after.decls.get? id = (before.decls.get? id).map withInitialLookups)
    (locals : before.decls.KeepsLocals after.decls scope.visible) : Declarations.Starts after False
    (deferrals ∨ lookups) scope id data.withLookups := { starts with
  entry := by
    obtain ⟨decl, found, valid, body⟩ := starts.entry
    refine ⟨decl.withInitialLookups, by rw [own, found]; rfl, ?_⟩
    simp only [withInitialLookups, body]
    exact ⟨valid, trivial⟩
  initial := by
    intro value isValue
    obtain ⟨old, isOld, rfl⟩ := Option.map_eq_some_iff.mp isValue
    obtain ⟨sound, typed⟩ := starts.initial old isOld
    exact ⟨sound.withLookups grown locals, sound.type_withLookups.trans typed⟩ }

theorem Stmt.Sound.withLookups {result scope statements last} (grown : before.Extends after)
    (sound : Stmt.Sound before deferrals lookups result scope statements last)
    (locals : before.decls.KeepsLocals after.decls scope.visible)
    (made : ∀ id ∈ Stmt.declaredAll statements,
      after.decls.get? id = (before.decls.get? id).map withInitialLookups) :
    Stmt.Sound after False (deferrals ∨ lookups) result scope
      (Stmt.mapExprsAll Expr.withLookups statements) last := by
  induction sound with
  | nil scope => exact .nil scope
  | block span _ _ ihInside ihOthers =>
    obtain ⟨inside, others⟩ := forall_mem_append.mp made
    exact .block span (ihInside locals inside) (ihOthers locals others)
  | declared span _ ih => exact .declared span (ih locals made)
  | @declare scope last span id data _ _ starts _ ih =>
    obtain ⟨own, made⟩ := forall_mem_cons.mp made
    have starts' := starts.withLookups grown own locals
    refine .declare span starts' (ih (forall_mem_cons.mpr ⟨fun type isLocal => ?_, locals⟩) made)
    obtain ⟨data', isData', notGlobal, isType, isValue⟩ := isLocal
    have same : data = data' := Option.some.inj (starts.isData.symm.trans isData')
    subst same
    exact ⟨_, starts'.isData, notGlobal, isType, isValue⟩
  | expression span unterminated inside _ ih =>
    exact .expression span unterminated (inside.withLookups grown locals) (ih locals made)
  | branch span tested isTest _ _ _ ihYes ihNo ih =>
    rw [Stmt.declaredAll_branch, forall_mem_append, forall_mem_append] at made
    rw [Stmt.mapExprsAll_toList] at ihNo
    exact .branch span (tested.withLookups grown locals) (tested.type_withLookups.trans isTest)
      (ihYes locals made.1) (ihNo locals made.2.1) (ih locals made.2.2)
  | loop span tested isTest _ _ ihInside ih =>
    rw [Stmt.declaredAll_loop, forall_mem_append] at made
    exact .loop span (tested.withLookups grown locals) (tested.type_withLookups.trans isTest)
      (ihInside locals made.1) (ih locals made.2)
  | «return» span isVoid _ ih => exact .return span isVoid (ih locals made)
  | returnValue span inside fits notVoid _ ih =>
    exact .returnValue span (inside.withLookups grown locals)
      (inside.type_withLookups.trans fits) notVoid (ih locals made)
  | «break» span _ ih => exact .break span (ih locals made)
  | «continue» span _ ih => exact .continue span (ih locals made)
  | empty span _ ih => exact .empty span (ih locals made)

/-! ## Declarations -/

namespace Declarations

variable {decls : Declarations} {id other : DeclId} {data : Function}

theorem lookupsInInitial_reworks {own} (decls : Declarations) (isOwn : own id) :
    decls.Reworks own (decls.lookupsInInitial id) where
  count := count_modifyVariable _ _ _
  kept := fun _ strange =>
    get?_modifyVariable_of_ne decls _ fun isId => strange (isId ▸ isOwn)
  learns := extends_modifyVariable decls id _ fun _ _ => ⟨rfl, fun isGlobal => isGlobal⟩
  grounded := fun grounded => grounded.modifyVariable id _

theorem foldl_lookupsInInitial_reworks (own : DeclId → Prop) (ids : List DeclId)
    (decls : Declarations) (areOwn : ∀ id ∈ ids, own id) :
    decls.Reworks own (ids.foldl lookupsInInitial decls) :=
  foldlRecOn ids lookupsInInitial (.refl own decls) fun now reworks id member =>
    reworks.trans (lookupsInInitial_reworks now (areOwn id member))

theorem asFunction_lookupsInInitial (decls : Declarations) (id other : DeclId) :
    (decls.lookupsInInitial id).asFunction other = decls.asFunction other := by
  by_cases isId : other = id
  · subst isId
    unfold lookupsInInitial modifyVariable asFunction
    rw [get?_modify_self]
    cases decls.get? other with
    | none => rfl
    | some decl =>
      simp only [Option.map_some, Option.bind_some]
      split
      · rename_i body
        simp only [Decl.asFunction, body]
      · rfl
  · exact asFunction_congr (get?_modifyVariable_of_ne decls _ isId)

theorem asFunction_foldl_lookupsInInitial (ids : List DeclId) (other : DeclId)
    (decls : Declarations) :
    (ids.foldl lookupsInInitial decls).asFunction other = decls.asFunction other :=
  foldlRecOn (motive := fun now => now.asFunction other = decls.asFunction other) ids
    lookupsInInitial rfl fun now same id _ => (asFunction_lookupsInInitial now id other).trans same

theorem get?_lookupsInInitial (decls : Declarations) (id : DeclId) :
    (decls.lookupsInInitial id).get? id = (decls.get? id).map withInitialLookups :=
  get?_modify_self decls id _

theorem get?_foldl_lookupsInInitial {ids : List DeclId} (distinct : ids.Nodup)
    (member : other ∈ ids) :
    ∀ decls : Declarations, (ids.foldl lookupsInInitial decls).get? other =
      (decls.get? other).map withInitialLookups := by
  induction ids with
  | nil => exact absurd member not_mem_nil
  | cons id rest ih =>
    intro decls
    obtain ⟨notInRest, distinctRest⟩ := nodup_cons.mp distinct
    by_cases isId : other = id
    · subst isId
      have later := (foldl_lookupsInInitial_reworks (· ∈ rest) rest
        (decls.lookupsInInitial other) fun _ inRest => inRest).kept other notInRest
      exact later.trans (get?_lookupsInInitial decls other)
    · have inRest := (mem_cons.mp member).resolve_left isId
      rw [foldl_cons, ih distinctRest inRest]
      exact congrArg (Option.map withInitialLookups)
        (get?_modifyVariable_of_ne decls _ isId)

theorem asFunction_modifyFunction (decls : Declarations) (id : DeclId)
    (change : Function → Function) :
    (decls.modifyFunction id change).asFunction id = (decls.asFunction id).map change := by
  unfold modifyFunction asFunction
  rw [get?_modify_self]
  cases decls.get? id with
  | none => rfl
  | some decl =>
    rcases body : decl.body with data | data | data <;> simp [Decl.asFunction, body]

theorem lookupsIn_of_body {body : Stmt}
    (isFunction : decls.asFunction id = some data) (isBody : data.body = some body) :
    decls.lookupsIn id = body.declared.foldl lookupsInInitial
      (decls.modifyFunction id fun data =>
        { data with body := some (body.mapExprs .withLookups) }) := by
  unfold lookupsIn
  simp only [isFunction, isBody]

theorem owned_of_asFunction
    (isFunction : decls.asFunction id = some data) : decls.owned id = data.owned := by
  unfold owned
  rw [isFunction]

section

variable (decls) (id)

theorem lookupsIn_reworks :
    decls.Reworks (decls.Family id) (decls.lookupsIn id) := by
  cases isFunction : decls.asFunction id with
  | none =>
    unfold lookupsIn
    simp only [isFunction]
    exact lookupsInInitial_reworks decls (.inl rfl)
  | some data =>
    cases isBody : data.body with
    | none =>
      unfold lookupsIn
      simp only [isFunction, isBody]
      exact .refl _ _
    | some body =>
      have same : { data with body := some (body.mapExprs .withLookups) } =
          data.withLookups := by
        simp [Function.withLookups, isBody]
      rw [lookupsIn_of_body isFunction isBody]
      refine .trans ⟨count_modifyFunction _ _ _, fun other strange => ?_, ?_, fun grounded => ?_⟩
        (foldl_lookupsInInitial_reworks _ body.declared _ fun other member => .inr ?_)
      · exact get?_modifyFunction_of_ne decls _ fun isId => strange (.inl isId)
      · refine extends_modifyFunction decls id _ fun known isKnown => ?_
        rw [isFunction] at isKnown
        cases isKnown
        exact ⟨rfl, rfl, by simp [isBody]⟩
      · refine grounded.modifyFunction fun known isKnown other member => ?_
        rw [isFunction] at isKnown
        cases isKnown
        rw [same, Function.owned_withLookups, ← owned_of_asFunction isFunction] at member
        obtain ⟨decl, found, _⟩ := Option.bind_eq_some_iff.mp isFunction
        rw [owned_of_get? found] at member
        exact grounded id decl found other member
      · rw [owned_of_asFunction isFunction, Function.owned, isBody]
        exact mem_append_right _ member

theorem asFunction_lookupsIn :
    (decls.lookupsIn id).asFunction id = (decls.asFunction id).map Function.withLookups := by
  cases isFunction : decls.asFunction id with
  | none =>
    unfold lookupsIn
    simp only [isFunction]
    exact (asFunction_lookupsInInitial decls id id).trans isFunction
  | some data =>
    cases isBody : data.body with
    | none =>
      unfold lookupsIn
      simp only [isFunction, isBody, Option.map_some, Function.withLookups_of_none isBody]
    | some body =>
      rw [lookupsIn_of_body isFunction isBody, asFunction_foldl_lookupsInInitial,
        asFunction_modifyFunction, isFunction]
      simp [Function.withLookups, isBody]

theorem asFunction_lookupsIn_of_ne (different : other ≠ id) :
    (decls.lookupsIn id).asFunction other = decls.asFunction other := by
  unfold lookupsIn
  split
  · exact asFunction_lookupsInInitial decls id other
  · split
    · rfl
    · rw [asFunction_foldl_lookupsInInitial]
      exact asFunction_congr (get?_modifyFunction_of_ne decls _ different)

theorem owned_lookupsIn (other : DeclId) :
    (decls.lookupsIn id).owned other = decls.owned other := by
  unfold owned
  by_cases isId : other = id
  · rw [isId, asFunction_lookupsIn]
    cases decls.asFunction id with
    | none => rfl
    | some data => exact data.owned_withLookups
  · rw [asFunction_lookupsIn_of_ne decls id isId]

end

theorem get?_lookupsIn {decl : Decl}
    (found : decls.get? id = some decl) (below : ∀ other ∈ decls.owned id, other < id) :
    (decls.lookupsIn id).get? id = some decl.withLookups := by
  have known : decls.asFunction id = decl.asFunction := by
    unfold asFunction
    rw [found]
    rfl
  have notDeclared : ∀ data body, decls.asFunction id = some data → data.body = some body →
      id ∉ body.declared := by
    intro data body isFunction isBody member
    rw [owned_of_asFunction isFunction, Function.owned, isBody] at below
    exact Nat.lt_irrefl id (below id (mem_append_right _ member))
  rcases isDecl : decl.body with data | data | data
  · have isFunction : decls.asFunction id = none := by
      rw [known]
      simp [Decl.asFunction, isDecl]
    unfold lookupsIn
    simp only [isFunction]
    rw [lookupsInInitial, modifyVariable_get?_self decls id _ found isDecl]
    simp only [withLookups, isDecl, Variable.withLookups]
  all_goals
    have isFunction : decls.asFunction id = some data := by
      rw [known]
      simp [Decl.asFunction, isDecl]
    cases isBody : data.body with
    | none =>
      unfold lookupsIn
      simp only [isFunction, isBody]
      rw [found]
      cases decl
      cases isDecl
      simp only [withLookups, Function.withLookups_of_none isBody]
    | some body =>
      rw [lookupsIn_of_body isFunction isBody,
        (foldl_lookupsInInitial_reworks (· ∈ body.declared) body.declared _
          fun _ member => member).kept id (notDeclared data body isFunction isBody)]
      unfold modifyFunction
      rw [get?_modify_self, found]
      simp only [withLookups, isDecl, Function.withLookups, isBody, Option.map_some]

theorem lookupsIn_parameter {parameter} (isFunction : decls.asFunction id = some data)
    (ordered : data.owned.Pairwise (· < ·)) (below : ∀ other ∈ data.owned, other < id)
    (member : parameter ∈ data.parameters) : (decls.lookupsIn id).get?
    parameter = decls.get? parameter := by
  cases isBody : data.body with
  | none =>
    unfold lookupsIn
    simp only [isFunction, isBody]
  | some body =>
    rw [Function.owned, isBody] at ordered below
    have notId := Nat.ne_of_lt (below parameter (mem_append_left _ member))
    have notDeclared : parameter ∉ body.declared := fun inBody =>
      Nat.lt_irrefl _ ((pairwise_append.mp ordered).2.2 parameter member parameter inBody)
    rw [lookupsIn_of_body isFunction isBody,
      (foldl_lookupsInInitial_reworks (· ∈ body.declared) body.declared _
        fun _ inBody => inBody).kept parameter notDeclared]
    exact get?_modifyFunction_of_ne decls _ notId

theorem lookupsIn_declared {body : Stmt} (isFunction : decls.asFunction id = some data)
    (isBody : data.body = some body) (ordered : data.owned.Pairwise (· < ·))
    (below : ∀ other ∈ data.owned, other < id) (member : other ∈ body.declared) :
    (decls.lookupsIn id).get? other = (decls.get? other).map withInitialLookups := by
  rw [Function.owned, isBody] at ordered below
  have distinct : body.declared.Nodup :=
    (pairwise_append.mp ordered).2.1.imp fun less => Nat.ne_of_lt less
  rw [lookupsIn_of_body isFunction isBody, get?_foldl_lookupsInInitial distinct member]
  exact congrArg (Option.map withInitialLookups)
    (get?_modifyFunction_of_ne decls _
      (Nat.ne_of_lt (below other (mem_append_right _ member))))

theorem lookupsIn_adjusts : Adjusts lookupsIn := ⟨lookupsIn_reworks, owned_lookupsIn⟩

end Declarations

/-! ## Accepted declarations -/

theorem Function.Sound.withLookups (grown : before.Extends after)
    {data : Function} (sound : data.Sound before deferrals lookups)
    (parameters : ∀ id ∈ data.parameters, after.decls.get? id = before.decls.get? id)
    (made : ∀ body, data.body = some body → ∀ id ∈ body.declared,
      after.decls.get? id = (before.decls.get? id).map withInitialLookups) :
    data.withLookups.Sound after False (deferrals ∨ lookups) where
  parameters := fun index id isId =>
    (sound.parameters index id isId).congr (parameters id (mem_of_getElem? isId))
  body := by
    intro statement isStatement
    obtain ⟨old, isOld, rfl⟩ := Option.map_eq_some_iff.mp isStatement
    obtain ⟨span, body, last, rfl, inside, frame⟩ := sound.body old isOld
    refine ⟨span, _, last, rfl, inside.withLookups grown ?_ (made _ isOld), frame⟩
    intro id member type isLocal
    exact isLocal.congr (parameters id (mem_reverse.mp member))

namespace Analysis

variable {known : Analysis} {deferrals lookups : Prop}

open Declarations

theorem Accepted.withLookups {base} {id : DeclId}
    (accepted : known.Accepted deferrals lookups base id) :
    (known.updateDecls fun decls => decls.lookupsIn id).Accepted False (deferrals ∨ lookups)
      base id := by
  have reworks := known.decls.lookupsIn_reworks id
  have grown : known.Extends (known.updateDecls fun decls => decls.lookupsIn id) :=
    .of_decls reworks.learns rfl
  have owned : (known.updateDecls fun decls => decls.lookupsIn id).decls.owned id =
      known.decls.owned id := known.decls.owned_lookupsIn id id
  obtain ⟨decl, found, valid, sound⟩ := accepted.valid
  have found' : (known.updateDecls fun decls => decls.lookupsIn id).decls.get? id =
      some decl.withLookups := Declarations.get?_lookupsIn found accepted.below
  refine ⟨⟨decl.withLookups, found', valid, ?_⟩, by rw [owned]; exact accepted.ordered,
    by rw [owned]; exact accepted.below, fun other family => accepted.above other ?_, ?_⟩
  · have function : ∀ data : Function, known.decls.asFunction id = some data →
        data.Sound known deferrals lookups →
        data.withLookups.Sound (known.updateDecls fun decls => decls.lookupsIn id) False
          (deferrals ∨ lookups) := by
      intro data isFunction sound
      have isOwned := owned_of_asFunction isFunction
      have ordered := isOwned ▸ accepted.ordered
      have below := isOwned ▸ accepted.below
      exact sound.withLookups grown
        (fun parameter => lookupsIn_parameter isFunction ordered below)
        fun body isBody other => Declarations.lookupsIn_declared isFunction isBody ordered below
    have isFunction : known.decls.asFunction id = decl.asFunction := by
      unfold Declarations.asFunction
      rw [found]
      rfl
    unfold Decl.withLookups
    unfold Decl.asFunction at isFunction
    generalize decl.body = body at sound isFunction
    cases sound with
    | «variable» isGlobal type initial =>
      refine .variable isGlobal type fun value isValue => ?_
      obtain ⟨old, isOld, rfl⟩ := Option.map_eq_some_iff.mp isValue
      obtain ⟨sound, typed⟩ := initial old isOld
      exact ⟨sound.withLookups grown (by simp), sound.type_withLookups.trans typed⟩
    | function sound => exact .function (function _ isFunction sound)
    | wrapper sound isVoid alone present =>
      exact .wrapper (function _ isFunction sound) isVoid alone
        (by simpa [Function.withLookups] using present)
  · exact family.of_owned owned
  · intro other isOther
    rw [found'] at isOther
    cases isOther
    have held := accepted.held decl found
    unfold Holds at held ⊢
    unfold Decl.withLookups
    rcases body : decl.body with data | data | data
    · rw [body] at held
      exact held
    · rw [body] at held
      intro present
      exact held (by simpa [Function.withLookups] using present)
    · trivial

theorem Fits.withLookups {flaws} {base id : DeclId} (grounded : known.decls.Grounded)
    (fits : known.Fits flaws False deferrals lookups base id) :
    (known.updateDecls fun decls => decls.lookupsIn id).Fits flaws False False (deferrals ∨ lookups)
      base id := by
  have below := grounded.owned_below id
  rcases fits with accepted | ⟨isFlaw, decl, found, marked⟩ | ⟨never, _⟩
  · exact .inl accepted.withLookups
  · exact .inr (.inl ⟨isFlaw, _, Declarations.get?_lookupsIn found below, marked⟩)
  · exact never.elim

theorem Batch.withLookups {flaws base group} (grounded : known.decls.Grounded)
    (batch : known.Batch flaws False deferrals lookups base group) :
    (known.updateDecls fun decls => group.foldl lookupsIn decls).Batch flaws False False
      (deferrals ∨ lookups) base group :=
  batch.foldl lookupsIn_adjusts (fun grounded fits => fits.withLookups grounded) grounded

end Analysis

end FragmentCompiler
