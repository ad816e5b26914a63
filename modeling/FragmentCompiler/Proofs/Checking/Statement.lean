import FragmentCompiler.Proofs.Checking.Expression

/-!
# Checked statements are typed

Statements are checked in order.  Each sees the variables declared before it, touches
the entries of the variables it declares, and leaves all others as they are.
-/

set_option autoImplicit false

namespace FragmentCompiler

open List

/-! ## Scopes -/

/-- One context comes from another by adding variables to the innermost scope. -/
structure BodyContext.Adds (ids : List DeclId) (before after : BodyContext) : Prop where
  result : after.result = before.result
  loops : after.loops = before.loops
  scopes : ∃ head tail added, before.scopes = head :: tail ∧
    after.scopes = (added ++ head) :: tail ∧ ∀ entry ∈ added, entry.2 ∈ ids

namespace BodyContext

variable {after before : BodyContext} {ids : List DeclId}

theorem Adds.slot {context : BodyContext} (ids : List DeclId) (nextSlot : Nat)
    (opened : ∃ head tail, context.scopes = head :: tail) :
    context.Adds ids { context with nextSlot } := by
  obtain ⟨head, tail, isScopes⟩ := opened
  exact ⟨rfl, rfl, head, tail, [], isScopes, isScopes, by simp⟩

theorem Adds.refl {context : BodyContext} (ids : List DeclId)
    (opened : ∃ head tail, context.scopes = head :: tail) : context.Adds ids context :=
  .slot ids _ opened

theorem Adds.opened (adds : before.Adds ids after) : ∃ head tail, after.scopes = head :: tail := by
  obtain ⟨head, tail, added, _, isAfter, _⟩ := adds.scopes
  exact ⟨_, _, isAfter⟩

theorem Adds.trans {first middle second} (left : before.Adds first middle)
    (right : middle.Adds second after) : before.Adds (first ++ second) after := by
  obtain ⟨head, tail, added, isBefore, isMiddle, inFirst⟩ := left.scopes
  obtain ⟨head', tail', added', isMiddle', isAfter, inSecond⟩ := right.scopes
  rw [isMiddle] at isMiddle'
  obtain ⟨isHead, isTail⟩ := List.cons.inj isMiddle'
  refine ⟨right.result.trans left.result, right.loops.trans left.loops, head, tail,
    added' ++ added, isBefore, ?_, ?_⟩
  · rw [isAfter, ← isHead, ← isTail, append_assoc]
  · intro entry member
    rcases mem_append.mp member with isNew | isOld
    · exact mem_append_right _ (inSecond entry isNew)
    · exact mem_append_left _ (inFirst entry isOld)

theorem Adds.mem (adds : before.Adds ids after)
    {id : DeclId} (member : id ∈ after.ids) : id ∈ ids ∨ id ∈ before.ids := by
  obtain ⟨head, tail, added, isBefore, isAfter, inIds⟩ := adds.scopes
  unfold BodyContext.ids at member ⊢
  rw [isAfter] at member
  rw [isBefore]
  simp only [flatMap_cons, map_append, append_assoc, mem_append] at member ⊢
  rcases member with isNew | isOld
  · obtain ⟨entry, inAdded, isId⟩ := mem_map.mp isNew
    exact .inl (isId ▸ inIds entry inAdded)
  · exact .inr isOld

theorem Adds.tail {scopes : List _}
    (adds : ({ before with scopes := [] :: scopes } : BodyContext).Adds ids after) :
    after.scopes.tail = scopes := by
  obtain ⟨head, tail, added, isBefore, isAfter, _⟩ := adds.scopes
  obtain ⟨_, isTail⟩ := List.cons.inj isBefore
  rw [isAfter, isTail]
  rfl

end BodyContext

def Checker.scope (checker : Checker) : Scope := ⟨checker.body.ids, checker.body.nextSlot⟩

theorem Checker.scope_congr {before after : Checker} (body : after.body = before.body) :
    after.scope = before.scope := by
  unfold scope
  rw [body]

/-- Variables that are about to be declared, one after another, in the innermost scope. -/
structure Checker.Awaits (fetch : Fetch) (checker : Checker) (ids : List DeclId) : Prop where
  result : checker.body.result.IsResult
  opened : ∃ head tail, checker.body.scopes = head :: tail
  locals : checker.Scoped fetch
  ordered : ids.Pairwise (· < ·)
  apart : ∀ id ∈ ids, id ∉ checker.body.ids
  raw : ∀ id ∈ ids, checker.analysis.decls.RawVariable id
  stored : ∀ id ∈ ids, checker.analysis.decls.IsStored .local id

open Stmt

/-- What checking statements that declare variables ensures. -/
structure Checker.Checks (fetch : Fetch) (ids : List DeclId) (before : Checker) (statements : List Stmt)
    (after : Checker) : Prop where
  adds : before.body.Adds ids after.body
  locals : after.Scoped fetch
  declared : declaredAll statements = ids
  sound : after.errors = before.errors →
    Stmt.Sound after.analysis after.analysis.Defers False before.body.result before.scope
      statements after.scope

namespace Checker

variable {middle : Checker} {first second : List DeclId} {fetch : Fetch}

variable {before after : Checker}

section

variable (awaits : before.Awaits fetch (first ++ second))

include awaits

theorem Awaits.left : before.Awaits fetch first := { awaits with
  ordered := (pairwise_append.mp awaits.ordered).1
  apart := fun id member => awaits.apart id (mem_append_left _ member)
  raw := fun id member => awaits.raw id (mem_append_left _ member)
  stored := fun id member => awaits.stored id (mem_append_left _ member) }

theorem Awaits.right (moves : before.Moves (· ∈ first) after)
    (adds : before.body.Adds first after.body) (locals : after.Scoped fetch) :
    after.Awaits fetch second := by
  obtain ⟨_, ordered, cross⟩ := pairwise_append.mp awaits.ordered
  have same : ∀ id ∈ second, after.analysis.decls.get? id = before.analysis.decls.get? id := by
    intro id member
    have stored := awaits.stored id (mem_append_right _ member)
    exact moves.kept stored.le_count fun inFirst => Nat.lt_irrefl _ (cross id inFirst id member)
  refine ⟨?_, adds.opened, locals, ordered, ?_, ?_, ?_⟩
  · rw [adds.result]
    exact awaits.result
  · intro id member inAfter
    rcases adds.mem inAfter with inFirst | inBefore
    · exact Nat.lt_irrefl _ (cross id inFirst id member)
    · exact awaits.apart id (mem_append_right _ member) inBefore
  · intro id member
    exact (awaits.raw id (mem_append_right _ member)).congr (same id member)
  · intro id member
    exact (awaits.stored id (mem_append_right _ member)).congr (same id member)

theorem Awaits.same (movesFirst : before.Moves (· ∈ first) middle)
    (moves : middle.Moves (· ∈ second) after) {id : DeclId}
    (known : id ∈ first ∨ id ∈ before.body.ids) :
    after.analysis.decls.get? id = middle.analysis.decls.get? id := by
  obtain ⟨_, _, cross⟩ := pairwise_append.mp awaits.ordered
  rcases known with inFirst | inBefore
  · exact moves.kept (Nat.le_trans (awaits.left.stored id inFirst).le_count movesFirst.count)
      fun inSecond => Nat.lt_irrefl _ (cross id inFirst id inSecond)
  · obtain ⟨_, isLocal⟩ := awaits.locals.2 id inBefore
    exact moves.kept (Nat.le_trans isLocal.le_count movesFirst.count)
      fun inSecond => awaits.apart id (mem_append_right _ inSecond) inBefore

/-- What was checked first is still sound after the rest. -/
theorem Awaits.sound {statements type last} (movesFirst : before.Moves (· ∈ first) middle)
    (moves : middle.Moves (· ∈ second) after) (declared : declaredAll statements = first)
    (sound : Stmt.Sound middle.analysis middle.analysis.Defers False type before.scope statements
      last) :
    Stmt.Sound after.analysis after.analysis.Defers False type before.scope statements last := by
  rw [← moves.defers] at sound
  refine sound.weaken moves.learns (fun deferred => deferred) (fun looked => looked) ?_ ?_
  · intro id member
    exact awaits.same movesFirst moves (.inr member)
  · intro id member
    rw [declared] at member
    exact awaits.same movesFirst moves (.inl member)

end

theorem Awaits.seen {ids} (awaits : before.Awaits fetch ids)
    (moves : before.Moves (· ∈ ids) after) :
    ∀ id ∈ before.body.ids, after.analysis.decls.get? id = before.analysis.decls.get? id := by
  intro id member
  obtain ⟨_, isLocal⟩ := awaits.locals.2 id member
  exact moves.kept isLocal.le_count fun inIds => awaits.apart id inIds member

theorem Awaits.kept {ids : List DeclId} (awaits : before.Awaits fetch ids)
    (moves : before.Moves Check.nothing after) (body : after.body = before.body) :
    after.Awaits fetch ids := by
  have none : before.Awaits fetch ([] ++ ids) := awaits
  refine none.right (moves.mono fun _ impossible => impossible.elim) ?_
    (awaits.locals.kept moves body)
  rw [body]
  exact .refl _ awaits.opened

theorem Checks.append {left right} (checks : Checks fetch first before left middle)
    (others : Checks fetch second middle right after)
    (awaits : before.Awaits fetch (first ++ second)) (movesFirst : before.Moves (· ∈ first) middle)
    (moves : middle.Moves (· ∈ second) after) :
    Checks fetch (first ++ second) before (left ++ right) after where
  adds := checks.adds.trans others.adds
  locals := others.locals
  declared := by rw [declaredAll_append, checks.declared, others.declared]
  sound := by
    intro same
    obtain ⟨sameFirst, sameLast⟩ := movesFirst.same_errors moves same
    have rest := others.sound sameLast
    rw [checks.adds.result] at rest
    exact (awaits.sound movesFirst moves checks.declared (checks.sound sameFirst)).append rest

end Checker

namespace Check

variable {after : Checker} {id : DeclId} {ids : List DeclId}

variable {fetch : Fetch} {before : Checker}

/-! ## Local variables -/

open Declarations

/-- Changing the variable of a number of `own`. -/
theorem modifyVariable_spec {change} (own : DeclId → Prop) (isOwn : own id)
    (same : ∀ data, before.analysis.decls.asVariable id = some data → data.SameHead (change data)) :
    Spec own before (updateDecls fun decls => decls.modifyVariable id change) fun _ after =>
      after = { before with
        analysis := before.analysis.updateDecls fun decls => decls.modifyVariable id change } := by
  intro ready _
  refine ⟨.of_evolves (Analysis.updateDecls_evolves ready
    (count_modifyVariable _ _ _) (fun other strange => ?_)
    (extends_modifyVariable _ _ _ same) (ready.grounded.modifyVariable _ _)), rfl⟩
  exact Declarations.get?_modifyVariable_of_ne _ _ fun isId => strange (isId ▸ isOwn)

theorem initialValue_spec {decl data} (locals : before.Scoped fetch)
    (found : before.analysis.decls.get? id = some decl) (body : decl.body = .variable data)
    (raw : data.Raw) (apart : id ∉ before.body.ids) :
    Spec (· = id) before (initialValue fetch id) fun _ after =>
      after.body = before.body ∧ ∃ initial,
        after.analysis.decls.get? id =
          some { decl with body := .variable { data with initial } } ∧
        (after.errors = before.errors → ∀ value, initial = some value →
          after.Typed value ∧ value.type = data.type) := by
  have isData := asVariable_of_get? found body
  unfold initialValue
  refine .decls_bind ?_
  rw [isData]
  obtain ⟨type, initial, storage, slot, hoisted⟩ := data
  cases initial with
  | none =>
    refine .pure ⟨rfl, none, ?_, by simp⟩
    rw [found]
    simp [← body]
  | some value =>
    refine (expression_spec (raw.initial value rfl) before locals).anywhere.bind
      fun checked first _ known => ?_
    obtain ⟨moves, bodyFirst, knownFirst⟩ := known
    have localsFirst := locals.kept moves bodyFirst
    refine (convert_spec localsFirst checked type).anywhere.bind
      fun converted second _ known => ?_
    obtain ⟨movesSecond, bodySecond, knownSecond⟩ := known
    have localsSecond := localsFirst.kept movesSecond bodySecond
    have foundSecond : second.analysis.decls.get? id = some decl := by
      have known := le_count_of_get? found
      rw [movesSecond.kept (Nat.le_trans known moves.count) (fun impossible => impossible),
        moves.kept known fun impossible => impossible, found]
    refine (modifyVariable_spec (· = id) rfl ?_).mono fun _ after movesAfter isAfter => ?_
    · intro data _
      exact ⟨rfl, fun isGlobal => isGlobal⟩
    · subst isAfter
      refine ⟨bodySecond.trans bodyFirst, some converted, ?_, ?_⟩
      · exact modifyVariable_get?_self _ _ _ foundSecond body
      · intro same value isValue
        cases isValue
        obtain ⟨sameFirst, sameSecond⟩ := moves.same_errors movesSecond same
        obtain ⟨typesSecond, isType⟩ := knownSecond sameSecond raw.type (knownFirst sameFirst).1
        refine ⟨typesSecond.moves movesAfter (localsSecond.same movesAfter ?_), isType⟩
        intro other member isId
        rw [bodySecond, bodyFirst] at member
        exact apart (isId ▸ member)

variable {own : DeclId → Prop}

theorem spanOf_spec (id : DeclId) : Spec own before (spanOf id) fun _ after => after = before :=
  .decls_bind (.pure rfl)

theorem rejectAfter_spec {span code message earlier note}
    (text : code.number < 4000 := by decide) :
    Spec own before (rejectAfter span code message earlier note) fun _ after =>
      Rejected before after :=
  (spanOf_spec earlier).bind fun _ middle _ isBefore => by
    rw [isBefore]
    exact reportError_spec text rfl

theorem inScope?_spec (name : Text) :
    Spec own before (inScope? name) fun _ after => after = before :=
  .get_bind (.pure rfl)

def bound (name : Text) (id : DeclId) (body : BodyContext) : BodyContext :=
  { body with
    scopes := match body.scopes with
      | [] => [[(name, id)]]
      | scope :: outer => ((name, id) :: scope) :: outer
    nextSlot := body.nextSlot + 1 }

theorem bound_adds {context} (name : Text) (id : DeclId)
    (opened : ∃ head tail, context.scopes = head :: tail) :
    context.Adds [id] (bound name id context) ∧
      (bound name id context).ids = id :: context.ids := by
  obtain ⟨head, tail, isScopes⟩ := opened
  refine ⟨⟨rfl, rfl, head, tail, [(name, id)], isScopes, ?_, by simp⟩, ?_⟩
  · simp [bound, isScopes]
  · simp [bound, BodyContext.ids, isScopes]

/-- A check declares a local variable, of which `known` holds unless something is reported. -/
def Checker.Binds (fetch : Fetch) (id : DeclId) (known : Prop) (before after : Checker) : Prop :=
  before.body.Adds [id] after.body ∧ after.Scoped fetch ∧
    (after.errors = before.errors → after.scope = before.scope.push id ∧ known)

theorem declareLocal_spec {data} {decl : Decl}
    (opened : ∃ head tail, before.body.scopes = head :: tail)
    (locals : before.Scoped fetch) (apart : id ∉ before.body.ids)
    (found : before.analysis.decls.get? id = some decl) (body : decl.body = .variable data)
    (isValue : data.type.IsValue) (notGlobal : data.storage ≠ .global) :
    Spec (· = id) before (declareLocal id) fun _ after =>
      Checker.Binds fetch id (after.analysis.decls.get? id = some
        { decl with
          body := .variable { data with storage := .local, slot := before.body.nextSlot } })
        before after := by
  have strangers : ∀ other ∈ before.body.ids, ¬ other = id :=
    fun other member isId => apart (isId ▸ member)
  have rejected {check : Check Unit} (known : Checker → Prop)
      (reports : Spec (· = id) before check fun _ after => Rejected before after) :
      Spec (· = id) before check fun _ after => Checker.Binds fetch id (known after) before after := by
    refine reports.mono fun _ after moves known => ?_
    obtain ⟨sameBody, _, _, counted⟩ := known
    refine ⟨?_, locals.moves moves strangers (by rw [sameBody]), fun same => ?_⟩
    · rw [sameBody]
      exact .refl _ opened
    · exact absurd same (Nat.ne_of_gt counted)
  unfold declareLocal
  refine .decls_bind ?_
  rw [found]
  refine (inScope?_spec decl.name).bind fun earlier _ _ isBefore => ?_
  rw [isBefore]
  split
  · exact rejected _ rejectAfter_spec
  · split
    · exact rejected _ reject_spec
    · refine .get_bind ?_
      refine (Spec.updateBody (bound decl.name id)).bind fun _ middle _ isMiddle => ?_
      subst isMiddle
      have isData := asVariable_of_get? found body
      refine (modifyVariable_spec (· = id) rfl ?_).mono fun _ after moves isAfter => ?_
      · intro other isOther
        rw [show before.analysis.decls.asVariable id = some other from isOther] at isData
        cases isData
        exact ⟨rfl, fun isGlobal => absurd isGlobal notGlobal⟩
      · subst isAfter
        obtain ⟨adds, ids⟩ := bound_adds decl.name id opened
        have isLocal := modifyVariable_get?_self before.analysis.decls id
          (fun data => { data with storage := .local, slot := before.body.nextSlot }) found body
        refine ⟨adds, ⟨moves.good locals.1, fun other member => ?_⟩, fun _ => ⟨?_, isLocal⟩⟩
        · rw [show Checker.body _ = bound decl.name id before.body from rfl, ids] at member
          rcases mem_cons.mp member with isId | inBefore
          · subst isId
            exact ⟨data.type, _, asVariable_of_get? isLocal rfl, by simp, rfl, isValue⟩
          · obtain ⟨type, known⟩ := locals.2 other inBefore
            exact ⟨type, known.congr (moves.kept known.le_count (strangers other inBefore))⟩
        · unfold Checker.scope Scope.push
          rw [ids]
          rfl

/-- One local variable: its initial value sees the scope before it, and then it takes the
next slot. -/
theorem localVariable_spec (awaits : before.Awaits fetch [id]) :
    Spec (· = id) before (do initialValue fetch id; declareLocal id) fun _ after =>
      Checker.Binds fetch id (∃ data, Declarations.Starts after.analysis after.analysis.Defers False
        before.scope id data) before after := by
  obtain ⟨decl, data, found, valid, body, raw⟩ := awaits.raw id mem_cons_self
  obtain ⟨other, isOther, isLocal⟩ := awaits.stored id mem_cons_self
  rw [asVariable_of_get? found body] at isOther
  cases isOther
  have apart := awaits.apart id mem_cons_self
  have strangers : ∀ other ∈ before.body.ids, ¬ other = id :=
    fun other member isId => apart (isId ▸ member)
  refine (initialValue_spec awaits.locals found body raw apart).bind
    fun _ first moves known => ?_
  obtain ⟨bodyFirst, initial, foundFirst, typed⟩ := known
  have localsFirst := awaits.locals.moves moves strangers (by rw [bodyFirst])
  have openedFirst : ∃ head tail, first.body.scopes = head :: tail := by
    rw [bodyFirst]
    exact awaits.opened
  have apartFirst : id ∉ first.body.ids := by
    rw [bodyFirst]
    exact apart
  refine (declareLocal_spec openedFirst localsFirst apartFirst foundFirst rfl raw.type
    (by simp [isLocal])).mono fun _ after movesAfter known => ?_
  obtain ⟨adds, localsAfter, declares⟩ := known
  rw [bodyFirst] at adds
  refine ⟨adds, localsAfter, fun same => ?_⟩
  obtain ⟨sameFirst, sameAfter⟩ := moves.same_errors movesAfter same
  obtain ⟨isScope, isData⟩ := declares sameAfter
  rw [Checker.scope_congr bodyFirst] at isScope
  refine ⟨isScope, _, ⟨_, isData, valid, rfl⟩, rfl, ?_, raw.type, fun value isValue => ?_⟩
  · rw [bodyFirst]
    rfl
  · obtain ⟨types, isType⟩ := typed sameFirst value isValue
    rw [Checker.Typed, bodyFirst] at types
    refine ⟨types.moves movesAfter fun other member => ?_, isType⟩
    obtain ⟨_, known⟩ := awaits.locals.2 other member
    exact movesAfter.kept (Nat.le_trans known.le_count moves.count) (strangers other member)

theorem localVariables_spec (ids : List DeclId) :
    ∀ before : Checker, before.Awaits fetch ids →
      Spec (· ∈ ids) before (localVariables fetch ids) fun _ after =>
        ∀ span, Checker.Checks fetch ids before [.declare span ids] after := by
  induction ids with
  | nil =>
    intro before awaits
    rw [localVariables]
    refine .pure fun span => ⟨.refl _ awaits.opened, awaits.locals, rfl, fun _ => ?_⟩
    exact .declared span (.nil _)
  | cons id rest ih =>
    intro before awaits
    have single : before.Awaits fetch ([id] ++ rest) := awaits
    have isSingle : ∀ other, other = id → other ∈ id :: rest :=
      fun other isId => isId ▸ mem_cons_self
    have order : localVariables fetch (id :: rest) =
        (do initialValue fetch id; declareLocal id) >>= fun _ => localVariables fetch rest := by
      rw [localVariables]
      simp only [bind_assoc]
    rw [order]
    refine ((localVariable_spec single.left).widen isSingle).bind
      fun _ middle _ known => ?_
    obtain ⟨moves, adds, locals, started⟩ := known
    have movesSingle : before.Moves (· ∈ [id]) middle :=
      moves.mono fun other isId => isId ▸ mem_cons_self
    refine ((ih middle (single.right movesSingle adds locals)).widen
      fun other member => mem_cons_of_mem _ member).mono fun _ after _ known span => ?_
    obtain ⟨movesAfter, checks⟩ := known
    have others := checks span
    refine ⟨adds.trans others.adds, others.locals, by simp [declaredAll, Stmt.declared], ?_⟩
    intro same
    obtain ⟨sameMiddle, sameAfter⟩ := moves.same_errors movesAfter same
    obtain ⟨isScope, data, starts⟩ := started sameMiddle
    have rest := others.sound sameAfter
    rw [adds.result, isScope] at rest
    rw [← movesAfter.defers] at starts
    refine .declare span (starts.weaken movesAfter.learns (fun deferred => deferred)
      (fun looked => looked) ?_ fun other member => ?_) rest
    · exact single.same movesSingle movesAfter (.inl mem_cons_self)
    · exact single.same movesSingle movesAfter (.inr member)

/-! ## Statements -/

/-- What checking statements in a scope of their own ensures. -/
structure ChecksInside (fetch : Fetch) (ids : List DeclId) (before : Checker) (statements : List Stmt)
    (after : Checker) : Prop where
  body : ∃ nextSlot, after.body = { before.body with nextSlot }
  locals : after.Scoped fetch
  declared : declaredAll statements = ids
  sound : after.errors = before.errors →
    ∃ inner, after.scope = before.scope.leave inner ∧
      Stmt.Sound after.analysis after.analysis.Defers False before.body.result before.scope
        statements inner

theorem ChecksInside.adds {statements : List Stmt}
    (checks : ChecksInside fetch ids before statements after)
    (opened : ∃ head tail, before.body.scopes = head :: tail) :
    before.body.Adds ids after.body := by
  obtain ⟨nextSlot, isBody⟩ := checks.body
  rw [isBody]
  exact .slot ids nextSlot opened

theorem awaits_inside {checker : Checker} (awaits : checker.Awaits fetch ids) :
    ({ checker with
      body := { checker.body with scopes := [] :: checker.body.scopes } } : Checker).Awaits fetch ids :=
  { awaits with opened := ⟨_, _, rfl⟩ }

theorem inside_spec {α β : Type} {check : Check α} {next : α → Check β}
    {statements : α → List Stmt} {good : β → Checker → Prop}
    (isOwn : ∀ id ∈ ids, own id) (awaits : before.Awaits fetch ids)
    (first : ∀ before : Checker, before.Awaits fetch ids →
      Spec (· ∈ ids) before check fun value after =>
        Checker.Checks fetch ids before (statements value) after)
    (second : ∀ value after, before.Moves (· ∈ ids) after →
      ChecksInside fetch ids before (statements value) after → Spec own after (next value) good) :
    Spec own before (do
      openScope
      let value ← check
      closeScope
      next value) good := by
  have whole : Spec (· ∈ ids) before (do
      openScope
      let value ← check
      closeScope
      return value) fun value after => ChecksInside fetch ids before (statements value) after := by
    refine (Spec.updateBody _).bind fun _ opened _ isOpened => ?_
    subst isOpened
    refine (first _ (awaits_inside awaits)).bind fun value middle moves checks => ?_
    refine (Spec.updateBody _).bind fun _ closed _ isClosed => ?_
    subst isClosed
    have isTail := checks.adds.tail
    have isBody : ({ middle.body with scopes := middle.body.scopes.tail } : BodyContext) =
        { before.body with nextSlot := middle.body.nextSlot } := by
      rw [isTail]
      have isResult := checks.adds.result
      have isLoops := checks.adds.loops
      cases middle with
      | mk analysis errors body =>
        cases body
        simp_all
    refine .pure ⟨⟨_, isBody⟩, ?_, checks.declared, fun same => ⟨middle.scope, ?_, ?_⟩⟩
    · refine ⟨checks.locals.1, fun id (member : id ∈ BodyContext.ids _) => ?_⟩
      rw [isBody] at member
      obtain ⟨type, isLocal⟩ := awaits.locals.2 id member
      exact ⟨type, isLocal.congr (moves.kept isLocal.le_count fun inIds =>
        awaits.apart id inIds member)⟩
    · show Scope.mk (BodyContext.ids _) _ = _
      rw [isBody]
      rfl
    · exact checks.sound same
  have order : (do
      openScope
      let value ← check
      closeScope
      next value) = (do
        openScope
        let value ← check
        closeScope
        return value) >>= next := by
    simp only [bind_assoc, pure_bind]
  rw [order]
  refine (whole.widen isOwn).bind fun value after _ known => ?_
  exact second value after known.1 known.2

def StatementSpec (fetch : Fetch) (stmt : Stmt) : Prop :=
  ∀ before : Checker, before.Awaits fetch stmt.declared →
    Spec (· ∈ stmt.declared) before (statement fetch stmt) fun value after =>
      Checker.Checks fetch stmt.declared before [value] after

theorem statements_spec {body : List Stmt} (each : ∀ stmt ∈ body, StatementSpec fetch stmt) :
    ∀ before : Checker, before.Awaits fetch (declaredAll body) →
      Spec (· ∈ declaredAll body) before (statements fetch body) fun values after =>
        Checker.Checks fetch (declaredAll body) before values after := by
  induction body with
  | nil =>
    intro before awaits
    rw [statements]
    exact .pure ⟨.refl _ awaits.opened, awaits.locals, rfl, fun _ => .nil _⟩
  | cons stmt rest ih =>
    intro before awaits
    rw [declaredAll] at awaits ⊢
    rw [statements]
    refine ((each stmt mem_cons_self before awaits.left).widen
      fun id member => mem_append_left _ member).bind fun value middle _ known => ?_
    obtain ⟨moves, checks⟩ := known
    refine ((ih (fun other member => each other (mem_cons_of_mem _ member)) middle
      (awaits.right moves checks.adds checks.locals)).widen
      fun id member => mem_append_right _ member).bind fun values after _ known => ?_
    obtain ⟨movesAfter, others⟩ := known
    exact .pure (checks.append others awaits moves movesAfter)

/-- A statement that declares nothing. -/
theorem plain_spec {α : Type} {check : Check α} {make : α → Stmt} {good : α → Checker → Prop}
    (awaits : before.Awaits fetch []) (known : Spec nothing before check (Sure before good))
    (declared : ∀ value, (make value).declared = [])
    (sound : ∀ value after, good value after →
      Stmt.Sound after.analysis after.analysis.Defers False before.body.result after.scope
        [make value] after.scope) :
    Spec own before (do return make (← check)) fun value after =>
      Checker.Checks fetch [] before [value] after := by
  refine known.anywhere.bind fun value after _ known => .pure ?_
  obtain ⟨moves, body, holds⟩ := known
  refine ⟨?_, awaits.locals.kept moves body, by simp [declaredAll, declared], fun same => ?_⟩
  · rw [body]
    exact .refl _ awaits.opened
  · rw [← Checker.scope_congr body]
    exact sound value after (holds same)

theorem condition_spec {expr} (raw : expr.Raw) (locals : before.Scoped fetch) :
    Spec nothing before (condition fetch expr) (Sure before fun test after =>
      after.Typed test ∧ test.type = .bool) := by
  unfold condition
  refine Sure.bind (expression_spec raw before locals) fun test middle _ _ known => ?_
  split
  · rename_i isBool
    exact .pure ⟨rfl, fun _ same => ⟨(known same).1, isBool⟩⟩
  · rename_i isInvalid
    exact .pure ⟨rfl, fun _ same => absurd isInvalid (known same).1.type_ne_invalid⟩
  · rename_i isDynamic
    exact .pure ⟨rfl, fun _ same =>
      ⟨.convert (known same).1 ⟨True.intro, .inl isDynamic⟩ rfl, rfl⟩⟩
  · exact Sure.reject

theorem optional_spec {no : Option Stmt}
    (each : ∀ stmt, no = some stmt → StatementSpec fetch stmt)
    (awaits : before.Awaits fetch (declaredOption no)) :
    Spec (· ∈ declaredOption no) before (optional fetch no) fun value after =>
      ChecksInside fetch (declaredOption no) before value.toList after := by
  cases no with
  | none =>
    rw [optional]
    exact .pure ⟨⟨_, rfl⟩, awaits.locals, rfl, fun _ => ⟨before.scope, rfl, .nil _⟩⟩
  | some stmt =>
    rw [optional]
    refine inside_spec (fun _ member => member) awaits (each stmt rfl) fun value after _ checks => ?_
    exact .pure checks

theorem returned_spec {value} (span : Span) (raw : ∀ result, value = some result → result.Raw)
    (locals : before.Scoped fetch) (isResult : before.body.result.IsResult) :
    Spec nothing before (returned fetch span value) (Sure before fun value after =>
      Stmt.Sound after.analysis after.analysis.Defers False before.body.result after.scope
        [.return span value] after.scope) := by
  unfold returned
  refine .get_bind ?_
  cases value with
  | none =>
    dsimp only
    split
    · exact Sure.reject
    · rename_i isVoid
      exact Sure.pure (.return span (Decidable.not_not.mp isVoid) (.nil _))
  | some value =>
    refine Sure.bind (expression_spec (raw value rfl) before locals)
      fun checked first moves body known => ?_
    split
    · exact Sure.reject
    · rename_i notVoid
      refine Sure.bind (convert_spec (locals.kept moves body) checked before.body.result)
        fun converted second _ _ knownSecond => ?_
      refine .pure ⟨rfl, fun _ sameSecond sameFirst => ?_⟩
      obtain ⟨typesConverted, isType⟩ :=
        knownSecond sameSecond (isResult.isValue notVoid) (known sameFirst).1
      exact .returnValue span typesConverted isType notVoid (.nil _)

theorem insideLoop_spec (span : Span) :
    Spec nothing before (insideLoop span) (Sure before fun _ _ => True) := by
  unfold insideLoop
  refine .get_bind ?_
  split
  · exact Spec.mono reject_spec fun _ _ _ known => ⟨known.1, fun _ => trivial⟩
  · exact Sure.pure trivial

theorem branch_spec {span : Span} {test : Expr} {yes : Stmt} {no : Option Stmt} (tested : test.Raw)
    (first : StatementSpec fetch yes) (second : ∀ stmt, no = some stmt → StatementSpec fetch stmt) :
    StatementSpec fetch (.branch span test yes no) := by
  intro before (awaits : before.Awaits fetch (yes.declared ++ declaredOption no))
  rw [statement]
  refine (condition_spec tested awaits.locals).anywhere.bind fun test' middle _ known => ?_
  obtain ⟨moves, body, typed⟩ := known
  have awaitsMiddle := awaits.kept moves body
  have sameScope := Checker.scope_congr body
  refine inside_spec (fun _ member => mem_append_left _ member) awaitsMiddle.left first
    fun yes' chosen movesYes checksYes => ?_
  have addsYes := checksYes.adds awaitsMiddle.opened
  have awaitsNo := awaitsMiddle.right movesYes addsYes checksYes.locals
  refine ((optional_spec second awaitsNo).widen
    fun _ member => mem_append_right _ member).bind fun no' after _ known => ?_
  obtain ⟨movesNo, checksNo⟩ := known
  have adds := addsYes.trans (checksNo.adds awaitsNo.opened)
  rw [body] at adds
  refine .pure ⟨adds, checksNo.locals, ?_, fun same => ?_⟩
  · have isYes : yes'.declared = yes.declared := by
      simpa [declaredAll] using checksYes.declared
    have isNo : declaredOption no' = declaredOption no := by
      rw [← checksNo.declared]
      cases no' <;> simp [declaredAll, declaredOption]
    simp [declaredAll, Stmt.declared, isYes, isNo]
  · have := moves.errors
    obtain ⟨sameYes, sameNo⟩ := movesYes.same_errors movesNo (by
      have := movesYes.errors
      have := movesNo.errors
      omega)
    obtain ⟨types, isBool⟩ := typed (by omega)
    have typesAfter : after.Types before.body.ids test' := by
      rw [← body]
      have typesChosen := types.moves movesYes (awaitsMiddle.left.seen movesYes)
      exact typesChosen.moves movesNo fun id member =>
        awaitsMiddle.same movesYes movesNo (.inr member)
    obtain ⟨innerYes, scopeYes, sound⟩ := checksYes.sound sameYes
    have soundYes := awaitsMiddle.sound movesYes movesNo checksYes.declared sound
    obtain ⟨innerNo, scopeNo, soundNo⟩ := checksNo.sound sameNo
    rw [scopeNo, scopeYes]
    rw [scopeYes, addsYes.result] at soundNo
    rw [sameScope, body] at soundYes soundNo
    rw [sameScope]
    exact .branch span typesAfter isBool soundYes soundNo (.nil _)

theorem loop_spec {span : Span} {test : Expr} {body : Stmt} (tested : test.Raw)
    (inner : StatementSpec fetch body) : StatementSpec fetch (.loop span test body) := by
  intro before (awaits : before.Awaits fetch body.declared)
  rw [statement]
  refine (condition_spec tested awaits.locals).anywhere.bind fun test' middle _ known => ?_
  obtain ⟨moves, sameBody, typed⟩ := known
  have awaitsMiddle := awaits.kept moves sameBody
  refine (Spec.updateBody _).bind fun _ deeper _ isDeeper => ?_
  subst isDeeper
  have awaitsDeeper : ({ middle with
      body := { middle.body with loops := middle.body.loops + 1 } } : Checker).Awaits fetch
        body.declared := { awaitsMiddle with }
  refine inside_spec (fun _ member => member) awaitsDeeper inner
    fun body' after movesBody checks => ?_
  refine (Spec.updateBody _).bind fun _ last _ isLast => .pure ?_
  subst isLast
  obtain ⟨nextSlot, isBody⟩ := checks.body
  have isLast : ({ after.body with loops := after.body.loops - 1 } : BodyContext) =
      { before.body with nextSlot } := by
    rw [isBody]
    simp [sameBody]
  refine ⟨?_, checks.locals, ?_, fun same => ?_⟩
  · rw [isLast]
    exact .slot _ nextSlot awaits.opened
  · simpa [declaredAll, Stmt.declared] using checks.declared
  · have sameMiddle : middle.errors = before.errors :=
      Nat.le_antisymm (same ▸ movesBody.errors) moves.errors
    obtain ⟨types, isBool⟩ := typed sameMiddle
    have typesDeeper : ({ middle with
        body := { middle.body with loops := middle.body.loops + 1 } } : Checker).Types
          middle.body.ids test' := types
    have typesAfter : after.Types middle.body.ids test' :=
      typesDeeper.moves movesBody (awaitsDeeper.seen movesBody)
    obtain ⟨innerScope, isScope, sound⟩ := checks.sound (same.trans sameMiddle.symm)
    have sameScope := Checker.scope_congr sameBody
    have last : after.scope = before.scope.leave innerScope := by
      rw [isScope, ← sameScope]
      rfl
    have soundBody : Stmt.Sound after.analysis after.analysis.Defers False before.body.result
        before.scope [body'] innerScope := by
      rw [← sameScope, ← sameBody]
      exact sound
    have ended : Stmt.Sound after.analysis after.analysis.Defers False before.body.result
        (before.scope.leave innerScope) [] after.scope := by
      rw [last]
      exact .nil _
    rw [sameBody] at typesAfter
    exact .loop span typesAfter isBool soundBody ended

theorem statement_spec {stmt : Stmt} (raw : stmt.Raw) : StatementSpec fetch stmt := by
  induction raw with
  | block span _ ih =>
    intro before awaits
    rw [statement]
    refine inside_spec (fun _ member => member) awaits (statements_spec ih)
      fun body after _ checks => .pure ?_
    refine ⟨checks.adds awaits.opened, checks.locals, ?_, fun same => ?_⟩
    · simpa [declaredAll, Stmt.declared] using checks.declared
    · obtain ⟨inner, isScope, sound⟩ := checks.sound same
      rw [isScope]
      exact .block span sound (.nil _)
  | declare span ids =>
    intro before awaits
    rw [statement]
    exact (localVariables_spec ids before awaits).bind fun _ after _ checks =>
      .pure (checks span)
  | expression span unterminated inside =>
    intro before awaits
    rw [statement]
    exact plain_spec awaits (expression_spec inside before awaits.locals) (fun _ => rfl)
      fun _ _ sound => .expression span unterminated sound.1 (.nil _)
  | branch span tested _ _ ihYes ihNo => exact branch_spec tested ihYes ihNo
  | loop span tested _ ih => exact loop_spec tested ih
  | «return» span inside =>
    intro before awaits
    rw [statement]
    exact plain_spec awaits (returned_spec span inside awaits.locals awaits.result)
      (fun _ => rfl) fun _ _ sound => sound
  | «break» span =>
    intro before awaits
    rw [statement]
    exact plain_spec awaits (insideLoop_spec span) (fun _ => rfl) fun _ _ _ => .break span (.nil _)
  | «continue» span =>
    intro before awaits
    rw [statement]
    exact plain_spec awaits (insideLoop_spec span) (fun _ => rfl)
      fun _ _ _ => .continue span (.nil _)
  | empty span =>
    intro before awaits
    have nothing : Spec nothing before (pure ()) (Sure before fun _ _ => True) := Sure.pure trivial
    rw [statement, ← pure_bind () fun _ => pure (Stmt.empty span)]
    exact plain_spec awaits nothing (fun _ => rfl) fun _ _ _ => .empty span (.nil _)

end Check

end FragmentCompiler
