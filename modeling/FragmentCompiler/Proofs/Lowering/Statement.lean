import FragmentCompiler.Proofs.Lowering.Expression

/-!
# Typed statements and functions have code

The slots of the visible variables hold values of their types, so the code of typed
statements is typed in the layout of their scope.
-/

set_option autoImplicit false

namespace FragmentCompiler

open List Lower

variable {known : Declarations} {scope : Scope}

theorem Ty.IsValue.kind_ne_invalid {type} (isValue : type.IsValue) :
    ValueKind.ofType type ≠ .invalid := by
  cases type <;> simp_all [Ty.IsValue, ValueKind.ofType]

/-! ## Statements -/

/-- Statements have code, the same under every later table that keeps the variables
`ids`. -/
inductive Stmt.LowerTo (known : Declarations) (ids : List DeclId) :
    List Stmt → List Instruction → Prop
  | nil : LowerTo known ids [] []
  | cons {stmt : Stmt} {code : Instruction} {rest : List Stmt} {codes : List Instruction}
      (first : ∀ decls, known.Agrees decls ids → (statement decls stmt).Yields code)
      (others : LowerTo known ids rest codes) : LowerTo known ids (stmt :: rest) (code :: codes)

variable {statements : List Stmt}

theorem Stmt.LowerTo.yields {ids codes decls} (lower : Stmt.LowerTo known ids statements codes)
    (agrees : known.Agrees decls ids) : (Lower.statements decls statements).Yields codes := by
  induction lower with
  | nil =>
    rw [Lower.statements]
    exact .pure _
  | cons first _ ih =>
    rw [Lower.statements]
    exact (first decls agrees).bind (ih.bind (.pure _))

/-- A scope and the kinds of the slots in it; the slots from the next one on are free. -/
structure Scope.Laid (known : Declarations) (scope : Scope) (layout : Layout) : Prop where
  visible : known.Laid scope.visible layout
  free : ∀ index, scope.next ≤ index → layout index = none

theorem Scope.Laid.leave {layout} {inner : Scope} (laid : scope.Laid known layout)
    (grown : scope.next ≤ inner.next) :
    (scope.leave inner).Laid known layout :=
  ⟨laid.visible, fun index above => laid.free index (Nat.le_trans grown above)⟩

theorem Scope.Laid.push {layout data} (laid : scope.Laid known layout) {id : DeclId}
    (isData : known.asVariable id = some data) (isSlot : data.slot = scope.next) :
    (scope.push id).Laid known (layout.set data.slot (.ofType data.type)) where
  visible := by
    intro other member entry isEntry
    unfold Layout.set
    rcases mem_cons.mp member with isId | inScope
    · rw [isId, isData] at isEntry
      cases isEntry
      exact if_pos rfl
    · have known := laid.visible other inScope entry isEntry
      have different : entry.slot ≠ data.slot := by
        intro same
        rw [same, laid.free data.slot (Nat.le_of_eq isSlot.symm)] at known
        cases known
      rw [if_neg different]
      exact known
  free := by
    intro index (above : scope.next + 1 ≤ index)
    unfold Layout.set
    rw [if_neg (by omega)]
    exact laid.free index (Nat.le_of_succ_le above)

theorem Stmt.Sound.next_le {deferrals lookups last} {known : Analysis} {result : Ty}
    (sound : Stmt.Sound known deferrals lookups result scope statements last) :
    scope.next ≤ last.next := by
  induction sound with
  | nil scope => exact Nat.le_refl _
  | block span _ _ ihInside ih => exact Nat.le_trans ihInside ih
  | declare span _ _ ih => exact Nat.le_of_succ_le ih
  | branch span _ _ _ _ _ ihYes ihNo ih => exact Nat.le_trans ihYes (Nat.le_trans ihNo ih)
  | loop span _ _ _ _ ihInside ih => exact Nat.le_trans ihInside ih
  | _ => assumption

open Instruction

def Stmt.Lowers (known : Analysis) (lookups : Prop) (result : Ty) (ids : List DeclId)
    (scope last : Scope) (statements : List Stmt) : Prop :=
  ∃ codes, Stmt.LowerTo known.decls ids statements codes ∧
    LocalStart.Numbered (startsAll codes) scope.next last.next ∧
    (¬ lookups → ∀ (declares : Nat → ValueKind → Prop) (size : Nat),
      (∀ start ∈ startsAll codes, declares start.slot start.kind) → last.next ≤ size →
      ∀ layout, scope.Laid known.decls layout →
        ∃ after, Instruction.Typed known.interface declares size (.ofType result) layout codes after ∧
          last.Laid known.decls after)

namespace Stmt

variable {rest : List Stmt} {inner : Scope} {span : Span}

variable {known : Analysis} {lookups : Prop} {result : Ty} {ids : List DeclId}
  {scope last : Scope}

/-- What is known of code whose variables have the numbers from one scope to another. -/
def Spans (known : Analysis) (lookups : Prop) (scope last : Scope) (starts : List LocalStart)
    (typed : (Nat → ValueKind → Prop) → Nat → Layout → Prop) : Prop :=
  LocalStart.Numbered starts scope.next last.next ∧
    (¬ lookups → ∀ (declares : Nat → ValueKind → Prop) (size : Nat),
      (∀ start ∈ starts, declares start.slot start.kind) → last.next ≤ size →
      ∀ layout, scope.Laid known.decls layout → typed declares size layout)

section

variable {typed typed' : (Nat → ValueKind → Prop) → Nat → Layout → Prop}

theorem Spans.imp {begun} (spans : Spans known lookups scope last begun typed)
    (implies : ¬ lookups → ∀ {declares size layout}, scope.Laid known.decls layout →
      typed declares size layout → typed' declares size layout) :
    Spans known lookups scope last begun typed' :=
  ⟨spans.1, fun static _ _ declared room _ laid =>
    implies static laid (spans.2 static _ _ declared room _ laid)⟩

theorem Spans.append {begun begun'} (first : Spans known lookups scope inner begun typed)
    (grown : scope.next ≤ inner.next) (grownLast : inner.next ≤ last.next)
    (second : Spans known lookups (scope.leave inner) last begun' typed') :
    Spans known lookups scope last (begun ++ begun') fun declares size layout =>
      typed declares size layout ∧ typed' declares size layout := by
  refine ⟨first.1.append grown grownLast second.1, fun static _ _ declared room _ laid => ?_⟩
  obtain ⟨declared, declared'⟩ := forall_mem_append.mp declared
  exact ⟨first.2 static _ _ declared (Nat.le_trans grownLast room) _ laid,
    second.2 static _ _ declared' room _ (laid.leave grown)⟩

end

theorem Lowers.plain {stmt} (others : Stmt.Lowers known lookups result ids scope last rest)
    (code : Instruction)
    (first : ∀ decls, known.decls.Agrees decls ids → (statement decls stmt).Yields code)
    (bare : code.starts = [])
    (typed : ¬ lookups → ∀ {declares : Nat → ValueKind → Prop} {size : Nat} {layout after : Layout}
      {codes : List Instruction}, scope.Laid known.decls layout →
      Instruction.Typed known.interface declares size (.ofType result) layout codes after →
      Instruction.Typed known.interface declares size (.ofType result) layout (code :: codes)
        after) :
    Stmt.Lowers known lookups result ids scope last (stmt :: rest) := by
  obtain ⟨codes, lower, spans⟩ := others
  refine ⟨code :: codes, .cons first lower, ?_⟩
  rw [startsAll, bare]
  exact Spans.imp spans fun static _ _ _ laid ⟨after, othersTyped, laidAfter⟩ =>
    ⟨after, typed static laid othersTyped, laidAfter⟩

theorem block_lowers {body} (grown : scope.next ≤ inner.next) (grownLast : inner.next ≤ last.next)
    (inside : Stmt.Lowers known lookups result ids scope inner body)
    (others : Stmt.Lowers known lookups result ids (scope.leave inner) last rest) :
    Stmt.Lowers known lookups result ids scope last (.block span body :: rest) := by
  obtain ⟨codes, lower, spans⟩ := inside
  obtain ⟨codes', lower', spans'⟩ := others
  refine ⟨.sequence codes :: codes', .cons (fun decls agrees => ?_) lower',
    (Spans.append spans grown grownLast spans').imp ?_⟩
  · rw [statement]
    exact (lower.yields agrees).bind (.pure _)
  · rintro - _ _ _ - ⟨⟨_, insideTyped, _⟩, after, othersTyped, laidAfter⟩
    exact ⟨after, .sequence insideTyped othersTyped, laidAfter⟩

theorem initial_lowers {visible} {data : Variable} (initial : ∀ value, data.initial = some value →
      value.Sound known False lookups visible ∧ value.type = data.type) :
    ∃ code, (∀ decls, known.decls.Agrees decls visible →
        (optional decls data.initial).Yields code) ∧
      (¬ lookups → ∀ layout, known.decls.Laid visible layout → ∀ value, code = some value →
        value.Typed known.interface layout (.ofType data.type)) := by
  cases isInitial : data.initial with
  | none => exact ⟨none, fun _ _ => .pure _, by simp⟩
  | some value =>
    obtain ⟨sound, isType⟩ := initial value isInitial
    obtain ⟨code, yields, typed⟩ := sound.lowers
    refine ⟨some code, fun decls agrees => (yields decls agrees).map some,
      fun static layout laid other isOther => ?_⟩
    cases isOther
    rw [← isType]
    exact typed static layout laid

theorem declare_inversion {more codes}
    (lower : Stmt.LowerTo known.decls ids (.declare span more :: rest) codes) :
    ∃ starts others, codes = .locals starts :: others ∧
      (∀ decls, known.decls.Agrees decls ids → (locals decls more).Yields starts) ∧
      Stmt.LowerTo known.decls ids rest others := by
  cases lower with
  | @cons _ code _ others first lower =>
    have run : ∀ decls, known.decls.Agrees decls ids → ∀ reports,
        (.locals (locals decls more reports).1,
          (locals decls more reports).2) = (code, reports) := by
      intro decls agrees reports
      have yields := first decls agrees reports
      rw [statement] at yields
      exact yields
    have isCode : .locals (locals known.decls more #[]).1 = code :=
      congrArg Prod.fst (run known.decls (.refl _ _) #[])
    refine ⟨(locals known.decls more #[]).1, others, by rw [← isCode], ?_, lower⟩
    intro decls agrees reports
    have isStarts : .locals (locals decls more reports).1 = code :=
      congrArg Prod.fst (run decls agrees reports)
    have isReports : (locals decls more reports).2 = reports :=
      congrArg Prod.snd (run decls agrees reports)
    exact Prod.ext (Instruction.locals.inj (isStarts.trans isCode.symm)) isReports

theorem declare_lowers {data more} {id : DeclId} (seen : ∀ other ∈ scope.visible, other ∈ ids)
    (isOwn : id ∈ ids) (starts : Declarations.Starts known False lookups scope id data)
    (grown : (scope.push id).next ≤ last.next)
    (others : Stmt.Lowers known lookups result ids (scope.push id) last
      (.declare span more :: rest)) :
    Stmt.Lowers known lookups result ids scope last (.declare span (id :: more) :: rest) := by
  obtain ⟨codes, lower, numbered, codesTyped⟩ := others
  obtain ⟨begun, restCodes, isCodes, yieldsMore, lowerRest⟩ := declare_inversion lower
  obtain ⟨initial, yieldsInitial, initialTyped⟩ := initial_lowers starts.initial
  subst isCodes
  have notGlobal : data.storage ≠ .global := by simp [starts.isLocal]
  refine ⟨.locals (⟨data.slot, .ofType data.type, initial⟩ :: begun) :: restCodes,
    .cons (fun decls agrees => ?_) lowerRest, ?_,
    fun static declares size declared room layout laid => ?_⟩
  · have isLater : decls.asVariable id = some data :=
      (Declarations.asVariable_congr (agrees.same id isOwn)).trans starts.isData
    rw [statement, Lower.locals]
    simp only [isLater, if_neg notGlobal]
    refine .bind ?_ (.pure _)
    exact (yieldsInitial decls (agrees.mono seen)).bind
      ((yieldsMore decls agrees).bind (.pure _))
  · rw [← starts.slot]
    have later : (scope.push id).next = data.slot + 1 := by rw [starts.slot]; rfl
    rw [later] at numbered grown
    exact .cons grown starts.type.kind_ne_invalid numbered
  · have laidPush := laid.push starts.isData starts.slot
    obtain ⟨after, othersTyped, laidAfter⟩ := codesTyped static declares size
      (fun start member => declared start (mem_cons_of_mem _ member)) room _ laidPush
    refine ⟨after, .start ?_ ?_ ?_ ?_ othersTyped, laidAfter⟩
    · exact laid.free _ (Nat.le_of_eq starts.slot.symm)
    · show data.slot < size
      rw [starts.slot]
      exact Nat.lt_of_lt_of_le (Nat.lt_succ_self _) (Nat.le_trans grown room)
    · exact declared _ mem_cons_self
    · exact initialTyped static layout laid.visible

/-- A statement that is lowered by itself. -/
def Alone (known : Analysis) (lookups : Prop) (result : Ty) (ids : List DeclId)
    (scope inner : Scope) (lower : Declarations → Lower Instruction) : Prop :=
  ∃ code, (∀ decls, known.decls.Agrees decls ids → (lower decls).Yields code) ∧
    Spans known lookups scope inner code.starts fun declares size layout => ∃ after,
      Instruction.Typed known.interface declares size (.ofType result) layout [code] after

theorem Lowers.single {stmt} (lowers : Stmt.Lowers known lookups result ids scope inner [stmt]) :
    Alone known lookups result ids scope inner (statement · stmt) := by
  obtain ⟨codes, lower, spans⟩ := lowers
  cases lower with
  | @cons _ code _ _ first others =>
    cases others
    rw [startsAll, startsAll, append_nil] at spans
    exact ⟨code, first, Spans.imp spans fun _ _ _ _ _ ⟨after, typed, _⟩ => ⟨after, typed⟩⟩

theorem otherwise_lowers {no}
    (lowers : Stmt.Lowers known lookups result ids scope inner no.toList) :
    Alone known lookups result ids scope inner (otherwise · no) := by
  cases no with
  | none =>
    obtain ⟨codes, lower, spans⟩ := lowers
    cases lower
    refine ⟨.nothing, fun decls _ => ?_,
      Spans.imp spans fun _ _ _ layout _ _ => ⟨layout, .nothing (.nil _)⟩⟩
    simp only [otherwise]
    exact .pure _
  | some stmt =>
    obtain ⟨code, yields, spans⟩ := Lowers.single lowers
    refine ⟨code, fun decls agrees => ?_, spans⟩
    simp only [otherwise]
    exact yields decls agrees

theorem branch_lowers {first yes second test no} (seen : ∀ other ∈ scope.visible, other ∈ ids)
    (tested : test.Sound known False lookups scope.visible) (isTest : test.type = .bool)
    (grownFirst : scope.next ≤ first.next) (grownSecond : first.next ≤ second.next)
    (grownLast : second.next ≤ last.next)
    (chosen : Stmt.Lowers known lookups result ids scope first [yes])
    (otherwise : Stmt.Lowers known lookups result ids (scope.leave first) second no.toList)
    (others : Stmt.Lowers known lookups result ids (scope.leave second) last rest) :
    Stmt.Lowers known lookups result ids scope last (.branch span test yes no :: rest) := by
  obtain ⟨testCode, yieldsTest, testTyped⟩ := tested.lowers
  obtain ⟨yesCode, yieldsYes, spansYes⟩ := Lowers.single chosen
  obtain ⟨noCode, yieldsNo, spansNo⟩ := otherwise_lowers otherwise
  obtain ⟨codes, lower, spans⟩ := others
  rw [isTest] at testTyped
  refine ⟨.branch span test.span testCode yesCode noCode :: codes,
    .cons (fun decls agrees => ?_) lower, ((spansYes.append grownFirst grownSecond spansNo).append
      (Nat.le_trans grownFirst grownSecond) grownLast spans).imp ?_⟩
  · rw [statement]
    exact (yieldsTest decls (agrees.mono seen)).bind ((yieldsYes decls agrees).bind
      ((yieldsNo decls agrees).bind (.pure _)))
  · rintro static _ _ layout laid ⟨⟨⟨_, yesRuns⟩, _, noRuns⟩, after, othersRun, laidAfter⟩
    exact ⟨after, .branch span _ (testTyped static layout laid.visible) yesRuns noRuns othersRun,
      laidAfter⟩

theorem loop_lowers {body test} (seen : ∀ other ∈ scope.visible, other ∈ ids)
    (tested : test.Sound known False lookups scope.visible) (isTest : test.type = .bool)
    (grown : scope.next ≤ inner.next) (grownLast : inner.next ≤ last.next)
    (inside : Stmt.Lowers known lookups result ids scope inner [body])
    (others : Stmt.Lowers known lookups result ids (scope.leave inner) last rest) :
    Stmt.Lowers known lookups result ids scope last (.loop span test body :: rest) := by
  obtain ⟨testCode, yieldsTest, testTyped⟩ := tested.lowers
  obtain ⟨bodyCode, yieldsBody, spansBody⟩ := Lowers.single inside
  obtain ⟨codes, lower, spans⟩ := others
  rw [isTest] at testTyped
  refine ⟨.loop span test.span testCode bodyCode :: codes,
    .cons (fun decls agrees => ?_) lower, (spansBody.append grown grownLast spans).imp ?_⟩
  · rw [statement]
    exact (yieldsTest decls (agrees.mono seen)).bind
      ((yieldsBody decls agrees).bind (.pure _))
  · rintro static _ _ layout laid ⟨⟨_, bodyRuns⟩, after, othersRun, laidAfter⟩
    exact ⟨after, .loop span _ (testTyped static layout laid.visible) bodyRuns othersRun, laidAfter⟩

theorem Sound.lowers (sound : Stmt.Sound known False lookups result scope statements last)
    (seen : ∀ id ∈ scope.visible, id ∈ ids) (made : ∀ id ∈ Stmt.declaredAll statements, id ∈ ids) :
    Stmt.Lowers known lookups result ids scope last statements := by
  induction sound with
  | nil scope => exact ⟨[], .nil, .nil _, fun _ _ _ _ _ layout laid => ⟨layout, .nil _, laid⟩⟩
  | block span inside others ihInside ihOthers =>
    obtain ⟨madeInside, madeOthers⟩ := forall_mem_append.mp made
    exact block_lowers inside.next_le others.next_le (ihInside seen madeInside)
      (ihOthers seen madeOthers)
  | declared span _ ih =>
    refine (ih seen made).plain (.locals []) (fun decls _ => ?_) rfl
      fun _ _ _ _ _ _ _ typed => .started typed
    rw [statement, Lower.locals]
    exact .pure _
  | declare span starts others ih =>
    obtain ⟨isOwn, made⟩ := forall_mem_cons.mp made
    exact declare_lowers seen isOwn starts others.next_le
      (ih (forall_mem_cons.mpr ⟨isOwn, seen⟩) made)
  | expression span unterminated inside _ ih =>
    obtain ⟨code, yields, codeTyped⟩ := inside.lowers
    refine (ih seen made).plain (.evaluate span code) (fun decls agrees => ?_) rfl
      fun static _ _ _ _ _ laid typed => .evaluate span (codeTyped static _ laid.visible) typed
    rw [statement]
    exact (yields decls (agrees.mono seen)).bind (.pure _)
  | branch span tested isTest chosen otherwise others ihYes ihNo ih =>
    rw [Stmt.declaredAll_branch, forall_mem_append, forall_mem_append] at made
    exact branch_lowers seen tested isTest chosen.next_le otherwise.next_le others.next_le
      (ihYes seen made.1) (ihNo seen made.2.1) (ih seen made.2.2)
  | loop span tested isTest inside others ihInside ih =>
    rw [Stmt.declaredAll_loop, forall_mem_append] at made
    exact loop_lowers seen tested isTest inside.next_le others.next_le (ihInside seen made.1)
      (ih seen made.2)
  | «return» span _ _ ih =>
    refine (ih seen made).plain (.return) (fun decls _ => ?_) rfl
      fun _ _ _ _ _ _ _ typed => .return typed
    rw [statement]
    exact .pure _
  | returnValue span inside fits _ _ ih =>
    obtain ⟨code, yields, codeTyped⟩ := inside.lowers
    refine (ih seen made).plain (.returnValue span code) (fun decls agrees => ?_) rfl
      fun static _ _ _ _ _ laid typed => .returnValue span ?_ typed
    · rw [statement]
      exact (yields decls (agrees.mono seen)).bind (.pure _)
    · rw [← fits]
      exact codeTyped static _ laid.visible
  | «break» span _ ih =>
    refine (ih seen made).plain (.break) (fun decls _ => ?_) rfl
      fun _ _ _ _ _ _ _ typed => .break typed
    rw [statement]
    exact .pure _
  | «continue» span _ ih =>
    refine (ih seen made).plain (.continue) (fun decls _ => ?_) rfl
      fun _ _ _ _ _ _ _ typed => .continue typed
    rw [statement]
    exact .pure _
  | empty span _ ih =>
    refine (ih seen made).plain (.nothing) (fun decls _ => ?_) rfl
      fun _ _ _ _ _ _ _ typed => .nothing typed
    rw [statement]
    exact .pure _

end Stmt

/-! ## Functions -/

namespace Function

variable {deferrals : Prop}

variable {known : Analysis} {lookups : Prop} {data : Function}

def kinds (data : Function) (decls : Declarations) : List ValueKind :=
  data.parameters.filterMap fun id =>
    (decls.asVariable id).map fun parameter => ValueKind.ofType parameter.type

theorem kinds_eq {decls} {types : List Ty}
    (isTypes : data.parameters.map (fun id => (decls.asVariable id).map Variable.type) =
      types.map some) : data.kinds decls = types.map ValueKind.ofType := by
  unfold kinds
  generalize data.parameters = parameters at isTypes
  induction parameters generalizing types with
  | nil =>
    cases types with
    | nil => rfl
    | cons type rest => cases isTypes
  | cons id parameters ih =>
    cases types with
    | nil => cases isTypes
    | cons type rest =>
      simp only [map_cons, List.cons.injEq] at isTypes
      obtain ⟨entry, isEntry, isType⟩ := Option.map_eq_some_iff.mp isTypes.1
      simp only [filterMap_cons, isEntry, Option.map_some, ih isTypes.2, isType,
        map_cons]

section

variable (sound : data.Sound known deferrals lookups)

include sound

theorem Sound.exists_types :
    ∃ types : List Ty, data.parameters.map
      (fun id => (known.decls.asVariable id).map Variable.type) = types.map some := by
  obtain ⟨types, isTypes, _⟩ := Declarations.exists_types fun id member => by
    obtain ⟨index, isId⟩ := getElem?_of_mem member
    obtain ⟨entry, isEntry, _⟩ := sound.parameters index id isId
    exact ⟨entry, isEntry⟩
  exact ⟨types, isTypes⟩

theorem Sound.laid : data.scope.Laid known.decls (.ofParameters (data.kinds known.decls)) := by
  obtain ⟨types, isTypes⟩ := sound.exists_types
  have length : types.length = data.parameters.length := by
    have same := congrArg List.length isTypes
    simpa using same.symm
  rw [kinds_eq isTypes]
  refine ⟨fun id member entry isEntry => ?_, fun index above => ?_⟩
  · obtain ⟨index, isId⟩ := getElem?_of_mem (mem_reverse.mp member)
    obtain ⟨entry', isEntry', _, isSlot, _⟩ := sound.parameters index id isId
    rw [isEntry] at isEntry'
    cases isEntry'
    have place := congrArg (fun list => list[index]?) isTypes
    simp only [getElem?_map, isId, Option.map_some, isEntry] at place
    rw [isSlot]
    show (types.map ValueKind.ofType)[index]? = _
    cases isType : types[index]? with
    | none => rw [isType] at place; cases place
    | some type =>
      rw [isType] at place
      cases place
      simp [isType]
  · show (types.map ValueKind.ofType)[index]? = none
    have above : data.parameters.length ≤ index := above
    rw [List.getElem?_eq_none_iff, length_map, length]
    exact above

theorem Sound.kinds_valid : ∀ kind ∈ data.kinds known.decls, kind ≠ .invalid := by
  intro kind member
  obtain ⟨id, isParameter, isKind⟩ := mem_filterMap.mp member
  obtain ⟨index, isId⟩ := getElem?_of_mem isParameter
  obtain ⟨entry, isEntry, _, _, isValue⟩ := sound.parameters index id isId
  rw [isEntry] at isKind
  cases isKind
  exact isValue.kind_ne_invalid

theorem Sound.kinds_length : (data.kinds known.decls).length = data.parameters.length := by
  obtain ⟨types, isTypes⟩ := sound.exists_types
  have length := congrArg List.length isTypes
  simp only [length_map] at length
  rw [kinds_eq isTypes, length_map, ← length]

end

theorem slots_apart {first last slot other kind} {code : LoweredFunction} {body : Instruction}
    (isBody : code.body = body) (numbered : LocalStart.Numbered body.starts first last)
    (length : code.parameters.length = first) (left : code.Declares slot kind)
    (right : code.Declares slot other) : kind = other := by
  subst isBody
  have apart : ∀ {kind : ValueKind} {start : LocalStart}, code.parameters[start.slot]? = some kind →
      start ∉ code.body.starts := by
    intro kind start isKind member
    have below := (List.getElem?_eq_some_iff.mp isKind).1
    have above := numbered.le member
    omega
  rcases left with isLeft | ⟨start, member, rfl, rfl⟩
  · rcases right with isRight | ⟨start, member, rfl, rfl⟩
    · exact Option.some.inj (isLeft.symm.trans isRight)
    · exact absurd member (apart isLeft)
  · rcases right with isRight | ⟨start', member', same, rfl⟩
    · exact absurd member (apart isRight)
    · rw [numbered.eq_of_slot member member' same.symm]

theorem Sound.lowers (sound : data.Sound known False lookups) (decl : Decl) {statement : Stmt}
    (isBody : data.body = some statement) :
    ∃ code, (∀ decls, known.decls.Agrees decls data.owned →
        (function decls decl data statement).Yields code) ∧
      code.name = decl.name ∧ code.parameters = data.kinds known.decls ∧
      code.result = .ofType data.result ∧ (¬ lookups → code.Typed known.interface) := by
  obtain ⟨span, body, last, isBlock, inside, isFrame⟩ := sound.body statement isBody
  have isOwned : data.owned = data.parameters ++ Stmt.declaredAll body := by
    unfold Function.owned
    rw [isBody, isBlock]
    rfl
  obtain ⟨codes, lower, numbered, typed⟩ := inside.lowers
    (fun id member => isOwned ▸ mem_append_left _ (mem_reverse.mp member))
    (fun id member => isOwned ▸ mem_append_right _ member)
  refine ⟨⟨decl.name, data.kinds known.decls, .ofType data.result, data.frame, .sequence codes,
    decl.span⟩, fun decls agrees => ?_, rfl, rfl, rfl, fun static => ⟨?_, ?_, ?_⟩⟩
  · have sameKinds : data.kinds decls = data.kinds known.decls := by
      obtain ⟨types, isTypes⟩ := sound.exists_types
      rw [kinds_eq isTypes,
        kinds_eq (Declarations.parameterTypes_extends agrees.grown _ _ isTypes)]
    have yieldsBody : (Lower.statement decls (.block span body)).Yields (.sequence codes) := by
      rw [Lower.statement]
      exact (lower.yields agrees).bind (.pure _)
    rw [isBlock, ← sameKinds]
    exact yieldsBody.bind (.pure _)
  · intro slot kind other left right
    have inBody : LocalStart.Numbered (Instruction.sequence codes).starts _ _ := numbered
    exact slots_apart rfl inBody sound.kinds_length left right
  · rintro slot kind (isKind | ⟨start, member, _, rfl⟩)
    · exact sound.kinds_valid kind (mem_of_getElem? isKind)
    · exact numbered.valid start member
  · have declares : ∀ start ∈ startsAll codes, LoweredFunction.Declares
        ⟨decl.name, data.kinds known.decls, .ofType data.result, data.frame, .sequence codes,
          decl.span⟩ start.slot start.kind :=
      fun start member => .inr ⟨start, member, rfl, rfl⟩
    obtain ⟨after, runs, _⟩ := typed static _ data.frame declares (Nat.le_of_eq isFrame.symm) _
      sound.laid
    exact ⟨_, .sequence runs (.nil _)⟩

end Function

end FragmentCompiler
