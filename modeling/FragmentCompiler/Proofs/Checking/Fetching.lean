import FragmentCompiler.Proofs.Checking.Declaration

/-!
# Fetched declarations are accepted

An unknown name is looked up in the archive.  Its text is read and checked like any
other declaration, in the middle of checking the one that uses the name, so fetching
nests.  What was fetched has larger numbers than everything that was there before.
-/

set_option autoImplicit false

namespace FragmentCompiler

open List

variable {base id : DeclId} {decls : Declarations}

/-! ## Declared variables -/

def Declarations.IsStarted (decls : Declarations) (id : DeclId) : Prop :=
  ∃ decl data, decls.get? id = some decl ∧ decl.invalid = false ∧ decl.body = .variable data ∧
    data.storage = .local ∧ data.type.IsValue

theorem Declarations.IsStarted.isLocal
    (started : decls.IsStarted id) : ∃ type, decls.IsLocal id type := by
  obtain ⟨decl, data, found, _, body, isLocal, isValue⟩ := started
  exact ⟨data.type, data, asVariable_of_get? found body, by simp [isLocal], rfl, isValue⟩

theorem Stmt.Sound.declared_isStarted {known deferrals lookups result scope statements last}
    (sound : Stmt.Sound known deferrals lookups result scope statements last) :
    ∀ id ∈ Stmt.declaredAll statements, known.decls.IsStarted id := by
  induction sound with
  | nil scope => simp [Stmt.declaredAll]
  | block span _ _ ihInside ihOthers =>
    exact forall_mem_append.mpr ⟨ihInside, ihOthers⟩
  | declare span starts _ ih =>
    obtain ⟨decl, found, valid, body⟩ := starts.entry
    exact forall_mem_cons.mpr ⟨⟨decl, _, found, valid, body, starts.isLocal, starts.type⟩, ih⟩
  | branch span _ _ _ _ _ ihYes ihNo ih =>
    rw [Stmt.declaredAll_branch, forall_mem_append, forall_mem_append]
    exact ⟨ihYes, ihNo, ih⟩
  | loop span _ _ _ _ ihInside ih =>
    rw [Stmt.declaredAll_loop, forall_mem_append]
    exact ⟨ihInside, ih⟩
  | _ => assumption

theorem Declarations.RawRoot.family_le (raw : decls.RawRoot base id) :
    ∀ other, decls.Family id other → other ≤ id := by
  intro other family
  rcases family with isId | isOwned
  · exact Nat.le_of_eq isId
  · exact Nat.le_of_lt (raw.owned_below other isOwned)

/-- The numbers of declarations at top level and those they own. -/
def Declarations.Families (decls : Declarations) (group : Group) (other : DeclId) : Prop :=
  ∃ id ∈ group, decls.Family id other

/-- A number stands for a declaration with an error. -/
def Declarations.IsInvalid (decls : Declarations) (id : DeclId) : Prop :=
  ∃ decl, decls.get? id = some decl ∧ decl.invalid = true

variable {change : Decl → Decl}

theorem Declarations.owned_modify (same : ∀ decl, (change decl).body = decl.body) (other : DeclId) :
    (decls.modify id change).owned other = decls.owned other := by
  by_cases isId : other = id
  · unfold owned asFunction
    rw [isId, get?_modify_self]
    cases decls.get? id with
    | none => rfl
    | some decl => simp [Decl.asFunction, same]
  · exact owned_congr (get?_modify_of_ne decls change isId)

theorem Declarations.RawRoot.family_above
    (raw : decls.RawRoot base id) : ∀ other, decls.Family id other → base < other := by
  intro other family
  rcases family with rfl | isOwned
  · exact raw.1
  · obtain ⟨_, isRaw, member⟩ := raw.mem_owned isOwned
    exact isRaw.above other member

theorem Declarations.RawRoot.no_function {other} (raw : decls.RawRoot base id)
    (family : decls.Family id other) :
    other = id ∨ ∃ decl, decls.get? other = some decl ∧ ∀ data, decl.body ≠ .function data := by
  refine family.imp_right fun isOwned => ?_
  obtain ⟨_, isRaw, member⟩ := raw.mem_owned isOwned
  exact Check.Function.Raw.no_function isRaw member

theorem Declarations.RawGroup.above {group} (raw : decls.RawGroup base group) :
    ∀ id ∈ group, ∀ other, decls.Family id other → base < other ∧ other ≤ decls.count := by
  induction raw with
  | nil base => simp
  | @cons base first rest root _ ih =>
    intro id member other family
    rcases mem_cons.mp member with isFirst | inRest
    · rw [isFirst] at family
      exact ⟨root.family_above other family,
        Nat.le_trans (root.family_le other family) root.le_count⟩
    · obtain ⟨above, below⟩ := ih id inRest other family
      exact ⟨Nat.lt_trans root.1 above, below⟩

theorem Declarations.RawRoot.modify (raw : decls.RawRoot base id)
    (same : ∀ decl, decl.SameHead (change decl) ∧ (change decl).body = decl.body)
    (valid : ∀ decl, (change decl).invalid = decl.invalid) :
    (decls.modify id change).RawRoot base id := by
  obtain ⟨above, decl, found, isValid, body⟩ := raw
  refine ⟨above, change decl, ?_, (valid decl).trans isValid, ?_⟩
  · rw [get?_modify_self, found]
    rfl
  · rw [(same decl).2]
    exact body.congr (Nat.le_refl _) fun other _ less =>
      get?_modify_of_ne decls change (Nat.ne_of_lt less)

namespace Analysis

variable {analysis before known : Analysis} {id : DeclId} {base : Nat} {deferrals lookups : Prop}

open Declarations

theorem Accepted.owned_isLocal (accepted : known.Accepted deferrals lookups base id) :
    ∀ other ∈ known.decls.owned id, ∃ type, known.decls.IsLocal other type := by
  obtain ⟨decl, found, _, sound⟩ := accepted.valid
  rw [owned_of_get? found]
  have function : ∀ {data : Function}, data.Sound known deferrals lookups →
      ∀ other ∈ data.owned, ∃ type, known.decls.IsLocal other type := by
    intro data sound other member
    rcases mem_append.mp member with inParameters | inBody
    · obtain ⟨index, isOther⟩ := getElem?_of_mem inParameters
      obtain ⟨entry, isEntry, isParameter, _, isValue⟩ := sound.parameters index other isOther
      exact ⟨_, entry, isEntry, by simp [isParameter], rfl, isValue⟩
    · cases isBody : data.body with
      | none =>
        rw [isBody] at inBody
        exact absurd inBody not_mem_nil
      | some statement =>
        obtain ⟨span, body, after, isBlock, inside, _⟩ := sound.body statement isBody
        rw [isBody, isBlock] at inBody
        exact (inside.declared_isStarted other inBody).isLocal
  generalize decl.body = body at sound
  cases sound with
  | «variable» _ _ _ => exact fun other member => absurd member not_mem_nil
  | function sound => exact function sound
  | wrapper sound _ _ _ => exact function sound

variable {name : Text}

theorem Accepted.names_root {meaning} (named : known.Named)
    (accepted : known.Accepted deferrals lookups base id)
    (isKnown : known.names.lookup name = some meaning) (family : known.decls.Family id meaning.decl) :
    meaning.decl = id := by
  rcases family with isId | isOwned
  · exact isId
  · obtain ⟨type, data, isData, notGlobal, _⟩ := accepted.owned_isLocal _ isOwned
    obtain ⟨decl, found, body⟩ := asVariable_eq_some.mp isData
    have suits := named name meaning isKnown
    cases meaning with
    | «variable» other =>
      obtain ⟨decl', data', found', _, body', isGlobal, _⟩ := suits
      cases isData.symm.trans (asVariable_of_get? found' body')
      exact absurd isGlobal notGlobal
    | function other =>
      obtain ⟨_, _, _, ⟨decl', data', found', body', _⟩, _⟩ := suits
      cases found.symm.trans found'
      simp [body'] at body
    | builtin which =>
      exact absurd (accepted.above 0 (.inr isOwned)) (Nat.not_lt_zero _)

/-! ## One declaration -/

/-- What checking a declaration that nobody has checked yet ensures. -/
structure DeclChecked (before : Analysis) (base id : DeclId) (fine : Bool) (after : Analysis) :
    Prop where
  evolves : ∃ fetched reports, before.EvolvesBy (before.decls.Family id) fetched reports after ∧
    (fine = false → ∃ entry ∈ reports, entry.isError = true)
  owned : after.decls.owned id = before.decls.owned id
  named : fine = true → ∀ decl, before.decls.get? id = some decl →
    before.names.lookup decl.name = none → (∀ data, decl.body ≠ .wrapper data) →
    ∃ meaning, after.names.lookup decl.name = some meaning ∧ meaning.decl = id
  imports : after.Imports before
  accepted : fine = true → after.Accepted after.Defers False base id
  invalid : fine = false → after.decls.IsInvalid id

/-- Changing what is noted about a declaration of `own`. -/
theorem modify_evolves (ready : analysis.Ready) (own : DeclId → Prop) (isOwn : own id)
    (same : ∀ decl, decl.SameHead (change decl) ∧ (change decl).body = decl.body) :
    analysis.EvolvesBy own [] [] (analysis.updateDecls fun decls => decls.modify id change) :=
  updateDecls_evolves ready (count_modify _ _ _)
    (fun other strange => Declarations.get?_modify_of_ne _ _ fun isId => strange (isId ▸ isOwn))
    (extends_modify _ _ _ fun decl _ => (same decl).1)
    (ready.grounded.modify fun decl found => by
      rw [(same decl).2]
      exact ready.grounded id decl found)

theorem checkDecl_checked {fetch} (ready : analysis.Ready) (good : fetch.Good analysis)
    (raw : analysis.decls.RawRoot base id) :
    analysis.DeclChecked base id (analysis.checkDecl fetch id).1 (analysis.checkDecl fetch id).2 := by
  have bounded : ∀ other, analysis.decls.Family id other → other ≤ analysis.decls.count :=
    fun other family => Nat.le_trans (raw.family_le other family) raw.le_count
  have spec : Check.Spec (analysis.decls.Family id) { analysis } (.declaration fetch id)
      fun _ after => Check.Settles { analysis } base id after ∧ after.analysis.Imports analysis :=
    Check.declaration_spec good rfl raw
  obtain ⟨moves, settles, imports⟩ := spec ready bounded
  unfold checkDecl
  generalize Check.declaration fetch id { analysis } = run at moves settles imports
  obtain ⟨_, checker⟩ := run
  dsimp only at moves settles imports ⊢
  obtain ⟨fetched, reports, evolves, counted⟩ := moves.evolves
  by_cases fine : checker.errors = 0
  · rw [if_pos fine]
    exact ⟨⟨fetched, reports, evolves, by simp⟩, settles.owned, fun _ => settles.named fine,
      imports, fun _ => settles.accepted fine, by simp⟩
  · rw [if_neg fine]
    have noted : ∀ decl : Decl, decl.SameHead { decl with invalid := true } ∧
        ({ decl with invalid := true } : Decl).body = decl.body :=
      fun decl => ⟨⟨rfl, DeclBody.SameHead.refl _, fun isExternal => isExternal⟩, rfl⟩
    have marked := modify_evolves evolves.ready (analysis.decls.Family id) (.inl rfl) noted
    refine ⟨⟨_, _, evolves.trans marked bounded, fun _ => ?_⟩, ?_, by simp,
      fun other (member : other ∈ checker.analysis.fetched.drop _) => ?_, by simp, fun _ => ?_⟩
    · rw [append_nil]
      exact counted (Nat.pos_of_ne_zero fine)
    · exact (owned_modify (fun decl => (noted decl).2) id).trans settles.owned
    · obtain ⟨decl, meaning, found, rest⟩ := imports other member
      have isFetched : checker.analysis.fetched = analysis.fetched ++ fetched := evolves.isFetched
      rw [show Analysis.fetched _ = _ from isFetched, drop_left] at member
      have above := (evolves.accepted.each other member).above other (.inl rfl)
      have different : other ≠ id := Nat.ne_of_gt (Nat.lt_of_le_of_lt raw.le_count above)
      exact ⟨decl, meaning, (Declarations.get?_modify_of_ne _ _ different).trans found, rest⟩
    · obtain ⟨_, decl, found, _⟩ := raw
      obtain ⟨decl', found', _⟩ := evolves.learns.decls id decl found
      exact ⟨{ decl' with invalid := true }, by
        rw [show (checker.analysis.updateDecls _).decls = checker.analysis.decls.modify id _ from rfl,
          Declarations.get?_modify_self, found']
        rfl, rfl⟩

theorem AcceptedAll.lower {ids less} (accepted : known.AcceptedAll deferrals lookups base ids)
    (lower : less ≤ base) : known.AcceptedAll deferrals lookups less ids :=
  ⟨fun id member => (accepted.each id member).extends (.refl known) lower fun _ _ => rfl,
    accepted.apart⟩

theorem AcceptedAll.snoc {middle ids} (all : known.AcceptedAll deferrals lookups middle ids)
    (lower : base ≤ middle) (one : known.Accepted deferrals lookups base id) (below : id ≤ middle) :
    known.AcceptedAll deferrals lookups base (ids ++ [id]) := by
  have alone : known.AcceptedAll deferrals lookups base [id] :=
    ⟨forall_mem_singleton.mpr one, pairwise_singleton _ _⟩
  have both := alone.append all lower <| forall_mem_singleton.mpr <| by
    rintro other (rfl | isOwned)
    · exact below
    · exact Nat.le_trans (Nat.le_of_lt (one.below other isOwned)) below
  have turned : ([id] ++ ids).Perm (ids ++ [id]) := perm_append_comm
  exact ⟨fun other member => both.each other (turned.mem_iff.mpr member),
    (turned.pairwise_iff fun apart other family family' => apart other family' family).mp both.apart⟩

variable {archive : Archive}

/-- Declarations were read and checked in between; `more` of them were accepted. -/
theorem EvolvesBy.acquired {firstReports own secondReports} {read checked : Analysis}
    {fetched : List DeclId} (more : List DeclId)
    (reads : before.EvolvesBy Check.nothing [] firstReports read)
    (checks : read.EvolvesBy own fetched secondReports checked)
    (beyond : ∀ id, own id → before.decls.count < id)
    (accepted : checked.AcceptedAll checked.Defers False before.decls.count (fetched ++ more))
    (names : ∀ name meaning, before.names.lookup name = some meaning →
      checked.names.lookup name = some meaning)
    (imported : ∀ id ∈ fetched ++ more, checked.Imported id ∧
      ∀ decl, checked.decls.get? id = some decl → before.names.lookup decl.name = none)
    (explained : ∀ name meaning, checked.names.lookup name = some meaning → own meaning.decl →
      meaning.decl ∈ more ∨ ∃ entry ∈ secondReports, entry.isError = true) :
    before.EvolvesBy Check.nothing (fetched ++ more) (firstReports ++ secondReports)
      { checked with fetched := checked.fetched ++ more } := by
  have begins : before.EvolvesBy own [] firstReports read := reads.mono fun _ never => never.elim
  have both := begins.append checks (by simp)
  exact { both with
    ready := both.ready.of_same both.ready.lexed rfl rfl
    kept := fun other known _ => both.kept other known fun isOwn =>
      Nat.lt_irrefl _ (Nat.lt_of_lt_of_le (beyond other isOwn) known)
    learns := both.learns.trans (.of_same rfl rfl)
    isFetched := (congrArg (· ++ more) both.isFetched).trans (append_assoc _ _ _)
    accepted := accepted.of_same rfl rfl
    stands := fun name meaning known => .inl (names name meaning known)
    imported := by
      intro id member
      obtain ⟨⟨decl, meaning, found, external, known, isId⟩, fresh⟩ := imported id member
      exact ⟨decl, meaning, found, external, fresh decl found, isId, .inl known⟩
    covered := by
      intro name meaning known
      rcases both.covered name meaning known with old | isOwn | inFetched | reported
      · exact .inl old
      · rcases explained name meaning known isOwn with inMore | ⟨entry, member, isError⟩
        · exact .inr (.inr (.inl (mem_append_right _ inMore)))
        · exact .inr (.inr (.inr ⟨entry, mem_append_right _ member, isError⟩))
      · exact .inr (.inr (.inl (mem_append_left _ inFetched)))
      · exact .inr (.inr (.inr reported)) }

/-! ## The archive -/

theorem parseArchived_takes (lexed : analysis.parser.Lexed) (name source : Text) :
    ∃ parser, (analysis.parseArchived name source).2 = { analysis with parser } ∧
      analysis.parser.Takes parser ∧ parser.inputs = analysis.parser.inputs ∧
      ∀ id, (analysis.parseArchived name source).1 = some id →
        parser.decls.RawRoot analysis.decls.count id ∧ ∃ decl, parser.decls.get? id = some decl ∧
          decl.name = name ∧ ∀ data, decl.body ≠ .wrapper data := by
  unfold parseArchived
  generalize analysis.parser.files.addVirtual ("<snapshot:" ++ name ++ ">") source = made
  obtain ⟨file, files⟩ := made
  have added := Parser.files_takes lexed files
  obtain ⟨takes, raw, plain⟩ := Parser.declarationsOf_takes added.lexed file
  have inputs := Parser.declarationsOf_inputs added.lexed file
  dsimp only
  generalize { analysis.parser with files }.declarationsOf file = run at takes raw plain inputs
  obtain ⟨⟨ids, fine⟩, parser⟩ := run
  dsimp only at takes raw plain inputs ⊢
  refine ⟨parser, ?_, added.trans takes, inputs, fun id isId => ?_⟩
  · split <;> rfl
  · split at isId
    · dsimp only at isId
      split at isId
      · rename_i found
        cases isId
        obtain ⟨decl, isDecl, isPlain⟩ := plain id (mem_singleton.mpr rfl)
        rw [isDecl] at found
        have isName : decl.name = name := by simp_all
        cases raw with
        | cons first _ => exact ⟨first, decl, isDecl, isName, isPlain⟩
      · cases isId
    · cases isId

theorem rejectArchived_evolves {reports}
    (evolves : before.EvolvesBy Check.nothing [] reports analysis)
    (name : Text) (use : Span) (problem : Text) :
    ∃ fetched reports, before.EvolvesBy Check.nothing fetched reports
      (analysis.rejectArchived name use problem) := by
  have text : Code.snapshotDeclaration.number < 4000 := by decide
  exact ⟨_, _, evolves.trans (report_evolves evolves.ready _ _ text)
    fun _ impossible => impossible.elim⟩

theorem acquire_good (ready : analysis.Ready)
    {fetch : Fetch} (good : fetch.Good analysis)
    (unknown : analysis.names.lookup name = none) (use : Span)
    (entry : ArchivedDecl) :
    (∃ fetched reports, analysis.EvolvesBy Check.nothing fetched reports
      (analysis.acquire fetch name use entry).2) ∧
    ∀ meaning, (analysis.acquire fetch name use entry).1 = some meaning →
      (analysis.acquire fetch name use entry).2.names.lookup name = some meaning := by
  obtain ⟨parser, isParser, takes, inputs, raw⟩ := parseArchived_takes ready.lexed name entry.source
  obtain ⟨firstReports, reads⟩ := takes_evolves ready Check.nothing takes
  rw [← inputs] at reads
  unfold acquire
  generalize analysis.parseArchived name entry.source = run at isParser raw
  obtain ⟨id, read⟩ := run
  dsimp only at isParser raw
  subst isParser
  cases id with
  | none => exact ⟨rejectArchived_evolves reads name use _, by simp⟩
  | some id =>
    obtain ⟨root, decl, isDecl, isName, plain⟩ :
      parser.decls.RawRoot analysis.decls.count id ∧ _ := raw id rfl
    dsimp only
    split
    · exact ⟨rejectArchived_evolves reads name use _, by simp⟩
    · have noted : ∀ decl : Decl, decl.SameHead { decl with external := true } ∧
          ({ decl with external := true } : Decl).body = decl.body :=
        fun decl => ⟨⟨rfl, .refl _, fun _ => rfl⟩, rfl⟩
      have marks := modify_evolves reads.ready (parser.decls.Family id) (.inl rfl) noted
      have checks := checkDecl_checked marks.ready ((good.evolves reads).evolves marks)
        (root.modify noted fun _ => rfl)
      generalize checkDecl _ fetch id = result at checks ⊢
      obtain ⟨fine, checked⟩ := result
      obtain ⟨fetched, reports, evolves, failed⟩ := checks.evolves
      have owned : (parser.decls.modify id fun decl => { decl with external := true }).owned id =
          parser.decls.owned id := owned_modify (fun decl => (noted decl).2) id
      have family : ∀ other, (parser.decls.modify id fun decl =>
          { decl with external := true }).Family id other → parser.decls.Family id other :=
        fun other inFamily => inFamily.of_owned owned
      have both := marks.trans (evolves.mono family) fun other inFamily =>
        Nat.le_trans (root.family_le other inFamily) root.le_count
      have beyond := root.family_above
      have names : ∀ other meaning, analysis.names.lookup other = some meaning →
          checked.names.lookup other = some meaning := by
        intro other meaning known
        rcases both.stands other meaning known with same | ⟨number, isOwn, taken⟩
        · exact same
        · rcases root.no_function isOwn with rfl | ⟨_, found, none⟩
          · rw [← (both.was_function isDecl taken).1, isName, unknown] at known
            cases known
          · obtain ⟨_, data, body⟩ := both.was_function found taken
            exact absurd body (none data)
      have imported : ∀ other ∈ fetched, checked.Imported other ∧ ∀ decl,
          checked.decls.get? other = some decl → analysis.names.lookup decl.name = none := by
        intro other member
        refine ⟨checks.imports other ?_, fun decl found => ?_⟩
        · rw [evolves.isFetched, drop_left]
          exact member
        · obtain ⟨_, _, isFound, _, fresh, _⟩ := evolves.imported other member
          cases found.symm.trans isFound
          exact fresh
      cases fine with
      | false =>
        have all := reads.acquired [] both beyond
          (by rw [append_nil]; exact both.accepted.lower reads.count) names
          (by rw [append_nil]; exact imported)
          fun _ _ _ _ => .inr (failed rfl)
        have noMore : checked.fetched ++ [] = checked.fetched := append_nil _
        rw [noMore] at all
        exact ⟨⟨_, _, all⟩, by simp⟩
      | true =>
        have accepted := checks.accepted rfl
        have all := reads.acquired [id] both beyond
          (both.accepted.snoc reads.count accepted root.le_count) names ?_ ?_
        · exact ⟨⟨_, _, all⟩, fun _ isMeaning => isMeaning⟩
        · intro other member
          rcases mem_append.mp member with inFetched | isLast
          · exact imported other inFetched
          · rw [mem_singleton.mp isLast]
            have isMarked := Declarations.get?_modify_self parser.decls id
              fun decl => { decl with external := true }
            rw [isDecl] at isMarked
            obtain ⟨meaning, known, isId⟩ := checks.named rfl _ isMarked (isName ▸ unknown) plain
            obtain ⟨last, isLast, same⟩ := evolves.learns.decls id _ isMarked
            have sameName : last.name = decl.name := same.name
            refine ⟨⟨last, meaning, isLast, same.external rfl, sameName ▸ known, isId⟩,
              fun other isOther => ?_⟩
            cases isLast.symm.trans isOther
            rw [sameName, isName]
            exact unknown
        · intro other meaning known isOwn
          refine .inl (mem_singleton.mpr ?_)
          exact accepted.names_root both.ready.named known
            (isOwn.of_owned (checks.owned.trans owned).symm)

theorem EvolvesBy.underway_erase {own reports} {after : Analysis} {fetched : List DeclId}
    (evolves : { before with underway := name :: before.underway }.EvolvesBy own fetched reports
      after) :
    before.EvolvesBy own fetched reports { after with underway := after.underway.erase name } :=
  { evolves with
    surroundings := by
      have same := evolves.surroundings
      simp only [Analysis.surroundings, Prod.mk.injEq] at same ⊢
      simp [same]
    ready := evolves.ready.of_same evolves.ready.lexed rfl rfl
    learns := by
      have entered : before.Extends { before with underway := name :: before.underway } :=
        .of_same rfl rfl
      exact (entered.trans evolves.learns).trans (.of_same rfl rfl)
    accepted := evolves.accepted.of_same rfl rfl }

/-- How many archived declarations are not being fetched. -/
def room (analysis : Analysis) : Nat :=
  (((analysis.archive.map Archive.entries).getD []).filter fun entry =>
    !analysis.underway.contains entry.1).length

theorem room_congr {around : Analysis} (same : analysis.surroundings = around.surroundings) :
    analysis.room = around.room := by
  simp only [surroundings, Prod.mk.injEq] at same
  simp only [room, same]

theorem room_lt {entry} (archived : analysis.archive = some archive)
    (found : archive.lookup name = some entry) (idle : ¬ analysis.underway.contains name = true) :
    room { analysis with underway := name :: analysis.underway } < analysis.room := by
  have listed : ∃ pair ∈ archive.entries, pair.1 = name := by
    refine Classical.byContradiction fun missing => ?_
    have none : archive.entries.lookup name = none := lookup_eq_none_iff.mpr fun pair member =>
      bne_iff_ne.mpr fun isName => missing ⟨pair, member, isName.symm⟩
    cases found.symm.trans none
  obtain ⟨pair, member, isName⟩ := listed
  have fewer : ∀ pair : Text × ArchivedDecl,
      (!(name :: analysis.underway).contains pair.1) =
        (!(pair.1 == name) && !analysis.underway.contains pair.1) := fun pair => by
    rw [contains_cons, Bool.not_or]
  simp only [room, archived, fewer, ← filter_filter, Option.map_some, Option.getD_some]
  exact length_filter_lt_length_iff_exists.mpr ⟨pair,
    mem_filter.mpr ⟨member, by simpa [isName] using idle⟩, by simp [isName]⟩

theorem fetchWithin_good (fuel : Nat) : ∀ {around : Analysis}, around.room < fuel →
    Fetch.Good (fetchWithin fuel) around := by
  induction fuel with
  | zero => exact fun impossible => absurd impossible (Nat.not_lt_zero _)
  | succ fuel ih =>
    intro around less name span analysis ready same unknown
    rw [← room_congr same] at less
    have same : (∃ fetched reports, analysis.EvolvesBy Check.nothing fetched reports analysis) ∧
        ∀ meaning, (none : Option Meaning) = some meaning →
          analysis.names.lookup name = some meaning :=
      ⟨⟨[], [], .refl ready _⟩, by simp⟩
    unfold fetchWithin
    split
    · exact same
    · rename_i archive archived
      split
      · exact same
      · rename_i idle
        split
        · exact same
        · rename_i entry found
          -- While the name is being fetched it stands among the names underway.
          have started : Ready { analysis with underway := name :: analysis.underway } :=
            ready.of_same ready.lexed rfl rfl
          have smaller := Nat.lt_of_lt_of_le (room_lt archived found idle) (Nat.le_of_lt_succ less)
          obtain ⟨⟨fetched, reports, evolves⟩, known⟩ :=
            acquire_good started (ih smaller) unknown span entry
          exact ⟨⟨fetched, reports, evolves.underway_erase⟩, known⟩

theorem fetcher_good (analysis : Analysis) : Fetch.Good analysis.fetcher analysis := by
  refine fetchWithin_good _ (Nat.lt_succ_of_le ?_)
  unfold room
  cases analysis.archive <;> exact length_filter_le _ _

/-! ## Groups -/

/-- What checking a group that nobody has checked yet ensures. -/
structure GroupChecked (before : Analysis) (base : DeclId) (group : Group) (after : Analysis) :
    Prop where
  evolves : ∃ fetched reports,
    before.EvolvesBy (before.decls.Families group) fetched reports after ∧
    ((∀ entry ∈ reports, entry.isError = false) →
      ∀ id ∈ group, after.Accepted after.Defers False base id)
  owned : ∀ id ∈ group, after.decls.owned id = before.decls.owned id
  each : ∀ id ∈ group, after.Accepted after.Defers False base id ∨ after.decls.IsInvalid id

theorem DeclChecked.others {fine middle rest} (checks : before.DeclChecked base id fine middle)
    (root : before.decls.RawRoot base id) (raw : before.decls.RawGroup id rest) :
    middle.decls.RawGroup id rest := by
  obtain ⟨_, _, evolves, _⟩ := checks.evolves
  refine raw.congr (Nat.le_refl _) fun other above known => evolves.kept other known fun family => ?_
  exact Nat.lt_irrefl _ (Nat.lt_of_lt_of_le above (root.family_le other family))

theorem GroupChecked.cons {rest fine middle} {after : Analysis}
    (root : before.decls.RawRoot base id)
    (raw : before.decls.RawGroup id rest) (checks : before.DeclChecked base id fine middle)
    (later : middle.GroupChecked id rest after) :
    before.GroupChecked base (id :: rest) after := by
  obtain ⟨firstFetched, firstReports, first, failed⟩ := checks.evolves
  obtain ⟨restFetched, restReports, second, accepted⟩ := later.evolves
  have beyond := (checks.others root raw).above
  have sameEntry : ∀ other ∈ rest, middle.decls.get? other = before.decls.get? other := by
    intro other member
    obtain ⟨above, below⟩ := raw.above other member other (.inl rfl)
    exact first.kept other below fun family =>
      Nat.lt_irrefl _ (Nat.lt_of_lt_of_le above (root.family_le other family))
  have inFirst : ∀ other, middle.decls.Family id other → other ≤ id :=
    fun other family => root.family_le other (family.of_owned checks.owned)
  have sameFirst : middle.decls.Intact after.decls id := by
    intro other family
    have below := inFirst other family
    refine second.kept other
      (Nat.le_trans below (Nat.le_trans root.le_count first.count)) fun isOwn => ?_
    obtain ⟨_, member, inRest⟩ := isOwn
    exact Nat.lt_irrefl _ (Nat.lt_of_lt_of_le (beyond _ member other inRest).1 below)
  have wholeFirst : before.EvolvesBy (before.decls.Families (id :: rest)) _ _ middle :=
    first.mono fun other family => ⟨id, mem_cons_self, family⟩
  have wholeRest : middle.EvolvesBy (before.decls.Families (id :: rest)) _ _ after :=
    second.mono fun other ⟨root, member, family⟩ => ⟨root, mem_cons_of_mem _ member,
      (Declarations.Family.congr (sameEntry root member)).mp family⟩
  have acceptedFirst : fine = true → after.Accepted after.Defers False base id := by
    intro isFine
    rw [defers_congr second.resolver]
    exact (checks.accepted isFine).extends second.learns (Nat.le_refl _) sameFirst
  have lower := Nat.le_of_lt root.1
  refine ⟨⟨_, _, wholeFirst.trans wholeRest ?_, fun fineAll other member => ?_⟩,
    fun other member => ?_, fun other member => ?_⟩
  · intro other ⟨root', member, family⟩
    exact ((Declarations.RawGroup.cons root raw).above root' member other family).2
  · rcases mem_cons.mp member with isId | inRest
    · rw [isId]
      cases fine with
      | true => exact acceptedFirst rfl
      | false =>
        obtain ⟨entry, inReports, isError⟩ := failed rfl
        rw [fineAll entry (mem_append_left _ inReports)] at isError
        cases isError
    · exact (accepted (fun entry inReports => fineAll entry (mem_append_right _ inReports))
        other inRest).extends (.refl after) lower fun _ _ => rfl
  · rcases mem_cons.mp member with isId | inRest
    · rw [isId, owned_congr (sameFirst id (.inl rfl))]
      exact checks.owned
    · exact (later.owned other inRest).trans (owned_congr (sameEntry other inRest))
  · rcases mem_cons.mp member with isId | inRest
    · rw [isId]
      cases fine with
      | true => exact .inl (acceptedFirst rfl)
      | false =>
        obtain ⟨decl, found, isInvalid⟩ := checks.invalid rfl
        exact .inr ⟨decl, (sameFirst id (.inl rfl)).trans found, isInvalid⟩
    · rcases later.each other inRest with isAccepted | isInvalid
      · exact .inl (isAccepted.extends (.refl after) lower fun _ _ => rfl)
      · exact .inr isInvalid

theorem checkGroup_checked (group : Group) :
    ∀ {analysis : Analysis} {base : DeclId}, analysis.Ready →
      analysis.decls.RawGroup base group →
      analysis.GroupChecked base group (analysis.checkGroup group).2 := by
  induction group with
  | nil =>
    intro analysis base ready _
    exact ⟨⟨[], [], .refl ready _, by simp⟩, by simp, by simp⟩
  | cons id rest ih =>
    intro analysis base ready raw
    cases raw with
    | cons root others =>
      have checks := checkDecl_checked ready (fetcher_good analysis) root
      rw [checkGroup]
      generalize analysis.checkDecl analysis.fetcher id = result at checks ⊢
      obtain ⟨fine, middle⟩ := result
      obtain ⟨_, _, evolves, _⟩ := checks.evolves
      exact .cons root others checks (ih evolves.ready (checks.others root others))

/-! ## Fetching once -/

theorem checkGroup_imports {group} (ready : analysis.Ready)
    (raw : analysis.decls.RawGroup base group)
    (alone : ∀ id ∈ group, group = [id] ∨ ∃ data, analysis.decls.asVariable id = some data) :
    (analysis.checkGroup group).2.Imports analysis := by
  by_cases single : ∃ id, group = [id]
  · obtain ⟨id, rfl⟩ := single
    cases raw with
    | cons root _ => exact (checkDecl_checked ready (fetcher_good analysis) root).imports
  · obtain ⟨fetched, reports, evolves, _⟩ := (checkGroup_checked group ready raw).evolves
    intro id member
    rw [evolves.isFetched, drop_left] at member
    refine evolves.imports (fun other family => ?_) id member
    -- A variable owns no other number, so no function takes the place of a fetched one.
    obtain ⟨root, inGroup, family⟩ := family
    rcases alone root inGroup with isSingle | ⟨data, isData⟩
    · exact absurd ⟨root, isSingle⟩ single
    · obtain ⟨decl, found, body⟩ := asVariable_eq_some.mp isData
      rcases family with rfl | isOwned
      · exact ⟨decl, found, by simp [body]⟩
      · rw [owned_of_get? found, body] at isOwned
        exact absurd isOwned not_mem_nil

/-- The archive was asked for names: it did not nest too deeply, the same names are being
fetched as before, and each fetched declaration is new, was fetched once and is what its
name, which stood for nothing, stands for. -/
structure FetchesOnce (before after : Analysis) : Prop where
  ends : ∃ reports, after.parser.reports.toList = before.parser.reports.toList ++ reports ∧
    tooDeep ∉ reports
  underway : after.underway = before.underway
  once : ∃ fetched, after.fetched = before.fetched ++ fetched ∧ fetched.Nodup ∧
    (∀ id ∈ fetched, before.decls.get? id = none ∧ ∃ decl meaning,
      after.decls.get? id = some decl ∧ decl.invalid = false ∧ decl.external = true ∧
      before.names.lookup decl.name = none ∧ after.names.lookup decl.name = some meaning ∧
      meaning.decl = id) ∧
    ∀ first ∈ fetched, ∀ second ∈ fetched,
      (after.decls.get? first).map Decl.name = (after.decls.get? second).map Decl.name →
        first = second

/-- Checking a declaration, or variables declared together, fetches every name at most
once; a name that is being fetched is not fetched again. -/
theorem checkGroup_fetchesOnce (ready : analysis.Ready) {group : Group}
    (raw : analysis.decls.RawGroup base group)
    (alone : ∀ id ∈ group, group = [id] ∨ ∃ data, analysis.decls.asVariable id = some data) :
    analysis.FetchesOnce (analysis.checkGroup group).2 ∧
      ∀ fuel name use (state : Analysis), name ∈ state.underway →
        fetchWithin (fuel + 1) name use state = (none, state) := by
  obtain ⟨fetched, reports, evolves, _⟩ := (checkGroup_checked group ready raw).evolves
  have imports : ∀ id ∈ fetched, (analysis.checkGroup group).2.Imported id := by
    have imports := checkGroup_imports ready raw alone
    unfold Imports at imports
    rw [evolves.isFetched, List.drop_left] at imports
    exact imports
  refine ⟨⟨⟨reports, evolves.isReports, fun member => ?_⟩,
    congrArg (fun known => known.2.2.2.2.2) evolves.surroundings,
    fetched, evolves.isFetched, ?_, fun id member => ?_, ?_⟩, ?_⟩
  · exact absurd (evolves.text _ member) (by decide : ¬ Code.runtimeError.number < 4000)
  · exact evolves.accepted.apart.imp fun {first second} apart isFirst =>
      apart first (.inl rfl) (.inl isFirst)
  · obtain ⟨decl, meaning, found, external, known, isId⟩ := imports id member
    obtain ⟨_, _, isNew, _, unknown, _⟩ := evolves.imported id member
    cases found.symm.trans isNew
    have accepted := evolves.accepted.each id member
    obtain ⟨_, isEntry, valid, _⟩ := accepted.valid
    cases found.symm.trans isEntry
    exact ⟨Declarations.get?_eq_none _ (accepted.above id (.inl rfl)), decl, meaning, found, valid,
      external, unknown, known, isId⟩
  · intro first inFirst second inSecond isName
    obtain ⟨_, _, found, _, known, isFirst⟩ := imports first inFirst
    obtain ⟨_, _, found', _, known', isSecond⟩ := imports second inSecond
    rw [found, found'] at isName
    rw [Option.some.inj isName] at known
    cases known.symm.trans known'
    exact isFirst.symm.trans isSecond
  · intro fuel name use state busy
    have contains : state.underway.contains name = true := by simpa using busy
    unfold fetchWithin
    split
    · rfl
    · rw [if_pos contains]

/-- The parser has made a step. -/
def stepped (analysis : Analysis) : Analysis := { analysis with parser := analysis.parser.step.2 }

/-- A group that was just read is ready to be checked. -/
theorem Ready.stepped (ready : analysis.Ready) {group : Group}
    (isGroup : analysis.parser.step.1 = some (.group group)) :
    analysis.stepped.Ready ∧ analysis.stepped.decls.RawGroup analysis.decls.count group ∧
      analysis.stepped.decls.Together group := by
  obtain ⟨takes, raw⟩ := Parser.step_takes ready.lexed
  obtain ⟨_, evolves⟩ := takes_evolves ready Check.nothing takes
  exact ⟨⟨takes.lexed, evolves.ready.named, evolves.ready.grounded, evolves.ready.tidy⟩,
    raw _ isGroup _ rfl, Parser.step_together ready.lexed isGroup⟩

/-- Two variables are about to be read that start with an archived one, which starts with
another. -/
def importing : Analysis :=
  { parser := Parser.enter { files := (FileSet.add {} "a" "int z = y, w = y;" {}).2 } 0
    archive := some ⟨[("y", { kind := "var", name := "y", source := "int y = x;" }),
      ("x", { kind := "var", name := "x", source := "int x = 1;" })]⟩ }

theorem importing_fetchesOnce : (importing.stepped.checkGroup [1, 2]).2.fetched = [4, 3] ∧
    importing.stepped.FetchesOnce (importing.stepped.checkGroup [1, 2]).2 := by
  have isGroup : importing.parser.step.1 = some (.group [1, 2]) := by decide +kernel
  have ready : importing.Ready := by
    refine ⟨Parser.Lexed.enter (fun _ member => absurd member List.not_mem_nil) 0,
      fun name meaning known => ?_, fun id decl found => ?_, Universe.tidy_fresh⟩
    · obtain ⟨which, found, rfl⟩ := Option.map_eq_some_iff.mp
        ((Universe.lookup_fresh name).symm.trans known)
      exact found
    · cases id <;> cases found
  obtain ⟨ready, raw, together⟩ := ready.stepped isGroup
  exact ⟨by decide +kernel, (checkGroup_fetchesOnce ready raw together).1⟩

end Analysis

end FragmentCompiler
