import FragmentCompiler.Proofs.Reading.Unit
import FragmentCompiler.Proofs.Typing
import FragmentCompiler.Proofs.Universe

/-!
# How checking changes an analysis

Checking a declaration touches the entries of that declaration only.  It may add
entries, names, fetched declarations and diagnostics, and it forgets nothing.  Every
name it adds belongs to the declaration, to a fetched one, or goes with an error.
-/

set_option autoImplicit false

namespace FragmentCompiler

open List

section

variable {decls : Declarations} {base id other : DeclId} (raw : decls.RawRoot base id)

include raw

theorem Declarations.RawRoot.mem_owned (isOwned : other ∈ decls.owned id) :
    ∃ data : Function, data.Raw decls base id ∧ other ∈ data.owned := by
  obtain ⟨_, decl, found, _, body⟩ := raw
  rw [owned_of_get? found] at isOwned
  generalize decl.body = declared at body isOwned
  cases body with
  | «variable» _ _ => exact absurd isOwned not_mem_nil
  | function raw => exact ⟨_, raw, isOwned⟩
  | wrapper raw _ _ _ => exact ⟨_, raw, isOwned⟩

theorem Declarations.RawRoot.owned_below : ∀ other ∈ decls.owned id, other < id := by
  intro other isOwned
  obtain ⟨_, isRaw, member⟩ := raw.mem_owned isOwned
  exact isRaw.below other member

end

open Declarations

theorem Parser.Takes.grounded {before after : Parser} (takes : before.Takes after)
    (grounded : before.decls.Grounded) : after.decls.Grounded := by
  intro id decl found
  by_cases early : id ≤ before.decls.count
  · rw [takes.kept id early] at found
    exact grounded id decl found
  · rcases takes.made id (Nat.lt_of_not_le early) (le_count_of_get? found) with
      ⟨_, data, isDecl, _, body, _⟩ | isRoot
    · cases found.symm.trans isDecl
      rw [body]
      exact fun other member => absurd member not_mem_nil
    · have below := isRoot.owned_below
      rw [owned_of_get? found] at below
      exact below

namespace Analysis

variable {after analysis before : Analysis} {reports : List Diagnostic} {meaning : Meaning}
  {base : Nat} {deferrals lookups : Prop} {name : Text}

/-! ## Well-formed analyses -/

/-- A name may stand for something: the declaration has that name and is of that kind. -/
def Suits (analysis : Analysis) (name : Text) : Meaning → Prop
  | .variable id => ∃ decl data, analysis.decls.get? id = some decl ∧ decl.name = name ∧
      decl.body = .variable data ∧ data.storage = .global ∧ data.type.IsValue
  | .function id => (∃ decl, analysis.decls.get? id = some decl ∧ decl.name = name) ∧
      ∃ result types, analysis.decls.HasSignature id result types ∧ result.IsResult ∧
        ∀ type ∈ types, type.IsValue
  | .builtin which => Builtin.ofText? name = some which

/-- The global names stand for what their declarations say. -/
def Named (analysis : Analysis) : Prop :=
  ∀ name meaning, analysis.names.lookup name = some meaning → analysis.Suits name meaning

theorem Named.le_count (named : analysis.Named) (known : analysis.names.lookup name = some meaning)
    : meaning.decl ≤ analysis.decls.count := by
  have suits := named name meaning known
  cases meaning with
  | «variable» id =>
    obtain ⟨_, _, found, _⟩ := suits
    exact le_count_of_get? found
  | function id =>
    obtain ⟨⟨_, found, _⟩, _⟩ := suits
    exact le_count_of_get? found
  | builtin which => exact Nat.zero_le _

/-- What holds of an analysis at any time. -/
structure Ready (analysis : Analysis) : Prop where
  lexed : analysis.parser.Lexed
  named : analysis.Named
  grounded : analysis.decls.Grounded
  tidy : analysis.names.Tidy

theorem Named.variable (named : analysis.Named) {id : DeclId}
    (known : analysis.names.lookup name = some (.variable id)) :
    ∃ data, analysis.decls.asVariable id = some data ∧ analysis.NamesVariable name id data.type := by
  obtain ⟨decl, data, found, _, body, isGlobal, isValue⟩ := named name _ known
  have isData := asVariable_of_get? found body
  exact ⟨data, isData, known, data, isData, isGlobal, rfl, isValue⟩

theorem Named.function (named : analysis.Named) {id : DeclId}
    (known : analysis.names.lookup name = some (.function id)) :
    ∃ result types, analysis.decls.HasSignature id result types ∧
      analysis.NamesFunction name result types := by
  obtain ⟨_, result, types, signature, isResult, areValues⟩ := named name _ known
  exact ⟨result, types, signature, id, known, signature, isResult, areValues⟩

theorem Suits.extends (suits : before.Suits name meaning) (decls : before.decls.Extends after.decls)
    : after.Suits name meaning := by
  cases meaning with
  | «variable» id =>
    obtain ⟨decl, data, found, isName, body, isGlobal, isValue⟩ := suits
    obtain ⟨decl', found', same⟩ := decls id decl found
    obtain ⟨data', body', sameData⟩ := same.variable body
    exact ⟨decl', data', found', same.name.trans isName, body', sameData.storage isGlobal,
      by rw [sameData.type]; exact isValue⟩
  | function id =>
    obtain ⟨⟨decl, found, isName⟩, result, types, signature, rest⟩ := suits
    obtain ⟨decl', found', same⟩ := decls id decl found
    exact ⟨⟨decl', found', same.name.trans isName⟩, result, types, signature.extends decls, rest⟩
  | builtin which => exact suits

theorem Named.extends (named : before.Named) (names : after.names = before.names)
    (decls : before.decls.Extends after.decls) : after.Named := by
  intro name meaning known
  rw [names] at known
  exact (named name meaning known).extends decls

theorem Ready.of_same (ready : before.Ready) (lexed : after.parser.Lexed)
    (decls : after.decls = before.decls)
    (names : after.names = before.names) : after.Ready :=
  ⟨lexed, ready.named.extends names (by rw [decls]; exact .refl _),
    by rw [decls]; exact ready.grounded, by rw [names]; exact ready.tidy⟩

/-- Accepted declarations none of which owns a number of another. -/
structure AcceptedAll (known : Analysis) (deferrals lookups : Prop) (base : Nat)
    (ids : List DeclId) : Prop where
  each : ∀ id ∈ ids, known.Accepted deferrals lookups base id
  apart : ids.Pairwise fun first second =>
    ∀ other, known.decls.Family first other → ¬ known.decls.Family second other

theorem AcceptedAll.nil (known : Analysis) (deferrals lookups : Prop) (base : Nat) :
    known.AcceptedAll deferrals lookups base [] := ⟨by simp, .nil⟩

theorem AcceptedAll.of_same {ids} (accepted : before.AcceptedAll deferrals lookups base ids)
    (decls : after.decls = before.decls) (names : after.names = before.names) :
    after.AcceptedAll deferrals lookups base ids where
  each := fun id member => (accepted.each id member).extends (.of_same decls names) (Nat.le_refl _)
    fun _ _ => by rw [decls]
  apart := by
    rw [decls]
    exact accepted.apart

/-- Names may be left to be found at run time. -/
def Defers (analysis : Analysis) : Prop := analysis.resolver.isSome = true

/-! ## Changes -/

/-- What checking reads and never changes. -/
def surroundings (analysis : Analysis) :
    FileTree × List Text × List (Text × Text) × Bool × Option Archive × List Text :=
  (analysis.parser.tree, analysis.parser.includePaths, analysis.parser.virtuals,
    analysis.parser.takesPragmas, analysis.archive, analysis.underway)

/-- A name stands for something, or for a function of `own` that took its place. -/
def Stands (analysis : Analysis) (own : DeclId → Prop) (name : Text) (meaning : Meaning) : Prop :=
  analysis.names.lookup name = some meaning ∨
    ∃ other, own other ∧ analysis.names.lookup name = some (.function other)

/-- A fetched declaration is what its name stands for. -/
def Imported (analysis : Analysis) (id : DeclId) : Prop :=
  ∃ decl meaning, analysis.decls.get? id = some decl ∧ decl.external = true ∧
    analysis.names.lookup decl.name = some meaning ∧ meaning.decl = id

def Imports (analysis before : Analysis) : Prop :=
  ∀ id ∈ analysis.fetched.drop before.fetched.length, analysis.Imported id

theorem imports_of_fetched (same : after.fetched = before.fetched) : after.Imports before := by
  simp [Imports, same]

/-- One analysis comes from another by checking.  Of the entries that were there, those
with a number of `own` may change; `fetched` are the declarations fetched on the way
and `reports` the diagnostics. -/
structure EvolvesBy (own : DeclId → Prop) (fetched : List DeclId) (reports : List Diagnostic)
    (before after : Analysis) : Prop where
  inputs : after.parser.inputs = before.parser.inputs
  surroundings : after.surroundings = before.surroundings
  resolver : after.resolver.map Resolver.only = before.resolver.map Resolver.only
  ready : after.Ready
  count : before.decls.count ≤ after.decls.count
  kept : ∀ id, id ≤ before.decls.count → ¬ own id → after.decls.get? id = before.decls.get? id
  learns : before.Extends after
  names : Universe.Grows before.names after.names
  isFetched : after.fetched = before.fetched ++ fetched
  accepted : after.AcceptedAll after.Defers False before.decls.count fetched
  stands : ∀ name meaning, before.names.lookup name = some meaning → after.Stands own name meaning
  imported : ∀ id ∈ fetched, ∃ decl meaning, after.decls.get? id = some decl ∧
    decl.external = true ∧ before.names.lookup decl.name = none ∧ meaning.decl = id ∧
    after.Stands own decl.name meaning
  isReports : after.parser.reports.toList = before.parser.reports.toList ++ reports
  text : ∀ entry ∈ reports, Diagnostic.FromText entry
  covered : ∀ name meaning, after.names.lookup name = some meaning →
    before.names.lookup name = some meaning ∨ own meaning.decl ∨ meaning.decl ∈ fetched ∨
      ∃ entry ∈ reports, entry.isError = true

variable {own : DeclId → Prop}

variable {fetched : List DeclId}

section

variable {own : DeclId → Prop} {fetched : List DeclId}
  (evolves : before.EvolvesBy own fetched reports after)

include evolves

theorem EvolvesBy.fresh (unknown : after.names.lookup name = none) :
    before.names.lookup name = none := by
  cases known : before.names.lookup name with
  | none => rfl
  | some meaning =>
    rcases evolves.stands name meaning known with same | ⟨_, _, same⟩ <;>
      cases unknown.symm.trans same

theorem EvolvesBy.carries (stands : before.Stands own name meaning) :
    after.Stands own name meaning := by
  rcases stands with known | ⟨other, isOwn, known⟩
  · exact evolves.stands name meaning known
  · rcases evolves.stands _ _ known with same | taken
    · exact .inr ⟨other, isOwn, same⟩
    · exact .inr taken

/-- A function that a name stands for was a function of that name before. -/
theorem EvolvesBy.was_function {decl} {id : DeclId} (found : before.decls.get? id = some decl)
    (known : after.names.lookup name = some (.function id)) :
    decl.name = name ∧ ∃ data, decl.body = .function data := by
  obtain ⟨⟨last, isLast, isName⟩, _, _, ⟨_, data, isEntry, body, _⟩, _⟩ :=
    evolves.ready.named name _ known
  obtain ⟨entry, isFound, same⟩ := evolves.learns.decls id decl found
  cases isFound.symm.trans isLast
  cases isLast.symm.trans isEntry
  refine ⟨same.name.symm.trans isName, ?_⟩
  have sameBody := same.body
  rw [body] at sameBody
  cases isBody : decl.body with
  | function data => exact ⟨data, rfl⟩
  | «variable» | wrapper =>
    rw [isBody] at sameBody
    exact sameBody.elim

theorem EvolvesBy.imports
    (taken : ∀ other, own other → ∃ decl, before.decls.get? other = some decl ∧
      ∀ data, decl.body = .function data → before.names.lookup decl.name ≠ none) :
    ∀ id ∈ fetched, after.Imported id := by
  intro id member
  obtain ⟨decl, meaning, found, external, fresh, isId, stands⟩ := evolves.imported id member
  rcases stands with known | ⟨other, isOwn, known⟩
  · exact ⟨decl, meaning, found, external, known, isId⟩
  · obtain ⟨_, isOther, claimed⟩ := taken other isOwn
    obtain ⟨isName, data, body⟩ := evolves.was_function isOther known
    exact absurd (isName ▸ fresh) (claimed data body)

end

theorem EvolvesBy.refl (ready : analysis.Ready) (own : DeclId → Prop) :
    analysis.EvolvesBy own [] [] analysis where
  inputs := rfl
  surroundings := rfl
  resolver := rfl
  ready
  count := Nat.le_refl _
  kept := fun _ _ _ => rfl
  learns := .refl _
  names := .refl
  isFetched := (append_nil _).symm
  accepted := .nil _ _ _ _
  stands := fun _ _ known => .inl known
  imported := by simp
  isReports := (append_nil _).symm
  text := by simp
  covered := fun _ _ known => .inl known

theorem Stands.mono {wider} (stands : analysis.Stands own name meaning)
    (more : ∀ id, own id → wider id) : analysis.Stands wider name meaning :=
  stands.imp_right fun ⟨other, isOwn, known⟩ => ⟨other, more other isOwn, known⟩

theorem EvolvesBy.mono {wider} (evolves : before.EvolvesBy own fetched reports after)
    (more : ∀ id, own id → wider id) :
    before.EvolvesBy wider fetched reports after :=
  { evolves with
    kept := fun id known strange => evolves.kept id known fun isOwn => strange (more id isOwn)
    stands := fun name meaning known => (evolves.stands name meaning known).mono more
    imported := by
      intro id member
      obtain ⟨decl, meaning, found, external, fresh, isId, stands⟩ := evolves.imported id member
      exact ⟨decl, meaning, found, external, fresh, isId, stands.mono more⟩
    covered := by
      intro name meaning known
      rcases evolves.covered name meaning known with old | isOwn | rest
      · exact .inl old
      · exact .inr (.inl (more _ isOwn))
      · exact .inr (.inr rest) }

theorem defers_congr (same : after.resolver.map Resolver.only = before.resolver.map Resolver.only) :
    after.Defers = before.Defers := by
  unfold Defers
  cases first : before.resolver <;> cases second : after.resolver <;> simp_all

theorem AcceptedAll.evolves {ids less} (evolves : before.EvolvesBy own fetched reports after)
    (accepted : before.AcceptedAll deferrals lookups base ids) (lower : less ≤ base)
    (strange : ∀ id ∈ ids, ∀ other, before.decls.Family id other → ¬ own other) : after.AcceptedAll
    deferrals lookups less ids := by
  have same : ∀ id ∈ ids, before.decls.Intact after.decls id := by
    intro id member other inFamily
    exact evolves.kept other ((accepted.each id member).le_count other inFamily)
      (strange id member other inFamily)
  have family : ∀ id ∈ ids, ∀ other, after.decls.Family id other ↔ before.decls.Family id other :=
    fun id member other => Declarations.Family.congr (same id member id (.inl rfl))
  refine ⟨fun id member => (accepted.each id member).extends evolves.learns lower
    (same id member), ?_⟩
  refine accepted.apart.imp_of_mem fun {first second} inFirst inSecond apart other inFamily => ?_
  intro inOther
  exact apart other ((family first inFirst other).mp inFamily)
    ((family second inSecond other).mp inOther)

theorem AcceptedAll.append {first middle second} {known : Analysis}
    (left : known.AcceptedAll deferrals lookups base first)
    (right : known.AcceptedAll deferrals lookups middle second) (lower : base ≤ middle)
    (below : known.decls.Below middle first) :
    known.AcceptedAll deferrals lookups base (first ++ second) where
  each := by
    exact forall_mem_append.mpr ⟨left.each, fun id inSecond =>
      (right.each id inSecond).extends (.refl known) lower fun _ _ => rfl⟩
  apart := by
    refine pairwise_append.mpr ⟨left.apart, right.apart, ?_⟩
    intro id inFirst id' inSecond other member member'
    exact Nat.lt_irrefl _ (Nat.lt_of_lt_of_le ((right.each id' inSecond).above other member')
      (below id inFirst other member))

theorem EvolvesBy.append {firstFetched firstReports secondFetched secondReports}
    {first second third : Analysis} (left : first.EvolvesBy own firstFetched firstReports second)
    (right : second.EvolvesBy own secondFetched secondReports third)
    (strange : ∀ id ∈ firstFetched, ∀ other, second.decls.Family id other → ¬ own other) :
    first.EvolvesBy own (firstFetched ++ secondFetched) (firstReports ++ secondReports) third where
  inputs := right.inputs.trans left.inputs
  surroundings := right.surroundings.trans left.surroundings
  resolver := right.resolver.trans left.resolver
  ready := right.ready
  count := Nat.le_trans left.count right.count
  kept := fun id known strange =>
    (right.kept id (Nat.le_trans known left.count) strange).trans (left.kept id known strange)
  learns := left.learns.trans right.learns
  names := left.names.trans right.names
  isFetched := by rw [right.isFetched, left.isFetched, append_assoc]
  accepted := by
    have early := left.accepted
    rw [← defers_congr right.resolver] at early
    have kept := early.evolves right (Nat.le_refl _) strange
    refine kept.append right.accepted left.count fun id member other inFamily => ?_
    have inTable := (early.each id member).le_count
    have own := right.kept id (inTable id (.inl rfl)) (strange id member id (.inl rfl))
    exact inTable other ((Declarations.Family.congr own).mp inFamily)
  stands := fun name meaning known => right.carries (left.stands name meaning known)
  imported := by
    intro id member
    rcases mem_append.mp member with inFirst | inSecond
    · obtain ⟨decl, meaning, found, external, fresh, isId, stands⟩ := left.imported id inFirst
      have same := right.kept id (le_count_of_get? found) (strange id inFirst id (.inl rfl))
      exact ⟨decl, meaning, same.trans found, external, fresh, isId, right.carries stands⟩
    · obtain ⟨decl, meaning, found, external, fresh, rest⟩ := right.imported id inSecond
      exact ⟨decl, meaning, found, external, left.fresh fresh, rest⟩
  isReports := by rw [right.isReports, left.isReports, append_assoc]
  text := by
    exact forall_mem_append.mpr ⟨left.text, right.text⟩
  covered := by
    intro name meaning known
    rcases right.covered name meaning known with old | isOwn | inFetched | ⟨entry, member, isError⟩
    · rcases left.covered name meaning old with older | isOwn | inFetched | ⟨entry, member, isError⟩
      · exact .inl older
      · exact .inr (.inl isOwn)
      · exact .inr (.inr (.inl (mem_append_left _ inFetched)))
      · exact .inr (.inr (.inr ⟨entry, mem_append_left _ member, isError⟩))
    · exact .inr (.inl isOwn)
    · exact .inr (.inr (.inl (mem_append_right _ inFetched)))
    · exact .inr (.inr (.inr ⟨entry, mem_append_right _ member, isError⟩))

theorem EvolvesBy.trans {firstFetched firstReports secondFetched secondReports}
    {first second third : Analysis} (left : first.EvolvesBy own firstFetched firstReports second)
    (right : second.EvolvesBy own secondFetched secondReports third)
    (bounded : ∀ id, own id → id ≤ first.decls.count) :
    first.EvolvesBy own (firstFetched ++ secondFetched) (firstReports ++ secondReports) third :=
  left.append right fun id member other family isOwn => Nat.lt_irrefl _
    (Nat.lt_of_lt_of_le ((left.accepted.each id member).above other family) (bounded other isOwn))

/-! ## Single changes -/

theorem EvolvesBy.of_fields (ready : before.Ready)
    (inputs : after.parser.inputs = before.parser.inputs)
    (surroundings : after.surroundings = before.surroundings)
    (resolver : after.resolver.map Resolver.only = before.resolver.map Resolver.only)
    (count : before.decls.count ≤ after.decls.count)
    (kept : ∀ id, id ≤ before.decls.count → ¬ own id → after.decls.get? id = before.decls.get? id)
    (decls : before.decls.Extends after.decls) (grounded : after.decls.Grounded)
    (names : after.names = before.names) (fetched : after.fetched = before.fetched)
    (isReports : after.parser.reports.toList = before.parser.reports.toList ++ reports)
    (text : ∀ entry ∈ reports, Diagnostic.FromText entry) :
    before.EvolvesBy own [] reports after where
  inputs
  surroundings
  resolver
  ready := ⟨by unfold Parser.Lexed; rw [inputs]; exact ready.lexed,
    ready.named.extends names decls, grounded, by rw [names]; exact ready.tidy⟩
  count
  kept
  learns := .of_decls decls names
  names := by rw [names]; exact .refl
  isFetched := by rw [fetched, append_nil]
  accepted := .nil _ _ _ _
  stands := fun name meaning known => .inl (by rw [names]; exact known)
  imported := by simp
  isReports
  text
  covered := fun name meaning known => .inl (by rw [← names]; exact known)

theorem report_evolves (ready : analysis.Ready) (own : DeclId → Prop)
    (diagnostic : Diagnostic) (text : diagnostic.FromText) :
    analysis.EvolvesBy own [] [diagnostic] (analysis.report diagnostic) :=
  .of_fields ready rfl rfl rfl (Nat.le_refl _) (fun _ _ _ => rfl)
    (.refl _) ready.grounded rfl rfl (by simp [report])
    (by simpa using text)

theorem takes_evolves (ready : analysis.Ready) (own : DeclId → Prop)
    {parser : Parser} (takes : analysis.parser.Takes parser) :
    ∃ reports, analysis.EvolvesBy own [] reports
      { analysis with parser := { parser with inputs := analysis.parser.inputs } } := by
  obtain ⟨reports, isReports, text⟩ := takes.reports
  have same : surroundings { analysis with parser := { parser with inputs := analysis.parser.inputs } }
      = analysis.surroundings :=
    congrArg (fun (tree, paths, virtuals, pragmas) =>
      (tree, paths, virtuals, pragmas, analysis.archive, analysis.underway)) takes.surroundings
  refine ⟨reports, .of_fields ready rfl same rfl takes.count (fun id known _ => takes.kept id known)
    ?_ (takes.grounded ready.grounded) rfl rfl isReports text⟩
  intro id decl found
  exact ⟨decl, (takes.kept id (le_count_of_get? found)).trans found,
    .refl decl⟩

/-- Changing entries with a number of `own`. -/
theorem updateDecls_evolves {change} (ready : analysis.Ready)
    (count : (change analysis.decls).count = analysis.decls.count)
    (kept : ∀ id, ¬ own id → (change analysis.decls).get? id = analysis.decls.get? id)
    (decls : analysis.decls.Extends (change analysis.decls))
    (grounded : (change analysis.decls).Grounded) : analysis.EvolvesBy own [] []
    (analysis.updateDecls change) :=
  .of_fields ready rfl rfl rfl (Nat.le_of_eq count.symm)
    (fun id _ strange => kept id strange) decls grounded rfl rfl
    (append_nil _).symm (by simp)

theorem Suits.admits (suits : analysis.Suits name meaning) (tidy : analysis.names.Tidy)
    (free : ∀ earlier, analysis.names.lookup name = some earlier →
      ∃ id, earlier = .function id ∧ analysis.decls.isPrototype id = true) :
    analysis.names.Admits name meaning := by
  refine ⟨?_, fun earlier known => ?_⟩
  · cases meaning with
    | «variable» | function => rfl
    | builtin which =>
      have isName : which.name = name := by
        simpa using find?_some (show Builtin.all.find? _ = some which from suits)
      obtain ⟨_, never, _⟩ := free _ (isName ▸ tidy.builtins which)
      cases never
  · obtain ⟨_, rfl, _⟩ := free earlier known
    rfl

open Universe

/-- Declaring a global name for a number of `own`, which is new or replaces a prototype
of the same signature. -/
theorem declare_evolves (ready : analysis.Ready) (isOwn : own meaning.decl)
    (suits : analysis.Suits name meaning)
    (free : ∀ earlier, analysis.names.lookup name = some earlier →
      ∃ id, earlier = .function id ∧ analysis.decls.isPrototype id = true)
    (kept : ∀ result types, analysis.NamesFunction name result types →
      ∃ id, meaning = .function id ∧ analysis.decls.HasSignature id result types) :
    analysis.EvolvesBy own [] []
      { analysis with names := analysis.names.declare name meaning } where
  inputs := rfl
  surroundings := rfl
  resolver := rfl
  ready := by
    refine ⟨ready.lexed, fun other found known => ?_, ready.grounded,
      ready.tidy.declare (suits.admits ready.tidy free)⟩
    rcases lookup_declare_cases known with ⟨rfl, rfl⟩ | old
    · exact suits
    · exact ready.named other found old
  count := Nat.le_refl _
  kept := fun _ _ _ => rfl
  learns := by
    refine ⟨.refl _, fun other id known => ?_, fun other result types known => ?_,
      fun other id known isDefined => ?_⟩
    · have different : other ≠ name := by
        intro isName
        obtain ⟨_, isFunction, _⟩ := free _ (isName ▸ known)
        cases isFunction
      exact (lookup_declare_of_ne _ meaning different).trans known
    · by_cases isName : other = name
      · subst isName
        obtain ⟨id, isFunction, signature⟩ := kept result types known
        obtain ⟨_, _, _, rest⟩ := known
        refine ⟨id, ?_, signature, rest⟩
        rw [← isFunction]
        exact lookup_declare_self _ _ _
      · obtain ⟨id, found, rest⟩ := known
        exact ⟨id, (lookup_declare_of_ne _ meaning isName).trans found, rest⟩
    · have different : other ≠ name := by
        intro isName
        obtain ⟨_, isFunction, announced⟩ := free _ (isName ▸ known)
        cases isFunction
        rw [isDefined.isPrototype] at announced
        cases announced
      exact (lookup_declare_of_ne _ meaning different).trans known
  names := Universe.Grows.refl.declare (suits.admits ready.tidy free)
  isFetched := (append_nil _).symm
  accepted := .nil _ _ _ _
  stands := by
    intro other found known
    by_cases isName : other = name
    · subst isName
      obtain ⟨_, rfl, _⟩ := free _ known
      obtain ⟨result, types, _, named⟩ := ready.named.function known
      obtain ⟨id, rfl, _⟩ := kept result types named
      exact .inr ⟨id, isOwn, lookup_declare_self _ _ _⟩
    · exact .inl ((lookup_declare_of_ne _ meaning isName).trans known)
  imported := by simp
  isReports := (append_nil _).symm
  text := by simp
  covered := by
    intro other found known
    rcases lookup_declare_cases known with ⟨rfl, rfl⟩ | old
    · exact .inr (.inl isOwn)
    · exact .inl old

end Analysis

end FragmentCompiler
