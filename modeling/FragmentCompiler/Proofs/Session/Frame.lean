import FragmentCompiler.Proofs.Session.Engine
import FragmentCompiler.Proofs.Stages.Dispatch

/-!
# What taking in a fragment leaves alone

From the moment a fragment is entered until its transaction ends, a session only adds:
declarations with new numbers, names that can be undone, diagnostics, and a pending unit.
The machine, the queue and what the program printed stay as they were.
-/

set_option autoImplicit false

namespace FragmentCompiler

open List Declarations

/-! ## Declarations side by side -/

namespace Declarations

variable {decls : Declarations} {base : Nat}

/-- Declarations all of whose numbers are larger than `base`, none of which owns a number of
another. -/
structure Spread (decls : Declarations) (base : Nat) (ids : List DeclId) : Prop where
  within : ∀ id ∈ ids, ∀ other, decls.Family id other → base < other ∧ other ≤ decls.count
  apart : decls.Apart ids

theorem Spread.nil (decls : Declarations) (base : Nat) : decls.Spread base [] := ⟨by simp, .nil⟩

theorem Spread.congr {ids} {before after : Declarations} (spread : before.Spread base ids)
    (count : before.count ≤ after.count) (same : ∀ id ∈ ids, after.owned id = before.owned id) :
    after.Spread base ids := by
  refine ⟨fun id member other family => ?_, spread.apart.congr same⟩
  obtain ⟨above, below⟩ := spread.within id member other (family.of_owned (same id member))
  exact ⟨above, Nat.le_trans below count⟩

theorem Spread.perm {ids ids'} (spread : decls.Spread base ids) (same : ids.Perm ids') :
    decls.Spread base ids' :=
  ⟨fun id member => spread.within id (same.mem_iff.mpr member),
    (same.pairwise_iff fun apart other family family' => apart other family' family).mp
      spread.apart⟩

theorem spread_append {first second} :
    decls.Spread base (first ++ second) ↔ decls.Spread base first ∧ decls.Spread base second ∧
      ∀ id ∈ first, ∀ id' ∈ second, ∀ other, decls.Family id other → ¬ decls.Family id' other := by
  constructor
  · intro spread
    obtain ⟨left, right, apart⟩ := pairwise_append.mp spread.apart
    exact ⟨⟨fun id member => spread.within id (mem_append_left _ member), left⟩,
      ⟨fun id member => spread.within id (mem_append_right _ member), right⟩, apart⟩
  · intro ⟨left, right, apart⟩
    exact ⟨fun id member => (mem_append.mp member).elim (left.within id) (right.within id),
      pairwise_append.mpr ⟨left.apart, right.apart, apart⟩⟩

theorem Spread.above {first middle second} (left : decls.Spread base first)
    (right : decls.Spread middle second)
    (lower : base ≤ middle) (below : decls.Below middle first) :
    decls.Spread base (first ++ second) := by
  refine spread_append.mpr ⟨left, ⟨fun id member other family => ?_, right.apart⟩,
    fun id inFirst id' inSecond other family family' => ?_⟩
  · obtain ⟨above, known⟩ := right.within id member other family
    exact ⟨Nat.lt_of_le_of_lt lower above, known⟩
  · exact Nat.lt_irrefl _ (Nat.lt_of_lt_of_le (right.within id' inSecond other family').1
      (below id inFirst other family))

end Declarations

theorem Declarations.RawGroup.spread {base group} {decls : Declarations}
    (raw : decls.RawGroup base group) : decls.Spread base group :=
  ⟨fun id member other family => raw.above id member other family, raw.apart⟩

/-! ## The analysis -/

namespace Analysis

variable {after analysis before : Analysis} {base : Nat}

/-- One analysis comes from another while entries up to `base` stay as they are. -/
structure Follows (base : Nat) (before after : Analysis) : Prop where
  surroundings : after.surroundings = before.surroundings
  count : before.decls.count ≤ after.decls.count
  kept : ∀ id, id ≤ base → after.decls.get? id = before.decls.get? id
  learns : before.Extends after
  names : Universe.Grows before.names after.names
  ready : after.Ready

theorem Follows.refl (ready : analysis.Ready) (base : Nat) : analysis.Follows base analysis :=
  ⟨rfl, Nat.le_refl _, fun _ _ => rfl, .refl _, .refl, ready⟩

theorem Follows.trans {first second third : Analysis} (left : first.Follows base second)
    (right : second.Follows base third) : first.Follows base third :=
  ⟨right.surroundings.trans left.surroundings, Nat.le_trans left.count right.count,
    fun id low => (right.kept id low).trans (left.kept id low), left.learns.trans right.learns,
    left.names.trans right.names, right.ready⟩

variable {own : DeclId → Prop}

theorem EvolvesBy.follows {reports} {fetched : List DeclId}
    (evolves : before.EvolvesBy own fetched reports after) (low : base ≤ before.decls.count)
    (above : ∀ id, own id → base < id) : before.Follows base after :=
  ⟨evolves.surroundings, evolves.count, fun id isLow => evolves.kept id (Nat.le_trans isLow low)
    fun isOwn => Nat.lt_irrefl _ (Nat.lt_of_lt_of_le (above id isOwn) isLow),
    evolves.learns, evolves.names, evolves.ready⟩

theorem Follows.of_same (ready : before.Ready) (base : Nat) (lexed : after.parser.Lexed)
    (decls : after.decls = before.decls) (names : after.names = before.names)
    (same : after.surroundings = before.surroundings) : before.Follows base after :=
  ⟨same, Nat.le_of_eq (by rw [decls]), fun _ _ => by rw [decls], .of_same decls names,
    by rw [names]; exact .refl, ready.of_same lexed decls names⟩

theorem takes_follows (ready : analysis.Ready) {parser : Parser}
    (takes : analysis.parser.Takes parser) (low : base ≤ analysis.decls.count) :
    analysis.Follows base { analysis with parser } := by
  obtain ⟨_, evolves⟩ := takes_evolves ready (fun _ => False) takes
  exact (evolves.follows low fun _ never => never.elim).trans
    (.of_same evolves.ready _ takes.lexed rfl rfl rfl)

theorem Batch.spread {flaws prompts deferrals lookups group} {known : Analysis}
    (batch : known.Batch flaws prompts deferrals lookups base group) :
    known.decls.Spread base group := ⟨batch.within, batch.apart⟩

theorem EvolvesBy.isSome_resolver {reports} {fetched : List DeclId}
    (evolves : before.EvolvesBy own fetched reports after) :
    after.resolver.isSome = before.resolver.isSome := by
  have isSame := congrArg Option.isSome evolves.resolver
  simpa using isSame

theorem foldl_report (reports : List Diagnostic) :
    ∀ analysis : Analysis, ∃ all : Array Diagnostic,
      all.toList = analysis.parser.reports.toList ++ reports ∧
      reports.foldl Analysis.report analysis =
        { analysis with parser := { analysis.parser with reports := all } } := by
  induction reports with
  | nil => exact fun analysis => ⟨_, (append_nil _).symm, rfl⟩
  | cons first rest ih =>
    intro analysis
    obtain ⟨all, isAll, same⟩ := ih (analysis.report first)
    refine ⟨all, ?_, same⟩
    rw [isAll]
    simp [report]

def drained (analysis : Analysis) : Analysis := (Session.takeAsked analysis.takeReports.2).2

section

variable (analysis : Analysis)

theorem drained_eq : analysis.drained =
    { analysis with
      parser := { analysis.parser with reports := #[] }
      resolver := analysis.resolver.map fun resolver => { resolver with asked := [] } } := by
  unfold drained Session.takeAsked takeReports
  cases analysis.resolver <;> rfl

@[simp] theorem drained_decls : analysis.drained.decls = analysis.decls := by
  rw [drained_eq]
  rfl

@[simp] theorem drained_names : analysis.drained.names = analysis.names := by
  rw [drained_eq]

@[simp] theorem drained_fetched : analysis.drained.fetched = analysis.fetched := by
  rw [drained_eq]

@[simp] theorem drained_reports : analysis.drained.parser.reports = #[] := by
  rw [drained_eq]

@[simp] theorem drained_inputs : analysis.drained.parser.inputs = analysis.parser.inputs := by
  rw [drained_eq]

@[simp] theorem drained_calls : analysis.drained.prototypeCalls = analysis.prototypeCalls := by
  rw [drained_eq]

@[simp] theorem drained_defers : analysis.drained.resolver.isSome = analysis.resolver.isSome := by
  rw [drained_eq, Option.isSome_map]

theorem drained_surroundings : analysis.drained.surroundings = analysis.surroundings := by
  rw [drained_eq]
  rfl

end

theorem drained_lexed (lexed : analysis.parser.Lexed) : analysis.drained.parser.Lexed := by
  rw [drained_eq]
  exact lexed

/-- An analysis has taken in declarations since `start`: `ids` were dispatched and `waiting`
are checked only.  All of them are new. -/
structure Keeps (start : Analysis) (ids waiting : List DeclId) (now : Analysis) : Prop where
  follows : start.Follows start.decls.count now
  spread : now.decls.Spread start.decls.count (ids ++ waiting)
  waits : ∀ id ∈ waiting, now.Fits True False True False start.decls.count id

section Keeps

variable {group rest : Group} {fetched : List DeclId} {reports : List Diagnostic} {base : Nat}
  {parser : Parser}

variable {start now after : Analysis} {ids waiting : List DeclId}

theorem Keeps.refl (ready : start.Ready) : start.Keeps [] [] start :=
  ⟨.refl ready _, .nil _ _, by simp⟩

section

variable (keeps : start.Keeps ids waiting now)

include keeps

theorem Keeps.of_same (lexed : after.parser.Lexed) (decls : after.decls = now.decls)
    (names : after.names = now.names) (same : after.surroundings = now.surroundings) :
    start.Keeps ids waiting after where
  follows := keeps.follows.trans (.of_same keeps.follows.ready _ lexed decls names same)
  spread := by rw [decls]; exact keeps.spread
  waits := fun id member => (keeps.waits id member).of_same decls names

theorem Keeps.drain : start.Keeps ids waiting now.drained :=
  keeps.of_same (drained_lexed keeps.follows.ready.lexed) now.drained_decls now.drained_names
    now.drained_surroundings

theorem Keeps.same (evolves : now.EvolvesBy own fetched reports after) {id : DeclId}
    (member : id ∈ ids ++ waiting) (strange : ∀ other, now.decls.Family id other → ¬ own other) :
    now.decls.Intact after.decls id :=
  fun other family => evolves.kept other (keeps.spread.within id member other family).2
    (strange other family)

theorem Keeps.read_same (takes : now.parser.Takes parser) :
    ∀ id ∈ ids ++ waiting, now.decls.Intact { now with parser }.decls id :=
  fun id member other family => takes.kept other (keeps.spread.within id member other family).2

theorem Keeps.read (takes : now.parser.Takes parser) :
    start.Keeps ids waiting { now with parser } := by
  have follows := takes_follows keeps.follows.ready takes keeps.follows.count
  have same := keeps.read_same takes
  exact ⟨keeps.follows.trans follows,
    keeps.spread.congr takes.count fun id member =>
      owned_congr (same id member id (.inl rfl)),
    fun id member => (keeps.waits id member).extends follows.learns
      (same id (mem_append_right _ member))⟩

theorem Keeps.read_below (takes : now.parser.Takes parser) :
    { now with parser }.decls.Below now.decls.count (ids ++ waiting) := by
  intro id member other family
  have known := (keeps.spread.within id member id (.inl rfl)).2
  have same : { now with parser }.decls.get? id = now.decls.get? id := takes.kept id known
  exact (keeps.spread.within id member other ((Declarations.Family.congr same).mp family)).2

section

variable (raw : now.decls.RawGroup base group) (low : start.decls.count ≤ base)
  (below : now.decls.Below base (ids ++ waiting)) (checked : now.GroupChecked base group after)
  (evolves : now.EvolvesBy (now.decls.Families group) fetched reports after)

include raw below evolves

theorem Keeps.check_same :
    ∀ id ∈ ids ++ waiting, now.decls.Intact after.decls id :=
  fun id member => keeps.same evolves member fun other family ⟨root, inGroup, family'⟩ =>
    Nat.lt_irrefl _ (Nat.lt_of_lt_of_le (raw.above root inGroup other family').1
      (below id member other family))

include low checked

/-- What waits after a group was checked is accepted or invalid; names are deferred in it only
where the analysis defers names. -/
theorem Keeps.check_fits {deferrals} (defers : after.Defers → deferrals)
    (fits : ∀ id ∈ waiting, now.Fits True False deferrals False start.decls.count id) :
    ∀ id ∈ group ++ (waiting ++ fetched),
      after.Fits True False deferrals False start.decls.count id := by
  rw [forall_mem_append, forall_mem_append]
  refine ⟨fun id inGroup => ?_, fun id old => ?_, fun id new => ?_⟩
  · exact (checked.each id inGroup).imp (fun accepted => accepted.weaken (.refl after)
      defers (fun never => never) low fun _ _ => rfl) fun isInvalid => .inl ⟨trivial, isInvalid⟩
  · exact (fits id old).extends evolves.learns
      (keeps.check_same raw below evolves id (mem_append_right _ old))
  · exact .inl ((evolves.accepted.each id new).weaken (.refl after)
      defers (fun never => never) keeps.follows.count fun _ _ => rfl)

theorem Keeps.check : start.Keeps ids (group ++ (waiting ++ fetched)) after := by
  have above : ∀ other, now.decls.Families group other → base < other :=
    fun other ⟨id, member, family⟩ => (raw.above id member other family).1
  have same := keeps.check_same raw below evolves
  have owned : ∀ id ∈ (ids ++ waiting) ++ group, after.decls.owned id = now.decls.owned id :=
    fun id member => (mem_append.mp member).elim
      (fun old => owned_congr (same id old id (.inl rfl))) (checked.owned id)
  have joined := keeps.spread.above raw.spread low below
  have spread : after.decls.Spread start.decls.count (((ids ++ waiting) ++ group) ++ fetched) := by
    refine (joined.congr evolves.count owned).above (evolves.accepted.batch False False).spread
      keeps.follows.count fun id member other family => ?_
    exact (joined.within id member other (family.of_owned (owned id member))).2
  refine ⟨keeps.follows.trans (evolves.follows keeps.follows.count fun id own =>
      Nat.lt_of_le_of_lt low (above id own)), spread.perm ?_,
    keeps.check_fits raw low below checked evolves (fun _ => trivial) keeps.waits⟩
  rw [append_assoc, append_assoc]
  refine List.Perm.append_left ids ?_
  rw [← append_assoc, ← append_assoc]
  exact perm_append_comm.append_right fetched

end

end

theorem Keeps.batch (keeps : start.Keeps ids (group ++ rest) now) :
    now.Batch True False True False start.decls.count group := by
  obtain ⟨_, others, _⟩ := spread_append.mp keeps.spread
  obtain ⟨spread, _, _⟩ := spread_append.mp others
  exact ⟨fun id member => keeps.waits id (mem_append_left _ member), spread.within,
    spread.apart⟩

theorem append_reorder (ids group rest : Group) :
    ((ids ++ rest) ++ group).Perm (ids ++ (group ++ rest)) := by
  rw [append_assoc]
  exact perm_append_comm.append_left ids

section

variable (keeps : start.Keeps ids (group ++ rest) now)

include keeps

theorem Keeps.strange :
    now.decls.Spread start.decls.count (ids ++ rest) ∧
      ∀ id ∈ ids ++ rest, ∀ other, now.decls.Family id other →
        ¬ now.decls.Families group other := by
  obtain ⟨others, _, apart⟩ := spread_append.mp
    (keeps.spread.perm (append_reorder ids group rest).symm)
  exact ⟨others, fun id member other family ⟨id', inGroup, family'⟩ =>
    apart id member id' inGroup other family family'⟩

theorem Keeps.others {group'} (regroups : now.Regroups group group' after) :
    ∀ id ∈ ids ++ rest, now.decls.Intact after.decls id := by
  intro id member
  refine keeps.same regroups.evolves ?_ (keeps.strange.2 id member)
  exact (append_reorder ids group rest).mem_iff.mp (mem_append_left _ member)

theorem Keeps.regroup {group' : Group} (regroups : now.Regroups group group' after)
    (spread : after.decls.Spread start.decls.count group') :
    start.Keeps (ids ++ group') rest after := by
  obtain ⟨others, strange⟩ := keeps.strange
  have same := keeps.others regroups
  refine ⟨keeps.follows.trans (regroups.evolves.follows keeps.follows.count
      fun other ⟨id, member, family⟩ => ?_), ?_, fun id member => ?_⟩
  · exact (keeps.batch.within id member other family).1
  · rw [append_assoc]
    refine (spread_append.mpr ⟨?_, spread, ?_⟩).perm (append_reorder ids group' rest)
    · exact others.congr regroups.evolves.count fun id member =>
        owned_congr (same id member id (.inl rfl))
    · intro id member id' inGroup other family family'
      have family := (Declarations.Family.congr (same id member id (.inl rfl))).mp family
      exact strange id member other family (regroups.families other ⟨id', inGroup, family'⟩)
  · exact (keeps.waits id (mem_append_right _ member)).extends regroups.evolves.learns
      (same id (mem_append_right _ member))

end

end Keeps

end Analysis

/-! ## The journal -/

/-- What a transaction says of its declarations is so: which one is the first and which one
the last, and that there is a group exactly if there is one at all.  No declaration has the
number 0. -/
def Transaction.Tallies (transaction : Transaction) : Prop :=
  0 ∉ transaction.decls → transaction.first = transaction.decls.headD 0 ∧
    transaction.last = transaction.decls.getLastD 0 ∧
    (transaction.groups = 0 ↔ transaction.decls = [])

/-- One journal comes from another by noting the declarations `ids` in the last
transaction, and by switching dynamic lookup. -/
structure Journal.Continues (before : Journal) (ids : List DeclId) (after : Journal) : Prop where
  rest : after = { before with log := after.log, dynamicLookup := after.dynamicLookup }
  log : ∃ earlier first last, before.log = earlier ++ [first] ∧ after.log = earlier ++ [last] ∧
    last.id = first.id ∧ last.fragment = first.fragment ∧ last.state = first.state ∧
    last.declOnly = first.declOnly ∧ last.decls = first.decls ++ ids ∧
    (first.declOnly = true → last.batches.flatten = first.batches.flatten ++ ids) ∧
    (first.Tallies → last.Tallies)

theorem Journal.Continues.refl {earlier last} {journal : Journal}
    (log : journal.log = earlier ++ [last]) : journal.Continues [] journal :=
  ⟨rfl, earlier, last, last, log, log, rfl, rfl, rfl, rfl, (append_nil _).symm,
    fun _ => (append_nil _).symm, fun tallies => tallies⟩

theorem Journal.updateLast_of_log {earlier last} {journal : Journal}
    (log : journal.log = earlier ++ [last]) (change : Transaction → Transaction) :
    journal.updateLast change = { journal with log := earlier ++ [change last] } := by
  simp [updateLast, last?, log]

theorem Transaction.Tallies.record {transaction : Transaction} (tallies : transaction.Tallies)
    (group : Group) : (transaction.record group).Tallies := by
  cases group with
  | nil => exact tallies
  | cons id rest =>
    intro named
    have nonzero : 0 ∉ transaction.decls := fun zero => named (mem_append_left _ zero)
    obtain ⟨isFirst, _, _⟩ := tallies nonzero
    refine ⟨?_, ?_, ?_⟩
    · cases isDecls : transaction.decls with
      | nil => simp [Transaction.record, isFirst, isDecls]
      | cons head others =>
        have other : head ≠ 0 := fun zero => nonzero (isDecls ▸ zero ▸ mem_cons_self)
        simp [Transaction.record, isFirst, isDecls, other]
    · simp [Transaction.record, getLastD_eq_getLast?, getLast?_cons]
    · simp [Transaction.record]

theorem Transaction.record_eq (transaction : Transaction) (group : Group) :
    ∃ first last groups batches, transaction.record group =
        { transaction with first, last, decls := transaction.decls ++ group, groups, batches } ∧
      (transaction.declOnly = true → batches.flatten = transaction.batches.flatten ++ group) := by
  cases group with
  | nil =>
    exact ⟨transaction.first, transaction.last, transaction.groups, transaction.batches,
      by rw [append_nil]; rfl, fun _ => (append_nil _).symm⟩
  | cons id rest =>
    refine ⟨_, _, _, _, rfl, fun only => ?_⟩
    simp [only]

theorem Journal.Continues.record {before after : Journal} {ids : List DeclId}
    (continues : before.Continues ids after) (group : Group) :
    before.Continues (ids ++ group)
      (after.updateLast fun transaction => transaction.record group) := by
  obtain ⟨rest, earlier, first, last, isFirst, isLast, sameId, sameName, sameState, sameOnly,
    decls, batches, tallies⟩ := continues
  have tallied := fun begins => (tallies begins).record group
  obtain ⟨_, _, _, _, recorded, flat⟩ := last.record_eq group
  rw [updateLast_of_log isLast]
  refine ⟨by rw [rest], earlier, first, _, isFirst, rfl, ?_⟩
  rw [recorded] at tallied ⊢
  refine ⟨sameId, sameName, sameState, sameOnly, ?_, fun only => ?_, tallied⟩
  · rw [decls, append_assoc]
  · rw [flat (sameOnly.trans only), batches only, append_assoc]

theorem Journal.Continues.switch {ids} {before after : Journal}
    (continues : before.Continues ids after) (on : Bool) :
    before.Continues ids { after with dynamicLookup := on } := by
  obtain ⟨rest, log⟩ := continues
  exact ⟨by rw [rest], log⟩

/-! ## The session -/

namespace Session

def printed (session : Session) : Text :=
  (session.written.reverse.map OutputPart.programText).flatten ++
    session.generator.machine.printed.reverse.flatten

/-- What a call reads and never changes. -/
def settings (session : Session) :
    Option (List Text) × Option Snapshot × Bool × Version × Bool × Bool × Nat :=
  (session.only, session.snapshot, session.timings, session.version, session.busy, session.closed,
    session.patience)

/-- Dynamic lookup is on in the switch and in the analysis exactly when the journal says
so. -/
structure Switched (session : Session) : Prop where
  switch : session.switch.isOn = session.journal.dynamicLookup
  resolver : session.analysis.resolver.isSome = session.journal.dynamicLookup

/-- A session is taking in a fragment since `start`. -/
structure Works (flags : StageFlags) (start : Session) (ids waiting : List DeclId)
    (now : Session) : Prop where
  keeps : start.analysis.Keeps ids waiting now.analysis
  machine : now.generator.machine =
    { start.generator.machine with printed := now.generator.machine.printed }
  queue : now.generator.queue = start.generator.queue
  released : now.generator.released = start.generator.released
  unit : flags.generates = false → now.generator.pending = start.generator.pending
  printed : now.printed = start.printed
  engine : start.engine.Grows now.engine
  journal : start.journal.Continues ids now.journal
  arranged : now.pipeline.Arranged { flags with rewrites := now.journal.dynamicLookup }
  switched : now.Switched
  settings : now.settings = start.settings

section Works

variable {flags : StageFlags} {start now : Session} {ids waiting : List DeclId}

section

variable (works : Works flags start ids waiting now)

include works

theorem Works.patience : now.patience = start.patience := by
  have same := works.settings
  simp only [Session.settings, Prod.mk.injEq] at same
  exact same.2.2.2.2.2.2

theorem Works.unseen (trace : TraceRecorder) (timer : Option Timer) :
    Works flags start ids waiting { now with trace, timer } :=
  { works with switched := ⟨works.switched.switch, works.switched.resolver⟩ }

theorem Works.evolve {others} {analysis : Analysis}
    (keeps : start.analysis.Keeps ids others analysis)
    (resolver : analysis.resolver.isSome = now.analysis.resolver.isSome) :
    Works flags start ids others { now with analysis } :=
  { works with
    keeps
    switched := ⟨works.switched.switch, resolver.trans works.switched.resolver⟩ }

theorem Works.of_same (analysis : Analysis) (lexed : analysis.parser.Lexed)
    (decls : analysis.decls = now.analysis.decls) (names : analysis.names = now.analysis.names)
    (same : analysis.surroundings = now.analysis.surroundings)
    (resolver : analysis.resolver.isSome = now.analysis.resolver.isSome) :
    Works flags start ids waiting { now with analysis } :=
  works.evolve (works.keeps.of_same lexed decls names same) resolver

theorem Works.drain : Works flags start ids waiting now.drain := by
  have drained := works.evolve works.keeps.drain now.analysis.drained_defers
  exact { drained with
    engine := works.engine.trans (Engine.reportAll_grows _ _)
    switched := ⟨drained.switched.switch, drained.switched.resolver⟩ }

end

end Works

end Session

end FragmentCompiler
