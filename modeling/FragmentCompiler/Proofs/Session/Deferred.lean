import FragmentCompiler.Proofs.Session.Complete
import FragmentCompiler.Proofs.Session.Idle

/-!
# Declaring first and generating code later

A text that is only parsed for its declarations is lowered and run by the next call.  Both
calls together do what compiling the text at once does: the two ways take in the text side
by side, and lowering, whenever it happens, has nothing to report.
-/

set_option autoImplicit false

namespace FragmentCompiler

open List Analysis

/-! ## Counting -/

theorem Diagnostic.isError_of_repeats {left right : Diagnostic} (repeats : left.repeats right = true) :
    right.isError = left.isError := by
  simp only [Diagnostic.repeats, Bool.and_eq_true, beq_iff_eq] at repeats
  unfold Diagnostic.isError
  rw [repeats.1.1.2]

theorem Diagnostic.severity_of_isError {diagnostic : Diagnostic} (isError : diagnostic.isError = true) :
    diagnostic.severity ≠ .warning := by
  intro isWarning
  unfold Diagnostic.isError at isError
  rw [isWarning] at isError
  cases isError

namespace Engine

theorem reportAll_apart {old} (silent : ∀ entry ∈ old, entry.isError = false)
    (errors : List Diagnostic) (areErrors : ∀ entry ∈ errors, entry.isError = true) :
    ∀ {engine other : Engine}, engine.known = other.known ++ old →
      (engine.reportAll errors).errors + other.errors =
          engine.errors + (other.reportAll errors).errors ∧
        (engine.reportAll errors).warnings = engine.warnings ∧
        (other.reportAll errors).warnings = other.warnings := by
  induction errors with
  | nil => exact fun _ => ⟨rfl, rfl, rfl⟩
  | cons error rest ih =>
    intro engine other known
    have isError := areErrors error mem_cons_self
    have others : ∀ {engine other : Engine}, engine.known = other.known ++ old → _ :=
      ih fun entry member => areErrors entry (mem_cons_of_mem _ member)
    have strange : old.any error.repeats = false := by
      rw [any_eq_false]
      intro entry member repeats
      have same := Diagnostic.isError_of_repeats repeats
      rw [silent entry member, isError] at same
      cases same
    have same : engine.known.any error.repeats = other.known.any error.repeats := by
      rw [known, any_append, strange, Bool.or_false]
    have severity := Diagnostic.severity_of_isError isError
    simp only [reportAll, foldl_cons] at others ⊢
    cases repeated : other.known.any error.repeats with
    | true =>
      rw [show engine.report error = engine from if_pos (same.trans repeated),
        show other.report error = other from if_pos repeated]
      exact others known
    | false =>
      have recorded : ∀ {engine : Engine}, engine.known.any error.repeats = false →
          (engine.report error).errors = engine.errors + 1 ∧
            (engine.report error).warnings = engine.warnings ∧
            (engine.report error).known = error :: engine.known := by
        intro engine isNew
        simp [report, isNew, record, isError, severity]
      obtain ⟨errors, warnings, isKnown⟩ := recorded (same.trans repeated)
      obtain ⟨errors', warnings', isKnown'⟩ := recorded repeated
      obtain ⟨total, first, second⟩ := @others (engine.report error) (other.report error)
        (by rw [isKnown, isKnown', known, cons_append])
      rw [warnings] at first
      rw [warnings'] at second
      refine ⟨?_, first, second⟩
      omega

theorem count_apart {engine fresh : Engine} (silent : engine.Silent) (clear : fresh.IsClear)
    {errors : List Diagnostic} (areErrors : ∀ entry ∈ errors, entry.isError = true) :
    let alone := fresh.beginScope.reportAll errors
    (engine.reportAll errors).errors = engine.errors + alone.errors ∧
      (engine.reportAll errors).warnings = engine.warnings + alone.warnings := by
  have known : engine.known = fresh.beginScope.known ++ engine.known := by
    rw [show fresh.beginScope.known = [] from clear.known, nil_append]
  obtain ⟨total, first, second⟩ := reportAll_apart silent errors areErrors known
  rw [show fresh.beginScope.errors = 0 from clear.errors] at total
  rw [show fresh.beginScope.warnings = 0 from clear.warnings] at second
  exact ⟨total, by rw [first, second, Nat.add_zero]⟩

end Engine

/-! ## Lowering what was checked -/

namespace Analysis

theorem Fits.addDecl_reports {flaws lookups} {known : Analysis} {base id : DeclId}
    (fits : known.Fits flaws False False lookups base id) (unit : CodeUnit) :
    (unit.addDecl known.decls id).2 = [] := by
  rcases fits with accepted | ⟨_, decl, found, invalid⟩ | ⟨never, _⟩
  · exact accepted.addDecl_reports unit
  · unfold CodeUnit.addDecl
    simp only [found, invalid, if_true]
  · exact never.elim

theorem addAll_silent {group flaws lookups base} {known : Analysis}
    (each : ∀ id ∈ group, known.Fits flaws False False lookups base id) :
    ∀ unit : CodeUnit, (unit.addAll known.decls group).2 = [] := by
  induction group with
  | nil => exact fun _ => rfl
  | cons id rest ih =>
    intro unit
    rw [CodeUnit.addAll_cons, (each id mem_cons_self).addDecl_reports,
      ih fun other member => each other (mem_cons_of_mem _ member)]
    rfl

end Analysis

namespace Session

/-! ## Side by side -/

theorem dispatch_output {flags} {session : Session} (arranged : session.pipeline.Arranged flags)
    (group : Group) :
    let passed := session.analysis.throughStages flags group
    let shown := { session with analysis := passed.2 }.dumped flags.dumps passed.1
    (session.dispatch group).written = shown.written ∧
      (session.dispatch group).generator.machine = shown.generator.machine := by
  obtain ⟨early, late, pipeline, _, dispatched⟩ := dispatch_eq arranged group
  have machine : ∀ (now : Session) (on : Bool) (group : Group),
      (now.generated on group).written = now.written ∧
        (now.generated on group).generator.machine = now.generator.machine := by
    intro now on group
    cases on with
    | false => exact ⟨rfl, rfl⟩
    | true => exact ⟨rfl, (now.generator.handleGroup_frame now.analysis.decls group).1⟩
  intro passed shown
  have traced : ({ session with trace := early, analysis := passed.2 }.dumped flags.dumps
      passed.1).written = shown.written ∧
      ({ session with trace := early, analysis := passed.2 }.dumped flags.dumps
        passed.1).generator.machine = shown.generator.machine := by
    dsimp only [shown]
    unfold dumped
    cases flags.dumps <;> exact ⟨rfl, rfl⟩
  obtain ⟨written, printed⟩ := machine ({ session with trace := early, analysis := passed.2 }.dumped
    flags.dumps passed.1) flags.generates passed.1
  rw [dispatched]
  exact ⟨written.trans traced.1, printed.trans traced.2⟩

theorem dumped_congr {left right : Session}
    (machine : right.generator.machine = left.generator.machine)
    (written : right.written = left.written) (analysis : Analysis) (on : Bool) (group : Group) :
    ({ right with analysis }.dumped on group).written =
        ({ left with analysis }.dumped on group).written ∧
      ({ right with analysis }.dumped on group).generator.machine =
        ({ left with analysis }.dumped on group).generator.machine := by
  unfold dumped
  split
  · simp only [dump, collectPrinted, machine, written, and_self]
  · exact ⟨written, machine⟩

/-- Two sessions have taken in the same text since `start` and `other`, the second one
without code generation. -/
structure Paced (flags : StageFlags) (start other : Session) (ids waiting : List DeclId)
    (left right : Session) : Prop where
  works : Works flags start ids waiting left
  defers : Works { flags with generates := false } other ids waiting right
  analysis : right.analysis = left.analysis
  engine : right.engine = left.engine
  machine : right.generator.machine = left.generator.machine
  written : right.written = left.written
  lookup : right.journal.dynamicLookup = left.journal.dynamicLookup
  patience : other.patience = start.patience
  low : other.analysis.decls.count = start.analysis.decls.count
  held : start.generator.released = false
  plain : ¬ flags.Prompts
  fits : ∀ id ∈ waiting, left.analysis.Fits True False (left.journal.dynamicLookup = true) False
    start.analysis.decls.count id

section Paced

variable {group : Group}

variable {flags : StageFlags} {start other left right : Session} {ids waiting : List DeclId}

section

variable (paced : Paced flags start other ids waiting left right)

include paced

theorem Paced.unseen (trace trace' : TraceRecorder) (timer timer' : Option Timer) :
    Paced flags start other ids waiting { left with trace, timer }
      { right with trace := trace', timer := timer' } :=
  { paced with
    works := paced.works.unseen trace timer
    defers := paced.defers.unseen trace' timer' }

theorem Paced.drain : Paced flags start other ids waiting left.drain right.drain := { paced with
  works := paced.works.drain
  defers := paced.defers.drain
  analysis := congrArg drained paced.analysis
  engine := by
    show right.engine.reportAll right.analysis.parser.reports.toList =
      left.engine.reportAll left.analysis.parser.reports.toList
    rw [paced.engine, paced.analysis]
  fits := fun id member => (paced.fits id member).of_same left.analysis.drained_decls
    left.analysis.drained_names }

theorem Paced.read {parser : Parser} (takes : left.analysis.parser.Takes parser) :
    Paced flags start other ids waiting
      { left with analysis := { left.analysis with parser } }
      { right with analysis := { right.analysis with parser } } :=
  { paced with
    works := paced.works.read takes
    defers := paced.defers.read (by rw [paced.analysis]; exact takes)
    analysis := by
      dsimp only
      rw [paced.analysis]
    fits := fun id member => (paced.fits id member).extends
      (takes_follows paced.works.keeps.follows.ready takes
        paced.works.keeps.follows.count).learns
      (paced.works.keeps.read_same takes id (mem_append_right _ member)) }

theorem Paced.of_same (analysis : Analysis) (lexed : analysis.parser.Lexed)
    (decls : analysis.decls = left.analysis.decls) (names : analysis.names = left.analysis.names)
    (same : analysis.surroundings = left.analysis.surroundings)
    (resolver : analysis.resolver.isSome = left.analysis.resolver.isSome) :
    Paced flags start other ids waiting { left with analysis } { right with analysis } :=
  { paced with
    works := paced.works.of_same analysis lexed decls names same resolver
    defers := paced.defers.of_same analysis lexed (by rw [paced.analysis]; exact decls)
      (by rw [paced.analysis]; exact names) (by rw [paced.analysis]; exact same)
      (by rw [paced.analysis]; exact resolver)
    analysis := rfl
    fits := fun id member => (paced.fits id member).of_same decls names }

end

/-- A group that was fine is lowered without a report. -/
theorem Works.dispatch_silent {rest deferrals} {now : Session}
    (works : Works flags start ids (group ++ rest) now)
    (plain : ¬ flags.Prompts) (held : start.generator.released = false)
    (covers : deferrals → now.journal.dynamicLookup = true) (fits : ∀ id ∈ group,
      now.analysis.Fits True False deferrals False start.analysis.decls.count id) :
    let passed := now.analysis.throughStages (flagsNow flags now) group
    now.analysis.Regroups group passed.1 passed.2 ∧
      now.reported flags.generates passed = passed.2 := by
  intro passed
  obtain ⟨regroups, placed⟩ := throughStages_regroups works.keeps.follows.ready
    (flagsNow flags now) { works.keeps.batch with each := fits }
  have clean : passed.2.Batch True False False (_ ∨ False) start.analysis.decls.count passed.1 :=
    placed.weaken plain (fun both => Bool.noConfusion ((covers both.1).symm.trans both.2))
      fun looked => looked
  refine ⟨regroups, ?_⟩
  unfold reported
  rw [Generator.handleGroup_eq (works.released.trans held), addAll_silent clean.each]
  exact ite_self _

theorem Paced.checkedGroup {base}
    (paced : Paced flags start other ids left.analysis.fetched left right)
    (raw : left.analysis.decls.RawGroup base group) (low : start.analysis.decls.count ≤ base)
    (below : left.analysis.decls.Below base (ids ++ left.analysis.fetched)) :
    Paced flags start other ids (group ++ (left.checkedGroup group).analysis.fetched)
      (left.checkedGroup group) (right.checkedGroup group) := by
  have checked := checkGroup_checked group paced.works.keeps.follows.ready raw
  obtain ⟨fetched, reports, evolves, _⟩ := checked.evolves
  have isAnalysis : (right.analysis.checkGroup group).2 = (left.analysis.checkGroup group).2 := by
    rw [paced.analysis]
  have drained : (right.checkedGroup group).analysis = (left.checkedGroup group).analysis :=
    congrArg drained isAnalysis
  have decls : (left.checkedGroup group).analysis.decls = (left.analysis.checkGroup group).2.decls :=
    drained_decls _
  have names : (left.checkedGroup group).analysis.names = (left.analysis.checkGroup group).2.names :=
    drained_names _
  have defers : (left.analysis.checkGroup group).2.Defers → left.journal.dynamicLookup = true :=
    fun isSome => paced.works.switched.resolver.symm.trans (evolves.isSome_resolver.symm.trans isSome)
  refine { paced with
    works := paced.works.checkedGroup raw low below
    defers := ?_
    analysis := drained
    engine := ?_
    fits := ?_ }
  · have others : Works { flags with generates := false } other ids right.analysis.fetched right := by
      rw [paced.analysis]
      exact paced.defers
    rw [← drained]
    exact others.checkedGroup (by rw [paced.analysis]; exact raw) (paced.low ▸ low)
      (by rw [paced.analysis]; exact below)
  · show right.engine.reportAll (right.analysis.checkGroup group).2.parser.reports.toList =
      left.engine.reportAll (left.analysis.checkGroup group).2.parser.reports.toList
    rw [paced.engine, isAnalysis]
  · rw [fetched_checkedGroup evolves]
    intro id member
    exact (paced.works.keeps.check_fits raw low below checked evolves defers paced.fits id
      member).of_same decls names

/-- A group is dispatched in both sessions.  Where it is lowered, nothing is reported. -/
theorem Paced.dispatch {rest : Group}
    (paced : Paced flags start other ids (group ++ rest) left right) :
    Paced flags start other
      (ids ++ (left.analysis.throughStages (flagsNow flags left) group).1) rest
      (left.dispatch group) (right.dispatch group) := by
  let passed := left.analysis.throughStages (flagsNow flags left) group
  let quiet : StageFlags := { flags with generates := false }
  have same : right.analysis.throughStages (flagsNow quiet right) group = passed := by
    unfold flagsNow
    rw [paced.analysis, paced.lookup]
    rfl
  have arranged : left.pipeline.Arranged (flagsNow flags left) := paced.works.arranged
  have arranged' : right.pipeline.Arranged (flagsNow quiet right) := paced.defers.arranged
  obtain ⟨analysis, engine, _⟩ := dispatch_parts arranged group
  obtain ⟨analysis', engine', _⟩ := dispatch_parts arranged' group
  obtain ⟨written, machine⟩ := dispatch_output arranged group
  obtain ⟨written', machine'⟩ := dispatch_output arranged' group
  have deferred := paced.defers.dispatch
  rw [same] at analysis' engine' written' machine' deferred
  obtain ⟨regroups, silent⟩ := paced.works.dispatch_silent paced.plain paced.held id
    fun id member => paced.fits id (mem_append_left _ member)
  have isAnalysis : (left.dispatch group).analysis = passed.2.drained := by
    rw [analysis]
    exact congrArg drained silent
  have others : ∀ id ∈ rest, (left.dispatch group).analysis.Fits True False
      (left.journal.dynamicLookup = true) False start.analysis.decls.count id := by
    intro id member
    rw [isAnalysis]
    exact ((paced.fits id (mem_append_right _ member)).extends regroups.evolves.learns
      (paced.works.keeps.others regroups id (mem_append_right _ member))).of_same
      passed.2.drained_decls passed.2.drained_names
  obtain ⟨sameWritten, sameMachine⟩ :=
    dumped_congr paced.machine paced.written passed.2 flags.dumps passed.1
  exact { paced with
    works := paced.works.dispatch
    defers := deferred
    analysis := analysis'.trans isAnalysis.symm
    engine := by
      rw [engine, engine']
      show right.engine.reportAll passed.2.parser.reports.toList =
        left.engine.reportAll (left.reported flags.generates passed).parser.reports.toList
      rw [silent, paced.engine]
    machine := machine'.trans (sameMachine.trans machine.symm)
    written := written'.trans (sameWritten.trans written.symm)
    lookup := by
      rw [dynamicLookup_dispatch arranged, dynamicLookup_dispatch arranged']
      exact paced.lookup
    fits := by
      rw [dynamicLookup_dispatch arranged]
      exact others }

theorem Paced.fetched_dispatch
    (paced : Paced flags start other ids (group ++ left.analysis.fetched) left right) :
    Paced flags start other
      (ids ++ (left.analysis.throughStages (flagsNow flags left) group).1)
      (left.dispatch group).analysis.fetched (left.dispatch group) (right.dispatch group) := by
  rw [paced.works.fetched_dispatch]
  exact paced.dispatch

theorem Paced.takeUnits (fuel : Nat) :
    ∀ {ids : List DeclId} {left right : Session},
      Paced flags start other ids left.analysis.fetched left right →
      (∀ unit ∈ readUnits fuel left, unit.isPragma = false) →
      ∃ ids', Paced flags start other ids' (takeUnits fuel left).analysis.fetched
        (takeUnits fuel left) (takeUnits fuel right) := by
  induction fuel with
  | zero =>
    intro ids left right paced _
    have stopped := paced.read (Parser.abandon_takes _)
    refine ⟨ids, ?_⟩
    unfold Session.takeUnits
    rw [paced.analysis] at stopped ⊢
    exact stopped
  | succ fuel ih =>
    intro ids left right paced
    unfold Session.takeUnits readUnits
    have sameParser : right.analysis.parser.nextUnit right.patience =
        left.analysis.parser.nextUnit left.patience := by
      rw [paced.analysis, paced.works.patience, paced.defers.patience, paced.patience]
    rw [sameParser]
    rcases isNext : left.analysis.parser.nextUnit left.patience with ⟨unit, parser⟩
    obtain ⟨takes, _, grouped⟩ := paced.works.nextUnit isNext
    have reads := (paced.read takes).drain
    let read := { left with analysis := { left.analysis with parser } }.drain
    have fetched : read.analysis.fetched = left.analysis.fetched := drained_fetched _
    rw [← fetched] at reads
    intro free
    dsimp only at free ⊢
    have others := fun unit member => free unit (mem_cons_of_mem _ member)
    cases unit with
    | finished => exact ⟨ids, reads⟩
    | pragma key value span => exact absurd (free _ mem_cons_self) (by simp [SourceUnit.isPragma])
    | group group =>
      cases group with
      | nil => exact ih reads others
      | cons id rest =>
        obtain ⟨raw, below⟩ := grouped _ rfl
        have checked := reads.checkedGroup raw paced.works.keeps.follows.count below
        exact ih checked.fetched_dispatch others

theorem Paced.dispatchEach (waiting : List DeclId) :
    ∀ {ids : List DeclId} {left right : Session}, Paced flags start other ids waiting left right →
      ∃ ids', Paced flags start other ids' []
        (waiting.foldl (fun session id => session.dispatch [id]) left)
        (waiting.foldl (fun session id => session.dispatch [id]) right) := by
  induction waiting with
  | nil => exact fun paced => ⟨_, paced⟩
  | cons id rest ih =>
    intro ids left right paced
    have first : Paced flags start other ids ([id] ++ rest) left right := paced
    exact ih first.dispatch

theorem Paced.finishPending (paced : Paced flags start other ids waiting left right) :
    Paced flags start other ids waiting { left with analysis := left.analysis.finishPending }
      { right with analysis := left.analysis.finishPending } := by
  obtain ⟨_, _, _, _, warned⟩ := finishPending_reports left.analysis
  rw [warned]
  exact paced.of_same _ paced.works.keeps.follows.ready.lexed rfl rfl rfl rfl

theorem Paced.takeIn (paced : Paced flags start other ids left.analysis.fetched left right)
    (free : ∀ unit ∈ left.pendingUnits, unit.isPragma = false) :
    ∃ ids', Paced flags start other ids' [] left.takeIn right.takeIn := by
  let enteredLeft : Session := (left.beginPhase "parse").2.beginSpan .pass "parse"
  let enteredRight : Session := (right.beginPhase "parse").2.beginSpan .pass "parse"
  have enters : Paced flags start other ids enteredLeft.analysis.fetched enteredLeft enteredRight :=
    paced.unseen _ _ _ _
  obtain ⟨read, reads⟩ := enters.takeUnits left.patience free
  have samePatience : right.patience = left.patience := by
    rw [paced.works.patience, paced.defers.patience, paced.patience]
  have parses : Paced flags start other read left.parseInput.analysis.fetched left.parseInput
      right.parseInput := by
    obtain ⟨_, _, parsedLeft⟩ : ∃ late ended, left.parseInput =
        { enteredLeft.takeUnits left.patience with trace := late, timer := ended } := ⟨_, _, rfl⟩
    obtain ⟨_, _, parsedRight⟩ : ∃ late ended, right.parseInput =
        { enteredRight.takeUnits right.patience with trace := late, timer := ended } := ⟨_, _, rfl⟩
    rw [parsedLeft, parsedRight, samePatience]
    exact reads.unseen _ _ _ _
  obtain ⟨all, sends⟩ : ∃ all, Paced flags start other all [] left.parseInput.dispatchFetched
      right.parseInput.dispatchFetched := by
    obtain ⟨early, late, begun, ended, sentLeft⟩ := left.parseInput.dispatchFetched_eq
    obtain ⟨early', late', begun', ended', sentRight⟩ := right.parseInput.dispatchFetched_eq
    have emptied := (parses.of_same { left.parseInput.analysis with fetched := [] }
      parses.works.keeps.follows.ready.lexed rfl rfl rfl rfl).unseen early early' begun begun'
    obtain ⟨all, sends⟩ := emptied.dispatchEach
    refine ⟨all, ?_⟩
    rw [sentLeft, sentRight, parses.analysis]
    exact sends.unseen late late' ended ended'
  obtain ⟨early, late, begun, ended, endsLeft⟩ := left.parseInput.dispatchFetched.finishPending_eq
  obtain ⟨early', late', begun', ended', endsRight⟩ :=
    right.parseInput.dispatchFetched.finishPending_eq
  unfold Session.takeIn
  refine ⟨all, ?_⟩
  rw [endsLeft, endsRight, sends.analysis]
  exact (sends.finishPending.unseen early early' begun begun').drain.unseen late late' ended ended'

end Paced

/-! ## Two calls for one -/

/-- The errors and warnings a call counts before its counters are cleared; a call that is
refused counts nothing. -/
def counted (session : Session) (manner : Manner) (text : Text) : Nat × Nat :=
  if session.refusal.isSome then (0, 0)
  else
    let ended := (session.prepared manner).ended text manner.declOnly
    (ended.engine.errors, ended.engine.warnings)

section Calls

variable {session : Session} {flags : StageFlags} {text : Text} {pipeline : Pipeline StageStore}
  {trace : TraceRecorder}

theorem counted_open (isOpen : session.refusal = none) (manner : Manner) (text : Text) :
    let engine := ((session.prepared manner).ended text manner.declOnly).engine
    session.counted manner text = (engine.errors, engine.warnings) := by
  unfold counted
  rw [isOpen]
  rfl

theorem Stands.analysis_entered_congr {others} {other : Session} (stands : session.Stands flags)
    (stands' : other.Stands others) (analysis : other.analysis = session.analysis)
    (journal : other.journal = session.journal) (declOnly declOnly' : Bool) :
    (other.entered text declOnly').analysis = (session.entered text declOnly).analysis := by
  obtain ⟨_, _, _, _, isCleared⟩ := stands.cleared_eq
  obtain ⟨_, _, _, _, isCleared'⟩ := stands'.cleared_eq
  unfold entered
  rw [isCleared, isCleared']
  dsimp only
  split
  · exact analysis
  · unfold enterFragment
    dsimp only [files]
    rw [analysis, journal]

theorem Stands.paced (stands : session.Stands flags)
    (stands' : { session with pipeline, trace }.Stands { flags with generates := false })
    (plain : ¬ flags.Prompts) (free : ∀ unit ∈ session.units text false, unit.isPragma = false) :
    let other : Session := { session with pipeline, trace }
    ∃ ids, Paced flags (session.entered text false) (other.entered text true) ids []
      (session.taken text false) (other.taken text true) := by
  intro other
  have analysis : (other.entered text true).analysis = (session.entered text false).analysis :=
    stands.analysis_entered_congr stands' rfl rfl false true
  obtain ⟨_, _, _, _, isEntered, _⟩ := stands.entered_eq text false
  obtain ⟨_, _, _, _, isEntered', _⟩ := stands'.entered_eq text true
  have begins : Paced flags (session.entered text false) (other.entered text true) []
      (session.entered text false).analysis.fetched (session.entered text false)
      (other.entered text true) := {
    works := stands.begins text false
    defers := analysis ▸ stands'.begins text true
    analysis
    engine := by rw [isEntered, isEntered']; rfl
    machine := by rw [isEntered, isEntered']; rfl
    written := by rw [isEntered, isEntered']
    lookup := by rw [stands.lookup_entered, stands'.lookup_entered]
    patience := by rw [isEntered, isEntered']
    low := by rw [analysis]
    held := by rw [isEntered]; exact stands.released
    plain
    fits := by
      rw [stands.fetched_entered]
      exact forall_mem_nil _ }
  exact begins.takeIn free

theorem Stands.take_nil (stands : session.Stands flags) (isOpen : session.refusal = none)
    (patient : 0 < session.patience) :
    let after := (session.take (.compiled .asIs) []).2
    let engine := session.engine.beginScope.reportAll session.flushReports
    after.analysis.names = session.analysis.names ∧ after.analysis.decls = session.analysis.decls ∧
      after.generator = session.performed.2 ∧ after.written = session.written ∧
      session.counted (.compiled .asIs) [] = (engine.errors, engine.warnings) := by
  obtain ⟨_, _, _, isTaken⟩ := stands.take_ended isOpen (.compiled .asIs) []
  obtain ⟨resolver, _, _, _, _, _, _, _, isEnded⟩ :=
    (stands.prepared (.compiled .asIs)).ended_nil patient
  have ended : (session.prepared (.compiled .asIs)).ended [] (Manner.compiled .asIs).declOnly = _ :=
    isEnded
  rw [isTaken, counted_open isOpen, ended]
  exact ⟨rfl, rfl, rfl, rfl, rfl⟩

/-- Two sessions that go on alike: they know the same names and declarations, their machines
hold the same variables and functions, and they have written the same. -/
structure Matches (left right : Session) : Prop where
  names : right.analysis.names = left.analysis.names
  exported : right.analysis.exported = left.analysis.exported
  globals : right.generator.machine.globals = left.generator.machine.globals
  functions : right.generator.machine.functions = left.generator.machine.functions
  output : right.takeOutput.1 = left.takeOutput.1

theorem Matches.of_same {left right : Session} (names : right.analysis.names = left.analysis.names)
    (decls : right.analysis.decls = left.analysis.decls)
    (machine : right.generator.machine = left.generator.machine)
    (written : right.written = left.written) : left.Matches right where
  names
  exported := by
    have same : right.analysis.exportName = left.analysis.exportName := by
      funext name
      unfold exportName
      rw [names, decls]
    unfold Analysis.exported
    rw [names, same]
  globals := congrArg Machine.globals machine
  functions := congrArg Machine.functions machine
  output := by
    unfold takeOutput collectPrinted
    rw [machine, written]

section Settled

variable {ids : List DeclId} {last last' : Transaction}

theorem Stands.flushed_settled (stands : session.Stands flags)
    (settled : session.journal.pending? = none) :
    session.flushed.engine = session.engine.beginScope := by
  obtain ⟨_, _, _, _, isFlushed⟩ := stands.flushed_eq
  rw [isFlushed, (stands.performed_idle settled).2]
  rfl

theorem performed_settled (settled : session.journal.pending? = none)
    (queue : session.generator.queue = []) :
    session.performed.2.machine = session.generator.machine ∧ session.flushReports = [] := by
  have isUnit : session.owedUnit = ({}, []) := by
    unfold owedUnit owed
    rw [settled]
    rfl
  unfold flushReports performed Generator.perform
  rw [isUnit, queue]
  exact ⟨rfl, rfl⟩

/-- A flush brings the second session to where the first one is. -/
structure Catches (direct declared : Session) : Prop where
  analysis : declared.analysis = direct.analysis
  written : declared.written = direct.written
  machine : declared.performed.2.machine = direct.generator.machine
  counts : ∀ fresh : Engine, fresh.IsClear →
    let flush := fresh.beginScope.reportAll declared.flushReports
    direct.engine.errors = declared.engine.errors + flush.errors ∧
      direct.engine.warnings = declared.engine.warnings + flush.warnings

section

variable
  (paced : Paced flags (session.entered text false)
    ({ session with pipeline, trace }.entered text true) ids []
    (session.taken text false) ({ session with pipeline, trace }.taken text true))
  (takes : session.Takes flags text false ids last)
  (takes' : { session with pipeline, trace }.Takes { flags with generates := false } text true ids
    last')
  (settled : session.journal.pending? = none)

include paced takes takes' settled

theorem Paced.fails_iff :
    { session with pipeline, trace }.Fails text true ↔ session.Fails text false := by
  unfold Fails
  rw [paced.engine, takes'.stands.flushed_settled settled, takes.stands.flushed_settled settled]

theorem Paced.catches_failed (fails : session.Fails text false) :
    Catches (session.ended text false) ({ session with pipeline, trace }.ended text true) := by
  let other : Session := { session with pipeline, trace }
  have fails' := (paced.fails_iff takes takes' settled).mpr fails
  have marks : other.cleared.analysis.mark = session.cleared.analysis.mark := by
    rw [takes.stands.analysis_cleared, takes'.stands.analysis_cleared]
  let declared := other.ended text true
  have isDeclared : declared = _ := takes'.ended_failed fails'
  have isDirect := takes.ended_failed fails
  have idle : declared.journal.pending? = none := by
    rw [isDeclared, pending?_of_log rfl]
    exact if_neg TransactionState.noConfusion
  have queue : declared.generator.queue = [] := by
    rw [isDeclared]
    exact takes'.queue.1
  obtain ⟨machine, silent⟩ := performed_settled idle queue
  have engine : declared.engine = (session.ended text false).engine := by
    rw [isDeclared, isDirect]
    exact paced.engine
  exact {
    analysis := by
      refine (congrArg Session.analysis isDeclared).trans ?_
      rw [isDirect]
      dsimp only
      rw [paced.analysis, marks]
    written := by
      rw [isDirect]
      exact (congrArg Session.written isDeclared).trans paced.written
    machine := by
      refine machine.trans ?_
      rw [isDeclared, isDirect]
      exact paced.machine
    counts := fun fresh clear => by
      show _ = declared.engine.errors + _ ∧ _ = declared.engine.warnings + _
      rw [silent, engine]
      exact ⟨by rw [show (fresh.beginScope.reportAll []).errors = 0 from clear.errors, Nat.add_zero],
        by rw [show (fresh.beginScope.reportAll []).warnings = 0 from clear.warnings, Nat.add_zero]⟩ }

/-- A text that does not fail is lowered and run at the end of the one call and by the flush
after the other. -/
theorem Paced.catches_fine (generates : flags.generates = true)
    (fine : ¬ session.Fails text false) :
    Catches (session.ended text false) ({ session with pipeline, trace }.ended text true) := by
  let other : Session := { session with pipeline, trace }
  have stands := takes.stands
  have fine' := (not_congr (paced.fails_iff takes takes' settled)).mpr fine
  -- While nothing was counted, the unit that was gathered is the one a flush gathers.
  have still := takes.still fine
  obtain ⟨_, _, takes'', gathers⟩ := stands.gathers_wide text false
  rw [takes.unique takes''] at gathers
  have silent : (session.entered text false).engine.Silent := by
    intro entry member
    have reported := stands.known_entered member
    rw [(stands.performed_idle settled).2] at reported
    cases reported
  obtain ⟨groups, isUnit⟩ := gathers.unit generates still
  have lowers := gathers.silent generates silent.free still
  obtain ⟨_, _, _, _, isEnded⟩ := takes.ended_committed fine
  rw [takes.ran generates] at isEnded
  let declared := other.ended text true
  have isDeclared : declared = _ := takes'.ended_pending fine'
  have isOwed : declared.owed = ids := by
    rw [owed_of_parsed (show declared.journal.log = _ by rw [isDeclared]) rfl]
    exact takes'.batches rfl
  have analysis : declared.analysis = (session.taken text false).analysis := by
    rw [isDeclared]
    exact paced.analysis
  have machine : declared.generator.machine = (session.taken text false).generator.machine := by
    rw [isDeclared]
    exact paced.machine
  have queue : declared.generator.queue = [] := by
    rw [isDeclared]
    exact takes'.queue.1
  have patience : declared.patience = (session.taken text false).patience := by
    rw [isDeclared, paced.works.patience, ← paced.patience]
    exact paced.defers.patience
  have engine : declared.engine = (session.taken text false).engine := by
    rw [isDeclared]
    exact paced.engine
  let now := session.taken text false
  let ran := Generator.runAll now.patience (now.generator.machine.install now.generator.pending)
    now.generator.pending.runs
  have performs : declared.performed.1 = ran.1 ∧ declared.performed.2.machine = ran.2 := by
    unfold performed owedUnit Generator.perform
    rw [isOwed, analysis, machine, queue, patience, nil_append]
    dsimp only [ran, now]
    rw [isUnit]
    exact ⟨rfl, rfl⟩
  have reports : declared.flushReports = runReports ran.1 := by
    unfold flushReports
    rw [performs.1]
    unfold owedUnit
    rw [isOwed, analysis, lowers, nil_append]
  have direct : (session.ended text false).engine =
      declared.engine.reportAll declared.flushReports := by
    rw [isEnded, engine, reports]
  have hushed : declared.engine.Silent := by
    rw [engine]
    exact takes.works.engine.silent silent still
  have areErrors : ∀ entry ∈ declared.flushReports, entry.isError = true := by
    rw [reports]
    exact fun entry member => (runReports_code _ entry member).2
  exact {
    analysis := by rw [isEnded]; exact analysis
    written := by
      rw [isEnded]
      exact (congrArg Session.written isDeclared).trans paced.written
    machine := by rw [isEnded]; exact performs.2
    counts := fun fresh clear => by
      rw [direct]
      exact Engine.count_apart hushed clear areErrors }

end

end Settled

theorem Stands.declared_flushed (stands : session.Stands flags) (isOpen : session.refusal = none)
    (patient : 0 < session.patience) (settled : session.journal.pending? = none)
    (generates : flags.generates = true)
    (free : ∀ unit ∈ (session.prepared (.compiled .asIs)).units text false,
      unit.isPragma = false) :
    let declared := (session.take .declared text).2
    let counts := session.counted (.compiled .asIs) text
    let early := session.counted .declared text
    let late := declared.counted (.compiled .asIs) []
    (session.take (.compiled .asIs) text).2.Matches (declared.take (.compiled .asIs) []).2 ∧
      counts.1 = early.1 + late.1 ∧ counts.2 = early.2 + late.2 := by
  intro declared
  have prepared := stands.prepared (.compiled .asIs)
  have prepared' := stands.prepared .declared
  obtain ⟨ids, paced⟩ :=
    prepared.paced prepared' (by simp [StageFlags.Prompts, Manner.flags]) free
  obtain ⟨_, takes⟩ := prepared.takes_of paced.works
  obtain ⟨_, takes'⟩ := prepared'.takes_of paced.defers
  obtain ⟨_, _, _, isDirect⟩ := stands.take_ended isOpen (.compiled .asIs) text
  obtain ⟨_, _, _, isDeclared⟩ := stands.take_ended isOpen .declared text
  obtain ⟨stands', settings⟩ := stands.take isOpen .declared text
  simp only [Session.settings, Prod.mk.injEq] at settings
  obtain ⟨_, _, _, _, busy, closed, patience⟩ := settings
  have isOpen' : declared.refusal = none := by
    unfold refusal at isOpen ⊢
    rw [busy, closed]
    exact isOpen
  obtain ⟨names, decls, generator, written, counts⟩ :=
    stands'.take_nil isOpen' (by rw [patience]; exact patient)
  have catches : Catches ((session.prepared (.compiled .asIs)).ended text false)
      ((session.prepared .declared).ended text true) := by
    by_cases fails : (session.prepared (.compiled .asIs)).Fails text false
    · exact paced.catches_failed takes takes' settled fails
    · exact paced.catches_fine takes takes' settled generates fails
  rw [counted_open isOpen, counted_open isOpen, counts]
  refine ⟨.of_same ?_ ?_ ?_ ?_, ?_⟩
  · rw [names, isDirect, isDeclared]
    exact congrArg Analysis.names catches.analysis
  · rw [decls, isDirect, isDeclared]
    exact congrArg Analysis.decls catches.analysis
  · rw [generator, isDeclared, isDirect]
    exact catches.machine
  · rw [written, isDirect, isDeclared]
    exact catches.written
  · have total := catches.counts _ stands'.clear
    have same : declared.flushReports =
        ((session.prepared .declared).ended text true).flushReports := by
      dsimp only [declared]
      rw [isDeclared]
      rfl
    rw [← same] at total
    exact total

end Calls

/-- Declaring a text and then flushing it is compiling it: whenever nothing is pending and
code is generated, a text that meets no pragma, neither in itself nor in what it includes,
leaves the same names, declarations, variables, functions and output either way, and as many
errors and warnings are counted. -/
theorem declared_then_flushed {session : Session} (reachable : Reachable session)
    (settled : session.journal.pending? = none)
    (generates : .codeGenerator ∈ session.pipeline.enabled) (text : Text)
    (free : ∀ unit ∈ (session.prepared (.compiled .asIs)).units text false,
      unit.isPragma = false) :
    let direct := (session.take (.compiled .asIs) text).2
    let declared := (session.take .declared text).2
    let flushed := (declared.take (.compiled .asIs) []).2
    let counts := session.counted (.compiled .asIs) text
    let early := session.counted .declared text
    let late := declared.counted (.compiled .asIs) []
    direct.Matches flushed ∧ counts.1 = early.1 + late.1 ∧ counts.2 = early.2 + late.2 := by
  intro direct declared flushed counts early late
  have orderly := reachable.orderly
  rcases Bool.eq_false_or_eq_true session.closed with closed | isOpen
  · have refused := refusal_closed closed
    have isDirect : direct = session := by
      simp only [direct, take_refused refused]
    have isDeclared : declared = session := by
      simp only [declared, take_refused refused]
    have isFlushed : flushed = session := by
      simp only [flushed, isDeclared, take_refused refused]
    have none : ∀ manner text, session.counted manner text = (0, 0) := by
      intro manner text
      simp [counted, refused]
    refine ⟨?_, ?_, ?_⟩
    · rw [isDirect, isFlushed]
      exact .of_same rfl rfl rfl rfl
    · simp only [counts, early, late, isDeclared, none]
    · simp only [counts, early, late, isDeclared, none]
  · obtain ⟨flags, stands⟩ := (orderly.steady isOpen).stands
    exact stands.declared_flushed (refusal_open orderly.idle isOpen) reachable.patient
      settled (generates_of_enabled stands.stages generates) free

/-- A text whose second variable divides by zero, declared and then flushed. -/
theorem declared_then_flushed_division :
    let session := fresh {} {} { noBootstrap := true } (.empty [])
    let text : Text := "int f(int n) \x7b print(n); return 6 / n; \x7d int a = f(2); int b = f(0);"
    let direct := (session.take (.compiled .asIs) text).2
    let declared := (session.take .declared text).2
    let flushed := (declared.take (.compiled .asIs) []).2
    declared.journal.pending?.isSome = true ∧
      flushed.takeOutput.1 = [.program "2\n0\n"] ∧
      session.counted .declared text = (0, 0) ∧ declared.counted (.compiled .asIs) [] = (1, 0) ∧
      direct.Matches flushed ∧ session.counted (.compiled .asIs) text = (1, 0) := by
  intro session text direct declared flushed
  have early : session.counted .declared text = (0, 0) := by decide +kernel
  have late : declared.counted (.compiled .asIs) [] = (1, 0) := by decide +kernel
  obtain ⟨same, errors, warnings⟩ := declared_then_flushed (Reachable.opened (opens_bare []))
    (by decide +kernel) (by decide +kernel) text (by decide +kernel)
  refine ⟨by decide +kernel, by decide +kernel, early, late, same, Prod.ext ?_ ?_⟩
  · rw [errors, early, late]
    rfl
  · rw [warnings, early, late]
    rfl

end Session

end FragmentCompiler
