import FragmentCompiler.Proofs.Printing
import FragmentCompiler.Proofs.Session.Units

/-!
# Sessions between calls

Between two calls nothing is half done: no transaction is open, nothing waits to be
dispatched, lowered or run, and the counters are clear.  Every call starts from such a state
and ends in one.
-/

set_option autoImplicit false

namespace FragmentCompiler

open List Journal

/-- Nothing is counted and nothing is known. -/
structure Engine.IsClear (engine : Engine) : Prop where
  errors : engine.errors = 0
  warnings : engine.warnings = 0
  known : engine.known = []
  depth : engine.depth = 0

def Journal.flushed (journal : Journal) : Journal :=
  match journal.pending? with
  | some transaction =>
    { journal with
      log := journal.log.dropLast ++ [{ transaction with batches := [], state := .committed }] }
  | none => journal

theorem Journal.log_of_pending {transaction} {journal : Journal}
    (isPending : journal.pending? = some transaction) :
    journal.log = journal.log.dropLast ++ [transaction] ∧ transaction.state = .parsed := by
  unfold pending? at isPending
  split at isPending
  · rename_i last isLast
    split at isPending
    · rename_i parsed
      cases isPending
      exact ⟨(dropLast_append_getLast? transaction isLast).symm, parsed⟩
    · cases isPending
  · cases isPending

namespace Session

/-- A session between two calls. -/
structure Steady (session : Session) : Prop where
  ready : session.analysis.Ready
  inputs : session.analysis.parser.inputs = []
  fetched : session.analysis.fetched = []
  calls : session.analysis.prototypeCalls = []
  reports : session.analysis.parser.reports = #[]
  idle : session.journal.isOpen = false
  clear : session.engine.IsClear
  arranged : ∃ flags, session.pipeline.Arranged flags
  switched : session.Switched
  unit : session.generator.pending = {}
  queue : session.generator.queue = []
  released : session.generator.released = false

/-- A session between two calls whose stages stand as the flags say. -/
structure Stands (flags : StageFlags) (session : Session) : Prop extends Steady session where
  stages : session.pipeline.Arranged flags

theorem Steady.stands {session : Session} (steady : session.Steady) :
    ∃ flags, session.Stands flags :=
  steady.arranged.imp fun _ stages => ⟨steady, stages⟩

theorem Steady.restage {session : Session} {pipeline : Pipeline StageStore} {flags}
    (steady : session.Steady) (stages : pipeline.Arranged flags) (trace : TraceRecorder) :
    { session with pipeline, trace }.Stands flags :=
  { steady with
    stages
    arranged := ⟨flags, stages⟩
    switched := ⟨steady.switched.switch, steady.switched.resolver⟩ }

/-! ## Flushing -/

/-- The declarations that wait for code generation. -/
def owed (session : Session) : List DeclId :=
  ((session.journal.pending?.map Transaction.batches).getD []).flatten

/-- What lowering them gives. -/
def owedUnit (session : Session) : CodeUnit × List Diagnostic :=
  ({} : CodeUnit).addAll session.analysis.decls session.owed

/-- What committing and running them gives. -/
def performed (session : Session) : List InitializerResult × Generator :=
  session.generator.perform session.patience session.owedUnit.1

def flushReports (session : Session) : List Diagnostic :=
  session.owedUnit.2 ++ runReports session.performed.1

section Steady

variable {mark : AnalysisMark} {inherited : Nat}

variable {session : Session} {flags : StageFlags}

theorem Steady.performed_idle (steady : session.Steady) (isIdle : session.journal.pending? = none) :
    session.performed = ([], session.generator) ∧ session.flushReports = [] := by
  have isOwed : session.owed = [] := by simp [owed, isIdle]
  have isUnit : session.owedUnit = ({}, []) := by simp only [owedUnit, isOwed]; rfl
  have idles : session.performed = ([], session.generator) := by
    unfold performed Generator.perform
    rw [isUnit]
    simp only [CodeUnit.runs, append_nil, steady.queue, Generator.runAll, Machine.install,
      foldl_nil]
    rw [← steady.unit, ← steady.queue]
  exact ⟨idles, by simp [flushReports, isUnit, idles, runReports]⟩

/-- A flush commits and runs what is owed; it touches nothing else but the journal. -/
theorem Stands.flushed_eq (stands : session.Stands flags) :
    ∃ (pipeline : Pipeline StageStore) (trace : TraceRecorder) (timer : Option Timer),
      pipeline.Arranged flags ∧
      session.flushed =
        { session with
          generator := session.performed.2
          engine := session.engine.beginScope.reportAll session.flushReports
          journal := session.journal.flushed
          pipeline
          trace
          timer } := by
  unfold flushed
  cases isPending : session.journal.pending? with
  | some transaction =>
    obtain ⟨log, parsed⟩ := log_of_pending isPending
    have isOwed : session.owed = transaction.batches.flatten := by simp [owed, isPending]
    obtain ⟨pipeline, trace, timer, isArranged, isFlushed⟩ :=
      flushPending_eq (show session.begun.pipeline.Arranged flags from stands.stages)
        (show session.begun.generator.released = false from stands.released)
        (show session.begun.journal.log = _ from log) parsed
    refine ⟨pipeline, trace, timer, isArranged, ?_⟩
    have isJournal : session.journal.flushed =
        { session.journal with
          log := session.journal.log.dropLast ++
            [{ transaction with batches := [], state := .committed }]
          isOpen := false } := by
      unfold Journal.flushed
      rw [isPending]
      simp only [stands.idle]
    rw [isJournal]
    simp only [performed, flushReports, owedUnit, isOwed]
    exact isFlushed
  | none =>
    obtain ⟨idles, silent⟩ := stands.performed_idle isPending
    have isJournal : session.journal.flushed = session.journal := by
      unfold Journal.flushed
      rw [isPending]
    rw [idles, isJournal, silent]
    exact ⟨session.pipeline, _, _, stands.stages, rfl⟩

/-! ## Entering a text -/

theorem dynamicLookup_flushed (journal : Journal) :
    journal.flushed.dynamicLookup = journal.dynamicLookup := by
  unfold Journal.flushed
  split <;> rfl

theorem Stands.cleared_eq (stands : session.Stands flags) :
    ∃ (pipeline : Pipeline StageStore) (trace : TraceRecorder) (timer : Option Timer),
      pipeline.Arranged { flags with rewrites := session.journal.dynamicLookup } ∧
      session.cleared =
        { session with
          generator := session.performed.2
          engine := session.engine.beginScope.reportAll session.flushReports
          journal := session.journal.flushed
          pipeline
          trace
          timer } := by
  obtain ⟨pipeline, trace, timer, isArranged, isFlushed⟩ := stands.flushed_eq
  have reset : pipeline.resetQueue.Arranged flags := by
    obtain ⟨last, _, rfl⟩ := isArranged
    exact ⟨last, [], rfl⟩
  refine ⟨_, trace, timer, reset.restore .dynamicRewriter session.journal.dynamicLookup, ?_⟩
  unfold cleared
  rw [isFlushed]
  simp only [armRewriter, dynamicLookup_flushed]
  rfl

theorem enterFragment_eq (session : Session) (name text : Text) : ∃ (files : FileSet) (id : FileId),
    session.enterFragment name text =
      { session with
        analysis :=
          { session.analysis with parser := { session.analysis.parser with files }.enter id } } :=
  ⟨_, _, rfl⟩

theorem enterFile_takes {parser : Parser} (lexed : parser.Lexed) (files : FileSet) (id : FileId) :
    parser.Takes ({ parser with files }.enter id) := by
  have later : { parser with files }.Lexed := lexed
  exact (Parser.files_takes lexed files).trans (Parser.enter_takes later id)

theorem enter_decls (parser : Parser) (id : FileId) : (parser.enter id).decls = parser.decls := by
  unfold Parser.enter
  split <;> rfl

theorem enter_reports (parser : Parser) (id : FileId) :
    (parser.enter id).reports = parser.reports := by
  unfold Parser.enter
  split <;> rfl

section

variable (stands : session.Stands flags) (text : Text) (declOnly : Bool)

include stands

theorem Stands.entered_eq :
    ∃ (parser : Parser) (pipeline : Pipeline StageStore) (trace : TraceRecorder)
      (timer : Option Timer),
      session.entered text declOnly =
        { session with
          analysis := { session.analysis with parser }
          generator := session.performed.2
          engine := session.engine.beginScope.reportAll session.flushReports
          journal := openedJournal session.journal.flushed text declOnly
          pipeline
          trace
          timer } ∧
      session.analysis.parser.Takes parser ∧ parser.decls = session.analysis.decls ∧
      parser.reports = #[] ∧
      pipeline.Arranged { flags with rewrites := session.journal.dynamicLookup } := by
  obtain ⟨pipeline, trace, timer, isArranged, isCleared⟩ := stands.cleared_eq
  have lexed := stands.ready.lexed
  unfold entered
  rw [isCleared]
  dsimp only
  split
  · exact ⟨session.analysis.parser, pipeline, trace, timer, rfl, .refl lexed, rfl, stands.reports,
      isArranged⟩
  · exact ⟨_, pipeline, trace, timer, rfl, enterFile_takes lexed _ _, enter_decls _ _,
      (enter_reports _ _).trans stands.reports, isArranged⟩

theorem Stands.works :
    Works flags (session.entered text declOnly) [] [] (session.entered text declOnly) := by
  obtain ⟨parser, pipeline, trace, timer, isEntered, takes, _, _, isArranged⟩ :=
    stands.entered_eq text declOnly
  have follows := Analysis.takes_follows stands.ready takes (Nat.zero_le _)
  have same : (openedJournal session.journal.flushed text declOnly).dynamicLookup =
      session.journal.dynamicLookup := by
    rw [← dynamicLookup_flushed session.journal]
    unfold openedJournal numbered
    split <;> rfl
  rw [isEntered]
  exact {
    keeps := .refl follows.ready
    machine := rfl
    queue := rfl
    released := rfl
    unit := fun _ => rfl
    printed := rfl
    engine := .refl _
    journal := .refl rfl
    arranged := by rw [same]; exact isArranged
    switched := ⟨stands.switched.switch.trans same.symm, stands.switched.resolver.trans same.symm⟩
    settings := rfl }

end

theorem reports_takeIn (session : Session) : session.takeIn.analysis.parser.reports = #[] := by
  obtain ⟨early, late, begun, ended, finished⟩ :=
    session.parseInput.dispatchFetched.finishPending_eq
  unfold takeIn
  rw [finished]
  exact Analysis.drained_reports _

section

variable (stands : session.Stands flags)

include stands

theorem Stands.fetched_entered (text : Text) (declOnly : Bool) :
    (session.entered text declOnly).analysis.fetched = [] := by
  obtain ⟨_, _, _, _, isEntered, _⟩ := stands.entered_eq text declOnly
  rw [isEntered]
  exact stands.fetched

/-- A call has taken in its text: it dispatched `ids` and noted them in `last`. -/
structure Takes (flags : StageFlags) (session : Session) (text : Text) (declOnly : Bool)
    (ids : List DeclId) (last : Transaction) : Prop where
  stands : session.Stands flags
  works : Works flags (session.entered text declOnly) ids [] (session.taken text declOnly)
  inputs : (session.taken text declOnly).analysis.parser.inputs = []
  calls : (session.taken text declOnly).analysis.prototypeCalls = []
  fetched : (session.taken text declOnly).analysis.fetched = []
  reports : (session.taken text declOnly).analysis.parser.reports = #[]
  isOpen : (session.taken text declOnly).journal.isOpen = true
  log : (session.taken text declOnly).journal.log = session.journal.flushed.log ++ [last]
  id : last.id = session.journal.flushed.log.length + 1
  only : last.declOnly = declOnly
  decls : last.decls = ids
  batches : declOnly = true → last.batches.flatten = ids
  fragment : last.fragment = (numbered session.journal.flushed text).1
  tallies : last.Tallies

theorem Stands.begins (text : Text) (declOnly : Bool) :
    Works flags (session.entered text declOnly) []
      (session.entered text declOnly).analysis.fetched (session.entered text declOnly) := by
  rw [stands.fetched_entered text declOnly]
  exact stands.works text declOnly

theorem Stands.takes_of {text declOnly ids}
    (ends : Works flags (session.entered text declOnly) ids [] (session.taken text declOnly)) :
    ∃ last, session.Takes flags text declOnly ids last := by
  obtain ⟨_, _, _, _, isEntered, _⟩ := stands.entered_eq text declOnly
  obtain ⟨_, calls, fetched, inputs⟩ := (stands.begins text declOnly).takeIn
  have isJournal : (session.entered text declOnly).journal =
      openedJournal session.journal.flushed text declOnly := by rw [isEntered]
  obtain ⟨rest, earlier, first, last, isFirst, isLast, sameId, sameName, _, sameOnly, decls,
    batches, tallies⟩ := ends.journal
  have isOpened : session.journal.flushed.log ++
      [newTransaction session.journal.flushed text declOnly] = earlier ++ [first] := by
    rw [← isFirst, isJournal]
    rfl
  obtain ⟨rfl, isNew⟩ := append_inj' isOpened rfl
  cases isNew
  refine ⟨last, stands, ends, inputs, calls, fetched, reports_takeIn _, ?_, isLast, sameId,
    sameOnly, decls, batches, sameName,
    tallies fun _ => ⟨rfl, rfl, Iff.intro (fun _ => rfl) fun _ => rfl⟩⟩
  exact (congrArg isOpen rest).trans (congrArg isOpen isJournal)

theorem Stands.takes (text : Text) (declOnly : Bool) :
    ∃ ids last, session.Takes flags text declOnly ids last := by
  obtain ⟨⟨ids, ends⟩, _⟩ := (stands.begins text declOnly).takeIn
  exact ⟨ids, stands.takes_of ends⟩

end

/-! ## Settling -/

theorem markParsed_of_log {earlier last} {journal : Journal} (log : journal.log = earlier ++ [last])
    (isOpen : journal.isOpen = true) :
    journal.markParsed =
      { journal with log := earlier ++ [{ last with state := .parsed }], isOpen := false } := by
  unfold markParsed
  rw [if_pos isOpen, updateLast_of_log log]

theorem settle_failed {declOnly} (fails : inherited < session.engine.errors) :
    session.settle mark inherited declOnly =
      { session with
        generator := session.generator.discard
        analysis := session.analysis.rollback mark
        journal := session.journal.fail } := if_pos fails

theorem settle_pending
    (fine : ¬ inherited < session.engine.errors) : session.settle mark inherited true = session :=
  (if_neg fine).trans (if_pos rfl)

theorem settle_committed (fine : ¬ inherited < session.engine.errors) :
    session.settle mark inherited false =
      { session.flush.runInitializers with
        journal := session.flush.runInitializers.journal.commit } :=
  (if_neg fine).trans (if_neg Bool.false_ne_true)

theorem conclude_eq (session : Session) (fragment : Text) : ∃ trace,
    (session.conclude fragment).2 =
      { session with engine := session.engine.endScope.reset, timer := none, trace } :=
  ⟨_, rfl⟩

/-- A call counts errors of its own. -/
def Fails (session : Session) (text : Text) (declOnly : Bool) : Prop :=
  session.flushed.engine.errors < (session.taken text declOnly).engine.errors

variable {text : Text} {declOnly : Bool} {ids : List DeclId} {last : Transaction}

theorem Takes.ended_failed (takes : session.Takes flags text declOnly ids last)
    (fails : session.Fails text declOnly) :
    session.ended text declOnly =
      { session.taken text declOnly with
        generator := (session.taken text declOnly).generator.discard
        analysis := (session.taken text declOnly).analysis.rollback session.cleared.analysis.mark
        journal :=
          { (session.taken text declOnly).journal with
            log := session.journal.flushed.log ++ [{ last with state := .failed }]
            isOpen := false } } := by
  unfold ended
  rw [markParsed_of_log takes.log takes.isOpen]
  rw [settle_failed (by exact fails)]
  dsimp only
  unfold fail
  rw [close_of_log rfl .failed (.inr rfl)]

theorem Takes.ended_pending (takes : session.Takes flags text true ids last)
    (fine : ¬ session.Fails text true) :
    session.ended text true =
      { session.taken text true with
        journal :=
          { (session.taken text true).journal with
            log := session.journal.flushed.log ++ [{ last with state := .parsed }]
            isOpen := false } } := by
  unfold ended
  rw [markParsed_of_log takes.log takes.isOpen]
  exact settle_pending fine

/-- The code generation of a call that succeeds, before its queue is run. -/
def committing (flags : StageFlags) (session : Session) : Generator :=
  if flags.generates then session.generator.commit else session.generator

theorem Takes.ended_committed (takes : session.Takes flags text false ids last)
    (fine : ¬ session.Fails text false) :
    let now := session.taken text false
    let ran := (now.committing flags).runQueue now.patience
    ∃ (pipeline : Pipeline StageStore) (trace : TraceRecorder) (timer : Option Timer),
      pipeline.Arranged { flags with rewrites := now.journal.dynamicLookup } ∧
      session.ended text false =
        { now with
          generator := ran.2
          engine := now.engine.reportAll (runReports ran.1)
          journal :=
            { now.journal with
              log := session.journal.flushed.log ++ [{ last with state := .committed }]
              isOpen := false }
          pipeline
          trace
          timer } := by
  intro now ran
  let parsed : Session :=
    { now with
      journal :=
        { now.journal with
          log := session.journal.flushed.log ++ [{ last with state := .parsed }]
          isOpen := false } }
  have isEnded : session.ended text false =
      { parsed.flush.runInitializers with
        journal := parsed.flush.runInitializers.journal.commit } := by
    unfold ended
    rw [markParsed_of_log takes.log takes.isOpen]
    exact settle_committed fine
  let begins : Session :=
    { parsed with
      timer := (Timer.beginIn parsed.timer "flush").2
      trace := parsed.trace.begin .pass "flush" }
  obtain ⟨pipeline, isArranged, _, staged⟩ := flushStages_eq
    (show begins.pipeline.Arranged { flags with rewrites := now.journal.dynamicLookup } from
      takes.works.arranged)
  obtain ⟨trace, timer, isFlushed⟩ : ∃ trace timer, parsed.flush =
      { parsed with pipeline, generator := now.committing flags, trace, timer } := by
    unfold flush
    dsimp only [beginPhase, beginSpan]
    rw [show flushStages _ = _ from staged]
    exact ⟨_, _, rfl⟩
  obtain ⟨trace', timer', isRun⟩ := runInitializers_eq
    { parsed with pipeline, generator := now.committing flags, trace, timer }
  refine ⟨pipeline, trace', timer', isArranged, ?_⟩
  rw [isEnded, isFlushed, isRun]
  dsimp only
  unfold commit
  rw [close_of_log rfl .committed (.inr rfl)]

/-! ## The next call -/

section

variable (stands : session.Stands flags) (text) (declOnly)

include stands

theorem Stands.names_entered :
    (session.entered text declOnly).analysis.names = session.analysis.names ∧
      (session.entered text declOnly).analysis.decls = session.analysis.decls := by
  obtain ⟨parser, _, _, _, isEntered, _, decls, _⟩ := stands.entered_eq text declOnly
  rw [isEntered]
  exact ⟨rfl, decls⟩

theorem Stands.generator_entered :
    (session.entered text declOnly).generator = session.performed.2 := by
  obtain ⟨_, _, _, _, isEntered, _⟩ := stands.entered_eq text declOnly
  rw [isEntered]

theorem Stands.engine_entered :
    (session.entered text declOnly).engine =
      session.engine.beginScope.reportAll session.flushReports := by
  obtain ⟨_, _, _, _, isEntered, _⟩ := stands.entered_eq text declOnly
  rw [isEntered]

theorem Stands.depth_entered :
    (session.entered text declOnly).engine.depth = 1 := by
  rw [stands.engine_entered]
  exact (Engine.reportAll_grows _ _).depth.trans (congrArg Nat.succ stands.clear.depth)

theorem Stands.idle_cleared : session.cleared.journal.isOpen = false := by
  obtain ⟨_, _, _, _, isCleared⟩ := stands.cleared_eq
  rw [isCleared]
  show session.journal.flushed.isOpen = false
  unfold Journal.flushed
  split <;> exact stands.idle

theorem Stands.analysis_cleared : session.cleared.analysis = session.analysis := by
  obtain ⟨_, _, _, _, isCleared⟩ := stands.cleared_eq
  rw [isCleared]

theorem Stands.settings_entered :
    (session.entered text declOnly).settings = session.settings := by
  obtain ⟨_, _, _, _, isEntered, _⟩ := stands.entered_eq text declOnly
  rw [isEntered]
  rfl

theorem Stands.compiled_eq : ∃ trace, (session.compileText text declOnly).2 =
      { session.ended text declOnly with
        engine := (session.ended text declOnly).engine.endScope.reset, timer := none, trace } := by
  rw [compileText_eq stands.idle_cleared]
  exact conclude_eq _ _

end

theorem isClear_reset {engine : Engine} (depth : engine.depth = 1) : engine.endScope.reset.IsClear :=
  ⟨rfl, rfl, rfl, by simp [Engine.reset, Engine.endScope, depth]⟩

section

variable (takes : session.Takes flags text declOnly ids last)

include takes

theorem Takes.rollback :
    let undone := (session.taken text declOnly).analysis.rollback session.cleared.analysis.mark
    undone.names = session.analysis.names ∧ undone.fetched = [] ∧ undone.prototypeCalls = [] ∧
      undone.Ready := by
  obtain ⟨names, decls⟩ := takes.stands.names_entered text declOnly
  have follows := takes.works.keeps.follows
  have marks : session.cleared.analysis.mark.changes =
      (session.entered text declOnly).analysis.names.mark := by
    rw [takes.stands.analysis_cleared, names]
    rfl
  have isNames : (session.taken text declOnly).analysis.names.rollback
      session.cleared.analysis.mark.changes = session.analysis.names := by
    rw [marks, Universe.rollback_of_grows follows.names, names]
  have learns : session.analysis.decls.Extends (session.taken text declOnly).analysis.decls := by
    rw [← decls]
    exact follows.learns.decls
  intro undone
  refine ⟨isNames, ?_, ?_, follows.ready.lexed, ?_, follows.ready.grounded,
    by rw [show undone.names = _ from isNames]; exact takes.stands.ready.tidy⟩
  · show (session.taken text declOnly).analysis.fetched.take _ = []
    rw [takes.fetched, List.take_nil]
  · show (session.taken text declOnly).analysis.prototypeCalls.take _ = []
    rw [takes.calls, List.take_nil]
  · exact takes.stands.ready.named.extends isNames learns

theorem Takes.queue :
    (session.taken text declOnly).generator.queue = [] ∧
      (session.taken text declOnly).generator.released = false := by
  have isGenerator := takes.stands.generator_entered text declOnly
  refine ⟨takes.works.queue.trans ?_, takes.works.released.trans ?_⟩
  · rw [isGenerator]
    rfl
  · rw [isGenerator]
    exact takes.stands.released

theorem Takes.patience : (session.taken text declOnly).patience = session.patience := by
  obtain ⟨_, _, _, _, isEntered, _⟩ := takes.stands.entered_eq text declOnly
  rw [takes.works.patience, isEntered]

theorem Takes.machine :
    (session.taken text declOnly).generator.machine =
      { session.performed.2.machine with
        printed := (session.taken text declOnly).generator.machine.printed } := by
  rw [takes.works.machine, takes.stands.generator_entered]

theorem Takes.unit (off : flags.generates = false) :
    (session.taken text declOnly).generator.pending = {} := by
  rw [takes.works.unit off, takes.stands.generator_entered text declOnly]
  rfl

theorem Takes.committed (fuel : Nat) :
    let ran := (((session.taken text declOnly).committing flags).runQueue fuel).2
    ran.pending = {} ∧ ran.queue = [] ∧ ran.released = false := by
  obtain ⟨queue, released⟩ := takes.queue
  unfold committing
  cases on : flags.generates with
  | true =>
    rw [if_pos rfl, Generator.runQueue_commit released]
    exact ⟨rfl, rfl, released⟩
  | false =>
    rw [if_neg Bool.false_ne_true, Generator.runQueue_nil queue]
    exact ⟨takes.unit on, queue, released⟩

end

/-- What the end of a call leaves as it is, whether or not the call fails. -/
theorem Takes.ended_same (takes : session.Takes flags text declOnly ids last) :
    let now := session.taken text declOnly
    let after := session.ended text declOnly
    after.settings = now.settings ∧ after.analysis.archive = now.analysis.archive ∧
      after.journal.dynamicLookup = now.journal.dynamicLookup ∧
      after.pipeline.Arranged { flags with rewrites := now.journal.dynamicLookup } := by
  by_cases fails : session.Fails text declOnly
  · rw [takes.ended_failed fails]
    exact ⟨rfl, rfl, rfl, takes.works.arranged⟩
  · cases declOnly with
    | true =>
      rw [takes.ended_pending fails]
      exact ⟨rfl, rfl, rfl, takes.works.arranged⟩
    | false =>
      obtain ⟨pipeline, _, _, isArranged, isEnded⟩ := takes.ended_committed fails
      rw [isEnded]
      exact ⟨rfl, rfl, rfl, isArranged⟩

/-- What a call leaves as it found it: the settings, and the stages but for the one that
follows dynamic lookup. -/
theorem Stands.settings_compileText (stands : session.Stands flags) (text : Text) (declOnly : Bool) :
    let after := (session.compileText text declOnly).2
    after.settings = session.settings ∧
      after.pipeline.Arranged { flags with rewrites := after.journal.dynamicLookup } := by
  obtain ⟨trace, isCompiled⟩ := stands.compiled_eq text declOnly
  rw [isCompiled]
  obtain ⟨ids, last, takes⟩ := stands.takes text declOnly
  have same := takes.works.settings.trans (stands.settings_entered text declOnly)
  obtain ⟨settings, _, isLookup, isArranged⟩ := takes.ended_same
  rw [← isLookup] at isArranged
  exact ⟨settings.trans same, isArranged⟩

theorem Stands.compileText (stands : session.Stands flags)
    (text : Text) (declOnly : Bool) (pendingOff : declOnly = true → flags.generates = false) :
    (session.compileText text declOnly).2.Steady := by
  obtain ⟨trace, isCompiled⟩ := stands.compiled_eq text declOnly
  rw [isCompiled]
  obtain ⟨ids, last, takes⟩ := stands.takes text declOnly
  have depth : (session.taken text declOnly).engine.depth = 1 :=
    takes.works.engine.depth.trans (stands.depth_entered text declOnly)
  obtain ⟨queue, released⟩ := takes.queue
  have switched := takes.works.switched
  by_cases fails : session.Fails text declOnly
  · obtain ⟨_, fetched, calls, ready⟩ := takes.rollback
    rw [takes.ended_failed fails]
    exact { takes with
      ready, fetched, calls, queue, released
      idle := rfl
      clear := isClear_reset depth
      arranged := ⟨_, takes.works.arranged⟩
      switched := ⟨switched.switch, switched.resolver⟩
      unit := rfl }
  · cases declOnly with
    | true =>
      rw [takes.ended_pending fails]
      exact { takes with
        queue, released
        ready := takes.works.keeps.follows.ready
        idle := rfl
        clear := isClear_reset depth
        arranged := ⟨_, takes.works.arranged⟩
        switched := ⟨switched.switch, switched.resolver⟩
        unit := takes.unit (pendingOff rfl) }
    | false =>
      obtain ⟨pipeline, _, _, isArranged, isEnded⟩ := takes.ended_committed fails
      obtain ⟨unit, emptied, held⟩ :=
        takes.committed (session.taken text false).patience
      rw [isEnded]
      exact { takes with
        unit
        ready := takes.works.keeps.follows.ready
        idle := rfl
        clear := isClear_reset ((Engine.reportAll_grows _ _).depth.trans depth)
        arranged := ⟨_, isArranged⟩
        switched := ⟨switched.switch, switched.resolver⟩
        queue := emptied
        released := held }

end Steady

end Session

end FragmentCompiler
