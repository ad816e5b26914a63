import FragmentCompiler.Proofs.Session.Log
import FragmentCompiler.Proofs.Stages.States

/-!
# The stages a caller has chosen

A call switches stages for its own time only.  While it lasts the stages are those of its
manner, with the rewriter armed as the journal says; afterwards they are the caller's again,
the rewriter apart.  Nothing here asks which stages are registered or how the caller left
them.
-/

set_option autoImplicit false

namespace FragmentCompiler

open List Pipeline Journal Session

/-- Whether the stages of the prompt take part in a call. -/
def Manner.prompts (manner : Manner) : Bool := manner = .compiled .prompt

/-- The flags that say in which modes a session is. -/
def Journal.modes (journal : Journal) : Bool × Bool × Bool :=
  (journal.dynamicLookup, journal.usingSnapshot, journal.buildingSnapshot)

namespace Journal

variable (journal : Journal)

theorem modes_updateLast (change : Transaction → Transaction) :
    (journal.updateLast change).modes = journal.modes := by
  unfold updateLast
  split <;> rfl

theorem modes_markParsed : journal.markParsed.modes = journal.modes := by
  unfold markParsed
  split
  · exact journal.modes_updateLast _
  · rfl

theorem modes_close (state : TransactionState) : (journal.close state).modes = journal.modes := by
  unfold close
  split
  · exact journal.modes_updateLast _
  · rfl

theorem isOpen_close (idle : journal.isOpen = false) (state : TransactionState) :
    (journal.close state).isOpen = false := by
  unfold close
  split
  · rfl
  · exact idle

theorem isOpen_updateLast (change : Transaction → Transaction) :
    (journal.updateLast change).isOpen = journal.isOpen := by
  unfold updateLast
  split <;> rfl

end Journal

namespace Session

/-! ## Steps that switch nothing -/

/-- The stages are in the same states and build the same, and the flags are the same. -/
structure Unmoved (before after : Session) : Prop where
  states : after.pipeline.flags = before.pipeline.flags
  sinks : after.pipeline.sinks = before.pipeline.sinks
  modes : after.journal.modes = before.journal.modes

theorem Unmoved.refl (session : Session) : session.Unmoved session := ⟨rfl, rfl, rfl⟩

theorem Unmoved.trans {first second third : Session} (left : first.Unmoved second)
    (right : second.Unmoved third) : first.Unmoved third :=
  ⟨right.states.trans left.states, right.sinks.trans left.sinks, right.modes.trans left.modes⟩

theorem unmoved_foldl {α step}
    (unmoved : ∀ (session : Session) (item : α), session.Unmoved (step session item))
    (items : List α) (session : Session) : session.Unmoved (items.foldl step session) :=
  foldlRecOn items step (.refl session) fun now same item _ => same.trans (unmoved now item)

section

variable (id : StageId) (store : StageStore) (group : Group) (session : Session)

theorem journal_handleStage :
    (handleStage id store group session).2.2.journal = session.journal := by
  cases id with
  | snapshotWriter => cases store <;> rfl
  | _ => rfl

theorem writer?_handleStage :
    (handleStage id store group session).2.1.writer? = store.writer? := by
  cases id with
  | snapshotWriter => cases store <;> rfl
  | _ => rfl

theorem unmoved_dispatch : session.Unmoved (session.dispatch group) where
  states := funext (map_visit (fun _ _ _ => rfl) _ _ _)
  sinks := Prod.ext (visit_frame ..).1
    (funext (map_visit (fun id store state => writer?_handleStage id store state.1 state.2) _ _ _))
  modes := by
    refine (modes_updateLast _ _).trans (congrArg modes ?_)
    exact visit_state (fun state : Group × Session => state.2.journal)
      (fun id store state => journal_handleStage id store state.1 state.2) _ _ _

theorem journal_flushStage :
    (flushStage id store session).2.journal = session.journal := by
  cases id <;> cases store <;> rfl

theorem journal_flushStages : session.flushStages.journal = session.journal :=
  visit_state Session.journal journal_flushStage _ _ session

theorem writer?_flushStage :
    (flushStage id store session).1.writer? = store.writer? := by
  cases id <;> cases store <;> rfl

theorem unmoved_flushStages : session.Unmoved session.flushStages where
  states := funext (map_visit (fun _ _ _ => rfl) _ _ _)
  sinks := Prod.ext (visit_frame ..).1 (funext (map_visit writer?_flushStage _ _ _))
  modes := congrArg modes session.journal_flushStages

theorem unmoved_checkedGroup : session.Unmoved (session.checkedGroup group) := ⟨rfl, rfl, rfl⟩

theorem unmoved_runInitializers : session.Unmoved session.runInitializers := by
  obtain ⟨trace, timer, ran⟩ := session.runInitializers_eq
  rw [ran]
  exact ⟨rfl, rfl, rfl⟩

def lowerBatch (session : Session) (batch : Group) : Session :=
  let (generator, reports) := session.generator.handleGroup session.analysis.decls batch
  { session with generator, engine := session.engine.reportAll reports }

/-- The session as it is when the stages are told that the pending transaction ends: the
transaction is lowered and committed. -/
def lowered (session : Session) (transaction : Transaction) : Session :=
  let session := (session.beginPhase "flush_pending").2
  let session :=
    { session with
      trace := session.trace.point .pass "flush_pending" ("txn " ++ Text.decimal transaction.id)
      generator := session.generator.discard }
  let session := transaction.batches.foldl lowerBatch session
  { session with generator := session.generator.commit }

theorem unmoved_lowered (transaction : Transaction) :
    session.Unmoved (session.lowered transaction) := by
  have each := unmoved_foldl (fun _ _ => ⟨rfl, rfl, rfl⟩ : ∀ (session : Session) (batch : Group),
    session.Unmoved (session.lowerBatch batch)) transaction.batches
  exact ⟨(each _).states, (each _).sinks, (each _).modes⟩

theorem flushPending_lowered (transaction : Transaction) :
    ∃ timer, session.flushPending transaction =
      let told := { (session.lowered transaction).flushStages with timer }
      let cleared := { told with
        journal := told.journal.updateLast fun transaction => { transaction with batches := [] } }
      { cleared.runInitializers with journal := cleared.runInitializers.journal.commit } :=
  ⟨_, rfl⟩

theorem unmoved_flushPending (transaction : Transaction) :
    session.Unmoved (session.flushPending transaction) := by
  obtain ⟨timer, flushed⟩ := session.flushPending_lowered transaction
  rw [flushed]
  dsimp only
  have told := (session.unmoved_lowered transaction).trans (unmoved_flushStages _)
  have ran := unmoved_runInitializers
    { (session.lowered transaction).flushStages with
      timer
      journal := (session.lowered transaction).flushStages.journal.updateLast fun transaction =>
        { transaction with batches := [] } }
  refine ⟨ran.states.trans told.states, ran.sinks.trans told.sinks, ?_⟩
  exact (modes_close _ _).trans
    (ran.modes.trans ((modes_updateLast _ _).trans told.modes))

end

theorem isOpen_flushPending {session : Session} (idle : session.journal.isOpen = false)
    (transaction : Transaction) : (session.flushPending transaction).journal.isOpen = false := by
  have lowers : (session.lowered transaction).journal.isOpen = false := by
    exact foldlRecOn (motive := fun now : Session => now.journal.isOpen = false) transaction.batches
      lowerBatch idle fun _ still _ _ => still
  have told : (session.lowered transaction).flushStages.journal.isOpen = false :=
    (congrArg isOpen (journal_flushStages _)).trans lowers
  obtain ⟨timer, flushed⟩ := session.flushPending_lowered transaction
  rw [flushed]
  dsimp only
  obtain ⟨_, _, ran⟩ := runInitializers_eq
    { (session.lowered transaction).flushStages with
      timer
      journal := (session.lowered transaction).flushStages.journal.updateLast fun transaction =>
        { transaction with batches := [] } }
  rw [ran]
  exact isOpen_close _ ((isOpen_updateLast _ _).trans told) .committed

theorem isOpen_cleared {session : Session} (idle : session.journal.isOpen = false) :
    session.cleared.journal.isOpen = false := by
  have begins : session.begun.journal.isOpen = false := idle
  show session.flushed.journal.isOpen = false
  unfold flushed
  split
  · exact isOpen_flushPending begins _
  · exact begins

/-! ## Steps of a call -/

/-- The session has the stages and the flags of `start`, but for the rewriter, which is
armed as the journal says, and for the flag it follows. -/
structure Armed (start now : Session) : Prop where
  states : now.pipeline.flags =
    switched start.pipeline.flags .dynamicRewriter now.journal.dynamicLookup
  sinks : now.pipeline.sinks = start.pipeline.sinks
  isUsing : now.journal.usingSnapshot = start.journal.usingSnapshot
  isBuilding : now.journal.buildingSnapshot = start.journal.buildingSnapshot

section Calls

variable {session : Session}

variable {start now after : Session}

theorem Unmoved.flags (unmoved : now.Unmoved after) :
    after.journal.dynamicLookup = now.journal.dynamicLookup ∧
      after.journal.usingSnapshot = now.journal.usingSnapshot ∧
      after.journal.buildingSnapshot = now.journal.buildingSnapshot := by
  simpa [Journal.modes] using unmoved.modes

theorem Armed.unmoved (armed : start.Armed now) (unmoved : now.Unmoved after) :
    start.Armed after := by
  obtain ⟨lookup, isUsing, isBuilding⟩ := unmoved.flags
  exact ⟨by rw [unmoved.states, armed.states, lookup], unmoved.sinks.trans armed.sinks,
    isUsing.trans armed.isUsing, isBuilding.trans armed.isBuilding⟩

theorem Unmoved.armed (unmoved : start.Unmoved now) (armed : now.Armed after) :
    start.Armed after := by
  obtain ⟨_, isUsing, isBuilding⟩ := unmoved.flags
  exact ⟨by rw [armed.states, unmoved.states], armed.sinks.trans unmoved.sinks,
    armed.isUsing.trans isUsing, armed.isBuilding.trans isBuilding⟩

theorem Armed.setLookup {on again} (armed : start.Armed now)
    (done : now.setLookup on again = .ok after) : start.Armed after := by
  obtain ⟨switch, resolver, rfl⟩ := setLookup_ok done
  refine ⟨?_, (sinks_restore ..).trans armed.sinks, armed.isUsing, armed.isBuilding⟩
  dsimp only
  rw [flags_restore, armed.states, switched_switched]

theorem Armed.handlePragma (armed : start.Armed now) (key value : Text) (span : Span) :
    start.Armed (now.handlePragma key value span) := by
  rcases now.handlePragma_cases key value span with ⟨on, done⟩ | ⟨message, isError⟩
  · exact armed.setLookup done
  · rw [isError]
    exact armed.unmoved ⟨rfl, rfl, rfl⟩

/-- The sessions in which the groups read are sent through the stages, one after the other. -/
def sendings : Nat → Session → List Session
  | 0, _ => []
  | fuel + 1, session =>
    let (unit, parser) := session.analysis.parser.nextUnit session.patience
    let session := { session with analysis := { session.analysis with parser } }.drain
    match unit with
    | .finished => []
    | .pragma key value span => sendings fuel (session.handlePragma key value span)
    | .group [] => sendings fuel session
    | .group group =>
      session.checkedGroup group :: sendings fuel ((session.checkedGroup group).dispatch group)

theorem Armed.takeUnits (fuel : Nat) : ∀ {now : Session}, start.Armed now →
    start.Armed (now.takeUnits fuel) ∧ (∀ asked ∈ checks fuel now, start.Armed asked) ∧
      ∀ sent ∈ sendings fuel now, start.Armed sent := by
  induction fuel with
  | zero => exact fun armed => ⟨armed.unmoved ⟨rfl, rfl, rfl⟩, forall_mem_nil _, forall_mem_nil _⟩
  | succ fuel ih =>
    intro now armed
    unfold Session.takeUnits checks sendings
    rcases now.analysis.parser.nextUnit now.patience with ⟨unit, parser⟩
    have reads : start.Armed { now with analysis := { now.analysis with parser } }.drain :=
      armed.unmoved ⟨rfl, rfl, rfl⟩
    dsimp only
    cases unit with
    | finished => exact ⟨reads, forall_mem_nil _, forall_mem_nil _⟩
    | pragma key value span => exact ih (reads.handlePragma key value span)
    | group group =>
      cases group with
      | nil => exact ih reads
      | cons id rest =>
        have checked := reads.unmoved (unmoved_checkedGroup (id :: rest) _)
        obtain ⟨ended, asked, sent⟩ := ih (checked.unmoved (unmoved_dispatch _ _))
        exact ⟨ended, forall_mem_cons.mpr ⟨reads, asked⟩, forall_mem_cons.mpr ⟨checked, sent⟩⟩

theorem armed_armRewriter (session : Session) : session.Armed session.armRewriter :=
  ⟨session.pipeline.flags_restore _ _, session.pipeline.sinks_restore _ _, rfl, rfl⟩

theorem unmoved_flushed (session : Session) : session.Unmoved session.flushed := by
  unfold flushed
  split
  · rename_i transaction _
    have begins : session.Unmoved session.begun := ⟨rfl, rfl, rfl⟩
    exact begins.trans (session.begun.unmoved_flushPending transaction)
  · exact ⟨rfl, rfl, rfl⟩

theorem armed_entered (session : Session) (text : Text) (declOnly : Bool) :
    session.Armed (session.entered text declOnly) := by
  have clears : session.flushed.Unmoved
      { session.flushed with
        generator := session.flushed.generator.discard
        pipeline := session.flushed.pipeline.resetQueue } := ⟨rfl, rfl, rfl⟩
  have cleared : session.Armed session.cleared :=
    (session.unmoved_flushed.trans clears).armed (armed_armRewriter _)
  have opened : (openedJournal session.cleared.journal text declOnly).modes =
      session.cleared.journal.modes := by
    unfold openedJournal numbered
    split <;> rfl
  unfold entered
  split
  · exact cleared.unmoved ⟨rfl, rfl, opened⟩
  · exact cleared.unmoved ⟨rfl, rfl, opened⟩

theorem Armed.parseInput (armed : start.Armed now) : start.Armed now.parseInput := by
  obtain ⟨early, late, begun, ended, parsed⟩ := now.parseInput_eq
  rw [parsed]
  have reads : start.Armed { now with trace := early, timer := begun } := armed.unmoved ⟨rfl, rfl, rfl⟩
  exact (reads.takeUnits now.patience).1.unmoved ⟨rfl, rfl, rfl⟩

theorem unmoved_dispatchFetched (session : Session) : session.Unmoved session.dispatchFetched := by
  obtain ⟨early, late, begun, ended, dispatched⟩ := session.dispatchFetched_eq
  rw [dispatched]
  have each := unmoved_foldl (fun (session : Session) (id : DeclId) => session.unmoved_dispatch [id])
    session.analysis.fetched
  exact ⟨(each _).states, (each _).sinks, (each _).modes⟩

theorem Armed.takeIn (armed : start.Armed now) : start.Armed now.takeIn := by
  have dispatched := armed.parseInput.unmoved (unmoved_dispatchFetched _)
  obtain ⟨_, _, _, _, finished⟩ := now.parseInput.dispatchFetched.finishPending_eq
  unfold Session.takeIn
  rw [finished]
  exact dispatched.unmoved ⟨rfl, rfl, rfl⟩

theorem unmoved_settle (session : Session) (mark : AnalysisMark) (inherited : Nat)
    (declOnly : Bool) : session.Unmoved (session.settle mark inherited declOnly) := by
  unfold settle
  split
  · exact ⟨rfl, rfl, session.journal.modes_close _⟩
  · split
    · exact .refl session
    · let begun := (session.beginPhase "flush").2.beginSpan .pass "flush"
      have told : session.Unmoved session.flush :=
        ⟨begun.unmoved_flushStages.states, begun.unmoved_flushStages.sinks,
          begun.unmoved_flushStages.modes⟩
      have ran := told.trans (unmoved_runInitializers _)
      exact ⟨ran.states, ran.sinks, (modes_close _ _).trans ran.modes⟩

theorem armed_compileText (idle : session.journal.isOpen = false)
    (text : Text) (declOnly : Bool) : session.Armed (session.compileText text declOnly).2 := by
  rw [compileText_eq (isOpen_cleared idle)]
  obtain ⟨trace, concluded⟩ := (session.ended text declOnly).conclude_eq
    (numbered session.cleared.journal text).1
  rw [concluded]
  have taken : session.Armed (session.taken text declOnly) := (armed_entered ..).takeIn
  have marks : (session.taken text declOnly).Unmoved
      { session.taken text declOnly with
        journal := (session.taken text declOnly).journal.markParsed } :=
    ⟨rfl, rfl, modes_markParsed _⟩
  have ended : session.Armed (session.ended text declOnly) :=
    taken.unmoved (marks.trans (unmoved_settle ..))
  exact ended.unmoved ⟨rfl, rfl, rfl⟩

/-! ## Whole calls -/

theorem withMode_putBack (session : Session) (mode : Mode) (call : Session → Outcome × Session) :
    let extracting := session.pipeline.restore .declExtractor (mode = .prompt)
    let ran := call (session.prepared (.compiled mode))
    session.withMode mode call =
      (ran.1, { ran.2 with
        pipeline := (ran.2.pipeline.putBack .declExtractor (session.pipeline.flags
          .declExtractor)).putBack .valuePrinter (extracting.flags .valuePrinter) }) := rfl

theorem Armed.withMode (mode : Mode) (call : Session → Outcome × Session)
    (armed : (session.prepared (.compiled mode)).Armed (call (session.prepared (.compiled mode))).2)
    : session.Armed (session.withMode mode call).2 := by
  have sinks : (session.withMode mode call).2.pipeline.sinks = session.pipeline.sinks := by
    rw [withMode_putBack]
    dsimp only
    rw [sinks_putBack, sinks_putBack, armed.sinks]
    exact (sinks_restore ..).trans (sinks_restore ..)
  refine ⟨?_, sinks, armed.isUsing, armed.isBuilding⟩
  rw [withMode_putBack]
  funext id
  have within := armed.states
  simp only [prepared, Manner.arm, flags_restore] at within
  rw [flags_putBack, flags_putBack, flags_putBack, flags_restore]
  simp only [prepared, Manner.arm, within]
  cases id <;> simp [switched, Function.comp_def]

theorem withoutCode_putBack (session : Session) (call : Session → Outcome × Session) :
    let ran := call { session with pipeline := session.pipeline.restore .codeGenerator false }
    withoutCode call session =
      (ran.1, { ran.2 with
        pipeline := ran.2.pipeline.putBack .codeGenerator (session.pipeline.flags .codeGenerator) }) := by
  unfold withoutCode
  dsimp only
  cases isFlag : session.pipeline.flags .codeGenerator <;> rw [Pipeline.set, ← flags, isFlag] <;> rfl

theorem Armed.withoutCode (call : Session → Outcome × Session)
    (armed : ({ session with pipeline := session.pipeline.restore .codeGenerator false }).Armed
      (call { session with pipeline := session.pipeline.restore .codeGenerator false }).2) :
    session.Armed (withoutCode call session).2 := by
  rw [withoutCode_putBack]
  refine ⟨?_, (sinks_putBack ..).trans (armed.sinks.trans (sinks_restore ..)),
    armed.isUsing, armed.isBuilding⟩
  funext id
  have within := armed.states
  simp only [flags_restore] at within
  rw [flags_putBack]
  cases id <;> simp [switched, within, Function.comp_def]

def called (session : Session) (manner : Manner) (text : Text) : Outcome × Session :=
  match manner with
  | .compiled mode => session.withMode mode fun session => session.compileText text false
  | .declared =>
    (session.beginSpan .driver "parse_decls_only").withMode .asIs
      (withoutCode fun session => session.compileText text true)

theorem take_called (isOpen : session.refusal = none) (manner : Manner)
    (text : Text) : ∃ trace, session.take manner text =
      (((session.held true).called manner text).1,
        { ((session.held true).called manner text).2 with busy := false, trace }) := by
  cases manner with
  | compiled mode =>
    refine ⟨((session.held true).called (.compiled mode) text).2.trace, ?_⟩
    unfold take compile
    rw [isOpen]
    rfl
  | declared =>
    refine ⟨((session.held true).called .declared text).2.trace.finish .driver [] [], ?_⟩
    unfold take parseDeclarations
    rw [isOpen]
    rfl

theorem armed_called (idle : session.journal.isOpen = false) (manner : Manner) (text : Text) :
    session.Armed (session.called manner text).2 := by
  cases manner with
  | compiled mode =>
    have ready : (session.prepared (.compiled mode)).journal.isOpen = false := idle
    exact .withMode mode _ (armed_compileText ready text false)
  | declared =>
    let begun := session.beginSpan .driver "parse_decls_only"
    have starts : session.Unmoved begun := ⟨rfl, rfl, rfl⟩
    let plain := begun.prepared (.compiled .asIs)
    have ready : ({ plain with pipeline := plain.pipeline.restore .codeGenerator false } :
        Session).journal.isOpen = false := idle
    have declares := Armed.withoutCode (fun session => session.compileText text true)
      (armed_compileText ready text true)
    exact starts.armed (.withMode .asIs _ declares)

/-! ## The sessions that are handed to the stages -/

/-- The sessions in which declarations are sent through the stages, each as a group. -/
def sendingsOf : List DeclId → Session → List Session
  | [], _ => []
  | id :: rest, session => session :: sendingsOf rest (session.dispatch [id])

/-- The sessions in which a call sends groups through the stages: what it reads, and then
what it fetched. -/
def sendingsIn (session : Session) : List Session :=
  let reading := (session.beginPhase "parse").2.beginSpan .pass "parse"
  let parsed := session.parseInput
  let emptied := { parsed with analysis := { parsed.analysis with fetched := [] } }
  let fetching := (emptied.beginPhase "side_effect_decls").2.beginSpan .pass "side_effect_decls"
  sendings session.patience reading ++ sendingsOf parsed.analysis.fetched fetching

theorem Armed.sendingsOf (ids : List DeclId) : ∀ {now : Session}, start.Armed now →
    ∀ sent ∈ sendingsOf ids now, start.Armed sent := by
  induction ids with
  | nil => exact fun _ _ never => absurd never not_mem_nil
  | cons id rest ih =>
    intro now armed
    exact forall_mem_cons.mpr ⟨armed, ih (armed.unmoved (unmoved_dispatch _ _))⟩

theorem Armed.sendingsIn (armed : start.Armed now) : ∀ sent ∈ now.sendingsIn, start.Armed sent := by
  have reading : start.Armed ((now.beginPhase "parse").2.beginSpan .pass "parse") :=
    armed.unmoved ⟨rfl, rfl, rfl⟩
  have fetching := armed.parseInput
  exact forall_mem_append.mpr
    ⟨(reading.takeUnits _).2.2, .sendingsOf _ (fetching.unmoved ⟨rfl, rfl, rfl⟩)⟩

/-! Each sending adds one group to the queue of the stages, and nothing else does. -/

section

variable (session)

theorem queue_dispatch (group : Group) :
    (session.dispatch group).pipeline.queue.length = session.pipeline.queue.length + 1 := by
  have same := visit_frame (pass handleStage) session.pipeline.order session.pipeline
    (group, session.beginSpan .batch "dispatch")
  exact (length_append ..).trans (congrArg (·.length + 1) same.2)

theorem queue_handlePragma (key value : Text) (span : Span) :
    (session.handlePragma key value span).pipeline.queue = session.pipeline.queue := by
  rcases session.handlePragma_cases key value span with ⟨on, done⟩ | ⟨message, isError⟩
  · obtain ⟨switch, resolver, isDone⟩ := setLookup_ok done
    rw [isDone]
    rfl
  · rw [isError]
    rfl

theorem queue_takeUnits (fuel : Nat) : ∀ session : Session,
    (session.takeUnits fuel).pipeline.queue.length =
      session.pipeline.queue.length + (sendings fuel session).length := by
  induction fuel with
  | zero => exact fun _ => rfl
  | succ fuel ih =>
    intro session
    unfold takeUnits sendings
    rcases session.analysis.parser.nextUnit session.patience with ⟨unit, parser⟩
    dsimp only
    cases unit with
    | finished => rfl
    | pragma key value span =>
      rw [ih, queue_handlePragma]
      rfl
    | group group =>
      cases group with
      | nil =>
        rw [ih]
        rfl
      | cons id rest =>
        refine (ih _).trans ?_
        rw [queue_dispatch, length_cons, Nat.add_right_comm, Nat.add_assoc]
        rfl

theorem queue_dispatchEach (ids : List DeclId) : ∀ session : Session,
    (ids.foldl (fun session id => session.dispatch [id]) session).pipeline.queue.length =
      session.pipeline.queue.length + (sendingsOf ids session).length := by
  induction ids with
  | nil => exact fun _ => rfl
  | cons id rest ih =>
    intro session
    refine (ih _).trans ?_
    rw [queue_dispatch, sendingsOf, length_cons, Nat.add_right_comm, Nat.add_assoc]

theorem queue_dispatchFetched :
    let emptied := { session with analysis := { session.analysis with fetched := [] } }
    let fetching := (emptied.beginPhase "side_effect_decls").2.beginSpan .pass "side_effect_decls"
    session.dispatchFetched.pipeline.queue.length =
      session.pipeline.queue.length + (sendingsOf session.analysis.fetched fetching).length := by
  intro emptied fetching
  unfold dispatchFetched Analysis.takeFetched
  cases session.analysis.fetched with
  | nil => rfl
  | cons id rest => exact queue_dispatchEach (id :: rest) fetching

theorem queue_takeIn :
    session.takeIn.pipeline.queue.length =
      session.pipeline.queue.length + session.sendingsIn.length := by
  let reading := (session.beginPhase "parse").2.beginSpan .pass "parse"
  have read : session.parseInput.pipeline.queue.length =
      session.pipeline.queue.length + (sendings session.patience reading).length :=
    reading.queue_takeUnits session.patience
  show session.parseInput.dispatchFetched.pipeline.queue.length = _
  rw [queue_dispatchFetched, read, sendingsIn, length_append, Nat.add_assoc]

theorem queue_settle (mark : AnalysisMark) (inherited : Nat) (declOnly : Bool) :
    (session.settle mark inherited declOnly).pipeline.queue = session.pipeline.queue := by
  unfold settle
  split
  · rfl
  · split
    · rfl
    · obtain ⟨_, _, ran⟩ := session.flush.runInitializers_eq
      dsimp only
      rw [ran]
      exact (visit_frame ..).2

theorem queue_entered (text : Text) (declOnly : Bool) :
    (session.entered text declOnly).pipeline.queue = [] := by
  unfold entered
  split <;> rfl

end

theorem queue_compileText (idle : session.journal.isOpen = false) (text : Text) (declOnly : Bool) :
    (session.compileText text declOnly).2.pipeline.queue.length =
      (session.entered text declOnly).sendingsIn.length := by
  rw [compileText_eq (isOpen_cleared idle)]
  show (session.ended text declOnly).pipeline.queue.length = _
  have sent := (session.entered text declOnly).queue_takeIn
  rw [queue_entered, length_nil, Nat.zero_add] at sent
  exact (congrArg List.length (queue_settle _ _ _ _)).trans sent

theorem called_compileText (session : Session) (manner : Manner) (text : Text) :
    let ran := (session.prepared manner).compileText text manner.declOnly
    (session.called manner text).1 = ran.1 ∧
      (session.called manner text).2.pipeline.queue = ran.2.pipeline.queue := by
  cases manner with
  | compiled mode =>
    refine ⟨rfl, ?_⟩
    unfold called
    rw [withMode_putBack]
    exact (queue_putBack _ _ _).trans (queue_putBack _ _ _)
  | declared =>
    unfold called
    dsimp only
    rw [withMode_putBack, withoutCode_putBack]
    exact ⟨rfl, (queue_putBack _ _ _).trans
      ((queue_putBack _ _ _).trans (queue_putBack _ _ _))⟩

end Calls

/-- The sessions in which a call sends groups through the stages; none if it is refused. -/
def dispatching (session : Session) (manner : Manner) (text : Text) : List Session :=
  match session.refusal with
  | some _ => []
  | none => (((session.held true).prepared manner).entered text manner.declOnly).sendingsIn

section Stages

variable {session : Session} {manner : Manner}

theorem states_take (idle : session.journal.isOpen = false)
    (isOpen : session.refusal = none) (manner : Manner) (text : Text) :
    (session.take manner text).1.error = none ∧
      session.Armed (session.take manner text).2 ∧
      (session.take manner text).2.pipeline.queue.length =
        (session.dispatching manner text).length := by
  have held : (session.held true).journal.isOpen = false := idle
  have ready : ((session.held true).prepared manner).journal.isOpen = false := idle
  obtain ⟨trace, taken⟩ := take_called isOpen manner text
  obtain ⟨outcome, queue⟩ := (session.held true).called_compileText manner text
  have sent := queue_compileText ready text manner.declOnly
  rw [taken]
  refine ⟨?_, ?_, ?_⟩
  · rw [outcome, compileText_eq (isOpen_cleared ready)]
    rfl
  · have starts : session.Unmoved (session.held true) := ⟨rfl, rfl, rfl⟩
    have armed := starts.armed (armed_called held manner text)
    exact armed.unmoved ⟨rfl, rfl, rfl⟩
  · unfold dispatching
    rw [isOpen, ← sent]
    exact congrArg List.length queue

end Stages

end Session

end FragmentCompiler
