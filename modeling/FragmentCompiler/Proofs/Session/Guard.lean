import FragmentCompiler.Proofs.Session.Call
import FragmentCompiler.Proofs.Stages.States

/-!
# The guard of a call

While a call runs, the session is busy and refuses every other call.  The call itself never
looks at the guard: it does the same in a session that is busy and in one that is not.
-/

set_option autoImplicit false

namespace FragmentCompiler.Session

variable {α : Type}

/-- The session with its guard up or down. -/
def held (session : Session) (busy : Bool) : Session := { session with busy }

variable (session : Session) (busy : Bool)

theorem held_self : session.held session.busy = session := rfl

theorem foldl_held {step}
    (same : ∀ session item, step (session.held busy) item = (step session item).held busy)
    (items : List α) (session : Session) :
    items.foldl step (session.held busy) = (items.foldl step session).held busy :=
  List.foldl_hom (fun now : Session => now.held busy) same

/-! ## Stages -/

theorem handleStage_held (id : StageId) (store : StageStore) (group : Group) :
    handleStage id store group (session.held busy) =
      let after := handleStage id store group session
      (after.1, after.2.1, after.2.2.held busy) := by
  cases id with
  | snapshotWriter => cases store <;> rfl
  | _ => rfl

theorem pass_held (id : StageId) (store : StageStore) (state : Group × Session) :
    Pipeline.pass handleStage id store (state.1, state.2.held busy) =
      let after := Pipeline.pass handleStage id store state
      (after.1, after.2.1, after.2.2.held busy) := by
  unfold Pipeline.pass
  rw [handleStage_held]

theorem dispatch_held (group : Group) :
    (session.held busy).dispatch group = (session.dispatch group).held busy := by
  have visits := Pipeline.visit_hom (pass_held busy) session.pipeline.order session.pipeline
    (group, session.beginSpan .batch "dispatch")
  let finish (after : Pipeline StageStore × Group × Session) : Session :=
    let ran := session.pipeline.enabled.map StageId.name
    let pipeline := { after.1 with queue := after.1.queue ++ [after.2.1] }
    let sent := { after.2.2 with pipeline }.endSpan .batch [] [("stages", Text.join "," ran)]
    { sent.drain with
      journal := sent.journal.updateLast fun transaction => transaction.record after.2.1 }
  exact congrArg finish visits

theorem flushStage_held (id : StageId) (store : StageStore) :
    flushStage id store (session.held busy) =
      ((flushStage id store session).1, (flushStage id store session).2.held busy) := by
  cases id <;> cases store <;> rfl

theorem flushStages_held : (session.held busy).flushStages = session.flushStages.held busy := by
  have visits := Pipeline.visit_hom (fun id store now => flushStage_held now busy id store)
    session.pipeline.order session.pipeline session
  unfold Session.flushStages Pipeline.flush
  rw [show (session.held busy).pipeline = session.pipeline from rfl, visits]
  rfl

/-! ## Phases -/

theorem setLookup_held (on again : Bool) :
    (session.held busy).setLookup on again =
      (session.setLookup on again).map fun after => after.held busy := by
  unfold setLookup
  dsimp only [held]
  split <;> rfl

theorem handlePragma_held (key value : Text) (span : Span) :
    (session.held busy).handlePragma key value span =
      (session.handlePragma key value span).held busy := by
  have applied : (session.held busy).applyPragma key value =
      (session.applyPragma key value).map fun after => after.held busy := by
    unfold applyPragma
    simp only [setLookup_held]
    split
    · split
      · cases session.setLookup true true <;> rfl
      · split
        · cases session.setLookup false true <;> rfl
        · rfl
    · rfl
  unfold handlePragma
  rw [applied]
  cases session.applyPragma key value <;> rfl

theorem takeUnits_held (fuel : Nat) :
    ∀ session : Session, (session.held busy).takeUnits fuel = (session.takeUnits fuel).held busy := by
  induction fuel with
  | zero => exact fun _ => rfl
  | succ fuel ih =>
    intro session
    unfold takeUnits
    rcases isNext : session.analysis.parser.nextUnit session.patience with ⟨unit, parser⟩
    rw [show (session.held busy).analysis.parser.nextUnit (session.held busy).patience =
      (unit, parser) from isNext]
    let read := { session with analysis := { session.analysis with parser } }.drain
    dsimp only
    cases unit with
    | finished => rfl
    | pragma key value span =>
      rw [← ih]
      exact congrArg (takeUnits fuel) (handlePragma_held read busy key value span)
    | group group =>
      cases group with
      | nil => exact ih read
      | cons id rest =>
        let checked := read.analysis.checkGroup (id :: rest)
        show takeUnits fuel (({ read with analysis := checked.2 }.drain.held busy).dispatch
          (id :: rest)) = _
        rw [dispatch_held, ih]

theorem parseInput_held : (session.held busy).parseInput = session.parseInput.held busy := by
  let opened := (session.beginPhase "parse").2.beginSpan .pass "parse"
  let finish (after : Session) : Session :=
    (after.endSpan .pass [] []).endPhase (session.beginPhase "parse").1
      (groupNote (after.endSpan .pass [] []).groupCount)
  exact congrArg finish (takeUnits_held busy session.patience opened)

theorem dispatchFetched_held :
    (session.held busy).dispatchFetched = session.dispatchFetched.held busy := by
  unfold dispatchFetched
  rw [show (session.held busy).analysis.takeFetched = session.analysis.takeFetched from rfl]
  rcases session.analysis.takeFetched with ⟨ids, analysis⟩
  dsimp only
  split
  · rfl
  · let opened := ({ session with analysis }.beginPhase "side_effect_decls").2.beginSpan .pass
      "side_effect_decls"
    let finish (after : Session) : Session :=
      (after.endSpan .pass (.decimal ids.length) []).endPhase
        ({ session with analysis }.beginPhase "side_effect_decls").1 []
    exact congrArg finish (foldl_held busy (fun now id => dispatch_held now busy [id]) ids opened)

theorem runInitializers_held :
    (session.held busy).runInitializers = session.runInitializers.held busy := by
  unfold runInitializers
  dsimp only [beginPhase]
  by_cases isEmpty : session.generator.queue.isEmpty = true
  · rw [if_pos isEmpty, if_pos (show (session.held busy).generator.queue.isEmpty = true from isEmpty)]
    rfl
  · rw [if_neg isEmpty, if_neg (show ¬ (session.held busy).generator.queue.isEmpty = true from isEmpty)]
    let run := session.generator.runQueue session.patience
    let opened : Session :=
      { (session.beginPhase "run_inits").2.beginSpan .pass "run_inits" with generator := run.2 }
    let step (now : Session) (result : InitializerResult) : Session :=
      { now with trace := now.trace.point .batch "init_failed" result.initializer.name }
    let finish (after : Session) : Session :=
      let ended := after.endSpan .pass [] [("count", Text.decimal run.1.length)]
      { ended.endPhase (session.beginPhase "run_inits").1 [] with
        engine := ended.engine.reportAll
          (run.1.filterMap fun result => result.error.map runDiagnostic) }
    exact congrArg finish (foldl_held busy (fun _ _ => rfl)
      (run.1.filter fun result => result.error.isSome) opened : List.foldl step _ _ = _)

theorem flush_held : (session.held busy).flush = session.flush.held busy := by
  let finish (after : Session) : Session :=
    (after.endSpan .pass [] []).endPhase (session.beginPhase "flush").1 []
  exact congrArg finish
    (flushStages_held ((session.beginPhase "flush").2.beginSpan .pass "flush") busy)

theorem flushPending_held (transaction : Transaction) :
    (session.held busy).flushPending transaction = (session.flushPending transaction).held busy := by
  let step (now : Session) (batch : Group) : Session :=
    let made := now.generator.handleGroup now.analysis.decls batch
    { now with generator := made.1, engine := now.engine.reportAll made.2 }
  let opened : Session :=
    { (session.beginPhase "flush_pending").2 with
      trace := session.trace.point .pass "flush_pending" ("txn " ++ .decimal transaction.id)
      generator := session.generator.discard }
  let lowered := transaction.batches.foldl step opened
  let staged := { lowered with generator := lowered.generator.commit }.flushStages
  let emptied (now : Session) : Session :=
    let ended := now.endPhase (session.beginPhase "flush_pending").1
      (groupNote transaction.batches.length)
    { ended with
      journal := ended.journal.updateLast fun transaction => { transaction with batches := [] } }
  let committed (now : Session) : Session := { now with journal := now.journal.commit }
  have lowers : transaction.batches.foldl step (opened.held busy) = lowered.held busy :=
    foldl_held busy (fun _ _ => rfl) _ opened
  have stages : { lowered.held busy with generator := lowered.generator.commit }.flushStages =
      staged.held busy := flushStages_held { lowered with generator := lowered.generator.commit } busy
  calc (session.held busy).flushPending transaction
      = committed (emptied { transaction.batches.foldl step (opened.held busy) with
          generator := (transaction.batches.foldl step (opened.held busy)).generator.commit
          }.flushStages).runInitializers := rfl
    _ = committed (emptied { lowered.held busy with
          generator := lowered.generator.commit }.flushStages).runInitializers := by rw [lowers]; rfl
    _ = committed ((emptied staged).held busy).runInitializers := by rw [stages]; rfl
    _ = (committed (emptied staged).runInitializers).held busy := by
          rw [runInitializers_held]
          rfl

theorem settle_held (mark : AnalysisMark) (inherited : Nat) (declOnly : Bool) :
    (session.held busy).settle mark inherited declOnly =
      (session.settle mark inherited declOnly).held busy := by
  unfold settle
  rw [show (session.held busy).engine = session.engine from rfl]
  split
  · rfl
  · split
    · rfl
    · rw [flush_held, runInitializers_held]
      rfl

/-! ## Calls -/

theorem takeIn_held : (session.held busy).takeIn = session.takeIn.held busy := by
  unfold takeIn
  rw [parseInput_held, dispatchFetched_held]
  rfl

theorem flushed_held : (session.held busy).flushed = session.flushed.held busy := by
  unfold flushed
  rw [show (session.held busy).journal = session.journal from rfl]
  split
  · exact flushPending_held session.begun busy _
  · rfl

theorem cleared_held : (session.held busy).cleared = session.cleared.held busy := by
  unfold cleared
  rw [flushed_held]
  rfl

theorem compileText_held (text : Text) (declOnly : Bool) :
    (session.held busy).compileText text declOnly =
      ((session.compileText text declOnly).1, (session.compileText text declOnly).2.held busy) := by
  rw [compileText_cases, compileText_cases, cleared_held, flushed_held,
    show (session.cleared.held busy).journal = session.cleared.journal from rfl]
  let named := numbered session.cleared.journal text
  cases named.2.begin named.1 with
  | none => rfl
  | some opened =>
    let started : Session :=
      { session.cleared with
        journal := opened.updateLast fun transaction => { transaction with declOnly } }
    let filled := if text.isEmpty then started else started.enterFragment named.1 text
    have fills : (if text.isEmpty then started.held busy
        else (started.held busy).enterFragment named.1 text) = filled.held busy := by
      dsimp only [filled]
      split <;> rfl
    let settled (taken : Session) : Session :=
      { taken with journal := taken.journal.markParsed }.settle session.cleared.analysis.mark
        session.flushed.engine.errors declOnly
    have settles : settled (filled.takeIn.held busy) = (settled filled.takeIn).held busy :=
      settle_held { filled.takeIn with journal := filled.takeIn.journal.markParsed } busy _ _ _
    show (settled (takeIn (if text.isEmpty then started.held busy
      else (started.held busy).enterFragment named.1 text))).conclude named.1 =
        (let ended := (settled filled.takeIn).conclude named.1; (ended.1, ended.2.held busy))
    rw [fills, takeIn_held, settles]
    generalize settled filled.takeIn = ended
    rfl

/-- What is run does not look at the guard. -/
def Heedless {α : Type} (call : Session → α × Session) : Prop :=
  ∀ (session : Session) (busy : Bool),
    call (session.held busy) = ((call session).1, (call session).2.held busy)

theorem Heedless.withMode {call : Session → α × Session} (heedless : Heedless call)
    (mode : Mode) : Heedless fun session => session.withMode mode call := by
  intro session busy
  let first := session.pipeline.set .declExtractor (mode = .prompt)
  let second := first.2.set .valuePrinter (mode = .prompt)
  let finish (after : α × Session) : α × Session :=
    (after.1,
      { after.2 with
        pipeline := .putBack .valuePrinter second.1
          (.putBack .declExtractor first.1 after.2.pipeline) })
  exact congrArg finish (heedless { session with pipeline := second.2 } busy)

theorem guarded_eq {call : Session → α × Session} (heedless : Heedless call) {session : Session}
    (idle : session.busy = false) : session.guarded call = call session := by
  have ran := heedless session true
  have back := heedless session session.busy
  rw [held_self, idle] at back
  unfold guarded
  rw [show call { session with busy := true } = _ from ran]
  exact back.symm

end FragmentCompiler.Session
