import FragmentCompiler.Proofs.Session.Intake
import FragmentCompiler.Proofs.Session.Mirror

/-!
# The anatomy of a call

A call flushes what was pending, opens a transaction, takes in its text and then settles
the transaction.  The states in between are named here, and lowering, committing and
running a unit are described without the trace and the timer.
-/

set_option autoImplicit false

namespace FragmentCompiler

open List

/-! ## Units -/

namespace CodeUnit

theorem addDecl_groups (unit : CodeUnit) (groups : Nat) (decls : Declarations) (id : DeclId) :
    { unit with groups }.addDecl decls id =
      ({ (unit.addDecl decls id).1 with groups }, (unit.addDecl decls id).2) := by
  have initializer : ∀ (unit : CodeUnit) (decl : Decl) (action : InitialAction),
      { unit with groups }.addInitializer decl action =
        { unit.addInitializer decl action with groups } := by
    intro unit decl action
    unfold addInitializer
    dsimp only
    split <;> rfl
  have function : ∀ (decl : Decl) (data : Function),
      { unit with groups }.addFunction decls decl data =
        ({ (unit.addFunction decls decl data).1 with groups },
          (unit.addFunction decls decl data).2) := by
    intro decl data
    unfold addFunction
    cases data.body with
    | none => rfl
    | some body =>
      dsimp only
      rcases (Lower.function decls decl data body).result with ⟨_ | code, reports⟩
      · rfl
      · dsimp only
        split
        · rw [initializer]
        · rfl
  unfold addDecl
  cases decls.get? id with
  | none => rfl
  | some decl =>
    dsimp only
    split
    · rfl
    · rcases decl.body with data | data | data
      · dsimp only
        unfold addVariable
        dsimp only
        split
        · rfl
        · cases data.initial with
          | none => rfl
          | some value =>
            dsimp only
            rcases (Lower.expression decls value).result with ⟨_ | code, reports⟩
            · rfl
            · dsimp only
              rw [← initializer]
      · exact function decl data
      · exact function decl data

theorem addAll_cons (unit : CodeUnit) (decls : Declarations) (id : DeclId) (rest : List DeclId) :
    unit.addAll decls (id :: rest) =
      (((unit.addDecl decls id).1.addAll decls rest).1,
        (unit.addDecl decls id).2 ++ ((unit.addDecl decls id).1.addAll decls rest).2) := rfl

theorem addAll_groups (decls : Declarations) (groups : Nat) (ids : List DeclId) :
    ∀ unit : CodeUnit, { unit with groups }.addAll decls ids =
      ({ (unit.addAll decls ids).1 with groups }, (unit.addAll decls ids).2) := by
  induction ids with
  | nil => exact fun _ => rfl
  | cons id rest ih =>
    intro unit
    simp only [addAll_cons, addDecl_groups, ih]

theorem addAll_append (decls : Declarations) (first second : List DeclId) :
    ∀ unit : CodeUnit, unit.addAll decls (first ++ second) =
      (((unit.addAll decls first).1.addAll decls second).1,
        (unit.addAll decls first).2 ++ ((unit.addAll decls first).1.addAll decls second).2) := by
  induction first with
  | nil => exact fun _ => rfl
  | cons id rest ih =>
    intro unit
    simp only [cons_append, addAll_cons, ih, append_assoc]

end CodeUnit

def Machine.install (machine : Machine) (unit : CodeUnit) : Machine :=
  unit.functions.foldl addFunction (unit.globals.foldl defineStart machine)

namespace Generator

variable {generator : Generator}

theorem commit_eq (held : generator.released = false) :
    generator.commit =
      { generator with
        machine := generator.machine.install generator.pending
        pending := {}
        queue := generator.queue ++ generator.pending.runs } := by
  unfold commit
  rw [held, if_neg Bool.false_ne_true, CodeUnit.runs, ← append_assoc]
  rfl

theorem handleGroup_eq (held : generator.released = false) (decls : Declarations) (group : Group) :
    generator.handleGroup decls group =
      ({ generator with
          pending :=
            { (generator.pending.addAll decls group).1 with
              groups := generator.pending.groups + 1 } },
        (generator.pending.addAll decls group).2) := by
  have same := CodeUnit.addAll_groups decls (generator.pending.groups + 1) group generator.pending
  unfold handleGroup
  rw [if_neg (by simp [held])]
  dsimp only
  rw [same]

theorem commit_commit (generator : Generator) : generator.commit.commit = generator.commit := by
  cases held : generator.released with
  | true => simp [commit, held]
  | false =>
    rw [commit_eq held]
    refine (commit_eq (by exact held)).trans ?_
    simp [CodeUnit.runs, Machine.install]

def perform (generator : Generator) (fuel : Nat) (unit : CodeUnit) :
    List InitializerResult × Generator :=
  let ran := runAll fuel (generator.machine.install unit) (generator.queue ++ unit.runs)
  (ran.1, { generator with machine := ran.2, pending := {}, queue := [] })

theorem runQueue_commit (held : generator.released = false) (fuel : Nat) :
    generator.commit.runQueue fuel = generator.perform fuel generator.pending := by
  rw [commit_eq held]
  rfl

theorem runQueue_nil (queue : generator.queue = []) (fuel : Nat) :
    generator.runQueue fuel = ([], generator) := by
  unfold runQueue
  rw [queue]
  exact congrArg (Prod.mk []) (by rw [← queue])

end Generator

theorem Engine.reportAll_append (engine : Engine) (first second : List Diagnostic) :
    engine.reportAll (first ++ second) = (engine.reportAll first).reportAll second :=
  foldl_append

namespace Session

variable {session : Session}

/-! ## Committing and running -/

def noted (slot : StageSlot StageStore) : StageSlot StageStore :=
  match slot with
  | ⟨.snapshot writer groups transactions, true⟩ => ⟨.snapshot writer groups (transactions + 1), true⟩
  | other => other

theorem flushStages_eq {flags} (arranged : session.pipeline.Arranged flags) :
    ∃ pipeline : Pipeline StageStore, pipeline.Arranged flags ∧
      pipeline.queue = session.pipeline.queue ∧
      session.flushStages =
        { session with
          pipeline
          generator := if flags.generates then session.generator.commit else session.generator } := by
  obtain ⟨last, queue, isArranged⟩ := arranged
  let committed : Session :=
    { session with
      generator := if flags.generates then session.generator.commit else session.generator }
  have flushes : (flags.pipeline last queue).flush flushStage session =
      (flags.pipeline (last.map noted) queue, committed) := by
    obtain ⟨rewrites, extracts, echoes, dumps, generates⟩ := flags
    rcases last with _ | ⟨_ | _, _ | _⟩ <;> cases rewrites <;> cases extracts <;> cases echoes <;>
      cases dumps <;> cases generates <;> rfl
  refine ⟨_, ⟨last.map noted, queue, rfl⟩, by rw [isArranged]; rfl, ?_⟩
  unfold flushStages
  rw [isArranged, flushes]

/-- What running the queue reports. -/
def runReports (results : List InitializerResult) : List Diagnostic :=
  results.filterMap fun result => result.error.map runDiagnostic

theorem foldl_trace_point (results : List InitializerResult) (session : Session) :
    ∃ trace, results.foldl (fun session result =>
      { session with
        trace := session.trace.point .batch "init_failed" result.initializer.name }) session =
      { session with trace } :=
  foldlRecOn (motive := fun now => ∃ trace, now = { session with trace }) results _
    ⟨session.trace, rfl⟩ fun _ ⟨_, same⟩ _ _ => ⟨_, by rw [same]⟩

theorem runInitializers_eq (session : Session) : ∃ trace timer, session.runInitializers =
    { session with
      generator := (session.generator.runQueue session.patience).2
      engine := session.engine.reportAll
        (runReports (session.generator.runQueue session.patience).1)
      trace
      timer } := by
  unfold runInitializers
  by_cases isEmpty : session.generator.queue.isEmpty = true
  · rw [Generator.runQueue_nil (List.isEmpty_iff.mp isEmpty)]
    dsimp only [beginPhase]
    rw [if_pos isEmpty]
    exact ⟨_, _, rfl⟩
  · dsimp only [beginPhase, beginSpan]
    rw [if_neg isEmpty]
    obtain ⟨trace, same⟩ := foldl_trace_point ((session.generator.runQueue session.patience).1.filter
      fun result => result.error.isSome)
      { session with
        generator := (session.generator.runQueue session.patience).2
        trace := session.trace.begin .pass "run_inits"
        timer := (Timer.beginIn session.timer "run_inits").2 }
    rw [same]
    exact ⟨_, _, rfl⟩

theorem foldl_handleGroup (batches : List Group) :
    ∀ {session : Session}, session.generator.released = false →
      batches.foldl (fun session batch =>
        let (generator, reports) := session.generator.handleGroup session.analysis.decls batch
        { session with generator, engine := session.engine.reportAll reports }) session =
      let lowered := session.generator.pending.addAll session.analysis.decls batches.flatten
      { session with
        generator :=
          { session.generator with
            pending :=
              { lowered.1 with groups := session.generator.pending.groups + batches.length } }
        engine := session.engine.reportAll lowered.2 } := by
  induction batches with
  | nil => exact fun _ => rfl
  | cons batch rest ih =>
    intro session held
    have first := Generator.handleGroup_eq held session.analysis.decls batch
    let lowered := session.generator.pending.addAll session.analysis.decls batch
    let next : Session :=
      { session with
        generator :=
          { session.generator with
            pending := { lowered.1 with groups := session.generator.pending.groups + 1 } }
        engine := session.engine.reportAll lowered.2 }
    have others := ih (show next.generator.released = false from held)
    have joined := CodeUnit.addAll_append session.analysis.decls batch rest.flatten
      session.generator.pending
    have ungrouped := CodeUnit.addAll_groups session.analysis.decls
      (session.generator.pending.groups + 1) rest.flatten lowered.1
    simp only [foldl_cons, first]
    rw [show rest.foldl _ _ = _ from others]
    simp only [next, ungrouped, flatten_cons, joined, Engine.reportAll_append,
      length_cons, Nat.add_assoc, Nat.add_comm 1]
    rfl

theorem close_of_log {earlier last} {journal : Journal} (log : journal.log = earlier ++ [last])
    (state : TransactionState) (unfinished : journal.isOpen = true ∨ last.state = .parsed) :
    journal.close state =
      { journal with log := earlier ++ [{ last with state }], isOpen := false } := by
  have ends : (journal.isOpen || journal.pending?.isSome) = true := by
    rcases unfinished with isOpen | parsed
    · simp [isOpen]
    · simp [Journal.pending?, Journal.last?, log, parsed]
  unfold Journal.close
  rw [if_pos ends, Journal.updateLast_of_log log]

theorem flushPending_eq {earlier transaction} {flags : StageFlags}
    (arranged : session.pipeline.Arranged flags) (held : session.generator.released = false)
    (log : session.journal.log = earlier ++ [transaction]) (parsed : transaction.state = .parsed) :
    let lowered := ({} : CodeUnit).addAll session.analysis.decls transaction.batches.flatten
    let performed := session.generator.perform session.patience lowered.1
    ∃ (pipeline : Pipeline StageStore) (trace : TraceRecorder) (timer : Option Timer),
      pipeline.Arranged flags ∧
      session.flushPending transaction =
        { session with
          generator := performed.2
          engine := session.engine.reportAll (lowered.2 ++ runReports performed.1)
          journal :=
            { session.journal with
              log := earlier ++ [{ transaction with batches := [], state := .committed }]
              isOpen := false }
          pipeline
          trace
          timer } := by
  intro lowered performed
  let started : Session :=
    { session with
      timer := (Timer.beginIn session.timer "flush_pending").2
      trace := session.trace.point .pass "flush_pending" ("txn " ++ .decimal transaction.id)
      generator := session.generator.discard }
  have gathered := foldl_handleGroup transaction.batches
    (show started.generator.released = false from held)
  let unit : CodeUnit := { lowered.1 with groups := transaction.batches.length }
  let full : Session :=
    { started with
      generator := { session.generator with pending := unit }
      engine := session.engine.reportAll lowered.2 }
  have isFull : transaction.batches.foldl (fun session batch =>
      let (generator, reports) := session.generator.handleGroup session.analysis.decls batch
      { session with generator, engine := session.engine.reportAll reports }) started = full := by
    rw [gathered]
    simp only [full, unit, lowered, started, Generator.discard, Nat.zero_add]
  let lowers : Session := { full with generator := full.generator.commit }
  obtain ⟨pipeline, isArranged, _, staged⟩ :=
    flushStages_eq (show lowers.pipeline.Arranged flags from arranged)
  have committed : (if flags.generates then full.generator.commit.commit else full.generator.commit) =
      full.generator.commit := by
    rw [Generator.commit_commit, ite_self]
  let ended : Session :=
    { full with
      generator := full.generator.commit
      pipeline
      timer := full.timer.map fun timer => timer.finish (Timer.beginIn session.timer "flush_pending").1
        (groupNote transaction.batches.length)
      journal := { session.journal with log := earlier ++ [{ transaction with batches := [] }] } }
  obtain ⟨trace, timer, ran⟩ := ended.runInitializers_eq
  refine ⟨pipeline, trace, timer, isArranged, ?_⟩
  have isEnded : session.flushPending transaction =
      { ended.runInitializers with journal := ended.runInitializers.journal.commit } := by
    unfold flushPending
    dsimp only [beginPhase]
    rw [show List.foldl _ _ transaction.batches = full from isFull,
      show flushStages _ = _ from staged, committed]
    dsimp only [endPhase]
    rw [show Journal.updateLast _ _ = { session.journal with
      log := earlier ++ [{ transaction with batches := [] }] } from Journal.updateLast_of_log log _]
  have performs : ended.generator.runQueue ended.patience = performed :=
    Generator.runQueue_commit (show full.generator.released = false from held) session.patience
  have closes : ended.journal.commit =
      { session.journal with
        log := earlier ++ [{ transaction with batches := [], state := .committed }]
        isOpen := false } :=
    close_of_log (show ended.journal.log = earlier ++ [{ transaction with batches := [] }] from rfl)
      .committed (.inr parsed)
  rw [isEnded, ran, performs, Engine.reportAll_append]
  dsimp only
  rw [closes]

/-! ## The states of a call -/

def begun (session : Session) : Session :=
  { session.beginSpan .driver "compile" with
    timer := if session.timings then some {} else none
    engine := session.engine.beginScope }

/-- What was pending is lowered, committed and run. -/
def flushed (session : Session) : Session :=
  match session.journal.pending? with
  | some transaction => session.begun.flushPending transaction
  | none => session.begun

/-- A session that is ready for a new transaction. -/
def cleared (session : Session) : Session :=
  { session.flushed with
    generator := session.flushed.generator.discard
    pipeline := session.flushed.pipeline.resetQueue }.armRewriter

def numbered (journal : Journal) (text : Text) : Text × Journal :=
  if text.isEmpty then ([], journal) else journal.nextFragment

/-- The transaction of a call, as it is opened. -/
def newTransaction (journal : Journal) (text : Text) (declOnly : Bool) : Transaction :=
  { id := journal.log.length + 1, fragment := (numbered journal text).1, declOnly }

def openedJournal (journal : Journal) (text : Text) (declOnly : Bool) : Journal :=
  { (numbered journal text).2 with
    log := journal.log ++ [newTransaction journal text declOnly]
    isOpen := true }

/-- The text of a call stands in front of the input. -/
def entered (session : Session) (text : Text) (declOnly : Bool) : Session :=
  let started : Session :=
    { session.cleared with journal := openedJournal session.cleared.journal text declOnly }
  if text.isEmpty then started
  else started.enterFragment (numbered session.cleared.journal text).1 text

def taken (session : Session) (text : Text) (declOnly : Bool) : Session :=
  (session.entered text declOnly).takeIn

/-- The transaction of a call is settled. -/
def ended (session : Session) (text : Text) (declOnly : Bool) : Session :=
  { session.taken text declOnly with
    journal := (session.taken text declOnly).journal.markParsed }.settle
      session.cleared.analysis.mark session.flushed.engine.errors declOnly

theorem compileText_cases (session : Session) (text : Text) (declOnly : Bool) :
    let named := numbered session.cleared.journal text
    session.compileText text declOnly =
      match named.2.begin named.1 with
      | none =>
        ({ Outcome.refused .transactionOpen with diagnostics := Bag.ofLimit 1 },
          { session.cleared with
            journal := named.2
            engine := session.cleared.engine.endScope }.endSpan .driver "rejected" [])
      | some opened =>
        let started : Session :=
          { session.cleared with
            journal := opened.updateLast fun transaction => { transaction with declOnly } }
        let filled := if text.isEmpty then started else started.enterFragment named.1 text
        ({ filled.takeIn with journal := filled.takeIn.journal.markParsed }.settle
          session.cleared.analysis.mark session.flushed.engine.errors declOnly).conclude named.1 :=
  rfl

theorem compileText_eq (idle : session.cleared.journal.isOpen = false)
    (text : Text) (declOnly : Bool) :
    session.compileText text declOnly =
      (session.ended text declOnly).conclude (numbered session.cleared.journal text).1 := by
  let journal := session.cleared.journal
  have isOpen : (numbered journal text).2.isOpen = false := by
    unfold numbered
    split <;> exact idle
  have isLog : (numbered journal text).2.log = journal.log := by
    unfold numbered
    split <;> rfl
  have opens : (numbered journal text).2.begin (numbered journal text).1 =
      some { (numbered journal text).2 with
        log := journal.log ++ [{ newTransaction journal text declOnly with declOnly := false }]
        isOpen := true } := by
    unfold Journal.begin
    rw [isOpen, if_neg Bool.false_ne_true, isLog]
    rfl
  have marks : .updateLast
      { (numbered journal text).2 with
        log := journal.log ++ [{ newTransaction journal text declOnly with declOnly := false }]
        isOpen := true }
      (fun transaction => { transaction with declOnly }) = openedJournal journal text declOnly := by
    rw [Journal.updateLast_of_log rfl]
    rfl
  rw [compileText_cases, opens]
  unfold ended taken entered
  dsimp only
  rw [marks]

end Session

end FragmentCompiler
