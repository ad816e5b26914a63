import FragmentCompiler.Proofs.Session.Steady

/-!
# Calls with nothing to read

An empty text only drains what is pending.  Between calls nothing is, so the call takes in
nothing: all it does is flush.
-/

set_option autoImplicit false

namespace FragmentCompiler

theorem Parser.nextUnit_idle {fuel} {parser : Parser} (inputs : parser.inputs = [])
    (patient : 0 < fuel) : parser.nextUnit fuel = (.finished, parser) := by
  cases fuel with
  | zero => exact absurd patient (Nat.not_lt_zero _)
  | succ fuel => simp [nextUnit, step, inputs]

namespace Session

variable {session : Session}

theorem drain_idle (reports : session.analysis.parser.reports = #[]) :
    ∃ (resolver : Option Resolver) (questions : List Question),
      resolver.map Resolver.only = session.analysis.resolver.map Resolver.only ∧
      session.drain =
        { session with analysis := { session.analysis with resolver }, questions } := by
  have isDrained := session.analysis.drained_eq
  have isParser : { session.analysis.parser with reports := #[] } = session.analysis.parser := by
    rw [← reports]
  rw [isParser] at isDrained
  have same : (session.analysis.resolver.map fun resolver => { resolver with asked := [] }).map
      Resolver.only = session.analysis.resolver.map Resolver.only := by
    cases session.analysis.resolver <;> rfl
  refine ⟨_, session.drain.questions, same, ?_⟩
  have split : session.drain =
      { session with
        analysis := session.analysis.drained
        engine := session.engine.reportAll session.analysis.parser.reports.toList
        questions := session.drain.questions } := rfl
  have engine : session.engine.reportAll session.analysis.parser.reports.toList =
      session.engine := by
    rw [reports]
    rfl
  rw [engine, isDrained] at split
  exact split

theorem takeUnits_idle (inputs : session.analysis.parser.inputs = [])
    (patient : 0 < session.patience) {fuel : Nat} (enough : 0 < fuel) :
    session.takeUnits fuel = session.drain := by
  cases fuel with
  | zero => exact absurd enough (Nat.not_lt_zero _)
  | succ fuel =>
    unfold takeUnits
    rw [Parser.nextUnit_idle inputs patient]

theorem dispatchFetched_idle (fetched : session.analysis.fetched = []) :
    session.dispatchFetched = session := by
  have same : { session.analysis with fetched := [] } = session.analysis := by rw [← fetched]
  unfold dispatchFetched Analysis.takeFetched
  simp only [fetched, List.isEmpty_nil, if_true, same]

theorem finishPending_idle {analysis : Analysis} (calls : analysis.prototypeCalls = []) :
    analysis.finishPending = analysis := by
  unfold Analysis.finishPending
  rw [calls]
  show { analysis with prototypeCalls := [] } = analysis
  rw [← calls]

theorem takeIn_idle {now : Session} (inputs : now.analysis.parser.inputs = [])
    (fetched : now.analysis.fetched = []) (calls : now.analysis.prototypeCalls = [])
    (reports : now.analysis.parser.reports = #[]) (patient : 0 < now.patience) :
    ∃ (resolver : Option Resolver) (questions : List Question) (trace : TraceRecorder)
      (timer : Option Timer),
      resolver.map Resolver.only = now.analysis.resolver.map Resolver.only ∧
      now.takeIn =
        { now with analysis := { now.analysis with resolver }, questions, trace, timer } := by
  obtain ⟨early, late, begun, ended, parsed⟩ := now.parseInput_eq
  rw [takeUnits_idle (by exact inputs) (by exact patient) patient] at parsed
  obtain ⟨resolver, questions, same, isDrained⟩ := drain_idle
    (show { now with trace := early, timer := begun }.analysis.parser.reports = #[] from reports)
  rw [isDrained] at parsed
  have sent : now.parseInput.dispatchFetched = now.parseInput :=
    dispatchFetched_idle (by rw [parsed]; exact fetched)
  obtain ⟨before, after, opened, closed, finished⟩ := now.parseInput.finishPending_eq
  rw [finishPending_idle (by rw [parsed]; exact calls)] at finished
  obtain ⟨asked, others, again, isFinished⟩ := drain_idle
    (show { now.parseInput with trace := before, timer := opened }.analysis.parser.reports = #[] by
      rw [parsed]; exact reports)
  have isTaken : now.takeIn = now.parseInput.finishPending := by
    unfold takeIn
    rw [sent]
  refine ⟨asked, others, after, closed, ?_, ?_⟩
  · rw [again, parsed]
    exact same
  · rw [isTaken, finished, isFinished, parsed]

section Calls

variable {session : Session} {flags : StageFlags}

section

variable (stands : session.Stands flags)

include stands

theorem Stands.analysis_entered_nil (declOnly : Bool) :
    (session.entered [] declOnly).analysis = session.analysis :=
  stands.analysis_cleared

variable (patient : 0 < session.patience)

include patient

theorem Stands.taken_nil (declOnly : Bool) :
    ∃ (resolver : Option Resolver) (questions : List Question) (trace : TraceRecorder)
      (timer : Option Timer),
      resolver.map Resolver.only = session.analysis.resolver.map Resolver.only ∧
      session.taken [] declOnly =
        { session.entered [] declOnly with
          analysis := { session.analysis with resolver }, questions, trace, timer } := by
  have isAnalysis := stands.analysis_entered_nil declOnly
  obtain ⟨_, _, _, _, isEntered, _⟩ := stands.entered_eq [] declOnly
  have samePatience : (session.entered [] declOnly).patience = session.patience := by rw [isEntered]
  have idle := takeIn_idle
    (show (session.entered [] declOnly).analysis.parser.inputs = [] by
      rw [isAnalysis]; exact stands.inputs)
    (by rw [isAnalysis]; exact stands.fetched) (by rw [isAnalysis]; exact stands.calls)
    (by rw [isAnalysis]; exact stands.reports) (by rw [samePatience]; exact patient)
  rw [isAnalysis] at idle
  exact idle

theorem Stands.fine_nil (declOnly : Bool) : ¬ session.Fails [] declOnly := by
  obtain ⟨_, _, _, _, _, isTaken⟩ := stands.taken_nil patient declOnly
  obtain ⟨_, _, _, _, isFlushed⟩ := stands.flushed_eq
  obtain ⟨_, _, _, _, isEntered, _⟩ := stands.entered_eq [] declOnly
  unfold Fails
  rw [isTaken, isEntered, isFlushed]
  exact Nat.lt_irrefl _

theorem Stands.ended_nil :
    ∃ (resolver : Option Resolver) (questions : List Question) (pipeline : Pipeline StageStore)
      (trace : TraceRecorder) (timer : Option Timer) (last : Transaction),
      resolver.map Resolver.only = session.analysis.resolver.map Resolver.only ∧
      last.state = .committed ∧
      session.ended [] false =
        { session with
          analysis := { session.analysis with resolver }
          generator := session.performed.2
          engine := session.engine.beginScope.reportAll session.flushReports
          journal := { session.journal.flushed with
            log := session.journal.flushed.log ++ [last], isOpen := false }
          questions
          pipeline
          trace
          timer } := by
  obtain ⟨resolver, questions, _, _, same, isTaken⟩ := stands.taken_nil patient false
  obtain ⟨_, _, _, _, isEntered, _⟩ := stands.entered_eq [] false
  obtain ⟨ids, last, takes⟩ := stands.takes [] false
  obtain ⟨pipeline, trace, timer, _, isEnded⟩ :=
    takes.ended_committed (stands.fine_nil patient false)
  have isGenerator : (session.taken [] false).generator = session.performed.2 := by
    rw [isTaken, isEntered]
  have idles : ((session.taken [] false).committing flags).runQueue
      (session.taken [] false).patience = ([], session.performed.2) := by
    unfold committing
    rw [isGenerator]
    have held : session.performed.2.released = false := stands.released
    split
    · rw [Generator.runQueue_commit held]
      rfl
    · exact Generator.runQueue_nil rfl _
  refine ⟨resolver, questions, pipeline, trace, timer, { last with state := .committed }, same, rfl, ?_⟩
  rw [isEnded, idles, isTaken, isEntered]
  rfl

theorem Stands.compileText_nil :
    ∃ (resolver : Option Resolver) (questions : List Question) (pipeline : Pipeline StageStore)
      (trace : TraceRecorder) (last : Transaction),
      resolver.map Resolver.only = session.analysis.resolver.map Resolver.only ∧
      last.state = .committed ∧
      (session.compileText [] false).2 =
        { session with
          analysis := { session.analysis with resolver }
          generator := session.performed.2
          engine := (session.engine.beginScope.reportAll session.flushReports).endScope.reset
          journal := { session.journal.flushed with
            log := session.journal.flushed.log ++ [last], isOpen := false }
          questions
          pipeline
          trace
          timer := none } := by
  obtain ⟨resolver, questions, pipeline, _, _, last, same, committed, isEnded⟩ :=
    stands.ended_nil patient
  obtain ⟨trace, isCompiled⟩ := stands.compiled_eq [] false
  refine ⟨resolver, questions, pipeline, trace, last, same, committed, ?_⟩
  rw [isCompiled, isEnded]

end

end Calls

end Session

end FragmentCompiler
