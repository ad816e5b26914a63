import FragmentCompiler.Proofs.Session.Frame

/-!
# Taking in a fragment

Every step of a call between entering the fragment and settling the transaction leaves the
session working: reading, checking, carrying out pragmas, dispatching and warning.
-/

set_option autoImplicit false

namespace FragmentCompiler

open List Analysis

/-! ## Switching stages -/

def StageFlags.set (flags : StageFlags) : StageId → Bool → StageFlags
  | .dynamicRewriter, on => { flags with rewrites := on }
  | .declExtractor, on => { flags with extracts := on }
  | .valuePrinter, on => { flags with echoes := on }
  | .dumper, on => { flags with dumps := on }
  | .codeGenerator, on => { flags with generates := on }
  | .snapshotWriter, _ => flags

theorem Pipeline.Arranged.restore {flags} {pipeline : Pipeline StageStore}
    (arranged : pipeline.Arranged flags) (id : StageId) (on : Bool) :
    (pipeline.restore id on).Arranged (flags.set id on) := by
  obtain ⟨last, queue, rfl⟩ := arranged
  cases id with
  | snapshotWriter => cases last <;> exact ⟨_, queue, rfl⟩
  | _ => exact ⟨last, queue, rfl⟩

theorem Generator.handleGroup_frame (generator : Generator) (decls : Declarations) (group : Group) :
    (generator.handleGroup decls group).1.machine = generator.machine ∧
      (generator.handleGroup decls group).1.queue = generator.queue ∧
      (generator.handleGroup decls group).1.released = generator.released := by
  unfold Generator.handleGroup
  split <;> exact ⟨rfl, rfl, rfl⟩

namespace Session

variable {session : Session}

theorem setLookup_cases (switched : session.Switched) (on again : Bool) :
    session.setLookup on again = .error .resolverInstalled ∧ again = false ∨
    ∃ (switch : LookupSwitch) (resolver : Option Resolver), switch.isOn = on ∧
      resolver.isSome = on ∧ session.setLookup on again =
        .ok { session with
          switch
          analysis := { session.analysis with resolver }
          journal := { session.journal with dynamicLookup := on }
          pipeline := session.pipeline.restore .dynamicRewriter on } := by
  obtain ⟨isSwitch, isResolver⟩ := switched
  have same : session.switch.isOn = session.analysis.resolver.isSome :=
    isSwitch.trans isResolver.symm
  unfold setLookup
  cases isOn : session.switch.isOn with
  | true =>
    have taken : session.analysis.resolver.isSome = true := same.symm.trans isOn
    cases on with
    | true =>
      cases again with
      | true =>
        refine .inr ⟨session.switch, session.analysis.resolver, isOn, taken, ?_⟩
        simp [LookupSwitch.set, isOn, armRewriter]
      | false => exact .inl ⟨by simp [LookupSwitch.enable, isOn], rfl⟩
    | false =>
      refine .inr ⟨{}, none, rfl, rfl, ?_⟩
      simp only [LookupSwitch.set, LookupSwitch.disable, isOn]
      rfl
  | false =>
    have free : session.analysis.resolver.isSome = false := same.symm.trans isOn
    cases on with
    | true =>
      refine .inr ⟨{ current := some { only := session.only } },
        some { only := session.only }, rfl, rfl, ?_⟩
      cases again <;> simp only [LookupSwitch.set, LookupSwitch.enable, isOn, free] <;> rfl
    | false =>
      refine .inr ⟨session.switch, session.analysis.resolver, isOn, free, ?_⟩
      simp [LookupSwitch.set, LookupSwitch.disable, isOn, armRewriter]

section Steps

variable {group rest : Group} {parser : Parser}

variable {flags : StageFlags} {start now : Session} {ids waiting : List DeclId}

/-! ## Reading and checking -/

section

variable (works : Works flags start ids waiting now)

include works

theorem Works.read (takes : now.analysis.parser.Takes parser) :
    Works flags start ids waiting { now with analysis := { now.analysis with parser } } :=
  works.evolve (works.keeps.read takes) rfl

theorem Works.check {base} (raw : now.analysis.decls.RawGroup base group)
    (low : start.analysis.decls.count ≤ base)
    (below : now.analysis.decls.Below base (ids ++ waiting)) :
    ∃ fetched, (now.analysis.checkGroup group).2.fetched = now.analysis.fetched ++ fetched ∧
      Works flags start ids (group ++ (waiting ++ fetched))
        { now with analysis := (now.analysis.checkGroup group).2 } := by
  have checked := checkGroup_checked group works.keeps.follows.ready raw
  obtain ⟨fetched, _, evolves, _⟩ := checked.evolves
  exact ⟨fetched, evolves.isFetched,
    works.evolve (works.keeps.check raw low below checked evolves) evolves.isSome_resolver⟩

/-! ## Pragmas -/

theorem Works.setLookup {on again} {after : Session} (done : now.setLookup on again = .ok after) :
    Works flags start ids waiting after := by
  rcases setLookup_cases works.switched on again with ⟨failed, _⟩ |
      ⟨switch, resolver, isOn, isSome, fine⟩
  · rw [failed] at done
    cases done
  · rw [fine] at done
    cases done
    exact { works with
      keeps := works.keeps.of_same works.keeps.follows.ready.lexed rfl rfl rfl
      journal := works.journal.switch on
      arranged := works.arranged.restore .dynamicRewriter on
      switched := ⟨isOn, isSome⟩ }

end

theorem setLookup_ok {on again} {now after : Session} (done : now.setLookup on again = .ok after) :
    ∃ (switch : LookupSwitch) (resolver : Option Resolver), after =
      { now with
        switch
        analysis := { now.analysis with resolver }
        journal := { now.journal with dynamicLookup := switch.isOn }
        pipeline := now.pipeline.restore .dynamicRewriter switch.isOn } := by
  unfold setLookup at done
  dsimp only at done
  generalize (if on && !again then now.switch.enable now.analysis.resolver { only := now.only }
    else now.switch.set now.analysis.resolver { only := now.only } on) = switched at done
  cases switched with
  | none => cases done
  | some result =>
    cases done
    exact ⟨result.1, result.2, rfl⟩

theorem handlePragma_cases (session : Session) (key value : Text) (span : Span) :
    (∃ on, session.setLookup on true = .ok (session.handlePragma key value span)) ∨
    ∃ message, session.handlePragma key value span =
      { session with
        analysis := { session.analysis with
          parser := session.analysis.parser.record (.error .badDirective span message) } }.drain := by
  unfold handlePragma
  cases applied : session.applyPragma key value with
  | error message => exact .inr ⟨message, rfl⟩
  | ok after =>
    refine .inl ?_
    have carried : ∀ on, (session.setLookup on true).mapError SessionError.message = .ok after →
        session.setLookup on true = .ok after := by
      intro on done
      cases result : session.setLookup on true with
      | ok after' =>
        rw [result] at done
        cases done
        rfl
      | error error =>
        rw [result] at done
        cases done
    unfold applyPragma at applied
    split at applied
    · split at applied
      · exact ⟨true, carried true applied⟩
      · split at applied
        · exact ⟨false, carried false applied⟩
        · cases applied
    · cases applied

theorem badDirective_takes (lexed : parser.Lexed) (span : Span) (message : Text) :
    parser.Takes (parser.record (.error .badDirective span message)) :=
  Parser.record_takes lexed _ (show Code.badDirective.number < 4000 by decide)

theorem Works.handlePragma (works : Works flags start ids waiting now) (key value : Text)
    (span : Span) : Works flags start ids waiting (now.handlePragma key value span) := by
  rcases now.handlePragma_cases key value span with ⟨on, done⟩ | ⟨message, isError⟩
  · exact works.setLookup done
  · rw [isError]
    exact (works.read (badDirective_takes works.keeps.follows.ready.lexed span message)).drain

/-! ## Dispatching -/

theorem dispatch_eq
    (arranged : session.pipeline.Arranged flags) (group : Group) :
    ∃ (early late : TraceRecorder) (pipeline : Pipeline StageStore), pipeline.Arranged flags ∧
      let passed := { session with trace := early }.throughStages flags group
      session.dispatch group =
        { { passed.2 with pipeline, trace := late }.drain with
          journal := passed.2.journal.updateLast fun transaction => transaction.record passed.1 } := by
  obtain ⟨last, queue, isArranged⟩ := arranged
  let begun := session.beginSpan .batch "dispatch"
  let passed := begun.throughStages flags group
  let ran := session.pipeline.enabled.map StageId.name
  refine ⟨begun.trace, passed.2.trace.finish .batch [] [("stages", Text.join "," ran)],
    _, ⟨last.map seen, queue ++ [passed.1], rfl⟩, ?_⟩
  have passes : begun.pipeline.dispatch handleStage group begun = _ :=
    (congrArg (Pipeline.dispatch · handleStage group begun) isArranged).trans
      (dispatch_arranged flags last queue group begun)
  unfold dispatch
  dsimp only
  rw [passes]
  rfl

theorem printed_collectPrinted (session : Session) :
    session.collectPrinted.printed = session.printed := by
  unfold collectPrinted printed Machine.takePrinted
  dsimp only
  split
  · rename_i isEmpty
    rw [List.isEmpty_iff.mp isEmpty]
    simp
  · simp [OutputPart.programText]

theorem Works.dumped (works : Works flags start ids waiting now) (on : Bool) (group : Group) :
    Works flags start ids waiting (now.dumped on group) := by
  unfold Session.dumped
  split
  · exact { works with
      machine := by
        show { now.generator.machine with printed := [] } = _
        rw [works.machine]
        rfl
      printed := by
        rw [← works.printed, ← now.printed_collectPrinted]
        simp [Session.printed, dump, OutputPart.programText]
      switched := ⟨works.switched.switch, works.switched.resolver⟩ }
  · exact works

theorem Works.generated {on} (works : Works flags start ids waiting now)
    (isOn : on = flags.generates) (group : Group) :
    Works flags start ids waiting (now.generated on group) := by
  unfold Session.generated
  split
  · rename_i generates
    obtain ⟨all, _, reported⟩ := foldl_report
      (now.generator.handleGroup now.analysis.decls group).2 now.analysis
    obtain ⟨machine, queue, released⟩ :=
      now.generator.handleGroup_frame now.analysis.decls group
    rw [reported]
    exact { works with
      keeps := works.keeps.of_same works.keeps.follows.ready.lexed rfl rfl rfl
      machine := by
        show (now.generator.handleGroup now.analysis.decls group).1.machine = { start.generator.machine with
          printed := (now.generator.handleGroup now.analysis.decls group).1.machine.printed }
        rw [machine]
        exact works.machine
      queue := queue.trans works.queue
      released := released.trans works.released
      unit := fun never => by rw [← isOn, generates] at never; cases never
      printed := by
        rw [← works.printed]
        unfold Session.printed
        rw [machine]
      switched := ⟨works.switched.switch, works.switched.resolver⟩ }
  · exact works

theorem throughStages_journal (session : Session) (flags : StageFlags) (group : Group)
    (journal : Journal) :
    ({ session with journal }.throughStages flags group).2 =
      { (session.throughStages flags group).2 with journal } := by
  obtain ⟨rewrites, extracts, echoes, dumps, generates⟩ := flags
  cases dumps <;> cases generates <;> rfl

theorem journal_throughStages (session : Session) (flags : StageFlags) (group : Group) :
    (session.throughStages flags group).2.journal = session.journal := by
  obtain ⟨rewrites, extracts, echoes, dumps, generates⟩ := flags
  cases dumps <;> cases generates <;> rfl

theorem dynamicLookup_updateLast (journal : Journal) (change : Transaction → Transaction) :
    (journal.updateLast change).dynamicLookup = journal.dynamicLookup := by
  unfold Journal.updateLast
  split <;> rfl

def flagsNow (flags : StageFlags) (session : Session) : StageFlags :=
  { flags with rewrites := session.journal.dynamicLookup }

theorem Works.dispatch (works : Works flags start ids (group ++ rest) now) :
    Works flags start (ids ++ (now.analysis.throughStages (flagsNow flags now) group).1) rest
      (now.dispatch group) := by
  obtain ⟨early, late, pipeline, arranged, dispatched⟩ := dispatch_eq works.arranged group
  obtain ⟨regroups, batch⟩ := throughStages_regroups works.keeps.follows.ready
    (flagsNow flags now) works.keeps.batch
  let passed := now.analysis.throughStages (flagsNow flags now) group
  let journal := now.journal.updateLast fun transaction => transaction.record passed.1
  have same : journal.dynamicLookup = now.journal.dynamicLookup := dynamicLookup_updateLast _ _
  have regrouped : Works flags start (ids ++ passed.1) rest
      { now with trace := early, analysis := passed.2, journal } :=
    { works with
      keeps := works.keeps.regroup regroups batch.spread
      journal := works.journal.record passed.1
      arranged := by rw [same]; exact works.arranged
      switched := ⟨works.switched.switch.trans same.symm,
        (regroups.evolves.isSome_resolver.trans works.switched.resolver).trans same.symm⟩ }
  let through := { now with trace := early }.throughStages (flagsNow flags now) group
  have ended : Works flags start (ids ++ passed.1) rest { through.2 with journal } := by
    rw [← throughStages_journal { now with trace := early } (flagsNow flags now) group journal]
    exact (regrouped.dumped flags.dumps passed.1).generated rfl passed.1
  have last : Works flags start (ids ++ passed.1) rest
      { through.2 with journal, pipeline, trace := late } :=
    { ended with
      arranged := by rw [same]; exact arranged
      switched := ⟨ended.switched.switch, ended.switched.resolver⟩ }
  have noted : through.2.journal.updateLast (fun transaction => transaction.record through.1) =
      journal := by
    rw [show through.2.journal = now.journal from journal_throughStages _ _ _]
    rfl
  rw [dispatched]
  show Works flags start (ids ++ passed.1) rest
    { { through.2 with pipeline, trace := late }.drain with
      journal := through.2.journal.updateLast fun transaction => transaction.record through.1 }
  rw [noted]
  exact last.drain

theorem handleGroup_machine (generator : Generator) (machine : Machine) (decls : Declarations)
    (group : Group) :
    ({ generator with machine }.handleGroup decls group).1.pending =
        (generator.handleGroup decls group).1.pending ∧
      ({ generator with machine }.handleGroup decls group).2 =
        (generator.handleGroup decls group).2 := by
  unfold Generator.handleGroup
  dsimp only
  split <;> exact ⟨rfl, rfl⟩

/-- What lowering adds to the analysis, which is drained afterwards. -/
def reported (session : Session) (on : Bool) (passed : Group × Analysis) : Analysis :=
  if on then
    (session.generator.handleGroup passed.2.decls passed.1).2.foldl report passed.2
  else passed.2

theorem throughStages_parts (session : Session) (flags : StageFlags) (group : Group) :
    let passed := session.analysis.throughStages flags group
    (session.throughStages flags group).2.analysis = session.reported flags.generates passed ∧
      (session.throughStages flags group).2.engine = session.engine ∧
      (session.throughStages flags group).2.generator.pending =
        if flags.generates then (session.generator.handleGroup passed.2.decls passed.1).1.pending
        else session.generator.pending := by
  have unprinted := handleGroup_machine session.generator session.generator.machine.takePrinted.2
    (session.analysis.throughStages flags group).2.decls
    (session.analysis.throughStages flags group).1
  obtain ⟨rewrites, extracts, echoes, dumps, generates⟩ := flags
  cases dumps <;> cases generates
  · exact ⟨rfl, rfl, rfl⟩
  · exact ⟨rfl, rfl, rfl⟩
  · exact ⟨rfl, rfl, rfl⟩
  · exact ⟨congrArg (fun reports => List.foldl report _ reports) unprinted.2, rfl,
      unprinted.1⟩

theorem dispatch_parts
    (arranged : session.pipeline.Arranged flags) (group : Group) :
    let passed := session.analysis.throughStages flags group
    let reported := session.reported flags.generates passed
    (session.dispatch group).analysis = reported.drained ∧
      (session.dispatch group).engine = session.engine.reportAll reported.parser.reports.toList ∧
      (session.dispatch group).generator.pending =
        if flags.generates then (session.generator.handleGroup passed.2.decls passed.1).1.pending
        else session.generator.pending := by
  obtain ⟨early, late, pipeline, _, dispatched⟩ := dispatch_eq arranged group
  obtain ⟨analysis, engine, pending⟩ :=
    throughStages_parts { session with trace := early } flags group
  let through := { session with trace := early }.throughStages flags group
  refine ⟨?_, ?_, ?_⟩ <;> rw [dispatched]
  · exact congrArg drained analysis
  · show through.2.engine.reportAll through.2.analysis.parser.reports.toList = _
    rw [show through.2.engine = session.engine from engine, show through.2.analysis = _ from analysis]
    rfl
  · exact pending

theorem reported_eq (session : Session) (on : Bool) (passed : Group × Analysis) :
    ∃ all : Array Diagnostic, session.reported on passed =
      { passed.2 with parser := { passed.2.parser with reports := all } } := by
  unfold reported
  split
  · obtain ⟨all, _, same⟩ := foldl_report
      (session.generator.handleGroup passed.2.decls passed.1).2 passed.2
    exact ⟨all, same⟩
  · exact ⟨_, rfl⟩

theorem Works.analysis_dispatch (works : Works flags start ids (group ++ rest) now) :
    let passed := now.analysis.throughStages (flagsNow flags now) group
    let after := (now.dispatch group).analysis
    after.decls = passed.2.decls ∧ after.names = passed.2.names ∧
      after.fetched = now.analysis.fetched ∧ after.parser.inputs = now.analysis.parser.inputs := by
  intro passed
  obtain ⟨analysis, _, _⟩ := dispatch_parts works.arranged group
  obtain ⟨regroups, _⟩ := throughStages_regroups works.keeps.follows.ready
    (flagsNow flags now) works.keeps.batch
  obtain ⟨_, same⟩ := now.reported_eq flags.generates passed
  rw [show (now.dispatch group).analysis = _ from analysis.trans (congrArg drained same)]
  exact ⟨drained_decls _, drained_names _,
    (drained_fetched _).trans (regroups.evolves.isFetched.trans (append_nil _)),
    (drained_inputs _).trans regroups.evolves.inputs⟩

theorem Works.fetched_dispatch (works : Works flags start ids (group ++ rest) now) :
    (now.dispatch group).analysis.fetched = now.analysis.fetched :=
  works.analysis_dispatch.2.2.1

theorem Works.inputs_dispatch (works : Works flags start ids (group ++ rest) now) :
    (now.dispatch group).analysis.parser.inputs = now.analysis.parser.inputs :=
  works.analysis_dispatch.2.2.2

/-! ## A whole fragment -/

theorem fetched_handlePragma (now : Session) (key value : Text) (span : Span) :
    (now.handlePragma key value span).analysis.fetched = now.analysis.fetched := by
  rcases now.handlePragma_cases key value span with ⟨on, done⟩ | ⟨message, isError⟩
  · obtain ⟨_, _, isDone⟩ := setLookup_ok done
    rw [isDone]
  · rw [isError]
    exact drained_fetched _

/-- A group on its way: it was checked and waits with what was fetched. -/
def checkedGroup (session : Session) (group : Group) : Session :=
  { session with analysis := (session.analysis.checkGroup group).2 }.drain

theorem fetched_checkedGroup {owned new reports}
    (evolves : now.analysis.EvolvesBy owned new reports (now.analysis.checkGroup group).2) :
    (now.checkedGroup group).analysis.fetched = now.analysis.fetched ++ new :=
  (drained_fetched _).trans evolves.isFetched

theorem Works.checkedGroup {base} (works : Works flags start ids now.analysis.fetched now)
    (raw : now.analysis.decls.RawGroup base group) (low : start.analysis.decls.count ≤ base)
    (below : now.analysis.decls.Below base (ids ++ now.analysis.fetched)) :
    Works flags start ids (group ++ (now.checkedGroup group).analysis.fetched)
      (now.checkedGroup group) := by
  obtain ⟨fetched, isFetched, checked⟩ := works.check raw low below
  have same : (now.checkedGroup group).analysis.fetched = now.analysis.fetched ++ fetched :=
    (drained_fetched _).trans isFetched
  rw [same]
  exact checked.drain

theorem Works.dispatchChecked (works : Works flags start ids (group ++ now.analysis.fetched) now) :
    Works flags start (ids ++ (now.analysis.throughStages (flagsNow flags now) group).1)
      (now.dispatch group).analysis.fetched (now.dispatch group) := by
  rw [works.fetched_dispatch]
  exact works.dispatch

theorem Works.nextUnit (works : Works flags start ids now.analysis.fetched now) {unit : SourceUnit}
    (isNext : now.analysis.parser.nextUnit now.patience = (unit, parser)) :
    let read := { now with analysis := { now.analysis with parser } }.drain
    now.analysis.parser.Takes parser ∧ Works flags start ids read.analysis.fetched read ∧
      ∀ group, unit = .group group →
        read.analysis.decls.RawGroup now.analysis.decls.count group ∧
        read.analysis.decls.Below now.analysis.decls.count (ids ++ read.analysis.fetched) := by
  obtain ⟨takes, raw⟩ := Parser.nextUnit_takes now.patience now.analysis.parser
    works.keeps.follows.ready.lexed
  rw [isNext] at takes raw
  intro read
  have fetched : read.analysis.fetched = now.analysis.fetched := drained_fetched _
  have decls : read.analysis.decls = parser.decls := drained_decls _
  rw [fetched, decls]
  exact ⟨takes, (works.read takes).drain, fun group isGroup =>
    ⟨raw group isGroup, works.keeps.read_below takes⟩⟩

theorem inputs_takeUnits (fuel : Nat) :
    ∀ now : Session, (takeUnits fuel now).analysis.parser.inputs = [] := by
  induction fuel with
  | zero => exact fun _ => rfl
  | succ fuel ih =>
    intro now
    unfold Session.takeUnits
    rcases isNext : now.analysis.parser.nextUnit now.patience with ⟨unit, parser⟩
    dsimp only
    split
    · exact (drained_inputs _).trans (Parser.nextUnit_finished _ isNext)
    · exact ih _
    · exact ih _
    · exact ih _

/-! ## The phases of a call -/

theorem parseInput_eq (session : Session) : ∃ early late begun ended, session.parseInput =
    { { session with trace := early, timer := begun }.takeUnits session.patience with
      trace := late, timer := ended } :=
  ⟨_, _, _, _, rfl⟩

theorem dispatchFetched_eq (session : Session) : ∃ early late begun ended, session.dispatchFetched =
    { session.analysis.fetched.foldl (fun session id => session.dispatch [id])
        { session with
          analysis := { session.analysis with fetched := [] }, trace := early, timer := begun } with
      trace := late, timer := ended } := by
  unfold dispatchFetched takeFetched
  cases session.analysis.fetched with
  | nil => exact ⟨session.trace, session.trace, session.timer, session.timer, rfl⟩
  | cons id rest => exact ⟨_, _, _, _, rfl⟩

theorem finishPending_eq (session : Session) : ∃ early late begun ended, session.finishPending =
    { { session with
        analysis := session.analysis.finishPending, trace := early, timer := begun }.drain with
      trace := late, timer := ended } :=
  ⟨_, _, _, _, rfl⟩

theorem finishPending_reports (analysis : Analysis) :
    ∃ (reports : List Diagnostic) (all : Array Diagnostic),
      (∀ entry ∈ reports, entry.isError = false) ∧
      all.toList = analysis.parser.reports.toList ++ reports ∧
      analysis.finishPending =
        { analysis with
          parser := { analysis.parser with reports := all }, prototypeCalls := [] } := by
  have warned : ∀ (calls : List PrototypeCall) (analysis : Analysis), ∃ reports : List Diagnostic,
      (∀ entry ∈ reports, entry.isError = false) ∧
        calls.foldl warnUndefined analysis = reports.foldl .report analysis := by
    intro calls
    induction calls with
    | nil => exact fun _ => ⟨[], by simp, rfl⟩
    | cons call rest ih =>
      intro analysis
      have one : ∃ reports : List Diagnostic, (∀ entry ∈ reports, entry.isError = false) ∧
          analysis.warnUndefined call = reports.foldl report analysis := by
        unfold warnUndefined
        split
        · split
          · split
            · exact ⟨[_], fun entry member => by rw [mem_singleton.mp member]; rfl, rfl⟩
            · exact ⟨[], by simp, rfl⟩
          · exact ⟨[], by simp, rfl⟩
        · exact ⟨[], by simp, rfl⟩
      obtain ⟨first, areFirst, isFirst⟩ := one
      obtain ⟨others, areOthers, isOthers⟩ := ih (analysis.warnUndefined call)
      refine ⟨first ++ others, fun entry member =>
        (mem_append.mp member).elim (areFirst entry) (areOthers entry), ?_⟩
      rw [foldl_cons, isOthers, isFirst, foldl_append]
  obtain ⟨reports, areWarnings, same⟩ :=
    warned (firstCalls [] analysis.prototypeCalls) analysis
  obtain ⟨all, isAll, folded⟩ := foldl_report reports analysis
  exact ⟨reports, all, areWarnings, isAll, by rw [Analysis.finishPending, same, folded]⟩

theorem inputs_finishPending (analysis : Analysis) :
    analysis.finishPending.parser.inputs = analysis.parser.inputs := by
  obtain ⟨_, _, _, _, warned⟩ := finishPending_reports analysis
  rw [warned]

theorem fetched_finishPending (analysis : Analysis) :
    analysis.finishPending.fetched = analysis.fetched := by
  obtain ⟨_, _, _, _, warned⟩ := finishPending_reports analysis
  rw [warned]

theorem Works.finishPending (works : Works flags start ids waiting now) :
    Works flags start ids waiting { now with analysis := now.analysis.finishPending } := by
  obtain ⟨_, _, _, _, warned⟩ := finishPending_reports now.analysis
  rw [warned]
  exact works.of_same _ works.keeps.follows.ready.lexed rfl rfl rfl rfl

/-- Everything a call does between entering its text and settling the transaction. -/
def takeIn (session : Session) : Session := session.parseInput.dispatchFetched.finishPending

end Steps

end Session

end FragmentCompiler
