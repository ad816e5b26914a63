import FragmentCompiler.Proofs.Reading.Honest
import FragmentCompiler.Proofs.Session.Reflect

/-!
# Nothing is dropped silently

A call that ends without an error has read every unit of its text, and everything it read was
dispatched, lowered, installed in the machine and run.
-/

set_option autoImplicit false

namespace FragmentCompiler

open List Generator CodeUnit

/-! ## Reading without errors -/

theorem Parser.Sound.keep {before after : Parser} (sound : before.Sound) (clear : ¬ before.Erred)
    (inputs : after.inputs = before.inputs) : after.Sound :=
  sound.of_inputs (by rw [inputs]; exact fun _ member => member) fun erred => absurd erred clear

open Analysis

theorem Analysis.sound_drained {analysis : Analysis} {engine : Engine} (silent : engine.Silent)
    (sound : analysis.parser.Sound)
    (same : (engine.reportAll analysis.parser.reports.toList).errors = engine.errors) :
    ¬ analysis.parser.Erred ∧ analysis.drained.parser.Sound ∧ ¬ analysis.drained.parser.Erred := by
  have clear : ¬ analysis.parser.Erred := by
    intro ⟨entry, member, isError⟩
    rw [silent.reportAll _ same entry member] at isError
    cases isError
  refine ⟨clear, sound.keep clear (drained_inputs _), ?_⟩
  intro ⟨entry, member, _⟩
  rw [drained_reports] at member
  cases member

namespace Session

/-- While no error was counted since `start`, every unit was read in full; what was read was
dispatched or waits. -/
structure Attends (start : Session) (units : List SourceUnit) (ids waiting : List DeclId)
    (now : Session) : Prop where
  heard : now.engine.errors = start.engine.errors →
    now.analysis.parser.Sound ∧ ¬ now.analysis.parser.Erred
  whole : now.engine.errors = start.engine.errors → ∀ unit ∈ units, unit ≠ .group []
  sent : ∀ group, .group group ∈ units → ∀ id ∈ group, id ∈ ids ∨ id ∈ waiting

section Attends

variable {flags : StageFlags} {start now : Session} {units : List SourceUnit}
  {ids waiting : List DeclId}

section

variable (attends : Attends start units ids waiting now)

include attends

theorem Attends.drain (works : Works flags start ids waiting now) (silent : start.engine.Silent)
    (analysis : Analysis) (sound : now.analysis.parser.Sound → ¬ now.analysis.parser.Erred →
      analysis.parser.Sound) :
    let after := { now with analysis }.drain
    Attends start units ids waiting after ∧
      (after.engine.errors = start.engine.errors → ¬ analysis.parser.Erred) := by
  intro after
  have grows : now.engine.Grows after.engine := Engine.reportAll_grows _ _
  have drained : after.engine.errors = start.engine.errors → ¬ analysis.parser.Erred ∧
      after.analysis.parser.Sound ∧ ¬ after.analysis.parser.Erred := by
    intro still
    have before := works.engine.still grows still
    obtain ⟨heard, clear⟩ := attends.heard before
    exact sound_drained (works.engine.silent silent before) (sound heard clear)
      (still.trans before.symm)
  refine ⟨⟨fun still => (drained still).2, fun still => ?_, attends.sent⟩,
    fun still => (drained still).1⟩
  exact attends.whole (works.engine.still grows still)

theorem Attends.read {unit} (works : Works flags start ids waiting now)
    (silent : start.engine.Silent)
    {parser : Parser} (isNext : now.analysis.parser.nextUnit now.patience = (unit, parser)) :
    let after := { now with analysis := { now.analysis with parser } }.drain
    Attends start units ids waiting after ∧
      (after.engine.errors = start.engine.errors → unit ≠ .group []) := by
  intro after
  have lexed := works.keeps.follows.ready.lexed
  have grows : now.engine.Grows after.engine := Engine.reportAll_grows _ _
  have honest : now.analysis.parser.Sound → parser.Sound ∧ (unit = .group [] → parser.Erred) := by
    intro sound
    have next := Parser.Sound.nextUnit now.patience sound lexed
    rw [isNext] at next
    exact next
  obtain ⟨drains, clear⟩ := attends.drain works silent { now.analysis with parser }
    fun sound _ => (honest sound).1
  refine ⟨drains, fun still isEmpty => clear still ?_⟩
  exact (honest (attends.heard (works.engine.still grows still)).1).2 isEmpty

theorem Attends.snoc {others unit} (more : ∀ id ∈ waiting, id ∈ others)
    (whole : now.engine.errors = start.engine.errors → unit ≠ .group [])
    (sent : ∀ group, unit = .group group → ∀ id ∈ group, id ∈ others) :
    Attends start (units ++ [unit]) ids others now where
  heard := attends.heard
  whole := by
    exact fun still => forall_mem_append.mpr ⟨attends.whole still, forall_mem_singleton.mpr (whole still)⟩
  sent := by
    intro group member id inGroup
    rcases mem_append.mp member with old | new
    · exact (attends.sent group old id inGroup).imp_right (more id)
    · exact .inr (sent group (mem_singleton.mp new).symm id inGroup)

end

/-- A group is checked; it waits with what was fetched on the way. -/
theorem Attends.checkedGroup {base group}
    (attends : Attends start units ids now.analysis.fetched now)
    (works : Works flags start ids now.analysis.fetched now) (silent : start.engine.Silent)
    (raw : now.analysis.decls.RawGroup base group) :
    Attends start units ids (now.checkedGroup group).analysis.fetched (now.checkedGroup group) := by
  have checked := checkGroup_checked group works.keeps.follows.ready raw
  obtain ⟨fetched, reports, evolves, _⟩ := checked.evolves
  obtain ⟨drains, _⟩ := attends.drain works silent (now.analysis.checkGroup group).2
    fun sound clear => sound.keep clear evolves.inputs
  refine ⟨drains.heard, drains.whole, fun other member id inGroup => ?_⟩
  rw [fetched_checkedGroup evolves]
  exact (attends.sent other member id inGroup).imp_right (mem_append_left _)

theorem Attends.dispatch {group rest} (attends : Attends start units ids (group ++ rest) now)
    (works : Works flags start ids (group ++ rest) now) (silent : start.engine.Silent) :
    Attends start units (ids ++ (now.analysis.throughStages (flagsNow flags now) group).1) rest
      (now.dispatch group) := by
  obtain ⟨analysis, engine, _⟩ := dispatch_parts works.arranged group
  obtain ⟨regroups, _⟩ := throughStages_regroups works.keeps.follows.ready
    (flagsNow flags now) works.keeps.batch
  obtain ⟨_, isReported⟩ := now.reported_eq flags.generates
    (now.analysis.throughStages (flagsNow flags now) group)
  have grows : now.engine.Grows (now.dispatch group).engine := by
    rw [engine]
    exact Engine.reportAll_grows _ _
  refine ⟨fun still => ?_, fun still => attends.whole (works.engine.still grows still),
    fun other member id inGroup => ?_⟩
  · have before := works.engine.still grows still
    obtain ⟨heard, clear⟩ := attends.heard before
    rw [analysis]
    rw [engine] at still
    refine (sound_drained (works.engine.silent silent before) (heard.keep clear ?_)
      (still.trans before.symm)).2
    exact (congrArg (fun analysis => analysis.parser.inputs) isReported).trans
      regroups.evolves.inputs
  · rcases attends.sent other member id inGroup with old | waits
    · exact .inl (mem_append_left _ old)
    · rcases mem_append.mp waits with inFirst | inRest
      · exact .inl (mem_append_right _ (regroups.stays id inFirst))
      · exact .inr inRest

theorem Attends.handlePragma (attends : Attends start units ids waiting now)
    (works : Works flags start ids waiting now) (silent : start.engine.Silent) (key value : Text)
    (span : Span) : Attends start units ids waiting (now.handlePragma key value span) := by
  rcases now.handlePragma_cases key value span with ⟨on, done⟩ | ⟨message, isError⟩
  · obtain ⟨_, _, isDone⟩ := setLookup_ok done
    rw [isDone]
    exact ⟨attends.heard, attends.whole, attends.sent⟩
  · rw [isError]
    exact (attends.drain works silent _ fun sound _ => sound.record _).1

theorem attends_invariant (silent : start.engine.Silent) :
    Invariant flags start (Attends start) where
  abandon := by
    intro units ids now works attends
    refine ⟨fun still => ?_, attends.whole, attends.sent⟩
    obtain ⟨sound, clear⟩ := attends.heard still
    exact ⟨sound.of_inputs (forall_mem_nil _) id, clear⟩
  unseen := fun attends _ _ => ⟨attends.heard, attends.whole, attends.sent⟩
  read := by
    intro units ids now unit parser works attends isNext single
    obtain ⟨reads, whole⟩ := attends.read works silent isNext
    refine reads.snoc (fun _ member => member) whole fun group isGroup id member => ?_
    cases group with
    | nil => cases member
    | cons first rest => exact absurd isGroup (single first rest)
  group := by
    intro units ids now group parser works attends isNext checked
    obtain ⟨reads, whole⟩ := attends.read works silent isNext
    obtain ⟨_, worksRead, grouped⟩ := works.nextUnit isNext
    have fetched : { now with analysis := { now.analysis with parser } }.drain.analysis.fetched =
        now.analysis.fetched := drained_fetched _
    rw [← fetched] at reads
    have grows : Engine.Grows _ checked.engine := Engine.reportAll_grows _ _
    refine (reads.checkedGroup worksRead silent (grouped group rfl).1).snoc
      (fun _ member => mem_append_right _ member) (fun still => ?_) fun other isGroup => ?_
    · exact whole (worksRead.engine.still grows still)
    · cases isGroup
      exact fun id member => mem_append_left _ member
  pragma := fun works attends key value span _ => attends.handlePragma works silent key value span
  dispatch := fun works attends => attends.dispatch works silent
  empty := fun works attends => ⟨attends.heard, attends.whole, attends.sent⟩
  finish := by
    intro units ids now works attends
    refine (attends.drain works silent _ fun sound clear => sound.keep clear ?_).1
    obtain ⟨_, _, _, _, warned⟩ := finishPending_reports now.analysis
    rw [warned]

end Attends

section Calls

variable {session : Session} {flags : StageFlags} {text : Text} {declOnly : Bool}

theorem Takes.unique {ids last ids' last'} (takes : session.Takes flags text declOnly ids last)
    (takes' : session.Takes flags text declOnly ids' last') : ids' = ids := by
  have same := takes'.log.symm.trans takes.log
  have isLast : last' = last := by simpa using same
  rw [← takes.decls, ← takes'.decls, isLast]

theorem sound_enterFragment (sound : session.analysis.parser.Sound) (name text : Text) :
    (session.enterFragment name text).analysis.parser.Sound := by
  obtain ⟨files, id, isEntered⟩ := session.enterFragment_eq name text
  have placed : Parser.Sound { session.analysis.parser with files } :=
    sound.of_inputs (fun _ member => member) fun erred => erred
  rw [isEntered]
  exact placed.enter id

theorem Stands.sound_entered (stands : session.Stands flags)
    (text : Text) (declOnly : Bool) : (session.entered text declOnly).analysis.parser.Sound := by
  have idle : session.analysis.parser.Sound := by
    constructor <;> rw [stands.inputs] <;> exact forall_mem_nil _
  obtain ⟨_, _, _, _, isCleared⟩ := stands.cleared_eq
  unfold entered
  rw [isCleared]
  dsimp only
  split
  · exact idle
  · exact sound_enterFragment idle _ _

theorem Stands.attends (stands : session.Stands flags)
    (silent : (session.entered text declOnly).engine.Silent) :
    ∃ ids last, session.Takes flags text declOnly ids last ∧
      Attends (session.entered text declOnly) (session.units text declOnly) ids []
        (session.taken text declOnly) := by
  obtain ⟨_, _, _, _, isEntered, _, _, reports, _⟩ := stands.entered_eq text declOnly
  have sound := stands.sound_entered text declOnly
  have clear : ¬ (session.entered text declOnly).analysis.parser.Erred := by
    intro ⟨entry, member, _⟩
    rw [isEntered] at member
    dsimp only at member
    rw [reports] at member
    cases member
  obtain ⟨⟨ids, ends, attends⟩, _⟩ := (attends_invariant silent).takeIn
    (stands.begins text declOnly) ⟨fun _ => ⟨sound, clear⟩, by simp, by simp⟩
  obtain ⟨last, takes⟩ := stands.takes_of ends
  exact ⟨ids, last, takes, attends⟩

end Calls

end Session

/-! ## The places of global variables -/

namespace Machine

variable {unit : CodeUnit}

/-- All global variables have numbers that were given. -/
def Housed (machine : Machine) (count : Nat) : Prop := ∀ entry ∈ machine.globals, entry.id ≤ count

variable {machine : Machine} {count : Nat}

theorem Housed.sameShape {after : Machine} (housed : machine.Housed count)
    (same : machine.SameShape after) : after.Housed count := by
  intro entry member
  have inHeads : entry.head ∈ after.globals.map Global.head := mem_map_of_mem member
  rw [same.globals] at inHeads
  obtain ⟨before, inBefore, isHead⟩ := mem_map.mp inHeads
  simp only [Global.head, Prod.mk.injEq] at isHead
  rw [← isHead.1]
  exact housed before inBefore

theorem Housed.mono {more} (housed : machine.Housed count) (grown : count ≤ more) :
    machine.Housed more := fun entry member => Nat.le_trans (housed entry member) grown

theorem globals_install (machine : Machine) (unit : CodeUnit) :
    (machine.install unit).globals = (unit.globals.foldl defineStart machine).globals :=
  (foldl_addFunction_globals unit.functions _).1

theorem Housed.install {decls : Declarations} (housed : machine.Housed decls.count)
    (ids : List DeclId) (globals : unit.globals = ids.filterMap decls.globalStart?) :
    (machine.install unit).Housed decls.count := by
  intro entry member
  rw [globals_install, globals] at member
  rcases (gains_foldl _ _).globals entry member with old | ⟨start, isStart, isId, _⟩
  · exact housed entry old
  · obtain ⟨id, _, made⟩ := mem_filterMap.mp isStart
    obtain ⟨decl, data, found, _, _, _, rfl⟩ := Declarations.globalStart?_eq_some.mp made
    rw [isId]
    exact Declarations.le_count_of_get? found

/-- Everything a unit defines is in the machine, under its own name. -/
structure Installed (machine : Machine) (unit : CodeUnit) : Prop where
  globals : ∀ start ∈ unit.globals, machine.Has start.id start.name start.kind
  functions : ∀ code ∈ unit.functions, machine.function? code.name = some code

theorem Installed.sameShape {after : Machine} (installed : machine.Installed unit)
    (same : machine.SameShape after) : after.Installed unit where
  globals := by
    intro start member
    obtain ⟨entry, found, isName, isKind, known⟩ := installed.globals start member
    have heads := same.global? start.id
    rw [found] at heads
    obtain ⟨entry', found', isHead⟩ := Option.map_eq_some_iff.mp heads
    simp only [Global.head, Prod.mk.injEq] at isHead
    exact ⟨entry', found', isHead.2.1.trans isName, isHead.2.2.trans isKind,
      by rw [same.names]; exact known⟩
  functions := by
    intro code member
    unfold function?
    rw [same.functions]
    exact installed.functions code member

theorem installed_install {leeway ids} {before after : Analysis}
    (joins : before.Joins leeway ids after) (housed : machine.Housed before.decls.count)
    (globals : unit.globals = ids.filterMap after.decls.globalStart?)
    (functions : unit.functions = ids.filterMap after.decls.lowered?) :
    (machine.install unit).Installed unit := by
  have coherent : machine.Coherent unit.globals := by
    rw [globals]
    refine ⟨fun first inFirst second inSecond isName => ?_,
      fun first inFirst second inSecond isId => ?_, fun start member entry found => ?_⟩
    · have known := (joins.start inFirst).2.2
      rw [isName, (joins.start inSecond).2.2] at known
      exact (Meaning.variable.inj (Option.some.inj known)).symm
    · have made := (joins.start inFirst).1
      rw [isId, (joins.start inSecond).1] at made
      exact (Option.some.inj made).symm
    · have low := housed entry (mem_of_find?_eq_some found)
      have isId : entry.id = start.id := by simpa using find?_some found
      rw [isId] at low
      exact absurd (joins.start member).2.1 (Nat.not_lt.mpr low)
  have unique : ∀ first ∈ unit.functions, ∀ second ∈ unit.functions, first.name = second.name →
      first = second := by
    rw [functions]
    intro first inFirst second inSecond same
    obtain ⟨id, isFirst, _, known, _⟩ := joins.code inFirst
    obtain ⟨id', isSecond, _, known', _⟩ := joins.code inSecond
    rw [same, known'] at known
    cases known
    exact Option.some.inj (isFirst.symm.trans isSecond)
  refine ⟨fun start member => ?_, Machine.function?_foldl _ _ unique⟩
  obtain ⟨entry, found, isName, isKind, known⟩ := has_foldl _ coherent start member
  obtain ⟨sameGlobals, sameNames, _⟩ := foldl_addFunction_globals unit.functions
    (unit.globals.foldl defineStart machine)
  refine ⟨entry, ?_, isName, isKind, ?_⟩
  · unfold global? at found ⊢
    unfold Machine.install
    rw [sameGlobals]
    exact found
  · unfold Machine.install
    rw [sameNames]
    exact known

end Machine

namespace Generator

theorem initializer_runInitializer (fuel : Nat) (machine : Machine) (run : Initializer) :
    (runInitializer fuel machine run).1.initializer = run := by
  unfold runInitializer
  dsimp only
  split
  · split <;> rfl
  · split
    · rfl
    · rfl
    · split <;> rfl

/-- Every initializer of a queue is run once, in order; a failing one does not stop the others. -/
theorem initializers_runAll (fuel : Nat) (runs : List Initializer) :
    ∀ machine : Machine, (runAll fuel machine runs).1.map InitializerResult.initializer =
      runs := by
  induction runs with
  | nil => exact fun machine => rfl
  | cons run rest ih =>
    intro machine
    unfold runAll
    dsimp only
    rw [map_cons, initializer_runInitializer, ih]

theorem runAll_fine {fuel} {machine : Machine} {runs : List Initializer}
    (fine : ∀ result ∈ (runAll fuel machine runs).1, result.error = none) :
    (runAll fuel machine runs).1 = runs.map fun run => ⟨run, none⟩ := by
  have whole := initializers_runAll fuel runs machine
  generalize (runAll fuel machine runs).1 = results at fine whole ⊢
  rw [← whole, map_map]
  refine (map_id results).symm.trans (map_congr_left fun result member => ?_)
  obtain ⟨initializer, error⟩ := result
  cases fine _ member
  rfl

end Generator

namespace Session

def Housed (session : Session) : Prop :=
  session.generator.machine.Housed session.analysis.decls.count

section Housed

variable {session : Session} {flags : StageFlags} {text : Text} {declOnly : Bool}

theorem Housed.performed (housed : session.Housed) :
    session.performed.2.machine.Housed session.analysis.decls.count := by
  have gains := addAll_gains session.analysis.decls session.owed {}
  exact (Machine.Housed.install housed _ gains.globals).sameShape (runAll_sameShape _ _ _)

theorem Housed.taken {ids last} (housed : session.Housed)
    (takes : session.Takes flags text declOnly ids last) :
    (session.taken text declOnly).generator.machine.Housed session.analysis.decls.count :=
  housed.performed.sameShape takes.shape

theorem Takes.grown {ids last} (takes : session.Takes flags text declOnly ids last) :
    session.analysis.decls.count ≤ (session.taken text declOnly).analysis.decls.count := by
  obtain ⟨_, decls⟩ := takes.stands.names_entered text declOnly
  rw [← decls]
  exact takes.works.keeps.follows.count

theorem Housed.compileText (housed : session.Housed) (stands : session.Stands flags)
    (text : Text) (declOnly : Bool) : (session.compileText text declOnly).2.Housed := by
  obtain ⟨ids, last, takes, gathers⟩ := stands.gathers_wide text declOnly
  have before := (housed.taken takes).mono takes.grown
  obtain ⟨trace, isCompiled⟩ := stands.compiled_eq text declOnly
  rw [isCompiled]
  by_cases fails : session.Fails text declOnly
  · rw [takes.ended_failed fails]
    exact before
  · cases declOnly with
    | true =>
      rw [takes.ended_pending fails]
      exact before
    | false =>
      obtain ⟨pipeline, _, _, isArranged, isEnded⟩ := takes.ended_committed fails
      obtain ⟨queue, released⟩ := takes.queue
      rw [isEnded]
      show Machine.Housed _ (session.taken text false).analysis.decls.count
      unfold committing
      cases generates : flags.generates with
      | false =>
        rw [if_neg Bool.false_ne_true, runQueue_nil queue]
        exact before
      | true =>
        obtain ⟨groups, pending⟩ := gathers.unit generates (takes.still fails)
        have gains := addAll_gains (session.taken text false).analysis.decls ids {}
        rw [if_pos rfl, runQueue_commit released]
        refine (before.install ids ?_).sameShape (runAll_sameShape _ _ _)
        rw [pending]
        exact gains.globals

theorem Reachable.housed (reachable : Reachable session) : session.Housed := by
  refine reachable.induct (fun front back options tree => ?_)
    (fun session orderly housed manner text => ?_) fun session after alike housed => ?_
  · intro entry member
    rw [(empty_fresh front back options tree).1] at member
    cases member
  · refine orderly.take_induction housed fun _ stands isOpen => ?_
    obtain ⟨_, _, _, isTaken⟩ := stands.take_eq isOpen manner text
    rw [isTaken]
    exact .compileText (show (session.prepared manner).Housed from housed)
      (stands.prepared manner) text manner.declOnly
  · unfold Housed
    rw [alike.decls]
    exact .sameShape housed alike.shape

end Housed

/-! ## A call that is fine -/

/-- What a call that is fine has done with its text. -/
structure Delivers (units : List SourceUnit) (before after : Session) (last : Transaction)
    (unit : CodeUnit) : Prop where
  /-- No declaration of the text was skipped. -/
  whole : ∀ unit ∈ units, unit ≠ .group []
  log : after.journal.log = before.journal.log ++ [last]
  state : last.state = .committed
  sent : ∀ group, .group group ∈ units → ∀ id ∈ group, id ∈ last.decls
  carried : ∀ id ∈ last.decls, ∃ decl, after.analysis.decls.get? id = some decl ∧
    decl.invalid = false ∧ unit.Carries after.analysis.decls id decl
  installed : after.generator.machine.Installed unit
  /-- Every initializer and wrapper was run once, without an error. -/
  ran : ∃ printed, runAll after.patience
      ({ before.generator.machine with printed }.install unit) unit.runs =
    (unit.runs.map fun run => ⟨run, none⟩, after.generator.machine)

section Calls

variable {declOnly : Bool}

variable {session : Session} {flags : StageFlags} {text : Text}

theorem Stands.errors_ended (stands : session.Stands flags)
    (fine : (session.compileText text declOnly).1.isFine = true) :
    (session.ended text declOnly).engine.errors = 0 := by
  rw [compileText_eq stands.idle_cleared] at fine
  by_contra counted
  have failed : statusOf (session.ended text declOnly).engine.errors
      (session.ended text declOnly).engine.warnings = .failed :=
    if_pos (Nat.pos_of_ne_zero counted)
  unfold Outcome.isFine conclude at fine
  simp [failed] at fine

theorem carries_all {ids leeway base unit} {analysis : Analysis}
    (placed : ∀ id ∈ ids, analysis.Placed leeway base id)
    (silent : (({} : CodeUnit).addAll analysis.decls ids).2 = []) {groups : Nat}
    (isUnit : unit = { (({} : CodeUnit).addAll analysis.decls ids).1 with groups }) :
    ∀ id ∈ ids, ∃ decl, analysis.decls.get? id = some decl ∧ decl.invalid = false ∧
      unit.Carries analysis.decls id decl := by
  intro id member
  have gains := addAll_gains analysis.decls ids {}
  obtain ⟨before, quiet⟩ := addAll_silent silent id member
  have kept : ∀ {α : Type} (made : DeclId → Option α) (value : α), made id = some value →
      value ∈ ids.filterMap made :=
    fun made value isMade => mem_filterMap.mpr ⟨id, member, isMade⟩
  obtain ⟨decl, found, valid, stored, present⟩ : ∃ decl, analysis.decls.get? id = some decl ∧
      decl.invalid = false ∧ (∀ data, decl.body = .variable data → data.storage = .global) ∧
      (∀ data, decl.body = .wrapper data → data.body.isSome = true) := by
    rcases placed id member with accepted | ⟨_, _, decl, data, found, valid, isWrapper, present⟩
    · obtain ⟨decl, found, valid, sound⟩ := accepted.valid
      refine ⟨decl, found, valid, fun data isBody => ?_, fun data isBody => ?_⟩ <;>
        rw [isBody] at sound <;> cases sound <;> assumption
    · refine ⟨decl, found, valid, fun other isBody => ?_, fun other isBody => ?_⟩
      · rw [isWrapper] at isBody
        cases isBody
      · rw [isWrapper] at isBody
        cases isBody
        exact present
  refine ⟨decl, found, valid, carries_of_silent found valid stored present quiet ?_ ?_ ?_⟩
  · intro start made
    rw [isUnit]
    show start ∈ (({} : CodeUnit).addAll analysis.decls ids).1.globals
    rw [gains.globals]
    exact kept _ _ made
  · intro code made
    rw [isUnit]
    show code ∈ (({} : CodeUnit).addAll analysis.decls ids).1.functions
    rw [gains.functions]
    exact kept _ _ made
  · intro run made
    rw [isUnit]
    show run ∈ (({} : CodeUnit).addAll analysis.decls ids).1.runs
    rw [runs_addAll]
    exact Declarations.mem_runs.mpr ⟨id, member, made⟩

theorem Stands.silent_entered (stands : session.Stands flags)
    (zero : (session.entered text declOnly).engine.errors = 0) :
    (session.entered text declOnly).engine.Silent := by
  have clear : session.engine.beginScope.Silent := by
    intro entry member
    rw [show session.engine.beginScope.known = [] from stands.clear.known] at member
    cases member
  rw [stands.engine_entered] at zero ⊢
  exact (Engine.reportAll_grows _ _).silent clear (zero.trans stands.clear.errors.symm)

theorem fine_of_reports {results} {engine : Engine} (silent : engine.Silent)
    (same : (engine.reportAll (runReports results)).errors = engine.errors) :
    ∀ result ∈ results, result.error = none := by
  intro result member
  cases isError : result.error with
  | none => rfl
  | some error =>
    have reported : runDiagnostic error ∈ runReports results :=
      mem_filterMap.mpr ⟨result, member, by rw [isError]; rfl⟩
    have isFine := silent.reportAll _ same _ reported
    rw [(runReports_code _ _ reported).2] at isFine
    cases isFine

theorem Takes.ran {ids last} (takes : session.Takes flags text declOnly ids last)
    (generates : flags.generates = true) :
    let now := session.taken text declOnly
    let ran := runAll now.patience (now.generator.machine.install now.generator.pending)
      now.generator.pending.runs
    (now.committing flags).runQueue now.patience =
      (ran.1, { now.generator with machine := ran.2, pending := {}, queue := [] }) := by
  intro now ran
  obtain ⟨queue, released⟩ := takes.queue
  unfold committing
  rw [if_pos generates, runQueue_commit released]
  unfold perform
  rw [queue]
  rfl

theorem Stands.delivers (stands : session.Stands flags)
    (generates : flags.generates = true) (housed : session.Housed)
    (fine : (session.compileText text false).1.isFine = true) :
    ∃ last unit, Delivers (session.units text false) session.flushed
      (session.compileText text false).2 last unit := by
  obtain ⟨_, _, _, _, isFlushed⟩ := stands.flushed_eq
  obtain ⟨ids, last, takes, gathers⟩ := stands.gathers_wide text false
  have zero := stands.errors_ended fine
  have notFailed : ¬ session.Fails text false := by
    intro fails
    have positive := Nat.lt_of_le_of_lt (Nat.zero_le _) fails
    rw [takes.ended_failed fails] at zero
    exact absurd zero (Nat.ne_of_gt positive)
  have still := takes.still notFailed
  obtain ⟨pipeline, _, _, _, isEnded⟩ := takes.ended_committed notFailed
  rw [takes.ran generates] at isEnded
  let now := session.taken text false
  let unit := now.generator.pending
  let ran := runAll now.patience (now.generator.machine.install unit) unit.runs
  -- Nothing was counted, so nothing was reported: not by the flush, not while the text was
  -- taken in and not by the run.
  have counted : (now.engine.reportAll (runReports ran.1)).errors = 0 := by
    rw [isEnded] at zero
    exact zero
  have zeroNow : now.engine.errors = 0 :=
    Nat.le_zero.mp (counted ▸ (Engine.reportAll_grows _ _).errors)
  have silent := stands.silent_entered (still.symm.trans zeroNow)
  have fineRun : ∀ result ∈ ran.1, result.error = none :=
    fine_of_reports (takes.works.engine.silent silent still) (counted.trans zeroNow.symm)
  obtain ⟨groups, isUnit⟩ := gathers.unit generates still
  have tracks := gathers.tracks still
  obtain ⟨ids', last', takes', attends⟩ := stands.attends silent
  rw [takes.unique takes'] at attends
  have gains := addAll_gains now.analysis.decls ids {}
  have installed : (now.generator.machine.install unit).Installed unit :=
    Machine.installed_install (takes.joins tracks)
      (housed.taken takes)
      ((congrArg globals isUnit).trans gains.globals)
      ((congrArg functions isUnit).trans gains.functions)
  obtain ⟨trace, isCompiled⟩ := stands.compiled_eq text false
  refine ⟨{ last with state := .committed }, unit, ?_⟩
  rw [isCompiled, isEnded, isFlushed]
  exact {
    whole := attends.whole still
    log := rfl
    state := rfl
    sent := fun group member id inGroup =>
      takes.decls ▸ (attends.sent group member id inGroup).resolve_right not_mem_nil
    carried := fun id member => carries_all tracks.placed (gathers.silent generates silent.free still)
      isUnit id (takes.decls ▸ member)
    installed := installed.sameShape (runAll_sameShape _ _ _)
    ran := by
      refine ⟨now.generator.machine.printed, ?_⟩
      dsimp only
      rw [← takes.machine]
      exact Prod.ext (runAll_fine fineRun) rfl }

theorem Delivers.unseen {last unit} {units : List SourceUnit} {before after : Session}
    (delivers : Delivers units before after last unit) (pipeline : Pipeline StageStore)
    (trace : TraceRecorder) :
    Delivers units before { after with pipeline, trace } last unit :=
  { delivers with }

theorem generates_of_enabled {pipeline : Pipeline StageStore} (arranged : pipeline.Arranged flags)
    (enabled : .codeGenerator ∈ pipeline.enabled) : flags.generates = true := by
  obtain ⟨last, queue, rfl⟩ := arranged
  exact (mem_filter.mp enabled).2

end Calls

/-- A call with code generation that ends without an error has skipped nothing: every unit of
the text was read, every declaration in it is valid and was dispatched, and all that was
dispatched is in the unit that was committed and run. -/
theorem fine_call_delivers {session : Session} (reachable : Reachable session)
    (generates : .codeGenerator ∈ session.pipeline.enabled) (mode : Mode) (text : Text)
    (fine : (session.take (.compiled mode) text).1.isFine = true) :
    ∃ last unit, Delivers ((session.prepared (.compiled mode)).units text false)
      (session.prepared (.compiled mode)).flushed (session.take (.compiled mode) text).2 last unit := by
  have orderly := reachable.orderly
  have isOpen : session.closed = false := by
    rcases Bool.eq_false_or_eq_true session.closed with closed | closed
    · rw [take_refused (refusal_closed closed)] at fine
      cases fine
    · exact closed
  obtain ⟨flags, stands⟩ := (orderly.steady isOpen).stands
  obtain ⟨pipeline, trace, _, isTaken⟩ :=
    stands.take_eq (refusal_open orderly.idle isOpen) (.compiled mode) text
  rw [isTaken] at fine ⊢
  have lowers := generates_of_enabled stands.stages generates
  obtain ⟨last, unit, delivers⟩ := (stands.prepared (.compiled mode)).delivers
    (show (Manner.flags flags (.compiled mode)).generates = true from lowers)
    (show (session.prepared (.compiled mode)).Housed from reachable.housed) fine
  exact ⟨last, unit, delivers.unseen pipeline trace⟩

/-- With a declaration still to be flushed, a line declares a variable and a function and
runs a statement. -/
theorem fine_call_delivers_after_flush :
    let session := (fresh {} {} { noBootstrap := true } (.empty [])).serve
      (.take .declared "int x = 1;")
    let text : Text := "int y = x; int f() { return y; } print(f());"
    .codeGenerator ∈ session.pipeline.enabled ∧
      (session.take (.compiled .prompt) text).1.isFine = true ∧
      ∃ last unit, Delivers ((session.prepared (.compiled .prompt)).units text false)
        (session.prepared (.compiled .prompt)).flushed (session.take (.compiled .prompt) text).2
        last unit := by
  intro session text
  have generates : .codeGenerator ∈ session.pipeline.enabled := by decide +kernel
  have fine : (session.take (.compiled .prompt) text).1.isFine = true := by decide +kernel
  exact ⟨generates, fine,
    fine_call_delivers ((Reachable.opened (opens_bare [])).served _) generates _ _ fine⟩

end Session

end FragmentCompiler
