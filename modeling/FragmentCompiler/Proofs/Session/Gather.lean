import FragmentCompiler.Proofs.Lowering.Report
import FragmentCompiler.Proofs.Session.Tracking
import FragmentCompiler.Proofs.Session.Steady

/-!
# What a call gathers

As long as no error is counted, the declarations a call has dispatched may be lowered, every
name it has learned stands for one of them or for one that waits, and the pending unit is
what lowering them gives.
-/

set_option autoImplicit false

namespace FragmentCompiler

open List Analysis

namespace Engine

theorem mem_known_reportAll (diagnostics : List Diagnostic) :
    ∀ {engine : Engine} {entry : Diagnostic}, entry ∈ (engine.reportAll diagnostics).known →
      entry ∈ engine.known ∨ entry ∈ diagnostics := by
  induction diagnostics with
  | nil => exact fun member => .inl member
  | cons diagnostic rest ih =>
    intro engine entry member
    rcases ih (show entry ∈ ((engine.report diagnostic).reportAll rest).known from member) with
      first | later
    · unfold Engine.report at first
      split at first
      · exact .inl first
      · rcases mem_cons.mp first with isFirst | old
        · exact .inr (mem_cons.mpr (.inl isFirst))
        · exact .inl old
    · exact .inr (mem_cons_of_mem _ later)

end Engine

/-- A leeway is wide enough for the stages of a call while dynamic lookup is on or off. -/
structure Leeway.Covers (leeway : Leeway) (flags : StageFlags) (on : Bool) : Prop where
  prompts : flags.Prompts → leeway.prompts
  deferrals : on = true → leeway.deferrals
  leftovers : leeway.deferrals → on = false → leeway.leftovers
  lookups : leeway.deferrals → leeway.lookups

/-- No restriction at all. -/
def Leeway.wide : Leeway := ⟨True, True, True, True⟩

theorem Leeway.wide_covers (flags : StageFlags) (on : Bool) : Leeway.wide.Covers flags on :=
  ⟨fun _ => trivial, fun _ => trivial, fun _ _ => trivial, fun _ => trivial⟩

namespace Analysis

theorem Tracks.addAll {leeway ids waiting} {start now after : Analysis}
    (tracks : start.Tracks leeway ids waiting now) (learns : now.decls.Extends after.decls)
    (same : ∀ id ∈ ids, now.decls.Intact after.decls id) (unit : CodeUnit) :
    unit.addAll after.decls ids = unit.addAll now.decls ids :=
  Declarations.addAll_congr learns (fun id member => (tracks.placed id member).settled) same unit

theorem Tracks.placed_stages {leeway ids group rest flags} {start now : Analysis}
    (tracks : start.Tracks leeway ids (group ++ rest) now)
    (keeps : start.Keeps ids (group ++ rest) now) (covers : leeway.Covers flags flags.rewrites) :
    ∀ id ∈ (now.throughStages flags group).1,
      (now.throughStages flags group).2.Placed leeway start.decls.count id := by
  have batch : now.Batch False False leeway.deferrals False start.decls.count group := by
    obtain ⟨_, _, spread⟩ := keeps.batch
    exact ⟨fun id member => .inl (tracks.waits id (mem_append_left _ member)),
      keeps.batch.within, spread⟩
  obtain ⟨_, after⟩ := throughStages_regroups keeps.follows.ready flags batch
  intro id member
  rcases after.each id member with accepted | ⟨never, _⟩ | ⟨isPrompt, opened⟩
  · exact .inl (accepted.weaken (.refl _) (fun left => covers.leftovers left.1 left.2)
      (fun looked => looked.elim covers.lookups False.elim) (Nat.le_refl _) fun _ _ => rfl)
  · exact never.elim
  · exact .inr ⟨covers.prompts isPrompt, opened⟩

end Analysis

namespace Session

/-- While no error was counted since `start`, a call has gathered the declarations `ids` and
the unit they give. -/
structure Gathers (flags : StageFlags) (leeway : Leeway) (start : Session)
    (ids waiting : List DeclId) (now : Session) : Prop where
  covers : leeway.Covers flags now.journal.dynamicLookup
  tracks : now.engine.errors = start.engine.errors →
    start.analysis.Tracks leeway ids waiting now.analysis
  unit : flags.generates = true → now.engine.errors = start.engine.errors →
    ∃ groups, now.generator.pending =
      { (({} : CodeUnit).addAll now.analysis.decls ids).1 with groups }
  silent : flags.generates = true → start.engine.Free Code.IsLowering →
    now.engine.errors = start.engine.errors →
    (({} : CodeUnit).addAll now.analysis.decls ids).2 = []

section Gathers

variable {flags : StageFlags} {leeway : Leeway} {start now : Session} {ids waiting : List DeclId}

section

variable (gathers : Gathers flags leeway start ids waiting now)
  (works : Works flags start ids waiting now)

include gathers works

theorem Gathers.evolve {others} {after : Session}
    (lookup : after.journal.dynamicLookup = now.journal.dynamicLookup)
    (grows : now.engine.Grows after.engine)
    (pending : after.generator.pending = now.generator.pending)
    (learns : now.analysis.decls.Extends after.analysis.decls)
    (same : ∀ id ∈ ids, now.analysis.decls.Intact after.analysis.decls id)
    (tracks : after.engine.errors = start.engine.errors →
      start.analysis.Tracks leeway ids waiting now.analysis →
      start.analysis.Tracks leeway ids others after.analysis) :
    Gathers flags leeway start ids others after where
  covers := by rw [lookup]; exact gathers.covers
  tracks := fun still => tracks still (gathers.tracks (works.engine.still grows still))
  unit := by
    intro on still
    have before := works.engine.still grows still
    obtain ⟨groups, isPending⟩ := gathers.unit on before
    refine ⟨groups, ?_⟩
    rw [(gathers.tracks before).addAll learns same, pending]
    exact isPending
  silent := by
    intro on silent still
    have before := works.engine.still grows still
    rw [(gathers.tracks before).addAll learns same]
    exact gathers.silent on silent before

theorem Gathers.of_same {after : Session}
    (lookup : after.journal.dynamicLookup = now.journal.dynamicLookup)
    (grows : now.engine.Grows after.engine)
    (pending : after.generator.pending = now.generator.pending)
    (decls : after.analysis.decls = now.analysis.decls)
    (names : after.analysis.names = now.analysis.names) :
    Gathers flags leeway start ids waiting after :=
  gathers.evolve works lookup grows pending (by rw [decls]; exact .refl _)
    (fun _ _ _ _ => by rw [decls]) fun _ tracks => tracks.of_same decls names

theorem Gathers.drain : Gathers flags leeway start ids waiting now.drain :=
  gathers.of_same works rfl (Engine.reportAll_grows _ _) rfl (drained_decls _)
    (drained_names _)

theorem Gathers.read {parser : Parser} (takes : now.analysis.parser.Takes parser) :
    Gathers flags leeway start ids waiting
      { now with analysis := { now.analysis with parser } } := by
  have follows :=
    takes_follows works.keeps.follows.ready takes works.keeps.follows.count
  refine gathers.evolve works rfl (.refl _) rfl follows.learns.decls (fun id member => ?_)
    fun _ tracks => tracks.read works.keeps takes
  exact works.keeps.read_same takes id (mem_append_left _ member)

end

/-- Checking a group: its declarations wait, with those that were fetched. -/
theorem Gathers.checkedGroup {base group}
    (gathers : Gathers flags leeway start ids now.analysis.fetched now)
    (works : Works flags start ids now.analysis.fetched now) (quiet : start.engine.Quiet)
    (raw : now.analysis.decls.RawGroup base group) (low : start.analysis.decls.count ≤ base)
    (below : now.analysis.decls.Below base (ids ++ now.analysis.fetched)) :
    Gathers flags leeway start ids (group ++ (now.checkedGroup group).analysis.fetched)
      (now.checkedGroup group) := by
  have checked := checkGroup_checked group works.keeps.follows.ready raw
  obtain ⟨fetched, reports, evolves, accepted⟩ := checked.evolves
  have grows : now.engine.Grows (now.checkedGroup group).engine := Engine.reportAll_grows _ _
  have decls : (now.checkedGroup group).analysis.decls = (now.analysis.checkGroup group).2.decls :=
    drained_decls _
  rw [fetched_checkedGroup evolves]
  refine gathers.evolve works rfl grows rfl (by rw [decls]; exact evolves.learns.decls)
    (fun id member other family => ?_) fun still tracks => ?_
  · rw [decls]
    exact works.keeps.check_same raw below evolves id (mem_append_left _ member) other family
  · -- Nothing was counted, so nothing the check reported about the text is an error.
    have before := works.engine.still grows still
    have fine : ∀ entry ∈ reports, entry.isError = false := by
      intro entry member
      refine Engine.Free.reportAll _ (works.engine.free quiet before)
        (still.trans before.symm) entry ?_ (evolves.text entry member)
      show entry ∈ (now.analysis.checkGroup group).2.parser.reports.toList
      rw [evolves.isReports]
      exact mem_append_right _ member
    have defers : (now.analysis.checkGroup group).2.Defers → leeway.deferrals := by
      intro isSome
      have isOn := evolves.isSome_resolver.symm.trans isSome
      exact gathers.covers.deferrals (works.switched.resolver.symm.trans isOn)
    exact (tracks.check works.keeps raw low below checked evolves fine (accepted fine) defers).of_same
      decls (drained_names _)

theorem dynamicLookup_dispatch (arranged : now.pipeline.Arranged flags) (group : Group) :
    (now.dispatch group).journal.dynamicLookup = now.journal.dynamicLookup := by
  obtain ⟨early, late, pipeline, _, dispatched⟩ := dispatch_eq arranged group
  rw [dispatched]
  exact (dynamicLookup_updateLast _ _).trans
    (congrArg Journal.dynamicLookup (journal_throughStages _ _ _))

theorem mem_reported {passed entry}
    (member : entry ∈ (now.generator.handleGroup passed.2.decls passed.1).2) :
    entry ∈ (now.reported true passed).parser.reports.toList := by
  obtain ⟨all, isAll, same⟩ := foldl_report
    (now.generator.handleGroup passed.2.decls passed.1).2 passed.2
  unfold Session.reported
  rw [if_pos rfl, same]
  show entry ∈ all.toList
  rw [isAll]
  exact mem_append_right _ member

theorem Gathers.dispatch {group rest} (gathers : Gathers flags leeway start ids (group ++ rest) now)
    (works : Works flags start ids (group ++ rest) now) (held : start.generator.released = false) :
    Gathers flags leeway start
      (ids ++ (now.analysis.throughStages (flagsNow flags now) group).1) rest
      (now.dispatch group) := by
  obtain ⟨_, engine, pending⟩ := dispatch_parts works.arranged group
  obtain ⟨decls, names, _⟩ := works.analysis_dispatch
  obtain ⟨regroups, _⟩ := throughStages_regroups works.keeps.follows.ready
    (flagsNow flags now) works.keeps.batch
  let passed := now.analysis.throughStages (flagsNow flags now) group
  have grows : now.engine.Grows (now.dispatch group).engine := by
    rw [engine]
    exact Engine.reportAll_grows _ _
  have before := fun still => works.engine.still grows still
  have same := works.keeps.others regroups
  have covers : leeway.Covers (flagsNow flags now) (flagsNow flags now).rewrites :=
    ⟨gathers.covers.prompts, gathers.covers.deferrals, gathers.covers.leftovers,
      gathers.covers.lookups⟩
  have free : now.generator.released = false := works.released.trans held
  -- The unit of all that was dispatched is the one before with the new group added.
  have unit : (now.dispatch group).engine.errors = start.engine.errors →
      ({} : CodeUnit).addAll passed.2.decls (ids ++ passed.1) =
        (((({} : CodeUnit).addAll now.analysis.decls ids).1.addAll passed.2.decls passed.1).1,
          (({} : CodeUnit).addAll now.analysis.decls ids).2 ++
            ((({} : CodeUnit).addAll now.analysis.decls ids).1.addAll passed.2.decls passed.1).2) := by
    intro still
    rw [CodeUnit.addAll_append, (gathers.tracks (before still)).addAll
      regroups.evolves.learns.decls fun id member => same id (mem_append_left _ member)]
  refine ⟨?_, fun still => ?_, fun on still => ?_, fun on silent still => ?_⟩
  · rw [dynamicLookup_dispatch works.arranged]
    exact gathers.covers
  · have tracks := gathers.tracks (before still)
    exact (tracks.regroup works.keeps regroups (tracks.placed_stages works.keeps covers)).of_same
      decls names
  · obtain ⟨groups, isPending⟩ := gathers.unit on (before still)
    rw [pending, decls, unit still]
    dsimp only
    rw [if_pos on, Generator.handleGroup_eq free, isPending, CodeUnit.addAll_groups]
    exact ⟨_, rfl⟩
  · have none := gathers.silent on silent (before still)
    obtain ⟨groups, isPending⟩ := gathers.unit on (before still)
    have lowered : (now.generator.handleGroup passed.2.decls passed.1).2 =
        ((({} : CodeUnit).addAll now.analysis.decls ids).1.addAll passed.2.decls passed.1).2 := by
      rw [Generator.handleGroup_eq free, isPending, CodeUnit.addAll_groups]
    rw [decls, unit still, none, nil_append, ← lowered]
    refine eq_nil_iff_forall_not_mem.mpr fun entry member => ?_
    have isLowering : entry.FromLowering := by
      rw [lowered] at member
      exact CodeUnit.addAll_fromLowering _ _ _ entry member
    have free := works.engine.free silent (before still)
    have reported : entry ∈ (now.reported flags.generates passed).parser.reports.toList := by
      rw [on]
      exact mem_reported member
    rw [engine] at still
    have fine := Engine.Free.reportAll _ free
      (still.trans (before (by rw [engine]; exact still)).symm) entry reported isLowering.2
    rw [isLowering.1] at fine
    cases fine

theorem Gathers.handlePragma {key value} (gathers : Gathers flags leeway start ids waiting now)
    (works : Works flags start ids waiting now) {span : Span}
    (covers : leeway.Covers flags (now.handlePragma key value span).journal.dynamicLookup) :
    Gathers flags leeway start ids waiting (now.handlePragma key value span) := by
  rcases now.handlePragma_cases key value span with ⟨on, done⟩ | ⟨message, isError⟩
  · obtain ⟨_, _, isDone⟩ := setLookup_ok done
    rw [isDone] at covers ⊢
    exact ⟨covers, fun still => (gathers.tracks still).of_same rfl rfl, gathers.unit, gathers.silent⟩
  · rw [isError]
    have takes := badDirective_takes works.keeps.follows.ready.lexed span message
    exact (gathers.read works takes).drain (works.read takes)

/-- Gathering goes on through the whole call; only units that are `allowed` are met, and
where pragmas are among them the leeway stays wide enough. -/
theorem gathers_invariant (quiet : start.engine.Quiet) (held : start.generator.released = false)
    (allowed : SourceUnit → Prop)
    (pragmas : ∀ {now : Session} {key value span}, now.Switched →
      allowed (.pragma key value span) → leeway.Covers flags now.journal.dynamicLookup →
      leeway.Covers flags (now.handlePragma key value span).journal.dynamicLookup) :
    Invariant flags start fun units ids waiting now =>
      (∀ unit ∈ units, allowed unit) → Gathers flags leeway start ids waiting now where
  abandon := fun works held fine => (held fine).read works (Parser.abandon_takes _)
  unseen := fun held _ _ fine => { held fine with }
  read := by
    intro units ids now unit parser works held isNext _ fine
    have gathers := held fun unit member => fine unit (mem_append_left _ member)
    have takes := (works.nextUnit isNext).1
    exact (gathers.read works takes).drain (works.read takes)
  group := by
    intro units ids now group parser works held isNext checked fine
    have gathers := held fun unit member => fine unit (mem_append_left _ member)
    obtain ⟨takes, reads, grouped⟩ := works.nextUnit isNext
    obtain ⟨raw, below⟩ := grouped group rfl
    have read := (gathers.read works takes).drain (works.read takes)
    have fetched : { now with analysis := { now.analysis with parser } }.drain.analysis.fetched =
        now.analysis.fetched := drained_fetched _
    rw [← fetched] at read
    exact read.checkedGroup reads quiet raw works.keeps.follows.count below
  pragma := fun works held key value span member fine =>
    (held fine).handlePragma works (pragmas works.switched (fine _ member) (held fine).covers)
  dispatch := fun works gathered fine => (gathered fine).dispatch works held
  empty := fun works held fine => (held fine).of_same works rfl (.refl _) rfl rfl rfl
  finish := by
    intro units ids now works held fine
    obtain ⟨_, _, _, _, warned⟩ := finishPending_reports now.analysis
    have finished : Gathers flags leeway start ids []
        { now with analysis := now.analysis.finishPending } := by
      rw [warned]
      exact (held fine).of_same works rfl (.refl _) rfl rfl rfl
    exact finished.drain works.finishPending

end Gathers

/-! ## A whole call -/

theorem runReports_code (results : List InitializerResult) :
    ∀ entry ∈ runReports results, entry.code = .runtimeError ∧ entry.isError = true := by
  have noted : ∀ (backtrace : List Activation) (diagnostic : Diagnostic),
      let after := backtrace.foldl (fun diagnostic activation =>
        diagnostic.withNote activation.span ("in " ++ activation.function)) diagnostic
      after.code = diagnostic.code ∧ after.isError = diagnostic.isError := by
    intro backtrace
    induction backtrace with
    | nil => exact fun _ => ⟨rfl, rfl⟩
    | cons activation rest ih => exact fun diagnostic => ih _
  intro entry member
  obtain ⟨result, _, isReport⟩ := mem_filterMap.mp member
  obtain ⟨error, _, rfl⟩ := Option.map_eq_some_iff.mp isReport
  exact noted _ _

section Calls

variable {session : Session} {flags : StageFlags} {leeway : Leeway}

section

variable (stands : session.Stands flags) (text : Text) (declOnly : Bool)

include stands

theorem Stands.known_entered {text declOnly entry}
    (member : entry ∈ (session.entered text declOnly).engine.known) :
    entry ∈ session.flushReports := by
  rw [stands.engine_entered] at member
  refine (Engine.mem_known_reportAll _ member).resolve_left fun old => ?_
  rw [show session.engine.beginScope.known = [] from stands.clear.known] at old
  cases old

theorem Stands.quiet_entered : (session.entered text declOnly).engine.Quiet := by
  intro entry member _
  rcases mem_append.mp (stands.known_entered member) with lowered | ran
  · exact (CodeUnit.addAll_fromLowering _ _ _ entry lowered).fromCode.2
  · rw [(runReports_code _ entry ran).1]
    decide

theorem Stands.lookup_entered :
    (session.entered text declOnly).journal.dynamicLookup = session.journal.dynamicLookup := by
  obtain ⟨_, _, _, _, isEntered, _⟩ := stands.entered_eq text declOnly
  rw [isEntered, ← dynamicLookup_flushed session.journal]
  unfold openedJournal numbered
  split <;> rfl

/-- A call that meets only units that are `allowed` gathers what it dispatches. -/
theorem Stands.gathers {text declOnly} (allowed : SourceUnit → Prop)
    (covers : leeway.Covers flags session.journal.dynamicLookup)
    (pragmas : ∀ {now : Session} {key value span}, now.Switched →
      allowed (.pragma key value span) → leeway.Covers flags now.journal.dynamicLookup →
      leeway.Covers flags (now.handlePragma key value span).journal.dynamicLookup)
    (fine : ∀ unit ∈ session.units text declOnly, allowed unit) :
    ∃ ids last, session.Takes flags text declOnly ids last ∧
      Gathers flags leeway (session.entered text declOnly) ids [] (session.taken text declOnly) := by
  have isGenerator := stands.generator_entered text declOnly
  have pending : (session.entered text declOnly).generator.pending = {} := by
    rw [isGenerator]
    rfl
  have held : (session.entered text declOnly).generator.released = false := by
    rw [isGenerator]
    exact stands.released
  have begins := stands.begins text declOnly
  have started : Gathers flags leeway (session.entered text declOnly) []
      (session.entered text declOnly).analysis.fetched (session.entered text declOnly) := by
    rw [stands.fetched_entered text declOnly]
    refine ⟨?_, fun _ => .refl _ _, fun _ _ => ⟨0, pending⟩, fun _ _ _ => rfl⟩
    rw [stands.lookup_entered]
    exact covers
  obtain ⟨⟨ids, ends, gathered⟩, _⟩ := (gathers_invariant
    (stands.quiet_entered text declOnly) held allowed pragmas).takeIn begins fun _ => started
  obtain ⟨last, takes⟩ := stands.takes_of ends
  exact ⟨ids, last, takes, gathered fine⟩

theorem Stands.gathers_wide :
    ∃ ids last, session.Takes flags text declOnly ids last ∧
      Gathers flags .wide (session.entered text declOnly) ids [] (session.taken text declOnly) :=
  stands.gathers (fun _ => True) (Leeway.wide_covers flags _)
    (fun _ _ _ => Leeway.wide_covers flags _) fun _ _ => trivial

end

end Calls

end Session

end FragmentCompiler
