import FragmentCompiler.Proofs.Session.Atomic
import FragmentCompiler.Proofs.Session.Toggles

/-!
# Modes of a session

The journal says whether dynamic lookup is on, whether a snapshot is used and whether one is
built.  Each of these flags agrees with the part it speaks of: the switch and the slot of the
resolver, the archive, and the stage that holds the file a snapshot is built in.
-/

set_option autoImplicit false

namespace FragmentCompiler

open List Pipeline

/-- What happens to a file in which a snapshot is built. -/
inductive SinkEvent where
  | opened (writer : SnapshotWriter)
  | written (writer : SnapshotWriter)
  deriving DecidableEq, Repr

/-- Nothing happens between the opening of a file and the writing of it.  As only one event
follows another, no opened file is written twice. -/
def SinkEvent.Paired (log : List SinkEvent) : Prop :=
  ∀ (earlier : List SinkEvent) (writer : SnapshotWriter) (later : List SinkEvent),
    log = earlier ++ .written writer :: later → ∃ first, earlier = first ++ [.opened writer]

theorem SinkEvent.Paired.snoc {log event} (paired : Paired log)
    (follows : ∀ writer, event = .written writer → ∃ first, log = first ++ [.opened writer]) :
    Paired (log ++ [event]) := by
  intro earlier writer later isLog
  rcases eq_nil_or_concat later with rfl | ⟨rest, last, rfl⟩
  · obtain ⟨rfl, same⟩ := append_inj' isLog rfl
    exact follows writer (by simpa using same)
  · rw [concat_eq_append, ← cons_append, ← append_assoc] at isLog
    exact paired earlier writer rest (append_inj' isLog rfl).1

theorem SinkEvent.paired_toList (sink : Option SnapshotWriter) :
    Paired (sink.toList.map .opened) := by
  have none_paired : Paired [] := by simp [Paired]
  cases sink with
  | none => exact none_paired
  | some writer => exact none_paired.snoc nofun

namespace Pipeline

variable (pipeline : Pipeline StageStore)

/-- The file in which a snapshot is built. -/
def sink? : Option SnapshotWriter :=
  (pipeline.slot? .snapshotWriter).bind fun slot => slot.stage.writer?

theorem has_sinks (id : StageId) : pipeline.has id = (pipeline.sinks.2 id).isSome := by
  simp [has, sinks]

theorem sink?_sinks : pipeline.sink? = (pipeline.sinks.2 .snapshotWriter).join := by
  cases isSlot : pipeline.slot? .snapshotWriter <;> simp [sink?, sinks, isSlot]

variable {pipeline}

theorem sink?_absent (absent : pipeline.has .snapshotWriter = false) : pipeline.sink? = none := by
  simp_all [has, sink?]

end Pipeline

namespace Session

/-- The flags of snapshots agree with the archive and with the stages.  While a snapshot is
built there is a file for it that was neither written nor given up. -/
structure Matched (session : Session) : Prop where
  apart : (session.journal.usingSnapshot && session.journal.buildingSnapshot) = false
  isUsing : session.journal.usingSnapshot = session.analysis.archive.isSome
  isBuilding : session.journal.buildingSnapshot = session.pipeline.has .snapshotWriter
  sink : session.journal.buildingSnapshot = session.pipeline.sink?.isSome
  unwritten : ∀ writer ∈ session.pipeline.sink?, writer.written = false ∧ writer.closed = false
  ordered : session.pipeline.Ordered

/-- Nothing that concerns snapshots has changed. -/
structure Retains (before after : Session) : Prop where
  isUsing : after.journal.usingSnapshot = before.journal.usingSnapshot
  isBuilding : after.journal.buildingSnapshot = before.journal.buildingSnapshot
  archive : after.analysis.archive = before.analysis.archive
  sinks : after.pipeline.sinks = before.pipeline.sinks

/-- What a request may do that concerns snapshots, and what it does to files. -/
inductive SnapshotStep (session : Session) : List SinkEvent → Session → Prop
  | retained {after : Session} (retains : session.Retains after) : SnapshotStep session [] after
  | loaded {after : Session} (isUsing : after.journal.usingSnapshot = true)
      (isBuilding : after.journal.buildingSnapshot = false)
      (archive : after.analysis.archive.isSome = true)
      (idle : session.journal.buildingSnapshot = false)
      (sinks : after.pipeline.sinks = session.pipeline.sinks) : SnapshotStep session [] after
  | opened {after : Session} (writer : SnapshotWriter)
      (isUsing : after.journal.usingSnapshot = session.journal.usingSnapshot)
      (unused : session.journal.usingSnapshot = false)
      (isBuilding : after.journal.buildingSnapshot = true)
      (archive : after.analysis.archive = session.analysis.archive)
      (unwritten : writer.written = false ∧ writer.closed = false)
      (present : after.pipeline.has .snapshotWriter = true)
      (sink : after.pipeline.sink? = some writer)
      (ordered : session.pipeline.Ordered → after.pipeline.Ordered) :
      SnapshotStep session [.opened writer] after
  | written {after : Session} (writer : SnapshotWriter)
      (sink : session.pipeline.sink? = some writer)
      (isUsing : after.journal.usingSnapshot = session.journal.usingSnapshot)
      (isBuilding : after.journal.buildingSnapshot = false)
      (archive : after.analysis.archive = session.analysis.archive)
      (absent : after.pipeline.has .snapshotWriter = false)
      (ordered : session.pipeline.Ordered → after.pipeline.Ordered) :
      SnapshotStep session [.written writer] after
  | closed {after : Session} (isUsing : after.journal.usingSnapshot = session.journal.usingSnapshot)
      (isBuilding : after.journal.buildingSnapshot = false)
      (archive : after.analysis.archive = session.analysis.archive)
      (absent : after.pipeline.has .snapshotWriter = false) (ordered : after.pipeline.Ordered) :
      SnapshotStep session [] after

section Steps

variable {session after : Session} {events : List SinkEvent}

theorem Retains.refl (session : Session) : session.Retains session := ⟨rfl, rfl, rfl, rfl⟩

theorem Retains.sink? (retains : session.Retains after) :
    after.pipeline.sink? = session.pipeline.sink? := by
  rw [sink?_sinks, sink?_sinks, retains.sinks]

theorem Retains.has (retains : session.Retains after) (id : StageId) :
    after.pipeline.has id = session.pipeline.has id := by
  rw [has_sinks, has_sinks, retains.sinks]

theorem Retains.matched (retains : session.Retains after) (matched : session.Matched) :
    after.Matched where
  apart := by rw [retains.isUsing, retains.isBuilding, matched.apart]
  isUsing := by rw [retains.isUsing, retains.archive, matched.isUsing]
  isBuilding := by rw [retains.isBuilding, matched.isBuilding, retains.has]
  sink := by rw [retains.isBuilding, matched.sink, retains.sink?]
  unwritten := by
    rw [retains.sink?]
    exact matched.unwritten
  ordered := matched.ordered.of_parts (congrArg Prod.fst retains.sinks) retains.has

theorem SnapshotStep.isUsing (step : SnapshotStep session events after)
    (before : session.journal.usingSnapshot = true) : after.journal.usingSnapshot = true := by
  cases step with
  | retained retains => exact retains.isUsing.trans before
  | loaded isUsing => exact isUsing
  | opened _ isUsing | written _ _ isUsing | closed isUsing => exact isUsing.trans before

theorem matched_idle (isUsing : session.journal.usingSnapshot = session.analysis.archive.isSome)
    (isBuilding : session.journal.buildingSnapshot = false)
    (absent : session.pipeline.has .snapshotWriter = false) (ordered : session.pipeline.Ordered) :
    session.Matched where
  apart := by rw [isBuilding, Bool.and_false]
  isUsing
  isBuilding := isBuilding.trans absent.symm
  sink := by rw [isBuilding, sink?_absent absent]; rfl
  unwritten := by
    rw [sink?_absent absent]
    exact nofun
  ordered

theorem SnapshotStep.matched (step : SnapshotStep session events after)
    (matched : session.Matched) : after.Matched := by
  cases step with
  | retained retains => exact retains.matched matched
  | loaded isUsing isBuilding archive idle sinks =>
    have same : ∀ id, after.pipeline.has id = session.pipeline.has id := fun id => by
      rw [has_sinks, has_sinks, sinks]
    exact matched_idle (by rw [isUsing, archive]) isBuilding
      ((same _).trans (matched.isBuilding.symm.trans idle))
      (matched.ordered.of_parts (congrArg Prod.fst sinks) same)
  | opened writer isUsing unused isBuilding archive unwritten present sink ordered =>
    exact {
      apart := by rw [isUsing, unused, Bool.false_and]
      isUsing := by rw [isUsing, archive, matched.isUsing]
      isBuilding := isBuilding.trans present.symm
      sink := by rw [isBuilding, sink]; rfl
      unwritten := by
        rw [sink]
        rintro _ ⟨⟩
        exact unwritten
      ordered := ordered matched.ordered }
  | written writer sink isUsing isBuilding archive absent ordered =>
    exact matched_idle (by rw [isUsing, archive, matched.isUsing]) isBuilding absent
      (ordered matched.ordered)
  | closed isUsing isBuilding archive absent ordered =>
    exact matched_idle (by rw [isUsing, archive, matched.isUsing]) isBuilding absent ordered

end Steps

/-! ## Requests -/

def sinkEvents (session : Session) : Request → List SinkEvent
  | .load path =>
    match session.loadSnapshot path with
    | (.ok false, after) => after.pipeline.sink?.toList.map .opened
    | _ => []
  | .write =>
    match session.writeSnapshot.1 with
    | none | some (.snapshot _) => session.pipeline.sink?.toList.map .written
    | some _ => []
  | _ => []

section Requests

variable {session : Session}

theorem Matched.load (matched : session.Matched) (path : Text) :
    SnapshotStep session (session.sinkEvents (.load path)) (session.loadSnapshot path).2 := by
  unfold sinkEvents
  dsimp only
  rcases session.loadSnapshot_cases path with ⟨error, trace, failed⟩ |
    ⟨unused, idle, ⟨snapshot, trace, isLoaded⟩ | ⟨writer, tree, trace, unwritten, isOpened⟩⟩
  · rw [failed]
    exact .retained ⟨rfl, rfl, rfl, rfl⟩
  · rw [isLoaded]
    exact .loaded rfl idle rfl idle rfl
  · have absent : session.pipeline.has .snapshotWriter = false := matched.isBuilding.symm.trans idle
    have isPlaced : (session.pipeline.register .snapshotWriter (.snapshot writer 0 0) true).2.slot?
        .snapshotWriter = some ⟨.snapshot writer 0 0, true⟩ := by simp [register, absent]
    have isSink : (session.pipeline.register .snapshotWriter (.snapshot writer 0 0) true).2.sink? =
        some writer := by rw [sink?, isPlaced]; rfl
    rw [isOpened]
    dsimp only
    rw [isSink]
    exact .opened writer rfl unused rfl rfl unwritten (by rw [Pipeline.has, isPlaced]; rfl) isSink
      fun ordered => ordered.register _ _

theorem write_step (session : Session) :
    SnapshotStep session (session.sinkEvents .write) session.writeSnapshot.2 := by
  unfold sinkEvents
  dsimp only
  rcases session.writeSnapshot_cases with ⟨error, other, failed⟩ |
    ⟨entry, writer, tree, trace, found, isWriter, isWritten⟩
  · rw [failed]
    cases error with
    | snapshot failure => exact absurd rfl (other failure)
    | _ => exact .retained (.refl session)
  · have isSink : session.pipeline.sink? = some writer := by
      unfold sink?
      rw [found]
      exact isWriter
    rw [isWritten, isSink]
    have step : SnapshotStep session [.written writer]
        { session.withTree tree with
          pipeline := (session.pipeline.remove .snapshotWriter).2
          journal := { session.journal with buildingSnapshot := false }
          trace } :=
      .written writer isSink rfl rfl rfl (by simp [Pipeline.has, slot?_remove])
        fun ordered => ordered.remove
    cases (writer.write session.tree session.version session.analysis.exported).1 <;> exact step

theorem Matched.close (matched : session.Matched) : SnapshotStep session [] session.close.2 := by
  rcases Bool.eq_false_or_eq_true session.closed with closed | closed
  · rw [close_closed closed]
    exact .retained (.refl session)
  · rcases Bool.eq_false_or_eq_true session.busy with busy | idle
    · unfold Session.close
      rw [if_neg (by simp [closed]), if_pos busy]
      exact .retained (.refl session)
    · obtain ⟨tree, isClosed⟩ := close_eq idle closed
      obtain ⟨isEmpty, areFree⟩ := matched.ordered.close
      rw [isClosed]
      refine .closed rfl rfl rfl (by simp [Pipeline.has, areFree]) ⟨isEmpty ▸ nodup_nil, fun id => ?_⟩
      simp [Pipeline.has, areFree, isEmpty]

theorem Stands.archive_take {flags} (stands : session.Stands flags) (isOpen : session.refusal = none)
    (manner : Manner) (text : Text) :
    (session.take manner text).2.analysis.archive = session.analysis.archive := by
  obtain ⟨_, pipeline, trace, isTaken⟩ := stands.take_ended isOpen manner text
  have prepared := stands.prepared manner
  obtain ⟨ids, last, takes⟩ := prepared.takes text manner.declOnly
  have same : ((session.prepared manner).taken text manner.declOnly).analysis.archive =
      session.analysis.archive := by
    have surroundings := takes.works.keeps.follows.surroundings.trans
      (prepared.surroundings_entered text manner.declOnly)
    simp only [Analysis.surroundings, Prod.mk.injEq] at surroundings
    exact surroundings.2.2.2.2.1
  rw [isTaken]
  exact takes.ended_same.2.1.trans same

theorem Orderly.retains_take (orderly : session.Orderly)
    (manner : Manner) (text : Text) : session.Retains (session.take manner text).2 := by
  refine orderly.take_induction (.refl session) fun _ stands isOpen => ?_
  obtain ⟨_, armed, _⟩ := states_take stands.idle isOpen manner text
  exact ⟨armed.isUsing, armed.isBuilding, stands.archive_take isOpen manner text, armed.sinks⟩

theorem Orderly.snapshotStep (orderly : session.Orderly) (matched : session.Matched)
    (request : Request) :
    SnapshotStep session (session.sinkEvents request) (session.serve request) := by
  cases request with
  | take manner text => exact .retained (orderly.retains_take manner text)
  | line text =>
    refine .retained ?_
    show session.Retains (session.compileLine text).2
    unfold compileLine
    split
    · exact .refl session
    · exact orderly.retains_take (.compiled .prompt) text
  | lookup on =>
    show SnapshotStep session [] (session.enableLookup on).2
    rcases orderly.enableLookup_cases on with same | ⟨switch, resolver, _, _, isLooked⟩
    · rw [same]
      exact .retained (.refl session)
    · rw [isLooked]
      exact .retained ⟨rfl, rfl, rfl, sinks_restore ..⟩
  | load path => exact matched.load path
  | write => exact session.write_step
  | stage id on => exact .retained ⟨rfl, rfl, rfl, sinks_restore ..⟩
  | close => exact matched.close
  | files | output | questions | events | call => exact .retained ⟨rfl, rfl, rfl, rfl⟩

theorem matched_fresh (front : AnalysisSetup) (back : MachineSetup) (options : SessionOptions)
    (tree : FileTree) : (fresh front back options tree).Matched :=
  have ordered : initialStages.Ordered := ⟨by decide, fun id => by cases id <;> decide⟩
  matched_idle rfl rfl rfl ordered

theorem Reachable.matched (reachable : Reachable session) : session.Matched := by
  induction reachable with
  | served reachable request ih => exact (reachable.orderly.snapshotStep ih request).matched ih
  | opened isOpened =>
    exact (openOver_induction isOpened (fun front back => matched_fresh front back _ _)
      (fun _ request _ orderly matched => (orderly.snapshotStep matched request).matched matched)
      fun _ text orderly matched => (orderly.retains_take _ text).matched matched).2

end Requests

/-! ## Files of snapshots over a whole session -/

/-- What happens to files of snapshots while requests are served. -/
def sinkLog : Session → List Request → List SinkEvent
  | _, [] => []
  | session, request :: rest =>
    session.sinkEvents request ++ (session.serve request).sinkLog rest

/-- The file a session holds is the one that was opened last, and it is not written yet. -/
structure Recorded (session : Session) (log : List SinkEvent) : Prop where
  paired : SinkEvent.Paired log
  held : ∀ writer, session.pipeline.sink? = some writer → ∃ first, log = first ++ [.opened writer]

section Files

variable {session after : Session} {events log : List SinkEvent}

theorem SnapshotStep.recorded (step : SnapshotStep session events after)
    (recorded : session.Recorded log) : after.Recorded (log ++ events) := by
  cases step with
  | retained retains =>
    rw [append_nil]
    exact ⟨recorded.paired, by rw [retains.sink?]; exact recorded.held⟩
  | loaded isUsing isBuilding archive idle sinks =>
    rw [append_nil]
    refine ⟨recorded.paired, ?_⟩
    rw [sink?_sinks, sinks, ← sink?_sinks]
    exact recorded.held
  | opened writer isUsing unused isBuilding archive unwritten present sink =>
    refine ⟨recorded.paired.snoc nofun, fun other isSink => ⟨log, ?_⟩⟩
    cases isSink.symm.trans sink
    rfl
  | written writer sink isUsing isBuilding archive absent =>
    refine ⟨recorded.paired.snoc ?_, fun other isSink => ?_⟩
    · rintro _ ⟨⟩
      exact recorded.held writer sink
    · cases isSink.symm.trans (sink?_absent absent)
  | closed isUsing isBuilding archive absent =>
    rw [append_nil]
    refine ⟨recorded.paired, fun writer isSink => ?_⟩
    cases isSink.symm.trans (sink?_absent absent)

theorem Reachable.recorded (requests : List Request) : ∀ {session : Session} {log : List SinkEvent},
    Reachable session → session.Recorded log →
      (requests.foldl serve session).Recorded (log ++ session.sinkLog requests) := by
  induction requests with
  | nil =>
    intro session log _ recorded
    rw [sinkLog, append_nil]
    exact recorded
  | cons request rest ih =>
    intro session log reachable recorded
    have step := reachable.orderly.snapshotStep reachable.matched request
    have later := ih (reachable.served request) (step.recorded recorded)
    rw [append_assoc] at later
    exact later

theorem recorded_opened (session : Session) :
    session.Recorded (session.pipeline.sink?.toList.map .opened) := by
  refine ⟨SinkEvent.paired_toList _, fun writer isSink => ⟨[], ?_⟩⟩
  rw [isSink]
  rfl

theorem Reachable.serves (reachable : Reachable session) (requests : List Request) :
    Reachable (requests.foldl serve session) :=
  foldlRecOn requests serve reachable fun _ reachable request _ => reachable.served request

theorem Reachable.isUsing_serves (reachable : Reachable session) (requests : List Request)
    (isUsing : session.journal.usingSnapshot = true) :
    (requests.foldl serve session).journal.usingSnapshot = true := by
  refine (foldlRecOn (motive := fun now : Session => Reachable now ∧ now.journal.usingSnapshot = true)
    requests serve ⟨reachable, isUsing⟩ ?_).2
  intro now ⟨reachable, isUsing⟩ request _
  have step := reachable.orderly.snapshotStep reachable.matched request
  exact ⟨reachable.served request, step.isUsing isUsing⟩

end Files

/-! ## Requests made by a resolver -/

section Nested

variable {session start : Session}

theorem Steady.retains_asking {manner text now} (steady : session.Steady)
    (member : now ∈ session.asking manner text) : session.Retains now := by
  obtain ⟨flags, stands⟩ := steady.held.stands
  obtain ⟨_, _, works⟩ := steady.asking member
  let entered := ((session.held true).prepared manner).entered text manner.declOnly
  have begins : ((session.held true).prepared manner).Armed
      ((entered.beginPhase "parse").2.beginSpan .pass "parse") :=
    (armed_entered ..).unmoved ⟨rfl, rfl, rfl⟩
  have armed := (begins.takeUnits entered.patience).2.1 now member
  have surroundings := works.keeps.follows.surroundings.trans
    ((stands.prepared manner).surroundings_entered text manner.declOnly)
  simp only [Analysis.surroundings, Prod.mk.injEq] at surroundings
  have sinks : ((session.held true).prepared manner).pipeline.sinks = session.pipeline.sinks := by
    cases manner with
    | compiled mode => exact (sinks_restore ..).trans (sinks_restore ..)
    | declared =>
      exact (sinks_restore ..).trans
        ((sinks_restore ..).trans (sinks_restore ..))
  exact ⟨armed.isUsing, armed.isBuilding, surroundings.2.2.2.2.1, armed.sinks.trans sinks⟩

theorem sinkEvents_busy (busy : session.busy = true) (isOpen : session.closed = false)
    (request : Request) : session.sinkEvents request = [] := by
  have refused : session.refusal = some .reentrant := by simp [refusal, busy, isOpen]
  cases request with
  | load path => simp [sinkEvents, loadSnapshot, refused]
  | write => simp [sinkEvents, writeSnapshot, refused]
  | _ => rfl

end Nested

/-- However a session is opened and whatever is asked of it, the flags of the journal agree
with the parts they speak of as long as it is open, also where a resolver calls back during a
call and is refused.  A snapshot stays in use, and a file opened for a snapshot is written
once at most. -/
theorem modes_agree {options : SessionOptions} {tree after : FileTree} {opened : Session}
    (isOpened : openOver options tree = (.ok opened, after)) (requests : List Request) :
    let now := requests.foldl serve opened
    (now.closed = false → now.Switched ∧ now.Matched) ∧
      (∀ later : List Request, now.journal.usingSnapshot = true →
        (later.foldl serve now).journal.usingSnapshot = true) ∧
      SinkEvent.Paired
        (opened.pipeline.sink?.toList.map .opened ++ opened.sinkLog requests) ∧
      (now.closed = false → ∀ (manner : Manner) (text : Text),
        ∀ inner ∈ now.asking manner text, inner.Switched ∧ inner.Matched ∧
          ∀ request : Request, request.isEntry = true →
            inner.serve request = inner ∧ inner.sinkEvents request = []) := by
  intro now
  have begins : Reachable opened := .opened isOpened
  have reachable : Reachable now := begins.serves requests
  have matched := reachable.matched
  refine ⟨fun isOpen => ⟨(reachable.orderly.steady isOpen).switched, matched⟩,
    fun later isUsing => reachable.isUsing_serves later isUsing,
    (begins.recorded requests opened.recorded_opened).paired, ?_⟩
  intro isOpen manner text inner member
  have steady := reachable.orderly.steady isOpen
  obtain ⟨_, _, works⟩ := steady.asking member
  obtain ⟨busy, same⟩ := steady.busy_asking member
  have stillOpen := same.trans isOpen
  exact ⟨works.switched, (steady.retains_asking member).matched matched, fun request isEntry =>
    ⟨(serve_busy busy stillOpen isEntry).1, sinkEvents_busy busy stillOpen request⟩⟩

/-- With dynamic lookup on, a snapshot is begun; a text turns the lookup off; the snapshot is
written and another one is begun. -/
theorem modes_agree_second_snapshot :
    let opened := fresh {} {} { noBootstrap := true } (.empty "/w")
    let requests := [.lookup true, .load "s",
      .take (.compiled .asIs) "#pragma kiln dynamic_lookup off\nint a = 1;", .write, .load "t"]
    (requests.foldl serve opened).journal.modes = (false, false, true) ∧
      (requests.foldl serve opened).Switched ∧ (requests.foldl serve opened).Matched ∧
      (opened.sinkLog requests).length = 3 ∧ SinkEvent.Paired (opened.sinkLog requests) := by
  intro opened requests
  obtain ⟨agree, _, paired, _⟩ := modes_agree (opens_bare "/w") requests
  obtain ⟨switched, matched⟩ := agree (by decide +kernel)
  have noSink : opened.pipeline.sink? = none := rfl
  rw [noSink, Option.toList_none, List.map_nil, List.nil_append] at paired
  exact ⟨by decide +kernel, switched, matched, by decide +kernel, paired⟩

end Session

end FragmentCompiler
