import FragmentCompiler.Proofs.Session.Guard
import FragmentCompiler.Proofs.Session.Steady

/-!
# What a session goes through

A session is opened, serves requests and is closed.  Between two requests it is steady, so
every call starts from a steady session.
-/

set_option autoImplicit false

namespace FragmentCompiler

open List

/-- How a text is taken in. -/
inductive Manner where
  /-- Compiled in a mode. -/
  | compiled (mode : Mode)
  /-- Parsed for its declarations; code generation waits for the next call. -/
  | declared
  deriving DecidableEq, Repr, Inhabited

namespace Manner

def declOnly : Manner → Bool
  | .compiled _ => false
  | .declared => true

def arm (pipeline : Pipeline StageStore) : Manner → Pipeline StageStore
  | .compiled mode =>
    (pipeline.restore .declExtractor (mode = .prompt)).restore .valuePrinter (mode = .prompt)
  | .declared =>
    ((pipeline.restore .declExtractor false).restore .valuePrinter false).restore
      .codeGenerator false

/-- The stages that take part in a call. -/
def flags (flags : StageFlags) : Manner → StageFlags
  | .compiled mode => { flags with extracts := mode = .prompt, echoes := mode = .prompt }
  | .declared => { flags with extracts := false, echoes := false, generates := false }

theorem arranged_arm {pipeline before} (manner : Manner) (arranged : pipeline.Arranged before) :
    (manner.arm pipeline).Arranged (manner.flags before) := by
  cases manner with
  | compiled mode => exact (arranged.restore .declExtractor _).restore .valuePrinter _
  | declared =>
    exact ((arranged.restore .declExtractor _).restore .valuePrinter _).restore .codeGenerator _

end Manner

/-- Whether a stage takes part. -/
def StageFlags.get (flags : StageFlags) : StageId → Bool
  | .dynamicRewriter => flags.rewrites
  | .declExtractor => flags.extracts
  | .valuePrinter => flags.echoes
  | .dumper => flags.dumps
  | .codeGenerator => flags.generates
  | .snapshotWriter => false

namespace Pipeline

variable {pipeline : Pipeline StageStore} {flags : StageFlags}

theorem Arranged.set_eq (arranged : pipeline.Arranged flags) (id : StageId)
    (builtIn : id ≠ .snapshotWriter) (on : Bool) :
    pipeline.set id on = (some (flags.get id), pipeline.restore id on) := by
  obtain ⟨last, queue, rfl⟩ := arranged
  cases id with
  | snapshotWriter => exact absurd rfl builtIn
  | _ => rfl

theorem Arranged.register (arranged : pipeline.Arranged flags) (store : StageStore) :
    (pipeline.register .snapshotWriter store true).2.Arranged flags := by
  obtain ⟨last, queue, rfl⟩ := arranged
  cases last <;> exact ⟨_, queue, rfl⟩

theorem Arranged.remove (arranged : pipeline.Arranged flags) :
    (pipeline.remove .snapshotWriter).2.Arranged flags := by
  obtain ⟨last, queue, rfl⟩ := arranged
  cases last <;> exact ⟨none, queue, rfl⟩

end Pipeline

namespace Session

/-! ## Calls in their modes -/

/-- The session in which a call takes place. -/
def prepared (session : Session) (manner : Manner) : Session :=
  { session with
    pipeline := manner.arm session.pipeline
    trace := match manner with
      | .compiled _ => session.trace
      | .declared => session.trace.begin .driver "parse_decls_only" }

def take (session : Session) (manner : Manner) (text : Text) : Outcome × Session :=
  match manner with
  | .compiled mode => session.compile text mode
  | .declared => (session.parseDeclarations text).2

section Calls

variable {session : Session} {flags : StageFlags}

section

variable (arranged : session.pipeline.Arranged flags)

include arranged

theorem withMode_eq (mode : Mode) (call : Session → Outcome × Session) {after : StageFlags}
    (back : (call (session.prepared (.compiled mode))).2.pipeline.Arranged after) :
    ∃ pipeline : Pipeline StageStore,
      pipeline.Arranged { after with extracts := flags.extracts, echoes := flags.echoes } ∧
      session.withMode mode call =
        ((call (session.prepared (.compiled mode))).1,
          { (call (session.prepared (.compiled mode))).2 with pipeline }) := by
  have extracting := arranged.set_eq .declExtractor (by decide) (mode = .prompt)
  have showing := (arranged.restore .declExtractor (mode = .prompt)).set_eq
    .valuePrinter (by decide) (mode = .prompt)
  refine ⟨_, (back.restore .declExtractor flags.extracts).restore .valuePrinter flags.echoes, ?_⟩
  unfold withMode
  dsimp only
  rw [extracting]
  dsimp only
  rw [showing]
  rfl

def withoutCode (call : Session → Outcome × Session) (session : Session) : Outcome × Session :=
  let (previous, pipeline) := session.pipeline.set .codeGenerator false
  let (outcome, session) := call { session with pipeline }
  match previous with
  | some previous =>
    (outcome, { session with pipeline := session.pipeline.restore .codeGenerator previous })
  | none => (outcome, session)

theorem withoutCode_eq (call : Session → Outcome × Session) :
    let ran := call { session with pipeline := session.pipeline.restore .codeGenerator false }
    withoutCode call session =
      (ran.1, { ran.2 with pipeline := ran.2.pipeline.restore .codeGenerator flags.generates }) := by
  unfold withoutCode
  rw [arranged.set_eq .codeGenerator (by decide)]
  rfl

theorem declared_eq {rewrites} (call : Session → Outcome × Session)
    (back : (call (session.prepared .declared)).2.pipeline.Arranged
      { Manner.flags flags .declared with rewrites }) :
    ∃ pipeline : Pipeline StageStore, pipeline.Arranged { flags with rewrites } ∧
      (session.beginSpan .driver "parse_decls_only").withMode .asIs (withoutCode call) =
        ((call (session.prepared .declared)).1,
          { (call (session.prepared .declared)).2 with pipeline }) := by
  let begun := session.beginSpan .driver "parse_decls_only"
  have isCalled := withoutCode_eq
    (show (begun.prepared (.compiled .asIs)).pipeline.Arranged _ from
      Manner.arranged_arm (.compiled .asIs) arranged) call
  have restored := back.restore .codeGenerator flags.generates
  obtain ⟨pipeline, isArranged, isTaken⟩ := withMode_eq
    (show begun.pipeline.Arranged flags from arranged) .asIs (withoutCode call)
    (by rw [isCalled]; exact restored)
  refine ⟨pipeline, isArranged, ?_⟩
  rw [isTaken, isCalled]
  rfl

end

theorem Heedless.withoutCode {call} (heedless : Heedless call) :
    Heedless (withoutCode call) := by
  intro session busy
  let off := session.pipeline.set .codeGenerator false
  have ran := heedless { session with pipeline := off.2 } busy
  let finish (after : Outcome × Session) : Outcome × Session :=
    match off.1 with
    | some previous =>
      (after.1, { after.2 with pipeline := after.2.pipeline.restore .codeGenerator previous })
    | none => after
  have finishes : ∀ after : Outcome × Session, finish (after.1, after.2.held busy) =
      ((finish after).1, (finish after).2.held busy) := by
    intro after
    dsimp only [finish]
    split <;> rfl
  exact (congrArg finish ran).trans (finishes _)

theorem not_busy (isOpen : session.refusal = none) : session.busy = false := by
  unfold refusal at isOpen
  split at isOpen
  · cases isOpen
  · split at isOpen
    · cases isOpen
    · rename_i idle
      exact Bool.eq_false_iff.mpr idle

theorem heedless_compileText (text : Text) (declOnly : Bool) :
    Heedless fun session => session.compileText text declOnly :=
  fun session busy => compileText_held session busy text declOnly

theorem compile_eq (isOpen : session.refusal = none) (text : Text) (mode : Mode) :
    session.compile text mode =
      session.withMode mode fun session => session.compileText text false := by
  unfold compile
  rw [isOpen]
  exact guarded_eq ((heedless_compileText text false).withMode mode) (not_busy isOpen)

theorem parseDeclarations_eq (isOpen : session.refusal = none) (text : Text) :
    let ran := (session.beginSpan .driver "parse_decls_only").withMode .asIs
      (withoutCode fun session => session.compileText text true)
    (session.parseDeclarations text).2 = (ran.1, ran.2.endSpan .driver [] []) := by
  have ran := guarded_eq ((heedless_compileText text true).withoutCode.withMode .asIs)
    (show (session.beginSpan .driver "parse_decls_only").busy = false from not_busy isOpen)
  unfold parseDeclarations
  rw [isOpen]
  exact congrArg (fun ran : Outcome × Session => (ran.1, ran.2.endSpan .driver [] [])) ran

theorem Stands.prepared (stands : session.Stands flags) (manner : Manner) :
    (session.prepared manner).Stands (manner.flags flags) :=
  stands.restage (manner.arranged_arm stands.stages) _

section

variable (stands : session.Stands flags) (isOpen : session.refusal = none) (manner : Manner)
  (text : Text)

include stands isOpen

theorem Stands.take_eq :
    let ran := (session.prepared manner).compileText text manner.declOnly
    ∃ (pipeline : Pipeline StageStore) (trace : TraceRecorder),
      pipeline.Arranged { flags with rewrites := ran.2.journal.dynamicLookup } ∧
      session.take manner text = (ran.1, { ran.2 with pipeline, trace }) := by
  obtain ⟨_, back⟩ := (stands.prepared manner).settings_compileText text manner.declOnly
  cases manner with
  | compiled mode =>
    obtain ⟨pipeline, isArranged, isTaken⟩ := withMode_eq stands.stages mode
      (fun session => session.compileText text false) back
    exact ⟨pipeline, ((session.prepared (.compiled mode)).compileText text false).2.trace,
      isArranged, (compile_eq isOpen text mode).trans isTaken⟩
  | declared =>
    obtain ⟨pipeline, isArranged, isTaken⟩ := declared_eq stands.stages
      (fun session => session.compileText text true) back
    refine ⟨pipeline,
      ((session.prepared .declared).compileText text true).2.trace.finish .driver [] [],
      isArranged, ?_⟩
    exact (parseDeclarations_eq isOpen text).trans
      (congrArg (fun ran : Outcome × Session => (ran.1, ran.2.endSpan .driver [] [])) isTaken)

theorem Stands.take :
    let after := (session.take manner text).2
    after.Stands { flags with rewrites := after.journal.dynamicLookup } ∧
      after.settings = session.settings := by
  have prepared := stands.prepared manner
  obtain ⟨settings, _⟩ := prepared.settings_compileText text manner.declOnly
  have ends := prepared.compileText text manner.declOnly
    (by cases manner <;> simp [Manner.declOnly, Manner.flags])
  obtain ⟨pipeline, trace, stages, isTaken⟩ := stands.take_eq isOpen manner text
  rw [isTaken]
  exact ⟨ends.restage stages trace, settings⟩

/-- A call is over once it has ended; its stages are then put back and its counters cleared. -/
theorem Stands.take_ended :
    let ended := (session.prepared manner).ended text manner.declOnly
    (session.take manner text).1 =
        (ended.conclude (numbered (session.prepared manner).cleared.journal text).1).1 ∧
      ∃ (pipeline : Pipeline StageStore) (trace : TraceRecorder),
        (session.take manner text).2 =
          { ended with engine := ended.engine.endScope.reset, timer := none, pipeline, trace } := by
  obtain ⟨pipeline, trace, _, isTaken⟩ := stands.take_eq isOpen manner text
  obtain ⟨_, concluded⟩ := conclude_eq ((session.prepared manner).ended text manner.declOnly)
    (numbered (session.prepared manner).cleared.journal text).1
  rw [isTaken, compileText_eq (stands.prepared manner).idle_cleared, concluded]
  exact ⟨rfl, pipeline, trace, rfl⟩

end

theorem take_refused {error} (isRefused : session.refusal = some error) (manner : Manner)
    (text : Text) : session.take manner text = (.refused error, session) := by
  cases manner <;> simp [Session.take, compile, parseDeclarations, isRefused]

end Calls

/-! ## Requests -/

/-- What may be asked of a session. -/
inductive Request where
  | take (manner : Manner) (text : Text)
  | line (text : Text)
  | lookup (on : Bool)
  | load (path : Text)
  | write
  | stage (id : StageId) (on : Bool)
  /-- The files change. -/
  | files (tree : FileTree)
  | output
  | questions
  | events
  /-- A function is called from outside. -/
  | call (fuel : Nat) (name : Text) (arguments : List Value) (span : Span)
  | close

def serve (session : Session) : Request → Session
  | .take manner text => (session.take manner text).2
  | .line text => (session.compileLine text).2
  | .lookup on => (session.enableLookup on).2
  | .load path => (session.loadSnapshot path).2
  | .write => session.writeSnapshot.2
  | .stage id on => { session with pipeline := session.pipeline.restore id on }
  | .files tree => session.withTree tree
  | .output => session.takeOutput.2
  | .questions => session.takeQuestions.2
  | .events => { session with trace := session.trace.take.2 }
  | .call fuel name arguments span =>
    { session with
      generator := { session.generator with
        machine := (session.generator.machine.call fuel name arguments span).2 } }
  | .close => session.close.2

/-- The call a request makes, if it makes one: a line that starts a directive is refused. -/
def Request.call? : Request → Option (Manner × Text)
  | .take manner text => some (manner, text)
  | .line text => if text.trimLeft.startsWith "#" then none else some (.compiled .prompt, text)
  | _ => none

/-- The sessions that come about by opening one and serving requests. -/
inductive Reachable : Session → Prop
  | opened {options : SessionOptions} {tree after : FileTree} {session : Session}
      (isOpened : openOver options tree = (.ok session, after)) : Reachable session
  | served {session : Session} (reachable : Reachable session) (request : Request) :
      Reachable (session.serve request)

/-- What holds of a session between requests. -/
structure Orderly (session : Session) : Prop where
  idle : session.busy = false
  steady : session.closed = false → session.Steady

section Requests

variable {session : Session}

theorem refusal_eq (idle : session.busy = false) :
    session.refusal = if session.closed then some .closed else none := by
  unfold refusal
  rw [idle]
  rfl

theorem refusal_open (idle : session.busy = false) (isOpen : session.closed = false) :
    session.refusal = none := by
  rw [refusal_eq idle, isOpen]
  rfl

theorem refusal_closed (isClosed : session.closed = true) : session.refusal = some .closed := by
  unfold refusal
  rw [isClosed]
  rfl

theorem open_of_refusal (accepted : session.refusal = none) : session.closed = false := by
  refine Bool.eq_false_iff.mpr fun closed => ?_
  rw [refusal_closed closed] at accepted
  cases accepted

section

variable (orderly : session.Orderly)

include orderly

/-- A call that is refused leaves the session as it is. -/
@[elab_as_elim]
theorem Orderly.take_induction {manner text} {holds : Session → Prop} (held : holds session)
    (taken : ∀ {flags}, session.closed = false → session.Stands flags → session.refusal = none →
      holds (session.take manner text).2) : holds (session.take manner text).2 := by
  cases closed : session.closed with
  | true =>
    rw [take_refused (refusal_closed closed)]
    exact held
  | false =>
    obtain ⟨_, stands⟩ := (orderly.steady closed).stands
    exact taken closed stands (refusal_open orderly.idle closed)

theorem Orderly.take (manner : Manner) (text : Text) : (session.take manner text).2.Orderly := by
  refine orderly.take_induction orderly fun _ stands isOpen => ?_
  obtain ⟨after, settings⟩ := stands.take isOpen manner text
  simp only [Session.settings, Prod.mk.injEq] at settings
  exact ⟨settings.2.2.2.2.1.trans orderly.idle, fun _ => after.toSteady⟩

theorem Orderly.enableLookup_cases (on : Bool) :
    (session.enableLookup on).2 = session ∨
    ∃ (switch : LookupSwitch) (resolver : Option Resolver), switch.isOn = on ∧
      resolver.isSome = on ∧ (session.enableLookup on).2 =
        { session with
          switch
          analysis := { session.analysis with resolver }
          journal := { session.journal with dynamicLookup := on }
          pipeline := session.pipeline.restore .dynamicRewriter on } := by
  unfold enableLookup
  rcases Bool.eq_false_or_eq_true session.closed with closed | closed
  · rw [refusal_closed closed]
    exact .inl rfl
  · rw [refusal_open orderly.idle closed]
    dsimp only
    rcases setLookup_cases (orderly.steady closed).switched on false with
      ⟨failed, _⟩ | ⟨switch, resolver, isOn, isSome, fine⟩
    · rw [failed]
      exact .inl rfl
    · rw [fine]
      exact .inr ⟨switch, resolver, isOn, isSome, rfl⟩

end

theorem create_unwritten {path writer} {tree after : FileTree}
    (created : SnapshotWriter.create tree path = .ok (writer, after)) :
    writer.written = false ∧ writer.closed = false := by
  unfold SnapshotWriter.create at created
  dsimp only at created
  split at created
  · cases created
  · split at created
    · cases created
    · cases created
      exact ⟨rfl, rfl⟩

theorem loadSnapshot_cases (session : Session) (path : Text) :
    (∃ error trace, session.loadSnapshot path = (.error error, { session with trace })) ∨
    session.journal.usingSnapshot = false ∧ session.journal.buildingSnapshot = false ∧
      ((∃ snapshot trace, session.loadSnapshot path =
        (.ok true,
          { session with
            analysis := { session.analysis with archive := some snapshot.archive }
            snapshot := some snapshot
            journal := { session.journal with usingSnapshot := true }
            trace })) ∨
      ∃ writer tree trace, (writer.written = false ∧ writer.closed = false) ∧
        session.loadSnapshot path =
        (.ok false,
          { session.withTree tree with
            pipeline :=
              (session.pipeline.register .snapshotWriter (.snapshot writer 0 0) true).2
            journal := { session.journal with buildingSnapshot := true }
            trace })) := by
  unfold loadSnapshot
  split
  · exact .inl ⟨_, session.trace, rfl⟩
  · split
    · exact .inl ⟨_, session.trace, rfl⟩
    · rename_i inactive
      simp only [Bool.or_eq_true, not_or, Bool.not_eq_true] at inactive
      dsimp only
      split
      · rename_i snapshot _
        exact .inr ⟨inactive.1, inactive.2, .inl ⟨snapshot, _, rfl⟩⟩
      · split
        · exact .inl ⟨_, _, rfl⟩
        · rename_i writer tree created
          exact .inr ⟨inactive.1, inactive.2, .inr ⟨writer, tree, _, create_unwritten created, rfl⟩⟩

theorem refusal_ne {error} (refused : session.refusal = some error) (failure : SnapshotError) :
    error ≠ .snapshot failure := by
  unfold refusal at refused
  split at refused
  · cases refused
    exact nofun
  · split at refused
    · cases refused
      exact nofun
    · cases refused

theorem writeSnapshot_cases (session : Session) :
    (∃ error, (∀ failure, error ≠ .snapshot failure) ∧
      session.writeSnapshot = (some error, session)) ∨
    ∃ entry writer tree trace, session.pipeline.slot? .snapshotWriter = some entry ∧
      entry.stage.writer? = some writer ∧ session.writeSnapshot =
        ((writer.write session.tree session.version session.analysis.exported).1.map .snapshot,
          { session.withTree tree with
            pipeline := (session.pipeline.remove .snapshotWriter).2
            journal := { session.journal with buildingSnapshot := false }
            trace }) := by
  unfold writeSnapshot
  split
  · rename_i error refused
    exact .inl ⟨error, refusal_ne refused, rfl⟩
  · split
    · rename_i found
      exact .inr ⟨_, _, _, _, found, rfl, rfl⟩
    · exact .inl ⟨.noSnapshotSink, fun _ => nofun, rfl⟩

theorem loadSnapshot_eq (session : Session) (path : Text) :
    ∃ (archive : Option Archive) (snapshot : Option Snapshot) (isUsing isBuilding : Bool)
      (tree : FileTree) (pipeline : Pipeline StageStore) (trace : TraceRecorder),
      (∀ flags, session.pipeline.Arranged flags → pipeline.Arranged flags) ∧
      (session.loadSnapshot path).2 =
        { session with
          analysis := { session.analysis with
            parser := { session.analysis.parser with tree }, archive }
          snapshot
          journal := { session.journal with
            usingSnapshot := isUsing, buildingSnapshot := isBuilding }
          pipeline
          trace } := by
  rcases session.loadSnapshot_cases path with ⟨_, _, isLoaded⟩ |
    ⟨_, _, ⟨_, _, isLoaded⟩ | ⟨writer, tree, _, _, isLoaded⟩⟩ <;> rw [isLoaded]
  · exact ⟨_, _, _, _, session.tree, session.pipeline, _, fun _ arranged => arranged, rfl⟩
  · exact ⟨_, _, _, _, session.tree, session.pipeline, _, fun _ arranged => arranged, rfl⟩
  · exact ⟨_, _, _, _, tree, _, _, fun _ arranged => arranged.register (.snapshot writer 0 0), rfl⟩

theorem writeSnapshot_eq (session : Session) :
    ∃ (isBuilding : Bool) (tree : FileTree) (pipeline : Pipeline StageStore)
      (trace : TraceRecorder),
      (∀ flags, session.pipeline.Arranged flags → pipeline.Arranged flags) ∧
      session.writeSnapshot.2 =
        { session with
          analysis := { session.analysis with parser := { session.analysis.parser with tree } }
          journal := { session.journal with buildingSnapshot := isBuilding }
          pipeline
          trace } := by
  rcases session.writeSnapshot_cases with ⟨_, _, isWritten⟩ | ⟨_, _, tree, _, _, _, isWritten⟩ <;>
    rw [isWritten]
  · exact ⟨_, session.tree, session.pipeline, _, fun _ arranged => arranged, rfl⟩
  · exact ⟨_, tree, _, _, fun _ arranged => arranged.remove, rfl⟩

theorem Orderly.of_archive (orderly : session.Orderly) (archive : Option Archive)
    (snapshot : Option Snapshot) (isUsing isBuilding : Bool) (tree : FileTree)
    (trace : TraceRecorder) {pipeline : Pipeline StageStore}
    (keeps : ∀ flags, session.pipeline.Arranged flags → ∃ others, pipeline.Arranged others) :
    { session with
      analysis := { session.analysis with parser := { session.analysis.parser with tree }, archive }
      snapshot
      journal := { session.journal with usingSnapshot := isUsing, buildingSnapshot := isBuilding }
      pipeline
      trace }.Orderly := by
  refine ⟨orderly.idle, fun isOpen => ?_⟩
  have steady := orderly.steady isOpen
  obtain ⟨flags, arranged⟩ := steady.arranged
  exact { steady with
    ready := steady.ready.of_same steady.ready.lexed rfl rfl
    arranged := keeps flags arranged
    switched := ⟨steady.switched.switch, steady.switched.resolver⟩ }

theorem closeStage_eq (session : Session) (store : StageStore) :
    ∃ tree, (session.closeStage store).2 = session.withTree tree := by
  cases store with
  | nothing => exact ⟨session.tree, rfl⟩
  | snapshot writer groups transactions => exact ⟨_, rfl⟩

theorem foldl_closeStage (stages : List StageStore) (failure : Option SnapshotError)
    (session : Session) : ∃ tree,
    (stages.foldl
      (fun (failure, session) stage =>
        let (other, session) := session.closeStage stage
        (failure.or other, session))
      (failure, session)).2 = session.withTree tree := by
  refine List.foldlRecOn (motive := fun now : _ × Session => ∃ tree, now.2 = session.withTree tree)
    stages _ ⟨session.tree, rfl⟩ ?_
  rintro ⟨_, _⟩ ⟨_, rfl⟩ stage _
  obtain ⟨tree, isTree⟩ := closeStage_eq _ stage
  exact ⟨tree, isTree⟩

theorem close_closed (closed : session.closed = true) : session.close.2 = session := by
  unfold Session.close
  rw [if_pos closed]

theorem close_eq (idle : session.busy = false) (isOpen : session.closed = false) : ∃ tree,
    session.close.2 =
      { session with
        closed := true
        switch := (session.switch.disable session.analysis.resolver).1
        analysis := { session.analysis with
          parser := { session.analysis.parser with tree }
          resolver := (session.switch.disable session.analysis.resolver).2 }
        pipeline := session.pipeline.close.2
        journal := { session.journal with buildingSnapshot := false }
        generator := session.generator.release } := by
  obtain ⟨tree, isClosed⟩ := foldl_closeStage session.pipeline.close.1 none
    { session with
      closed := true
      switch := (session.switch.disable session.analysis.resolver).1
      analysis := { session.analysis with
        resolver := (session.switch.disable session.analysis.resolver).2 }
      pipeline := session.pipeline.close.2 }
  refine ⟨tree, ?_⟩
  unfold Session.close closeStages
  rw [if_neg (by simp [isOpen]), if_neg (by simp [idle])]
  dsimp only
  rw [isClosed]
  rfl

theorem Orderly.serve (orderly : session.Orderly) (request : Request) :
    (session.serve request).Orderly := by
  cases request with
  | take manner text => exact orderly.take manner text
  | line text =>
    show (session.compileLine text).2.Orderly
    unfold compileLine
    split
    · exact orderly
    · exact orderly.take (.compiled .prompt) text
  | lookup on =>
    show (session.enableLookup on).2.Orderly
    rcases orderly.enableLookup_cases on with same | ⟨switch, resolver, isOn, isSome, isLooked⟩
    · rw [same]
      exact orderly
    · rw [isLooked]
      refine ⟨orderly.idle, fun isOpen => ?_⟩
      have steady := orderly.steady isOpen
      obtain ⟨flags, arranged⟩ := steady.arranged
      exact { steady with
        ready := steady.ready.of_same steady.ready.lexed rfl rfl
        arranged := ⟨_, arranged.restore .dynamicRewriter on⟩
        switched := ⟨isOn, isSome⟩ }
  | load path =>
    obtain ⟨_, _, _, _, _, pipeline, _, keeps, isLoaded⟩ := loadSnapshot_eq session path
    show (session.loadSnapshot path).2.Orderly
    rw [isLoaded]
    exact orderly.of_archive _ _ _ _ _ _ fun flags arranged => ⟨flags, keeps flags arranged⟩
  | write =>
    obtain ⟨_, _, pipeline, _, keeps, isWritten⟩ := writeSnapshot_eq session
    show session.writeSnapshot.2.Orderly
    rw [isWritten]
    exact orderly.of_archive _ _ _ _ _ _ fun flags arranged => ⟨flags, keeps flags arranged⟩
  | close =>
    show session.close.2.Orderly
    cases closed : session.closed with
    | true =>
      rw [close_closed closed]
      exact orderly
    | false =>
      obtain ⟨tree, isClosed⟩ := close_eq orderly.idle closed
      rw [isClosed]
      exact ⟨orderly.idle, fun isOpen => Bool.noConfusion isOpen⟩
  | stage id on =>
    exact orderly.of_archive _ _ _ _ _ _ fun _ arranged => ⟨_, arranged.restore id on⟩
  | files | events => exact orderly.of_archive _ _ _ _ _ _ fun flags arranged => ⟨flags, arranged⟩
  | output | questions | call =>
    refine ⟨orderly.idle, fun isOpen => ?_⟩
    have steady := orderly.steady isOpen
    exact { steady with switched := ⟨steady.switched.switch, steady.switched.resolver⟩ }

/-! ## Opening -/

theorem opens_bare (directory : Text) : openOver { noBootstrap := true } (.empty directory) =
    (.ok (fresh {} {} { noBootstrap := true } (.empty directory)), .empty directory) := rfl

theorem steady_fresh (front : AnalysisSetup) (back : MachineSetup) (options : SessionOptions)
    (tree : FileTree) : (fresh front back options tree).Steady where
  ready := {
    lexed := by simp [fresh, Parser.Lexed]
    named := fun name meaning known => by
      obtain ⟨which, found, rfl⟩ := Option.map_eq_some_iff.mp
        ((Universe.lookup_fresh name).symm.trans known)
      exact found
    grounded := fun id decl found => by
      cases id with
      | zero => cases found
      | succ index => simp [fresh, Analysis.decls, Declarations.get?] at found
    tidy := Universe.tidy_fresh }
  inputs := rfl
  fetched := rfl
  calls := rfl
  reports := rfl
  idle := rfl
  clear := ⟨rfl, rfl, rfl, rfl⟩
  arranged := ⟨⟨false, true, true, false, true⟩, none, [], rfl⟩
  switched := ⟨rfl, rfl⟩
  unit := rfl
  queue := rfl
  released := rfl

theorem empty_fresh (front : AnalysisSetup) (back : MachineSetup) (options : SessionOptions)
    (tree : FileTree) :
    (fresh front back options tree).generator.machine.globals = [] ∧
      (fresh front back options tree).generator.machine.names = [] ∧
      (fresh front back options tree).generator.machine.functions = [] ∧
      (fresh front back options tree).generator.machine.stack = [] := by
  show (Machine.ofDepthLimit back.depthLimit).globals = [] ∧ _
  unfold fresh Machine.ofDepthLimit
  split <;> exact ⟨rfl, rfl, rfl, rfl⟩

theorem compileAll_induction {holds : Session → Prop}
    (take : ∀ session text, holds session → holds (session.take (.compiled .asIs) text).2)
    (texts : List Text) (held : holds session) : holds (session.compileAll texts).2 := by
  induction texts generalizing session with
  | nil => exact held
  | cons text rest ih =>
    have taken := take session text held
    unfold Session.compileAll
    dsimp only
    split
    · exact ih taken
    · exact taken

/-- A session that is opened reads the snapshot it is given. -/
def loaded (options : SessionOptions) (failure : Option SessionError) (session : Session) :
    Option SessionError × Session :=
  if failure.isSome || options.snapshotPath.isEmpty then (failure, session)
  else
    match session.loadSnapshot options.snapshotPath with
    | (.ok _, session) => (none, session)
    | (.error error, session) => (some error, session)

/-- Without a snapshot it compiles the runtime library. -/
def booted (options : SessionOptions) (failure : Option SessionError) (session : Session) :
    Option SessionError × Session :=
  if failure.isSome || session.journal.usingSnapshot || options.noBootstrap then (failure, session)
  else
    match session.bootstrap with
    | (some error, session) => (some error, session.close.2)
    | (none, session) => (none, session)

/-- What opening a session goes through: the options are met one after the other, and then
the runtime library is compiled. -/
theorem start_induction {early late : Session → Prop} {options : SessionOptions}
    (weaken : ∀ session, early session → late session)
    (lookup : options.dynamicLookup = true → ∀ session, early session →
      early (session.enableLookup true).2)
    (load : ∀ session path, early session → early (session.loadSnapshot path).2)
    (boot : ∀ session, early session → late session.bootstrap.2)
    (close : ∀ session, late session → late session.close.2) {session : Session}
    (begins : early session) : late (session.start options).2 := by
  let looked := if options.dynamicLookup then session.enableLookup true else (none, session)
  have isLooked : early looked.2 := by
    dsimp only [looked]
    split
    · rename_i isOn
      exact lookup isOn session begins
    · exact begins
  let read := looked.2.loaded options looked.1
  have isRead : early read.2 := by
    have loads := load _ options.snapshotPath isLooked
    dsimp only [read, loaded]
    split
    · exact isLooked
    · split <;> simp_all
  show late (read.2.booted options read.1).2
  unfold booted
  split
  · exact weaken _ isRead
  · have boots := boot _ isRead
    split
    · rename_i error after isBooted
      rw [isBooted] at boots
      exact close _ boots
    · rename_i after isBooted
      rw [isBooted] at boots
      exact boots

theorem openOver_ok {options} {tree after : FileTree}
    (isOpened : openOver options tree = (.ok session, after)) :
    ∃ front back, session = ((fresh front back options tree).start options).2 := by
  unfold openOver at isOpened
  split at isOpened
  · cases isOpened
  · cases isOpened
  · rename_i front back _ _
    split at isOpened
    · cases isOpened
    · rename_i session' isStarted
      cases isOpened
      exact ⟨front, back, by rw [isStarted]⟩

/-- What a session is opened with: requests that make no call, and the texts it compiles. -/
theorem openOver_induction {options} {holds : Session → Prop} {tree after : FileTree}
    (isOpened : openOver options tree = (.ok session, after))
    (begins : ∀ front back, holds (fresh front back options tree))
    (quiet : ∀ session request, request.call? = none → session.Orderly → holds session →
      holds (session.serve request))
    (take : ∀ session text, session.Orderly → holds session →
      holds (session.take (.compiled .asIs) text).2) : session.Orderly ∧ holds session := by
  obtain ⟨front, back, rfl⟩ := openOver_ok isOpened
  let well (session : Session) : Prop := session.Orderly ∧ holds session
  have serves : ∀ session (request : Request), request.call? = none → well session →
      well (session.serve request) := fun session request callsNone both =>
    ⟨both.1.serve request, quiet session request callsNone both.1 both.2⟩
  exact @start_induction well well _ (fun _ both => both)
    (fun _ session => serves session (.lookup true) rfl)
    (fun session path => serves session (.load path) rfl)
    (fun _ both => @compileAll_induction _ well
      (fun session text both => ⟨both.1.take _ text, take session text both.1 both.2⟩) _ both)
    (fun session => serves session .close rfl) _
    ⟨⟨rfl, fun _ => steady_fresh front back options tree⟩, begins front back⟩

theorem Reachable.orderly (reachable : Reachable session) : session.Orderly := by
  induction reachable with
  | served _ request ih => exact ih.serve request
  | opened isOpened =>
    exact (@openOver_induction _ _ (fun _ => True) _ _ isOpened (fun _ _ => trivial)
      (fun _ _ _ _ => id) fun _ _ _ => id).1

/-! ## What requests change -/

/-- Two sessions that know the same declarations. -/
structure Alike (before after : Session) : Prop where
  decls : after.analysis.decls = before.analysis.decls
  names : after.analysis.names = before.analysis.names
  shape : before.generator.machine.SameShape after.generator.machine
  log : after.journal.log = before.journal.log
  patience : after.patience = before.patience
  isOpen : after.journal.isOpen = before.journal.isOpen
  fragments : after.journal.fragments = before.journal.fragments
  engine : after.engine = before.engine

theorem Alike.refl (session : Session) : session.Alike session :=
  ⟨rfl, rfl, .refl _, rfl, rfl, rfl, rfl, rfl⟩

theorem Request.call?_line {line text : Text} {manner : Manner}
    (isCall : (Request.line line).call? = some (manner, text)) :
    ¬ line.trimLeft.startsWith "#" = true ∧ manner = .compiled .prompt ∧ text = line := by
  simp only [Request.call?, Option.ite_none_left_eq_some, Option.some.injEq, Prod.mk.injEq] at isCall
  exact ⟨isCall.1, isCall.2.1.symm, isCall.2.2.symm⟩

theorem serve_call {request : Request} {manner : Manner} {text : Text}
    (isCall : request.call? = some (manner, text)) :
    session.serve request = (session.take manner text).2 := by
  cases request with
  | take =>
    cases isCall
    rfl
  | line line =>
    obtain ⟨isText, rfl, rfl⟩ := Request.call?_line isCall
    show (session.compileLine text).2 = _
    unfold compileLine
    rw [if_neg isText]
    rfl
  | _ => cases isCall

theorem Orderly.alike_serve {request} (orderly : session.Orderly)
    (callsNone : request.call? = none) : session.Alike (session.serve request) := by
  cases request with
  | take manner text => cases callsNone
  | line text =>
    show session.Alike (session.compileLine text).2
    unfold compileLine
    split
    · exact .refl session
    · rename_i isText
      simp [Request.call?, isText] at callsNone
  | lookup on =>
    show session.Alike (session.enableLookup on).2
    rcases orderly.enableLookup_cases on with same | ⟨_, _, _, _, isLooked⟩
    · rw [same]
      exact .refl session
    · rw [isLooked]
      exact ⟨rfl, rfl, .refl _, rfl, rfl, rfl, rfl, rfl⟩
  | load path =>
    obtain ⟨_, _, _, _, _, _, _, _, isLoaded⟩ := loadSnapshot_eq session path
    show session.Alike (session.loadSnapshot path).2
    rw [isLoaded]
    exact ⟨rfl, rfl, .refl _, rfl, rfl, rfl, rfl, rfl⟩
  | write =>
    obtain ⟨_, _, _, _, _, isWritten⟩ := writeSnapshot_eq session
    show session.Alike session.writeSnapshot.2
    rw [isWritten]
    exact ⟨rfl, rfl, .refl _, rfl, rfl, rfl, rfl, rfl⟩
  | close =>
    show session.Alike session.close.2
    rcases Bool.eq_false_or_eq_true session.closed with closed | closed
    · rw [close_closed closed]
      exact .refl session
    · obtain ⟨_, isClosed⟩ := close_eq orderly.idle closed
      rw [isClosed]
      exact ⟨rfl, rfl, .refl _, rfl, rfl, rfl, rfl, rfl⟩
  | call fuel name arguments span =>
    exact ⟨rfl, rfl, Machine.call_sameShape _ _ _ _ _, rfl, rfl, rfl, rfl, rfl⟩
  | output => exact ⟨rfl, rfl, ⟨rfl, rfl, rfl⟩, rfl, rfl, rfl, rfl, rfl⟩
  | stage id on | files tree | questions | events =>
    exact ⟨rfl, rfl, .refl _, rfl, rfl, rfl, rfl, rfl⟩

theorem Orderly.serve_cases (orderly : session.Orderly) (request : Request) :
    (∃ manner text, request.call? = some (manner, text) ∧
      session.serve request = (session.take manner text).2) ∨
      request.call? = none ∧ session.Alike (session.serve request) := by
  cases isCall : request.call? with
  | some call => exact .inl ⟨call.1, call.2, rfl, serve_call isCall⟩
  | none => exact .inr ⟨rfl, orderly.alike_serve isCall⟩

theorem Reachable.induct {holds : Session → Prop}
    (begins : ∀ front back options tree, holds (fresh front back options tree))
    (take : ∀ session, session.Orderly → holds session → ∀ manner text,
      holds (session.take manner text).2)
    (same : ∀ session after, session.Alike after → holds session → holds after)
    (reachable : Reachable session) : holds session := by
  induction reachable with
  | @served session reachable request ih =>
    rcases reachable.orderly.serve_cases request with ⟨manner, text, _, isTaken⟩ | ⟨_, alike⟩
    · rw [isTaken]
      exact take session reachable.orderly ih manner text
    · exact same _ _ alike ih
  | opened isOpened =>
    exact (openOver_induction isOpened (fun front back => begins front back _ _)
      (fun _ _ callsNone orderly => same _ _ (orderly.alike_serve callsNone))
      fun session text orderly held => take session orderly held _ text).2

theorem Reachable.patient (reachable : Reachable session) : 0 < session.patience := by
  let patient (session : Session) : Prop := 0 < session.patience
  refine @Reachable.induct session patient (fun _ _ _ _ => ?_)
    (fun session orderly isPatient manner text => ?_) (fun session after alike isPatient => ?_)
    reachable
  · exact Nat.pow_pos (Nat.succ_pos 1)
  · refine orderly.take_induction isPatient fun _ stands isOpen => ?_
    obtain ⟨_, settings⟩ := stands.take isOpen manner text
    simp only [Session.settings, Prod.mk.injEq] at settings
    show 0 < (session.take manner text).2.patience
    rw [settings.2.2.2.2.2.2]
    exact isPatient
  · show 0 < after.patience
    rw [alike.patience]
    exact isPatient

end Requests

end Session

end FragmentCompiler
