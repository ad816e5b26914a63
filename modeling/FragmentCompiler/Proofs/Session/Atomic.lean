import FragmentCompiler.Proofs.Session.Run

/-!
# Rejected calls

A call that counts an error of its own fragment leaves the session as the flush before it
left it: the names, the archive to be written, the machine and its output are the same, and
the journal has one more entry.
-/

set_option autoImplicit false

namespace FragmentCompiler.Session

/-- A session is what another was before it rejected a text. -/
structure Restores (text : Text) (before after : Session) : Prop where
  names : after.analysis.names = before.analysis.names
  exported : after.analysis.exported = before.analysis.exported
  kept : ∀ id, id ≤ before.analysis.decls.count →
    after.analysis.decls.get? id = before.analysis.decls.get? id
  fetched : after.analysis.fetched = before.analysis.fetched
  calls : after.analysis.prototypeCalls = before.analysis.prototypeCalls
  surroundings : after.analysis.surroundings = before.analysis.surroundings
  /-- What was printed may have moved to what was written. -/
  machine : after.generator.machine =
    { before.generator.machine with printed := after.generator.machine.printed }
  unit : after.generator.pending = before.generator.pending
  queue : after.generator.queue = before.generator.queue
  printed : after.printed = before.printed
  settings : after.settings = before.settings
  journal : ∃ last, last.state = .failed ∧ after.journal =
    { before.journal with
      log := before.journal.log ++ [last]
      fragments := before.journal.fragments + (if text.isEmpty then 0 else 1)
      dynamicLookup := after.journal.dynamicLookup }

section Calls

variable {session : Session} {flags : StageFlags} {text : Text} {declOnly : Bool}

theorem openedJournal_eq (journal : Journal) (text : Text) (declOnly : Bool) :
    openedJournal journal text declOnly =
      { journal with
        log := journal.log ++ [newTransaction journal text declOnly]
        fragments := journal.fragments + (if text.isEmpty then 0 else 1)
        isOpen := true } := by
  unfold openedJournal numbered
  split <;> rfl

theorem Stands.surroundings_entered (stands : session.Stands flags) (text : Text)
    (declOnly : Bool) :
    (session.entered text declOnly).analysis.surroundings = session.analysis.surroundings := by
  obtain ⟨parser, _, _, _, isEntered, takes, _⟩ := stands.entered_eq text declOnly
  rw [isEntered]
  exact (Analysis.takes_follows stands.ready takes (Nat.zero_le _)).surroundings

theorem Stands.undone (stands : session.Stands flags) (fails : session.Fails text declOnly) :
    session.flushed.Restores text (session.compileText text declOnly).2 := by
  obtain ⟨_, _, _, _, isFlushed⟩ := stands.flushed_eq
  obtain ⟨_, _, _, _, isEntered, _⟩ := stands.entered_eq text declOnly
  obtain ⟨names, decls⟩ := stands.names_entered text declOnly
  obtain ⟨ids, last, takes⟩ := stands.takes text declOnly
  obtain ⟨sameNames, fetched, calls, _⟩ := takes.rollback
  have works := takes.works
  have kept : ∀ id, id ≤ session.analysis.decls.count →
      (session.taken text declOnly).analysis.decls.get? id = session.analysis.decls.get? id := by
    intro id low
    rw [← decls] at low ⊢
    exact works.keeps.follows.kept id low
  have idle : session.journal.flushed.isOpen = false := by
    unfold Journal.flushed
    split <;> exact stands.idle
  have isJournal : { (session.taken text declOnly).journal with
        log := session.journal.flushed.log ++ [{ last with state := .failed }]
        isOpen := false } =
      { session.journal.flushed with
        log := session.journal.flushed.log ++ [{ last with state := .failed }]
        fragments := session.journal.flushed.fragments + (if text.isEmpty then 0 else 1)
        dynamicLookup := (session.taken text declOnly).journal.dynamicLookup } := by
    rw [works.journal.rest, isEntered, openedJournal_eq]
    simp only [idle]
  obtain ⟨trace, isCompiled⟩ := stands.compiled_eq text declOnly
  rw [isCompiled, takes.ended_failed fails, isFlushed]
  exact {
    kept
    names := sameNames
    exported := Analysis.exported_congr stands.ready.named stands.ready.grounded sameNames kept
    fetched := fetched.trans stands.fetched.symm
    calls := calls.trans stands.calls.symm
    surroundings := works.keeps.follows.surroundings.trans
      (stands.surroundings_entered text declOnly)
    machine := works.machine.trans (by rw [isEntered]; rfl)
    unit := rfl
    queue := works.queue.trans (by rw [isEntered])
    printed := works.printed.trans (by rw [isEntered]; rfl)
    settings := works.settings.trans (by rw [isEntered]; rfl)
    journal := ⟨{ last with state := .failed }, rfl, isJournal⟩ }

theorem Restores.unseen {before after : Session} (restores : before.Restores text after)
    (pipeline : Pipeline StageStore) (trace : TraceRecorder) :
    before.Restores text { after with pipeline, trace } :=
  { restores with }

end Calls

/-- A call that counts an error of its own text leaves the names, the declarations to be
written, the machine with its values, what is to be lowered and run, and what was printed as
the flush before it left them. -/
theorem rejected_call_restores {session : Session} (reachable : Reachable session)
    (isOpen : session.closed = false) (manner : Manner) (text : Text)
    (fails : (session.prepared manner).Fails text manner.declOnly) :
    (session.prepared manner).flushed.Restores text (session.take manner text).2 := by
  have orderly := reachable.orderly
  obtain ⟨flags, stands⟩ := (orderly.steady isOpen).stands
  have undone := (stands.prepared manner).undone fails
  obtain ⟨pipeline, trace, _, isTaken⟩ :=
    stands.take_eq (refusal_open orderly.idle isOpen) manner text
  rw [isTaken]
  exact undone.unseen pipeline trace

/-- With a declaration still to be flushed, the second variable of a text names nothing. -/
theorem rejected_call_restores_after_flush :
    let session := (fresh {} {} { noBootstrap := true } (.empty [])).serve
      (.take .declared "int x = 1;")
    session.journal.pending?.isSome = true ∧
      (session.prepared (.compiled .prompt)).Fails "int y = x; int z = w;" false ∧
      (session.prepared (.compiled .prompt)).flushed.Restores "int y = x; int z = w;"
        (session.take (.compiled .prompt) "int y = x; int z = w;").2 := by
  intro session
  have fails : (session.prepared (.compiled .prompt)).Fails "int y = x; int z = w;" false := by
    unfold Fails
    decide +kernel
  exact ⟨by decide +kernel, fails,
    rejected_call_restores ((Reachable.opened (opens_bare [])).served _) (by decide +kernel) _ _ fails⟩

end FragmentCompiler.Session
