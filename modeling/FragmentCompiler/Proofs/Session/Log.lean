import FragmentCompiler.Proofs.Session.Run

/-!
# The transaction log

Between two requests the log is closed but for its last entry, which may wait for its code.
Its entries are numbered, they agree with the declarations they name, and once they are done
they never change.  A request made while a call runs is refused and leaves no trace in it.
-/

set_option autoImplicit false

namespace FragmentCompiler

open List Journal Transaction

/-- Nothing is collected, counted or known, and no scope is open. -/
structure Engine.Rests (engine : Engine) : Prop where
  items : engine.bag.items = []
  known : engine.known = []
  errors : engine.errors = 0
  warnings : engine.warnings = 0
  dropped : engine.dropped = 0
  depth : engine.depth = 0

/-- A transaction agrees with the declarations it names. -/
structure Transaction.Agrees (transaction : Transaction) : Prop where
  first : transaction.first = transaction.decls.headD 0
  last : transaction.last = transaction.decls.getLastD 0
  groups : transaction.groups = 0 ↔ transaction.decls = []

def Journal.fragmentName (number : Nat) : Text := "input_line_" ++ Text.decimal number

/-- What a log looks like between requests. -/
structure Journal.Ordered (journal : Journal) : Prop where
  ids : journal.log.map Transaction.id = List.range' 1 journal.log.length
  done : ∀ transaction ∈ journal.log.dropLast, transaction.isDone = true
  last : ∀ transaction, journal.last? = some transaction →
    transaction.isDone = true ∨ transaction.state = .parsed ∧ transaction.declOnly = true
  agrees : ∀ transaction ∈ journal.log, transaction.Agrees
  fragments : (journal.log.map fragment).filter (fun name => !name.isEmpty) =
    (List.range' 1 journal.fragments).map fragmentName

namespace Journal

variable {journal : Journal}

theorem ordered_new : ({} : Journal).Ordered where
  ids := rfl
  done := by simp
  last := by simp [last?]
  agrees := by simp
  fragments := rfl

theorem isEmpty_fragmentName (number : Nat) : (fragmentName number).isEmpty = false := rfl

theorem Ordered.of_same {after : Journal} (ordered : journal.Ordered)
    (log : after.log = journal.log) (fragments : after.fragments = journal.fragments) :
    after.Ordered := by
  obtain ⟨ids, done, last, agrees, names⟩ := ordered
  refine ⟨?_, ?_, ?_, ?_, ?_⟩
  · rw [log]; exact ids
  · rw [log]; exact done
  · unfold last?; rw [log]; exact last
  · rw [log]; exact agrees
  · rw [log, fragments]; exact names

theorem Ordered.flushed (ordered : journal.Ordered) :
    journal.flushed.Ordered ∧ ∀ transaction ∈ journal.flushed.log, transaction.isDone = true := by
  cases isPending : journal.pending? with
  | none =>
    have same : journal.flushed = journal := by simp [Journal.flushed, isPending]
    rw [same]
    refine ⟨ordered, fun transaction member => ?_⟩
    rcases eq_nil_or_concat journal.log with empty | ⟨earlier, last, isLog⟩
    · simp [empty] at member
    · rw [concat_eq_append] at isLog
      have isLast : journal.last? = some last := by simp [last?, isLog]
      have notParsed : last.state ≠ .parsed := by
        intro parsed
        simp [pending?, isLast, parsed] at isPending
      rw [isLog] at member
      rcases mem_append.mp member with early | isIt
      · exact ordered.done transaction (by simpa [isLog] using early)
      · rw [mem_singleton.mp isIt]
        exact (ordered.last last isLast).resolve_right fun parsed => notParsed parsed.1
  | some transaction =>
    obtain ⟨isLog, parsed⟩ := log_of_pending isPending
    generalize journal.log.dropLast = earlier at isLog
    have flushes : journal.flushed =
        { journal with
          log := earlier ++ [{ transaction with batches := [], state := .committed }] } := by
      simp [Journal.flushed, isPending, isLog]
    have early : ∀ entry ∈ earlier, entry.isDone = true := by
      simpa [isLog] using ordered.done
    rw [flushes]
    refine ⟨⟨?_, ?_, ?_, ?_, ?_⟩, ?_⟩
    · simpa [isLog] using ordered.ids
    · simpa using early
    · simp [last?, isDone]
    · intro entry member
      rcases mem_append.mp member with old | isIt
      · exact ordered.agrees entry (by simp [isLog, old])
      · rw [mem_singleton.mp isIt]
        obtain ⟨first, last, groups⟩ := ordered.agrees transaction (by simp [isLog])
        exact ⟨first, last, groups⟩
    · simpa [isLog] using ordered.fragments
    · simpa [or_imp, forall_and, isDone] using early

theorem Ordered.snoc {text} {after : Journal} {last : Transaction} (ordered : journal.Ordered)
    (closed : ∀ transaction ∈ journal.log, transaction.isDone = true)
    (log : after.log = journal.log ++ [last]) (id : last.id = journal.log.length + 1)
    (state : last.isDone = true ∨ last.state = .parsed ∧ last.declOnly = true)
    (agrees : last.Agrees) (fragment : last.fragment = (Session.numbered journal text).1)
    (fragments : after.fragments = (Session.numbered journal text).2.fragments) :
    after.Ordered := by
  refine ⟨?_, ?_, ?_, ?_, ?_⟩
  · simp [log, ordered.ids, id, range'_concat, Nat.add_comm]
  · simpa [log] using closed
  · simpa [last?, log] using state
  · rw [log]
    exact forall_mem_append.mpr ⟨ordered.agrees, forall_mem_singleton.mpr agrees⟩
  · rw [log, map_append, filter_append, ordered.fragments, fragments]
    unfold Session.numbered at fragment ⊢
    split at fragment
    · rename_i isEmpty
      simp [isEmpty, fragment]
    · rename_i isText
      have name : last.fragment = fragmentName (journal.fragments + 1) := fragment
      have counted : (if text.isEmpty then (([] : Text), journal) else journal.nextFragment).2.fragments =
          journal.fragments + 1 := by
        rw [if_neg isText]
        rfl
      rw [counted, range'_concat, map_append]
      simp [name, isEmpty_fragmentName, Nat.add_comm]

end Journal

namespace Session

/-! ## Calls -/

section Calls

variable {session : Session} {flags : StageFlags} {text : Text} {declOnly : Bool}
  {ids : List DeclId} {last : Transaction}

theorem Takes.agrees (takes : session.Takes flags text declOnly ids last) : last.Agrees := by
  have named : 0 ∉ last.decls := by
    rw [takes.decls]
    intro zero
    have above := (takes.works.keeps.spread.within 0 (mem_append_left _ zero) 0 (.inl rfl)).1
    exact absurd above (Nat.not_lt_zero _)
  obtain ⟨first, isLast, groups⟩ := takes.tallies named
  exact ⟨first, isLast, groups⟩

/-- The journal of a call that has ended: its transaction is done, or it was only declared and
has no error of its own. -/
theorem Takes.journal_ended (takes : session.Takes flags text declOnly ids last) :
    let after := (session.ended text declOnly).journal
    ∃ state, after.log = session.journal.flushed.log ++ [{ last with state }] ∧
      after.isOpen = false ∧ after.fragments = (numbered session.journal.flushed text).2.fragments ∧
      (state = .committed ∨ state = .failed ∨
        state = .parsed ∧ declOnly = true ∧ ¬ session.Fails text declOnly) := by
  have counted : (session.taken text declOnly).journal.fragments =
      (numbered session.journal.flushed text).2.fragments := by
    obtain ⟨_, _, _, _, isEntered, _⟩ := takes.stands.entered_eq text declOnly
    have rest := takes.works.journal.rest
    rw [rest, isEntered]
    rfl
  by_cases fails : session.Fails text declOnly
  · rw [takes.ended_failed fails]
    exact ⟨.failed, rfl, rfl, counted, .inr (.inl rfl)⟩
  · cases declOnly with
    | true =>
      rw [takes.ended_pending fails]
      exact ⟨.parsed, rfl, rfl, counted, .inr (.inr ⟨rfl, rfl, fails⟩)⟩
    | false =>
      obtain ⟨_, _, _, _, isEnded⟩ := takes.ended_committed fails
      rw [isEnded]
      exact ⟨.committed, rfl, rfl, counted, .inl rfl⟩

theorem Stands.journal_take (stands : session.Stands flags) (isOpen : session.refusal = none)
    (manner : Manner) (text : Text) :
    let after := (session.take manner text).2.journal
    ∃ last, after.log = session.journal.flushed.log ++ [last] ∧ after.isOpen = false ∧
      last.id = session.journal.flushed.log.length + 1 ∧ last.Agrees ∧
      last.fragment = (numbered session.journal.flushed text).1 ∧
      after.fragments = (numbered session.journal.flushed text).2.fragments ∧
      (last.isDone = true ∨ last.state = .parsed ∧ last.declOnly = true ∧ manner = .declared ∧
        ¬ (session.prepared manner).Fails text true) := by
  obtain ⟨ids, last, takes⟩ := (stands.prepared manner).takes text manner.declOnly
  obtain ⟨state, log, closes, fragments, ends⟩ := takes.journal_ended
  obtain ⟨_, _, _, isTaken⟩ := stands.take_ended isOpen manner text
  obtain ⟨first, isLast, groups⟩ := takes.agrees
  rw [isTaken]
  refine ⟨{ last with state }, log, closes, takes.id, ⟨first, isLast, groups⟩, takes.fragment,
    fragments, ?_⟩
  rcases ends with committed | failed | ⟨parsed, only, fine⟩
  · exact .inl (by simp [isDone, committed])
  · exact .inl (by simp [isDone, failed])
  · cases manner with
    | compiled mode => cases only
    | declared => exact .inr ⟨parsed, takes.only, rfl, fine⟩

theorem Stands.rests_take (stands : session.Stands flags) (isOpen : session.refusal = none)
    (manner : Manner) (text : Text) : (session.take manner text).2.engine.Rests := by
  have depth := (stands.take isOpen manner text).1.clear.depth
  obtain ⟨_, _, _, isTaken⟩ := stands.take_ended isOpen manner text
  rw [isTaken] at depth ⊢
  exact ⟨rfl, rfl, rfl, rfl, rfl, depth⟩

end Calls

/-! ## Requests -/

/-- What is known of the log between requests. -/
structure Logged (session : Session) : Prop where
  rests : session.engine.Rests
  idle : session.journal.isOpen = false
  ordered : session.journal.Ordered

section Requests

variable {session : Session}

theorem logged_fresh (front : AnalysisSetup) (back : MachineSetup) (options : SessionOptions)
    (tree : FileTree) : (fresh front back options tree).Logged :=
  ⟨⟨rfl, rfl, rfl, rfl, rfl, rfl⟩, rfl, ordered_new⟩

theorem Logged.take (logged : session.Logged) (orderly : session.Orderly) (manner : Manner)
    (text : Text) : (session.take manner text).2.Logged := by
  refine orderly.take_induction logged fun _ stands isOpen => ?_
  obtain ⟨last, log, closes, id, agrees, fragment, fragments, ends⟩ :=
    stands.journal_take isOpen manner text
  obtain ⟨flushes, done⟩ := logged.ordered.flushed
  refine ⟨stands.rests_take isOpen manner text, closes,
    flushes.snoc done log id ?_ agrees fragment fragments⟩
  exact ends.imp_right fun ⟨parsed, only, _⟩ => ⟨parsed, only⟩

theorem Logged.alike {after : Session} (logged : session.Logged) (alike : session.Alike after) :
    after.Logged := by
  refine ⟨?_, alike.isOpen.trans logged.idle, logged.ordered.of_same alike.log alike.fragments⟩
  rw [alike.engine]
  exact logged.rests

theorem Reachable.logged (reachable : Reachable session) : session.Logged :=
  Reachable.induct logged_fresh (fun _ orderly logged => logged.take orderly)
    (fun _ _ alike logged => logged.alike alike) reachable

/-- The pending transaction was left by a call that had no error of its own. -/
def Awaits (session : Session) : Prop :=
  ∃ (before : Session) (text : Text), Reachable before ∧ before.refusal = none ∧
    ¬ (before.prepared .declared).Fails text true ∧
    (before.take .declared text).2.journal.log = session.journal.log

theorem pending?_snoc {earlier} {journal : Journal} {last : Transaction}
    (log : journal.log = earlier ++ [last]) (done : last.isDone = true) :
    journal.pending? = none := by
  have notParsed : last.state ≠ .parsed := by
    intro parsed
    simp [isDone, parsed] at done
  simp [pending?, last?, log, notParsed]

theorem Orderly.settled_compile (orderly : session.Orderly)
    (settled : session.journal.pending? = none) (mode : Mode) (text : Text) :
    (session.take (.compiled mode) text).2.journal.pending? = none := by
  refine orderly.take_induction settled fun _ stands isOpen => ?_
  obtain ⟨last, log, _, _, _, _, _, ends⟩ := stands.journal_take isOpen (.compiled mode) text
  rcases ends with done | ⟨_, _, never, _⟩
  · exact pending?_snoc log done
  · cases never

theorem pending?_alike {after : Session} (alike : session.Alike after) :
    after.journal.pending? = session.journal.pending? := by
  simp [pending?, last?, alike.log]

theorem settled_opened {options} {tree after : FileTree}
    (isOpened : openOver options tree = (.ok session, after)) :
    session.journal.pending? = none :=
  (openOver_induction isOpened (fun _ _ => rfl)
    (fun _ _ callsNone orderly => (pending?_alike (orderly.alike_serve callsNone)).trans)
    fun _ text orderly settled => orderly.settled_compile settled .asIs text).2

theorem Reachable.awaits (reachable : Reachable session) :
    session.journal.pending? = none ∨ session.Awaits := by
  induction reachable with
  | opened isOpened => exact .inl (settled_opened isOpened)
  | @served session reachable request ih =>
    rcases reachable.orderly.serve_cases request with ⟨manner, text, _, isTaken⟩ | ⟨_, alike⟩
    · rw [isTaken]
      refine reachable.orderly.take_induction ih fun _ stands isOpen => ?_
      obtain ⟨last, log, _, _, _, _, _, ends⟩ := stands.journal_take isOpen manner text
      rcases ends with done | ⟨_, _, rfl, fine⟩
      · exact .inl (pending?_snoc log done)
      · exact .inr ⟨session, text, reachable, isOpen, fine, rfl⟩
    · rw [pending?_alike alike]
      refine ih.imp_right fun ⟨before, text, earlier, isOpen, fine, log⟩ => ?_
      exact ⟨before, text, earlier, isOpen, fine, log.trans alike.log.symm⟩

end Requests

/-! ## Requests made by a resolver -/

/-- The sessions in which a call checks its groups, one after the other.  Names are resolved
there, so this is where a resolver may call back. -/
def checks : Nat → Session → List Session
  | 0, _ => []
  | fuel + 1, session =>
    let (unit, parser) := session.analysis.parser.nextUnit session.patience
    let session := { session with analysis := { session.analysis with parser } }.drain
    match unit with
    | .finished => []
    | .pragma key value span => checks fuel (session.handlePragma key value span)
    | .group [] => checks fuel session
    | .group group => session :: checks fuel ((session.checkedGroup group).dispatch group)

/-- The sessions in which the resolver of a call may call back. -/
def asking (session : Session) (manner : Manner) (text : Text) : List Session :=
  let entered := ((session.held true).prepared manner).entered text manner.declOnly
  checks entered.patience ((entered.beginPhase "parse").2.beginSpan .pass "parse")

/-- Whether a request enters the session. -/
def Request.isEntry : Request → Bool
  | .take _ _ | .line _ | .lookup _ | .load _ | .write | .close => true
  | _ => false

def answer (session : Session) : Request → Option SessionError
  | .take manner text => (session.take manner text).1.error
  | .line text => (session.compileLine text).1.error
  | .lookup on => (session.enableLookup on).1
  | .load path =>
    match (session.loadSnapshot path).1 with
    | .error error => some error
    | .ok _ => none
  | .write => session.writeSnapshot.1
  | .close => session.close.1
  | _ => none

section Nested

variable {session : Session} {flags : StageFlags} {start : Session}

theorem Works.checks (fuel : Nat) :
    ∀ {now : Session} {ids : List DeclId}, Works flags start ids now.analysis.fetched now →
      ∀ asked ∈ checks fuel now, ∃ ids, Works flags start ids asked.analysis.fetched asked := by
  induction fuel with
  | zero => exact fun _ _ never => absurd never not_mem_nil
  | succ fuel ih =>
    intro now ids works
    unfold Session.checks
    rcases isNext : now.analysis.parser.nextUnit now.patience with ⟨unit, parser⟩
    obtain ⟨_, reads, grouped⟩ := works.nextUnit isNext
    cases unit with
    | finished => exact forall_mem_nil _
    | pragma key value span =>
      have handles := reads.handlePragma key value span
      rw [← fetched_handlePragma] at handles
      exact ih handles
    | group group =>
      cases group with
      | nil => exact ih reads
      | cons id rest =>
        obtain ⟨raw, below⟩ := grouped _ rfl
        exact forall_mem_cons.mpr ⟨⟨_, reads⟩,
          ih (reads.checkedGroup raw works.keeps.follows.count below).dispatchChecked⟩

theorem serve_busy {request} (busy : session.busy = true) (isOpen : session.closed = false)
    (isEntry : request.isEntry = true) :
    session.serve request = session ∧
      (session.answer request = some .reentrant ∨
        session.answer request = some .directiveInPrompt) := by
  have refused : session.refusal = some .reentrant := by simp [refusal, busy, isOpen]
  cases request with
  | take manner text => simp [serve, answer, take_refused refused, Outcome.refused]
  | line text =>
    by_cases directive : text.trimLeft.startsWith "#" = true <;>
      simp [serve, answer, compileLine, compile, refused, Outcome.refused, directive]
  | lookup on => simp [serve, answer, enableLookup, refused]
  | load path => simp [serve, answer, loadSnapshot, refused]
  | write => simp [serve, answer, writeSnapshot, refused]
  | close => simp [serve, answer, close, isOpen, busy]
  | _ => cases isEntry

theorem Steady.held (steady : session.Steady) : (session.held true).Steady :=
  { steady with switched := ⟨steady.switched.switch, steady.switched.resolver⟩ }

theorem Steady.asking {manner text now} (steady : session.Steady)
    (member : now ∈ session.asking manner text) :
    ∃ flags ids, Works flags (((session.held true).prepared manner).entered text manner.declOnly)
      ids now.analysis.fetched now := by
  obtain ⟨flags, stands⟩ := steady.held.stands
  have begins := (stands.prepared manner).begins text manner.declOnly
  let entered := ((session.held true).prepared manner).entered text manner.declOnly
  let reading := (entered.beginPhase "parse").2.beginSpan .pass "parse"
  have reads : Works (manner.flags flags) entered [] reading.analysis.fetched reading :=
    begins.unseen _ _
  exact ⟨_, reads.checks _ now member⟩

theorem Steady.busy_asking {manner text now} (steady : session.Steady)
    (member : now ∈ session.asking manner text) :
    now.busy = true ∧ now.closed = session.closed := by
  obtain ⟨flags, stands⟩ := steady.held.stands
  obtain ⟨_, _, works⟩ := steady.asking member
  have same := works.settings
  rw [(stands.prepared manner).settings_entered] at same
  simp only [Session.settings, Prod.mk.injEq] at same
  exact ⟨same.2.2.2.2.1, same.2.2.2.2.2.1⟩

end Nested

end Session

end FragmentCompiler
