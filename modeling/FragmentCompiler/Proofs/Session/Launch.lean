import FragmentCompiler.Proofs.Session.Agreement
import FragmentCompiler.Proofs.Session.Complete
import FragmentCompiler.Proofs.Session.Log

/-!
# Initializers run once

A call that is not refused first runs what an earlier one has left to be lowered and then, if
it commits, what it has brought itself.  Over a whole session the initializers that were run
and those that still wait are the ones that were brought, each of them once and in order.
-/

set_option autoImplicit false

namespace FragmentCompiler

open List Declarations InitializerResult

/-- Whether something is to be run once for a declaration. -/
def Decl.starts (decl : Decl) : Bool :=
  match decl.body with
  | .variable data => data.initial.isSome
  | .function _ => false
  | .wrapper _ => true

/-- A declaration is valid, and what is to be run for it was run. -/
def Declarations.Started (decls : Declarations) (results : List InitializerResult) (id : DeclId) :
    Prop :=
  ∃ decl, decls.get? id = some decl ∧ decl.invalid = false ∧
    (decl.starts = true → ∃ result ∈ results, decls.initializer? id = some result.initializer)

/-- All that happens to a machine: for each queue a unit is installed, and what it runs is
the queue; printing may come in between. -/
def Machine.Through (fuel : Nat) : Machine → List Generator → Machine → Prop
  | machine, [], after => ∃ printed, after = { machine with printed }
  | machine, generator :: rest, after =>
    (∃ printed unit, generator.machine = { machine with printed }.install unit ∧
      generator.queue = unit.runs) ∧
    Through fuel (generator.runQueue fuel).2.machine rest after

theorem CodeUnit.Carries.initializer {decls decl} {unit : CodeUnit} {id : DeclId}
    (carries : unit.Carries decls id decl) (found : decls.get? id = some decl)
    (valid : decl.invalid = false) (starts : decl.starts = true) :
    (decls.initializer? id).isSome = true := by
  have isValid := valid?_eq_some.mpr ⟨found, valid⟩
  unfold Carries at carries
  unfold Decl.starts at starts
  split at carries <;> rename_i data isBody <;> rw [isBody] at starts
  · obtain ⟨value, isValue⟩ := Option.isSome_iff_exists.mp starts
    obtain ⟨isGlobal, _, initial⟩ := carries
    obtain ⟨code, isCode, _⟩ := initial value isValue
    simp [initializer?, isValid, isBody, isGlobal, isValue, isCode]
  · cases starts
  · obtain ⟨body, code, isSome, isCode, _⟩ := carries
    simp [initializer?, isValid, isBody, isSome, isCode]

theorem Session.started_all {ids base results} {analysis : Analysis}
    (placed : ∀ id ∈ ids, analysis.Placed .wide base id)
    (silent : (({} : CodeUnit).addAll analysis.decls ids).2 = [])
    (ran : ∀ run ∈ analysis.decls.runs ids, ∃ result ∈ results, result.initializer = run) :
    ∀ id ∈ ids, analysis.decls.Started results id := by
  intro id member
  let unit := (({} : CodeUnit).addAll analysis.decls ids).1
  obtain ⟨decl, found, valid, carries⟩ :=
    carries_all placed silent (show unit = { unit with groups := unit.groups } from rfl) id member
  refine ⟨decl, found, valid, fun starts => ?_⟩
  obtain ⟨run, made⟩ := Option.isSome_iff_exists.mp (carries.initializer found valid starts)
  obtain ⟨result, isResult, isRun⟩ := ran run (mem_runs.mpr ⟨id, member, made⟩)
  exact ⟨result, isResult, isRun ▸ made⟩

namespace Session

/-! ## What a call runs -/

/-- The queues that a call runs, each with what is known when it starts: what earlier calls
have left to be lowered, and what the call itself commits. -/
def queues (session : Session) (text : Text) (declOnly : Bool) : List (Analysis × Generator) :=
  let now := session.taken text declOnly
  (session.analysis, { session.generator with pending := session.owedUnit.1 }.commit) ::
    if declOnly || session.flushed.engine.errors < now.engine.errors then []
    else [(now.analysis, now.generator.commit)]

/-- The queues a call runs; a call that is refused runs none. -/
def launches (session : Session) (manner : Manner) (text : Text) : List (Analysis × Generator) :=
  if session.refusal.isSome then []
  else (session.prepared manner).queues text manner.declOnly

/-- Everything a call reports. -/
def diagnosed (session : Session) (manner : Manner) (text : Text) : List Diagnostic :=
  if session.refusal.isSome then []
  else ((session.prepared manner).ended text manner.declOnly).engine.known

/-- How everything ended that a call has run. -/
def executed (session : Session) (manner : Manner) (text : Text) : List InitializerResult :=
  (session.launches manner text).flatMap fun queue => (queue.2.runQueue session.patience).1

def brought (session : Session) (manner : Manner) (text : Text) : List DeclId :=
  if session.refusal.isSome then []
  else match (session.take manner text).2.journal.last? with
    | some last => if last.state = .failed then [] else last.decls
    | none => []

def waiting (session : Session) : List Initializer := session.analysis.decls.runs session.owed

/-- What a call does with initializers.  Those that wait are run first; those it has brought
follow at once, or wait in turn when the text was declared only. -/
structure Accounts (session : Session) (manner : Manner) (text : Text) : Prop where
  ran : (session.executed manner text).map initializer =
    session.waiting ++ if manner.declOnly then [] else
      (session.take manner text).2.analysis.decls.runs (session.brought manner text)
  left : (session.take manner text).2.owed =
    if manner.declOnly then session.brought manner text else []
  through : session.generator.machine.Through session.patience
    ((session.launches manner text).map Prod.snd) (session.take manner text).2.generator.machine
  apart : (session.brought manner text).Nodup
  new : ∀ id ∈ session.brought manner text, session.analysis.decls.count < id ∧
    id ≤ (session.take manner text).2.analysis.decls.count
  /-- Nothing is left out without an error of lowering. -/
  flushed : (∀ entry ∈ session.diagnosed manner text, ¬ entry.FromLowering) →
    ∀ id ∈ session.owed, session.analysis.decls.Started (session.executed manner text) id
  complete : (∀ entry ∈ session.diagnosed manner text, ¬ entry.FromLowering) →
    manner.declOnly = false → ∀ id ∈ session.brought manner text,
      (session.take manner text).2.analysis.decls.Started (session.executed manner text) id

section Calls

variable {flags : StageFlags} {session : Session} {text : Text} {declOnly : Bool}
  {ids : List DeclId} {last : Transaction}

theorem queues_cases (session : Session) (text : Text) (declOnly : Bool) :
    let owed := (session.analysis,
      { session.generator with pending := session.owedUnit.1 }.commit)
    ((declOnly = true ∨ session.Fails text declOnly) ∧ session.queues text declOnly = [owed]) ∨
    declOnly = false ∧ ¬ session.Fails text declOnly ∧ session.queues text declOnly =
      [owed, ((session.taken text declOnly).analysis,
        (session.taken text declOnly).generator.commit)] := by
  unfold queues Fails
  cases declOnly with
  | true => exact .inl ⟨.inl rfl, rfl⟩
  | false =>
    by_cases fails : session.flushed.engine.errors < (session.taken text false).engine.errors
    · exact .inl ⟨.inr fails, by simp [fails]⟩
    · exact .inr ⟨rfl, fails, by simp [fails]⟩

theorem queues_committed (fine : ¬ session.Fails text false) :
    session.queues text false =
      [(session.analysis, { session.generator with pending := session.owedUnit.1 }.commit),
        ((session.taken text false).analysis, (session.taken text false).generator.commit)] := by
  rcases session.queues_cases text false with ⟨never | fails, _⟩ | ⟨_, _, isQueues⟩
  · cases never
  · exact absurd fails fine
  · exact isQueues

theorem Steady.runQueue_owed (steady : session.Steady) :
    { session.generator with pending := session.owedUnit.1 }.commit.runQueue session.patience =
      session.performed :=
  Generator.runQueue_commit
    (show { session.generator with pending := session.owedUnit.1 }.released = false from
      steady.released) _

/-- What is known of a call with code generation. -/
structure Attempt (flags : StageFlags) (session : Session) (text : Text) (declOnly : Bool)
    (ids : List DeclId) (last : Transaction) : Prop
    extends Takes flags session text declOnly ids last where
  generates : declOnly = false → flags.generates = true
  gathers : Gathers flags .wide (session.entered text declOnly) ids []
    (session.taken text declOnly)

theorem Stands.attempt (stands : session.Stands flags)
    (generates : declOnly = false → flags.generates = true) (text : Text) :
    ∃ ids last, Attempt flags session text declOnly ids last := by
  obtain ⟨ids, last, takes, gathers⟩ := stands.gathers_wide text declOnly
  exact ⟨ids, last, takes, generates, gathers⟩

namespace Attempt

def results (session : Session) (text : Text) (declOnly : Bool) : List InitializerResult :=
  (session.queues text declOnly).flatMap fun queue => (queue.2.runQueue session.patience).1

theorem initializers_owed (attempt : Attempt flags session text declOnly ids last) :
    session.performed.1.map initializer = session.waiting := by
  unfold performed Generator.perform owedUnit
  rw [Generator.initializers_runAll, attempt.stands.queue, nil_append, CodeUnit.runs_addAll]
  rfl

theorem runs_pending (attempt : Attempt flags session text false ids last)
    (fine : ¬ session.Fails text false) :
    (session.taken text false).generator.pending.runs =
      (session.taken text false).analysis.decls.runs ids := by
  obtain ⟨groups, pending⟩ := attempt.gathers.unit (attempt.generates rfl)
    (attempt.still fine)
  rw [pending, ← CodeUnit.runs_addAll]
  rfl

theorem commit_taken (attempt : Attempt flags session text declOnly ids last) :
    let now := (session.taken text declOnly).generator
    now.commit.machine = now.machine.install now.pending ∧ now.commit.queue = now.pending.runs := by
  obtain ⟨queue, released⟩ := attempt.queue
  intro now
  rw [Generator.commit_eq released]
  refine ⟨rfl, ?_⟩
  dsimp only
  rw [queue, nil_append]

theorem initializers_taken (attempt : Attempt flags session text false ids last)
    (fine : ¬ session.Fails text false) (fuel : Nat) :
    ((session.taken text false).generator.commit.runQueue fuel).1.map
      initializer = (session.taken text false).analysis.decls.runs ids := by
  unfold Generator.runQueue
  dsimp only
  rw [Generator.initializers_runAll, attempt.commit_taken.2, attempt.runs_pending fine]

section

variable (attempt : Attempt flags session text declOnly ids last)

include attempt

theorem start_owed :
    ∃ printed unit, { session.generator with pending := session.owedUnit.1 }.commit.machine =
        { session.generator.machine with printed }.install unit ∧
      { session.generator with pending := session.owedUnit.1 }.commit.queue = unit.runs := by
  have held : { session.generator with pending := session.owedUnit.1 }.released = false :=
    attempt.stands.released
  rw [Generator.commit_eq held]
  refine ⟨session.generator.machine.printed, session.owedUnit.1, rfl, ?_⟩
  dsimp only
  rw [attempt.stands.queue, nil_append]

theorem fresh_ids :
    ids.Nodup ∧ ∀ id ∈ ids, session.analysis.decls.count < id ∧
      id ≤ (session.taken text declOnly).analysis.decls.count := by
  have spread := attempt.works.keeps.spread
  rw [append_nil, (attempt.stands.names_entered text declOnly).2] at spread
  constructor
  · refine spread.apart.imp fun {first second} isApart same => ?_
    exact isApart first (.inl rfl) (same ▸ .inl rfl)
  · exact fun id member => spread.within id member id (.inl rfl)

/-- How a call ends that keeps the declarations `kept` of those it has dispatched. -/
structure Ends (session : Session) (text : Text) (declOnly : Bool) (ids kept : List DeclId) :
    Prop where
  last : ∃ last, (session.ended text declOnly).journal.last? = some last ∧ last.decls = ids ∧
    kept = if last.state = .failed then [] else ids
  part : kept.Sublist ids
  left : (session.ended text declOnly).owed = if declOnly then kept else []
  decls : (session.ended text declOnly).analysis.decls =
    (session.taken text declOnly).analysis.decls
  placed : ∀ id ∈ kept, (session.ended text declOnly).analysis.Placed .wide
    (session.entered text declOnly).analysis.decls.count id
  silent : declOnly = false → (session.entered text declOnly).engine.Free Code.IsLowering →
    (({} : CodeUnit).addAll (session.ended text declOnly).analysis.decls kept).2 = []
  known : ∀ entry ∈ (session.taken text declOnly).engine.known,
    entry ∈ (session.ended text declOnly).engine.known
  ran : (results session text declOnly).map initializer =
    session.waiting ++
      if declOnly then [] else (session.ended text declOnly).analysis.decls.runs kept
  through : session.generator.machine.Through session.patience
    ((session.queues text declOnly).map Prod.snd) (session.ended text declOnly).generator.machine

theorem owed_only (stops : declOnly = true ∨ session.Fails text declOnly) :
    (results session text declOnly).map initializer = session.waiting ∧
      session.generator.machine.Through session.patience
        ((session.queues text declOnly).map Prod.snd)
        (session.taken text declOnly).generator.machine := by
  have isQueues : session.queues text declOnly =
      [(session.analysis, { session.generator with pending := session.owedUnit.1 }.commit)] := by
    rcases session.queues_cases text declOnly with ⟨_, isQueues⟩ | ⟨isFalse, fine, _⟩
    · exact isQueues
    · rcases stops with isTrue | fails
      · exact Bool.noConfusion (isTrue.symm.trans isFalse)
      · exact absurd fails fine
  unfold results
  rw [isQueues]
  simp only [flatMap_cons, flatMap_nil, append_nil, map_cons, map_nil,
    Machine.Through, attempt.stands.runQueue_owed]
  exact ⟨attempt.initializers_owed, attempt.start_owed, _, attempt.machine⟩

theorem ends_failed (fails : session.Fails text declOnly) : Ends session text declOnly ids [] := by
  obtain ⟨ran, through⟩ := attempt.owed_only (.inr fails)
  have isEnded := attempt.ended_failed fails
  constructor
  case last =>
    refine ⟨{ last with state := .failed }, ?_, attempt.decls, rfl⟩
    rw [isEnded]
    simp [Journal.last?]
  case part => exact nil_sublist ids
  case left =>
    rw [isEnded, owed_of_done rfl (show TransactionState.failed ≠ .parsed by decide), ite_self]
  case decls => rw [isEnded]; rfl
  case placed => exact forall_mem_nil _
  case silent => exact fun _ _ => rfl
  case known => rw [isEnded]; exact fun _ member => member
  case ran => simpa [runs, initializers] using ran
  case through => rw [isEnded]; exact through

end

theorem ends_pending (attempt : Attempt flags session text true ids last)
    (fine : ¬ session.Fails text true) : Ends session text true ids ids := by
  obtain ⟨ran, through⟩ := attempt.owed_only (.inl rfl)
  have isEnded := attempt.ended_pending fine
  have still := attempt.still fine
  constructor
  case last =>
    refine ⟨{ last with state := .parsed }, ?_, attempt.decls, rfl⟩
    rw [isEnded]
    simp [Journal.last?]
  case part => exact List.Sublist.refl ids
  case left =>
    rw [isEnded, owed_of_parsed rfl rfl, if_pos rfl]
    exact attempt.batches rfl
  case decls => rw [isEnded]
  case placed => rw [isEnded]; exact (attempt.gathers.tracks still).placed
  case silent => exact fun never => Bool.noConfusion never
  case known => rw [isEnded]; exact fun _ member => member
  case ran => rw [ran, if_pos rfl, append_nil]
  case through => rw [isEnded]; exact through

theorem ends_committed (attempt : Attempt flags session text false ids last)
    (fine : ¬ session.Fails text false) : Ends session text false ids ids := by
  obtain ⟨_, _, _, _, isEnded⟩ := attempt.ended_committed fine
  have commits : (session.taken text false).committing flags =
      (session.taken text false).generator.commit := if_pos (attempt.generates rfl)
  rw [commits, attempt.patience] at isEnded
  have still := attempt.still fine
  constructor
  case last =>
    refine ⟨{ last with state := .committed }, ?_, attempt.decls, rfl⟩
    rw [isEnded]
    simp [Journal.last?]
  case part => exact List.Sublist.refl ids
  case left =>
    rw [isEnded, owed_of_done rfl (show TransactionState.committed ≠ .parsed by decide)]
    rfl
  case decls => rw [isEnded]
  case placed => rw [isEnded]; exact (attempt.gathers.tracks still).placed
  case silent =>
    rw [isEnded]
    exact fun _ free => attempt.gathers.silent (attempt.generates rfl) free still
  case known => rw [isEnded]; exact (Engine.reportAll_grows _ _).kept
  case ran =>
    unfold results
    rw [queues_committed fine, isEnded]
    simp only [flatMap_cons, flatMap_nil, append_nil, map_append,
      attempt.stands.runQueue_owed, attempt.initializers_owed, attempt.initializers_taken fine,
      Bool.false_eq_true, if_false]
  case through =>
    rw [queues_committed fine, isEnded]
    simp only [map_cons, map_nil, Machine.Through, attempt.stands.runQueue_owed]
    obtain ⟨machine, queue⟩ := attempt.commit_taken
    refine ⟨attempt.start_owed, ⟨(session.taken text false).generator.machine.printed, _, ?_, queue⟩,
      _, rfl⟩
    rw [machine, ← attempt.machine]

section

variable (attempt : Attempt flags session text declOnly ids last)

include attempt

theorem ends : ∃ kept, Ends session text declOnly ids kept := by
  by_cases fails : session.Fails text declOnly
  · exact ⟨[], attempt.ends_failed fails⟩
  · cases declOnly with
    | true => exact ⟨ids, attempt.ends_pending fails⟩
    | false => exact ⟨ids, attempt.ends_committed fails⟩

/-! ### Nothing is left out -/

theorem silent_owed (free : (session.entered text declOnly).engine.Free Code.IsLowering) :
    session.owedUnit.2 = [] := by
  rw [attempt.stands.engine_entered] at free
  refine eq_nil_iff_forall_not_mem.mpr fun diagnostic member => ?_
  have isLowering :=
    CodeUnit.addAll_fromLowering session.analysis.decls session.owed {} diagnostic member
  obtain ⟨entry, known, isCode, isError⟩ := Engine.known_reportAll session.flushReports
    session.engine.beginScope diagnostic (mem_append_left _ member)
  refine free entry known (isError.trans isLowering.1) ?_
  rw [isCode]
  exact isLowering.2

theorem free_entered {kept} (ends : Ends session text declOnly ids kept)
    (free : ∀ entry ∈ (session.ended text declOnly).engine.known, ¬ entry.FromLowering) :
    (session.entered text declOnly).engine.Free Code.IsLowering :=
  fun entry member isError isLowering =>
    free entry (ends.known entry (attempt.works.engine.kept entry member))
      ⟨isError, isLowering⟩

end

end Attempt

/-- What waits may be lowered. -/
def Owes (session : Session) : Prop :=
  ∃ base, ∀ id ∈ session.owed, session.analysis.Placed .wide base id

section

variable (generating : session.Generating)

include generating

theorem Generating.called (accepted : session.refusal = none) (manner : Manner) (text : Text) :
    ∃ flags ids last kept, Attempt flags (session.prepared manner) text manner.declOnly ids last ∧
      Attempt.Ends (session.prepared manner) text manner.declOnly ids kept ∧
      session.brought manner text = kept ∧
      (session.take manner text).2.analysis =
        ((session.prepared manner).ended text manner.declOnly).analysis ∧
      (session.take manner text).2.generator =
        ((session.prepared manner).ended text manner.declOnly).generator ∧
      (session.take manner text).2.owed =
        ((session.prepared manner).ended text manner.declOnly).owed := by
  obtain ⟨flags, stands, generates⟩ := generating.stands (open_of_refusal accepted)
  obtain ⟨ids, last, attempt⟩ :=
    (stands.prepared manner).attempt (manner.generates_flags generates) text
  obtain ⟨kept, ends⟩ := attempt.ends
  obtain ⟨_, _, _, isTaken⟩ := stands.take_ended accepted manner text
  refine ⟨_, ids, last, kept, attempt, ends, ?_, by rw [isTaken], by rw [isTaken], by rw [isTaken]; rfl⟩
  obtain ⟨isLast, found, isIds, isKept⟩ := ends.last
  unfold brought
  rw [accepted, isTaken]
  simp only [Option.isSome_none, Bool.false_eq_true, if_false]
  rw [found]
  simp only [isIds]
  exact isKept.symm

theorem Generating.accounts (owes : session.Owes) (accepted : session.refusal = none)
    (manner : Manner) (text : Text) : session.Accounts manner text := by
  obtain ⟨flags, ids, last, kept, attempt, ends, brought, analysis, generator, owed⟩ :=
    generating.called accepted manner text
  have isExecuted : session.executed manner text =
      Attempt.results (session.prepared manner) text manner.declOnly := by
    simp only [executed, launches, accepted]
    rfl
  have ran := ends.ran
  rw [← isExecuted] at ran
  have among : ∀ run ∈ (session.executed manner text).map initializer,
      ∃ result ∈ session.executed manner text, result.initializer = run :=
    fun run member => mem_map.mp member
  have free : (∀ entry ∈ session.diagnosed manner text, ¬ entry.FromLowering) →
      ((session.prepared manner).entered text manner.declOnly).engine.Free Code.IsLowering := by
    unfold diagnosed
    rw [accepted]
    exact attempt.free_entered ends
  constructor
  case ran =>
    rw [brought, analysis]
    exact ran
  case left => rw [owed, brought]; exact ends.left
  case through =>
    rw [generator]
    unfold launches
    rw [accepted]
    exact ends.through
  case apart => rw [brought]; exact attempt.fresh_ids.1.sublist ends.part
  case new =>
    rw [brought, analysis, ends.decls]
    exact fun id member => attempt.fresh_ids.2 id (ends.part.subset member)
  case flushed =>
    intro isFree
    obtain ⟨base, placed⟩ := owes
    refine started_all placed (attempt.silent_owed (free isFree)) fun run member => ?_
    refine among run ?_
    rw [ran]
    exact mem_append_left _ member
  case complete =>
    intro isFree compiles
    rw [brought, analysis]
    refine started_all ends.placed (ends.silent compiles (free isFree)) fun run member => ?_
    refine among run ?_
    rw [ran, if_neg (by simp [compiles])]
    exact mem_append_right _ member

theorem Generating.owes_take (accepted : session.refusal = none) (manner : Manner) (text : Text) :
    (session.take manner text).2.Owes := by
  obtain ⟨flags, ids, last, kept, attempt, ends, brought, analysis, generator, owed⟩ :=
    generating.called accepted manner text
  let base := ((session.prepared manner).entered text manner.declOnly).analysis.decls.count
  refine ⟨base, fun id member => ?_⟩
  rw [owed, ends.left] at member
  rw [analysis]
  split at member
  · exact ends.placed id member
  · exact absurd member not_mem_nil

theorem Generating.grown_take (accepted : session.refusal = none) (manner : Manner) (text : Text) :
    session.analysis.decls.count ≤ (session.take manner text).2.analysis.decls.count := by
  obtain ⟨flags, ids, last, kept, attempt, ends, brought, analysis, generator, owed⟩ :=
    generating.called accepted manner text
  rw [analysis, ends.decls]
  exact attempt.grown

end

end Calls

/-! ## Over a session -/

def broughtBy (session : Session) (request : Request) : List DeclId :=
  match request.call? with
  | some (manner, text) => session.brought manner text
  | none => []

/-- How everything ended that the call has run. -/
def executedBy (session : Session) (request : Request) : List InitializerResult :=
  match request.call? with
  | some (manner, text) => session.executed manner text
  | none => []

/-- The requests a session has served since it was opened have brought the declarations `ids`
with the initializers `runs`, and have given the results `results`.  Code generation was never
turned off. -/
inductive History : Session → List DeclId → List Initializer → List InitializerResult → Prop
  | opened {options : SessionOptions} {tree after : FileTree} {session : Session}
      (isOpened : openOver options tree = (.ok session, after)) : History session [] [] []
  | served {session : Session} {ids : List DeclId} {runs : List Initializer}
      {results : List InitializerResult} (history : History session ids runs results)
      (request : Request) (isOn : request ≠ .stage .codeGenerator false) :
      History (session.serve request) (ids ++ session.broughtBy request)
        (runs ++ (session.serve request).analysis.decls.runs (session.broughtBy request))
        (results ++ session.executedBy request)

/-- What holds of a session and its history between requests. -/
structure Balanced (session : Session) (ids : List DeclId) (runs : List Initializer)
    (results : List InitializerResult) : Prop where
  generating : session.Generating
  owes : session.Owes
  runs : runs = results.map initializer ++ session.waiting
  apart : ids.Nodup
  within : ∀ id ∈ ids, id ≤ session.analysis.decls.count

section History

variable {session : Session} {ids : List DeclId} {runs : List Initializer}
  {results : List InitializerResult}

theorem Balanced.alike {after : Session} (balanced : session.Balanced ids runs results)
    (generating : after.Generating) (alike : session.Alike after) :
    after.Balanced ids runs results := by
  have owed : after.owed = session.owed := by
    unfold owed
    rw [pending?_alike alike]
  refine ⟨generating, ?_, ?_, balanced.apart, ?_⟩
  · obtain ⟨base, placed⟩ := balanced.owes
    refine ⟨base, fun id member => ?_⟩
    rw [owed] at member
    exact (placed id member).extends (.of_same alike.decls alike.names)
      fun _ _ => by rw [alike.decls]
  · rw [balanced.runs, waiting, waiting, alike.decls, owed]
  · rw [alike.decls]
    exact balanced.within

theorem Accounts.runs_eq {manner text} (accounts : session.Accounts manner text) :
    session.waiting ++ (session.take manner text).2.analysis.decls.runs
        (session.brought manner text) =
      (session.executed manner text).map initializer ++
        (session.take manner text).2.waiting := by
  rw [accounts.ran, waiting, waiting, accounts.left]
  cases manner.declOnly with
  | true => simp
  | false => simp [runs, initializers]

theorem Balanced.take (balanced : session.Balanced ids runs results) (manner : Manner)
    (text : Text) :
    (session.take manner text).2.Balanced (ids ++ session.brought manner text)
      (runs ++ (session.take manner text).2.analysis.decls.runs (session.brought manner text))
      (results ++ session.executed manner text) := by
  cases refused : session.refusal with
  | some error =>
    have bringsNone : session.brought manner text = [] := by simp [brought, refused]
    have runsNone : session.executed manner text = [] := by simp [executed, launches, refused]
    rw [bringsNone, runsNone, take_refused refused]
    simpa [Declarations.runs, Declarations.initializers] using balanced
  | none =>
    have accounts := balanced.generating.accounts balanced.owes refused manner text
    have grown := balanced.generating.grown_take refused manner text
    refine ⟨balanced.generating.take manner text,
      balanced.generating.owes_take refused manner text, ?_, ?_, ?_⟩
    · rw [balanced.runs, append_assoc, accounts.runs_eq, map_append,
        ← append_assoc]
    · refine nodup_append.mpr ⟨balanced.apart, accounts.apart, ?_⟩
      intro old isOld new isNew same
      rw [same] at isOld
      exact Nat.not_le.mpr (accounts.new new isNew).1 (balanced.within new isOld)
    · exact forall_mem_append.mpr ⟨fun id old => Nat.le_trans (balanced.within id old) grown,
        fun id new => (accounts.new id new).2⟩

theorem History.balanced (history : History session ids runs results) :
    session.Balanced ids runs results := by
  induction history with
  | @opened _ _ _ session isOpened =>
    have nothing : session.owed = [] := by
      unfold owed
      rw [settled_opened isOpened]
      rfl
    refine ⟨(Plain.opened isOpened).inStep.toGenerating, ⟨0, ?_⟩, ?_, .nil, ?_⟩
    · rw [nothing]
      exact forall_mem_nil _
    · rw [waiting, nothing]
      rfl
    · exact forall_mem_nil _
  | served _ request isOn ih =>
    rcases ih.generating.orderly.serve_cases request with ⟨manner, text, isCall, isTaken⟩ | quiet
    · unfold broughtBy executedBy
      rw [isCall, isTaken]
      exact ih.take manner text
    · unfold broughtBy executedBy
      rw [quiet.1]
      simpa [Declarations.runs, Declarations.initializers] using
        ih.alike (ih.generating.serve request isOn) quiet.2

end History

/-- Whatever was asked of a session, as long as code generation stays on: every declaration is
brought once; what was run, and then what waits, are the initializers that were brought, in
order; and the next call accounts for what waits and for what it brings. -/
theorem initializers_run_once {session : Session} {ids : List DeclId} {runs : List Initializer}
    {results : List InitializerResult} (history : History session ids runs results) :
    ids.Nodup ∧ runs = results.map InitializerResult.initializer ++ session.waiting ∧
      ∀ manner text, session.refusal = none → session.Accounts manner text := by
  have balanced := history.balanced
  exact ⟨balanced.apart, balanced.runs, fun manner text accepted =>
    balanced.generating.accounts balanced.owes accepted manner text⟩

/-- A declared text waits while a call fails that runs it first: one of its initializers calls a
function without a body.  A line then divides by zero and goes on, and another text is
declared. -/
theorem initializers_run_once_despite_errors :
    let opened := fresh {} {} { noBootstrap := true } (.empty [])
    let declared := opened.serve (.take .declared "int f(int n); int a = f(2); int b = 3;")
    let failed := declared.serve (.take (.compiled .asIs) "int e = b; int g = nope;")
    let line := failed.serve
      (.take (.compiled .prompt) "int f(int n) \x7b return n / 0; \x7d int c = f(b); print(b);")
    let session := line.serve (.take .declared "int d = b;")
    ∃ ids runs results, History session ids runs results ∧
      (results.map fun result => result.error.map fun error => error.fault.number) =
        [some 1009, none, some 1007, none] ∧
      runs.map Initializer.name = ["a", "b", "c", "__kiln_wrapper_1", "d"] ∧
      ids.Nodup ∧ runs = results.map InitializerResult.initializer ++ session.waiting ∧
      session.Accounts (.compiled .asIs) "int h = d;" := by
  intro opened declared failed line session
  have history := ((((History.opened (opens_bare [])).served
    (.take .declared "int f(int n); int a = f(2); int b = 3;") nofun).served
    (.take (.compiled .asIs) "int e = b; int g = nope;") nofun).served
    (.take (.compiled .prompt) "int f(int n) \x7b return n / 0; \x7d int c = f(b); print(b);")
    nofun).served (.take .declared "int d = b;") nofun
  obtain ⟨apart, runs, accounts⟩ := initializers_run_once history
  refine ⟨_, _, _, history, by decide +kernel, by decide +kernel, apart, runs, ?_⟩
  exact accounts (.compiled .asIs) "int h = d;" (by decide +kernel)

end Session

end FragmentCompiler
