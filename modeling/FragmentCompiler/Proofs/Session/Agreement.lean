import FragmentCompiler.Proofs.Session.Bootstrap
import FragmentCompiler.Proofs.Session.Reflect

/-!
# The names and the machine agree

As long as no pragma is met and code generation stays on, the machine has exactly the
variables and functions that the analysis knows, after every request that leaves nothing
pending.
-/

set_option autoImplicit false

namespace FragmentCompiler

theorem Manner.generates_flags {flags : StageFlags} (generates : flags.generates = true)
    (manner : Manner) (compiles : manner.declOnly = false) :
    (manner.flags flags).generates = true := by
  cases manner with
  | compiled mode => exact generates
  | declared => exact Bool.noConfusion compiles

namespace Session

def Permits (session : Session) : Request → Prop
  | .take manner text =>
    ∀ unit ∈ (session.prepared manner).units text manner.declOnly, unit.isPragma = false
  | .line text =>
    ∀ unit ∈ (session.prepared (.compiled .prompt)).units text false, unit.isPragma = false
  | .stage id on => id = .codeGenerator → on = true
  | _ => True

theorem Permits.units {request manner text} {session : Session}
    (permitted : session.Permits request) (isCall : request.call? = some (manner, text)) :
    ∀ unit ∈ (session.prepared manner).units text manner.declOnly, unit.isPragma = false := by
  cases request with
  | take =>
    cases isCall
    exact permitted
  | line line =>
    obtain ⟨_, rfl, rfl⟩ := Request.call?_line isCall
    exact permitted
  | _ => cases isCall

/-- The sessions that come about by opening one and serving such requests. -/
inductive Plain : Session → Prop
  | opened {options : SessionOptions} {tree after : FileTree} {session : Session}
      (isOpened : openOver options tree = (.ok session, after)) : Plain session
  | served {session : Session} (plain : Plain session) (request : Request)
      (permitted : session.Permits request) : Plain (session.serve request)

/-- Between requests, with code generation on. -/
structure Generating (session : Session) : Prop where
  orderly : session.Orderly
  generates : session.closed = false →
    ∃ flags, session.pipeline.Arranged flags ∧ flags.generates = true

/-- Code generation is on, and the machine lags behind by what is owed only. -/
structure InStep (leeway : Leeway) (session : Session) : Prop extends session.Generating where
  trails : session.Trails leeway

section Requests

variable {session : Session} {leeway : Leeway}

theorem Trails.of_parts {after : Session} (trails : session.Trails leeway)
    (decls : after.analysis.decls = session.analysis.decls)
    (names : after.analysis.names = session.analysis.names)
    (shape : session.generator.machine.SameShape after.generator.machine)
    (log : after.journal.log = session.journal.log) : after.Trails leeway := by
  have owed : after.owed = session.owed := by
    unfold owed Journal.pending? Journal.last?
    rw [log]
  unfold Session.Trails
  rw [owed]
  exact (Machine.Trails.sameShape trails shape).of_same decls names

section

variable (generating : session.Generating)

include generating

theorem Generating.stands (isOpen : session.closed = false) :
    ∃ flags, session.Stands flags ∧ flags.generates = true := by
  obtain ⟨flags, stages, generates⟩ := generating.generates isOpen
  exact ⟨flags, ⟨generating.orderly.steady isOpen, stages⟩, generates⟩

theorem Generating.take (manner : Manner) (text : Text) :
    (session.take manner text).2.Generating := by
  refine generating.orderly.take_induction generating fun closed _ isOpen => ?_
  obtain ⟨flags, stands, generates⟩ := generating.stands closed
  obtain ⟨after, _⟩ := stands.take isOpen manner text
  exact ⟨generating.orderly.take manner text, fun _ => ⟨_, after.stages, generates⟩⟩

theorem Generating.serve (request : Request) (isOn : request ≠ .stage .codeGenerator false) :
    (session.serve request).Generating := by
  have orderly := generating.orderly.serve request
  cases request with
  | take manner text => exact generating.take manner text
  | line text =>
    show (session.compileLine text).2.Generating
    unfold compileLine
    split
    · exact generating
    · exact generating.take (.compiled .prompt) text
  | lookup on =>
    show (session.enableLookup on).2.Generating
    rcases generating.orderly.enableLookup_cases on with same | ⟨switch, resolver, _, _, isLooked⟩
    · rw [same]
      exact generating
    · refine ⟨orderly, ?_⟩
      rw [isLooked]
      intro isOpen
      obtain ⟨flags, arranged, generates⟩ := generating.generates isOpen
      exact ⟨_, arranged.restore .dynamicRewriter on, generates⟩
  | load path =>
    obtain ⟨_, _, _, _, _, pipeline, _, keeps, isLoaded⟩ := loadSnapshot_eq session path
    refine ⟨orderly, ?_⟩
    rw [Session.serve, isLoaded]
    exact fun isOpen => (generating.generates isOpen).imp fun flags => And.imp_left (keeps flags)
  | write =>
    obtain ⟨_, _, pipeline, _, keeps, isWritten⟩ := writeSnapshot_eq session
    refine ⟨orderly, ?_⟩
    rw [Session.serve, isWritten]
    exact fun isOpen => (generating.generates isOpen).imp fun flags => And.imp_left (keeps flags)
  | close =>
    show session.close.2.Generating
    cases closed : session.closed with
    | true =>
      rw [close_closed closed]
      exact generating
    | false =>
      obtain ⟨tree, isClosed⟩ := close_eq generating.orderly.idle closed
      refine ⟨orderly, ?_⟩
      rw [isClosed]
      exact fun isOpen => Bool.noConfusion isOpen
  | stage id on =>
    refine ⟨orderly, fun isOpen => ?_⟩
    obtain ⟨flags, arranged, generates⟩ := generating.generates isOpen
    refine ⟨_, arranged.restore id on, ?_⟩
    cases id with
    | codeGenerator =>
      cases on with
      | true => rfl
      | false => exact absurd rfl isOn
    | _ => exact generates
  | call | output | files | questions | events => exact ⟨orderly, generating.generates⟩

end

theorem InStep.alike {after : Session} (inStep : session.InStep leeway)
    (generating : after.Generating) (alike : session.Alike after) : after.InStep leeway :=
  ⟨generating, inStep.trails.of_parts alike.decls alike.names alike.shape alike.log⟩

theorem InStep.take (inStep : session.InStep leeway) (manner : Manner) (text : Text)
    (caught : ∀ {flags}, session.Stands flags → flags.generates = true →
      ((session.prepared manner).compileText text manner.declOnly).2.Trails leeway) :
    (session.take manner text).2.InStep leeway := by
  refine ⟨inStep.toGenerating.take manner text, ?_⟩
  refine inStep.orderly.take_induction inStep.trails fun closed _ isOpen => ?_
  obtain ⟨flags, stands, generates⟩ := inStep.stands closed
  obtain ⟨pipeline, trace, _, isTaken⟩ := stands.take_eq isOpen manner text
  rw [isTaken]
  exact (caught stands generates).of_parts rfl rfl (.refl _) rfl

theorem InStep.take_plain (inStep : session.InStep (.rewritten true)) (manner : Manner)
    (text : Text) (free : ∀ unit ∈ (session.prepared manner).units text manner.declOnly,
      unit.isPragma = false) : (session.take manner text).2.InStep (.rewritten true) := by
  refine inStep.take manner text fun stands generates => ?_
  obtain ⟨_, _, takes, gathers⟩ := (stands.prepared manner).gathers
    (fun unit => unit.isPragma = false) (Leeway.rewritten_covers _ _)
    (fun _ isFree _ => Bool.noConfusion isFree) free
  exact .compileText (inStep.trails.of_parts rfl rfl (.refl _) rfl) id
    .rewritten takes gathers (manner.generates_flags generates)

theorem InStep.quiet (inStep : session.InStep leeway) (request : Request)
    (callsNone : request.call? = none) (isOn : request ≠ .stage .codeGenerator false) :
    (session.serve request).InStep leeway :=
  inStep.alike (inStep.toGenerating.serve request isOn) (inStep.orderly.alike_serve callsNone)

theorem InStep.serve (inStep : session.InStep leeway) (request : Request)
    (isOn : request ≠ .stage .codeGenerator false)
    (takes : ∀ manner text, request.call? = some (manner, text) →
      (session.take manner text).2.InStep leeway) : (session.serve request).InStep leeway := by
  rcases inStep.orderly.serve_cases request with ⟨manner, text, isCall, isTaken⟩ | ⟨callsNone, _⟩
  · rw [isTaken]
    exact takes manner text isCall
  · exact inStep.quiet request callsNone isOn

/-! ## Opening -/

section

variable (front : AnalysisSetup) (back : MachineSetup) (options : SessionOptions) (tree : FileTree)

theorem trails_fresh (leeway : Leeway) : (fresh front back options tree).Trails leeway := by
  have builtin : ∀ name meaning, (fresh front back options tree).analysis.names.lookup name =
      some meaning → ∃ which, meaning = .builtin which := by
    intro name meaning known
    obtain ⟨which, _, isBuiltin⟩ := Option.map_eq_some_iff.mp
      ((Universe.lookup_fresh name).symm.trans known)
    exact ⟨which, isBuiltin.symm⟩
  obtain ⟨globals, names, functions, _⟩ := empty_fresh front back options tree
  refine .of_mirrors (steady_fresh front back options tree).ready.named ?_ ?_
  · intro name meaning known declared
    obtain ⟨which, rfl⟩ := builtin name meaning known
    exact Bool.noConfusion declared
  · constructor
    · intro name id known
      obtain ⟨which, isBuiltin⟩ := builtin name _ known
      exact Meaning.noConfusion isBuiltin
    · intro name id known
      obtain ⟨which, isBuiltin⟩ := builtin name _ known
      exact Meaning.noConfusion isBuiltin
    · rw [globals]
      exact fun entry member => absurd member List.not_mem_nil
    · rw [names]
      exact fun name id member => absurd member List.not_mem_nil
    · rw [functions]
      exact fun name code member => absurd member List.not_mem_nil

theorem generating_fresh : (fresh front back options tree).Generating :=
  ⟨⟨rfl, fun _ => steady_fresh front back options tree⟩,
    fun _ => ⟨⟨false, true, true, false, true⟩, ⟨none, [], rfl⟩, rfl⟩⟩

theorem inStep_fresh (leeway : Leeway) : (fresh front back options tree).InStep leeway :=
  ⟨generating_fresh front back options tree, trails_fresh front back options tree leeway⟩

/-- Nothing was taken in yet. -/
structure Pristine (session : Session) : Prop where
  buffers : session.analysis.parser.files.buffers = #[]
  virtuals : session.analysis.parser.virtuals.lookup Buffer.runtimeName = some runtimeSource
  fragments : session.journal.fragments = 0
  settled : session.journal.pending? = none
  patient : 0 < session.patience
  isOpen : session.closed = false

theorem pristine_fresh : (fresh front back options tree).Pristine :=
  ⟨rfl, by simp [fresh], rfl, rfl, by simp [fresh], rfl⟩

end

theorem Pristine.lookup (pristine : session.Pristine) (orderly : session.Orderly) (on : Bool) :
    (session.enableLookup on).2.Pristine := by
  rcases orderly.enableLookup_cases on with same | ⟨switch, resolver, _, _, isLooked⟩
  · rw [same]
    exact pristine
  · rw [isLooked]
    exact { pristine with }

theorem Pristine.load (pristine : session.Pristine) (path : Text) :
    (session.loadSnapshot path).2.Pristine := by
  obtain ⟨_, _, _, _, _, _, _, _, isLoaded⟩ := loadSnapshot_eq session path
  rw [isLoaded]
  exact { pristine with }

theorem Pristine.take_nil (pristine : session.Pristine) (orderly : session.Orderly) :
    (session.take (.compiled .asIs) []).2.Pristine := by
  obtain ⟨flags, stands⟩ := (orderly.steady pristine.isOpen).stands
  obtain ⟨_, _, _, isTaken⟩ := stands.take_eq (refusal_open orderly.idle pristine.isOpen)
    (.compiled .asIs) []
  obtain ⟨_, _, _, _, last, _, committed, isCompiled⟩ :=
    (stands.prepared (.compiled .asIs)).compileText_nil pristine.patient
  rw [isTaken, show Manner.declOnly (.compiled .asIs) = false from rfl, isCompiled]
  have flushed : (session.prepared (.compiled .asIs)).journal.flushed = session.journal := by
    unfold Journal.flushed
    rw [show (session.prepared (.compiled .asIs)).journal.pending? = none from pristine.settled]
    rfl
  rw [flushed]
  refine ⟨pristine.buffers, pristine.virtuals, pristine.fragments, ?_, pristine.patient,
    pristine.isOpen⟩
  rw [pending?_of_log rfl, committed]
  rfl

section Opening

variable {holds : Session → Prop} (orderly : ∀ session, holds session → session.Orderly)
  (take : ∀ session text, holds session →
    (∀ unit ∈ (session.prepared (.compiled .asIs)).units text false, unit.isPragma = false) →
    holds (session.take (.compiled .asIs) text).2)

include orderly take

theorem bootstrap_induction (held : holds session) (pristine : session.Pristine) :
    holds session.bootstrap.2 := by
  obtain ⟨flags, stands⟩ := ((orderly session held).steady pristine.isOpen).stands
  have drained := take session [] held ((stands.prepared (.compiled .asIs)).units_nil false)
  have untouched := pristine.take_nil (orderly session held)
  have unfolded : session.bootstrap =
      if (session.take (.compiled .asIs) []).1.isFine then
        (session.take (.compiled .asIs) []).2.compileAll [bootText]
      else (some (failureOf (session.take (.compiled .asIs) []).1),
        (session.take (.compiled .asIs) []).2) := rfl
  rw [unfolded]
  generalize (session.take (.compiled .asIs) []).1 = outcome
  generalize (session.take (.compiled .asIs) []).2 = next at drained untouched
  split
  · obtain ⟨flags, ready⟩ := ((orderly next drained).steady untouched.isOpen).stands
    have booted := take next bootText drained
      ((ready.prepared (.compiled .asIs)).units_boot untouched.buffers untouched.virtuals
        untouched.fragments untouched.settled)
    unfold Session.compileAll Session.compileAll
    dsimp only
    split
    · exact booted
    · exact booted
  · exact drained

theorem opened_induction {options} {tree after : FileTree}
    (isOpened : openOver options tree = (.ok session, after))
    (begins : ∀ front back, holds (fresh front back options tree))
    (lookup : options.dynamicLookup = true → ∀ session, holds session →
      holds (session.enableLookup true).2)
    (load : ∀ session path, holds session → holds (session.loadSnapshot path).2)
    (close : ∀ session, holds session → holds session.close.2) : holds session := by
  obtain ⟨front, back, isStarted⟩ := openOver_ok isOpened
  rw [isStarted]
  exact @start_induction (fun session => holds session ∧ session.Pristine) holds options
    (fun _ both => both.1)
    (fun isOn session both =>
      ⟨lookup isOn session both.1, both.2.lookup (orderly session both.1) true⟩)
    (fun session path both => ⟨load session path both.1, both.2.load path⟩)
    (fun _ both => bootstrap_induction orderly take both.1 both.2) close _
    ⟨begins front back, pristine_fresh front back options tree⟩

end Opening

theorem Plain.inStep (plain : Plain session) : session.InStep (.rewritten true) := by
  induction plain with
  | opened isOpened =>
    exact opened_induction (fun _ inStep => inStep.orderly)
      (fun _ text inStep free => inStep.take_plain (.compiled .asIs) text free) isOpened
      (fun front back => inStep_fresh front back _ _ _)
      (fun _ _ inStep => inStep.quiet (.lookup true) rfl nofun)
      (fun _ path inStep => inStep.quiet (.load path) rfl nofun)
      fun _ inStep => inStep.quiet .close rfl nofun
  | served _ request permitted ih =>
    refine ih.serve request ?_ ?_
    · rintro rfl
      exact Bool.noConfusion (permitted rfl)
    · intro manner text isCall
      exact ih.take_plain manner text (permitted.units isCall)

end Requests

/-- Whatever was asked of a session, as long as no pragma is met and code generation stays
on, the machine has exactly the variables and functions that the analysis knows whenever
nothing is pending. -/
theorem machine_mirrors_names {session : Session} (plain : Plain session)
    (settled : session.journal.pending? = none) :
    session.generator.machine.Mirrors session.analysis := by
  have trails := plain.inStep.trails
  have isOwed : session.owed = [] := by
    unfold owed
    rw [settled]
    rfl
  unfold Session.Trails at trails
  rw [isOwed] at trails
  exact trails.settled fun never => never

/-- A function is announced and called by a text that is declared only; a line defines it and
fails when it runs; a second declared text is flushed by an empty one. -/
theorem machine_mirrors_names_after_requests :
    let opened := fresh {} {} { noBootstrap := true } (.empty [])
    let announced := opened.serve (.take .declared "int f(int n); int a = f(2);")
    let defined := announced.serve
      (.take (.compiled .prompt) "int f(int n) \x7b return n / 0; \x7d int b = f(a); f(1)")
    let declared := defined.serve (.take .declared "float c; int g() \x7b return b; \x7d")
    let session := declared.serve (.take (.compiled .asIs) "")
    announced.journal.pending?.isSome = true ∧ declared.journal.pending?.isSome = true ∧
      session.journal.pending? = none ∧
      session.generator.machine.globals.map Global.name = ["a", "b", "c"] ∧
      session.generator.machine.Mirrors session.analysis := by
  intro opened announced defined declared session
  have plain : Plain session :=
    (((((Plain.opened (opens_bare [])).served _ (by unfold Permits; decide +kernel)).served _
      (by unfold Permits; decide +kernel)).served _
      (by unfold Permits; decide +kernel)).served _ (by unfold Permits; decide +kernel))
  have settled : session.journal.pending? = none := by decide +kernel
  exact ⟨by decide +kernel, by decide +kernel, settled, by decide +kernel,
    machine_mirrors_names plain settled⟩

end Session

end FragmentCompiler
