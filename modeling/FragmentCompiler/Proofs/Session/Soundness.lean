import FragmentCompiler.Proofs.Session.Launch
import FragmentCompiler.Proofs.Session.Static

/-!
# Static sessions are sound

As long as texts are compiled as they are or declared, and dynamic lookup is never turned on,
lowering reports nothing, and every state of every run is safe: slots are used inside their
frame and hold what was declared for them, variables hold values of their kinds, and runs
fail for few reasons only.
-/

set_option autoImplicit false

namespace FragmentCompiler.Session

open List

/-- A request that takes in texts as they are or for their declarations only, and never turns
dynamic lookup on. -/
def IsStatic (session : Session) : Request → Prop
  | .take manner text => manner ≠ .compiled .prompt ∧
      ∀ unit ∈ (session.prepared manner).units text manner.declOnly, unit.enables = false
  | .lookup on => on = false
  | .line _ | .stage .. | .call .. => False
  | .load _ | .write | .files _ | .output | .questions | .events | .close => True

/-- The sessions that come about by such requests. -/
inductive Static : Session → Prop
  | opened {options : SessionOptions} {tree after : FileTree} {session : Session}
      (off : options.dynamicLookup = false)
      (isOpened : openOver options tree = (.ok session, after)) : Static session
  | served {session : Session} (static : Static session) (request : Request)
      (isStatic : session.IsStatic request) : Static (session.serve request)

/-! ## A call -/

/-- What the start of a call needs for it to be sound. -/
structure Poised (flags : StageFlags) (session : Session) (text : Text) (declOnly : Bool) : Prop
    extends Stands flags session where
  plain : ¬ flags.Prompts
  generates : declOnly = false → flags.generates = true
  off : session.journal.dynamicLookup = false
  trails : session.Trails .static
  rests : session.generator.machine.Rests
  harmless : ∀ unit ∈ session.units text declOnly, unit.enables = false

namespace Poised

variable {flags : StageFlags} {session : Session} {text : Text} {declOnly : Bool}

section

variable (poised : Poised flags session text declOnly)

include poised

theorem gathers :
    ∃ ids last, session.Takes flags text declOnly ids last ∧
      Gathers flags .static (session.entered text declOnly) ids [] (session.taken text declOnly) := by
  refine poised.toStands.gathers (fun unit => unit.enables = false)
    (Leeway.static_covers poised.plain poised.off) (fun switched harmless covers => ?_)
    poised.harmless
  refine Leeway.static_covers poised.plain (handlePragma_off switched harmless ?_)
  exact Bool.eq_false_iff.mpr fun isOn => covers.deferrals isOn

theorem trails_compileText : (session.compileText text declOnly).2.Trails .static := by
  obtain ⟨_, _, takes, gathers⟩ := poised.gathers
  exact poised.trails.compileText id id takes gathers poised.generates

/-! ### What was left to be lowered -/

theorem fit_owed :
    { session.generator with pending := session.owedUnit.1 }.commit.Fit session.analysis :=
  Generator.fit_commit poised.trails poised.rests poised.released poised.queue rfl

theorem owedUnit_silent : session.owedUnit.2 = [] := by
  obtain ⟨_, _, _, _, _, joins⟩ := poised.trails
  have each : ∀ id ∈ session.owed, session.analysis.Fits False False False False _ id :=
    fun id member => .inl ((joins.placed id member).resolve_right fun opened => opened.1)
  exact Analysis.addAll_silent each {}

theorem rests_performed : session.performed.2.machine.Rests := by
  have ran := (poised.fit_owed.runQueue session.patience).1
  rw [poised.runQueue_owed] at ran
  exact ran

/-! ### What the call brings -/

theorem known_entered {entry} (member : entry ∈ (session.entered text declOnly).engine.known) :
    entry ∈ runReports session.performed.1 := by
  have reported := poised.toStands.known_entered member
  unfold flushReports at reported
  rw [poised.owedUnit_silent] at reported
  exact reported

theorem unhindered :
    Unhindered (session.entered text declOnly) [] (session.taken text declOnly) := by
  have begins := poised.begins text declOnly
  obtain ⟨_, _, _, _, isEntered, _, _, reports, _⟩ :=
    poised.entered_eq text declOnly
  have held : (session.entered text declOnly).generator.released = false := by
    rw [poised.generator_entered]
    exact poised.released
  have started : Unhindered (session.entered text declOnly)
      (session.entered text declOnly).analysis.fetched (session.entered text declOnly) := by
    rw [poised.fetched_entered text declOnly]
    refine ⟨?_, forall_mem_nil _, ?_, fun _ member _ => member⟩
    · rw [poised.lookup_entered]
      exact poised.off
    · rw [isEntered]
      simp [reports]
  obtain ⟨⟨_, _, ends⟩, _⟩ :=
    (unhindered_invariant poised.plain held).takeIn begins fun _ => started
  exact ends poised.harmless

theorem rests_taken : (session.taken text declOnly).generator.machine.Rests := by
  obtain ⟨_, _, takes, _⟩ := poised.gathers
  rw [takes.machine]
  exact { poised.rests_performed with }

end

theorem fit_taken (poised : Poised flags session text false) (fine : ¬ session.Fails text false) :
    (session.taken text false).generator.commit.Fit (session.taken text false).analysis := by
  obtain ⟨_, _, takes, gathers⟩ := poised.gathers
  have behind := poised.trails.taken id id takes gathers fine
  obtain ⟨queue, held⟩ := takes.queue
  obtain ⟨groups, pending⟩ := gathers.unit (poised.generates rfl)
    (takes.still fine)
  exact Generator.fit_commit behind poised.rests_taken held queue pending

section

variable (poised : Poised flags session text declOnly)

include poised

theorem fit {known} {generator : Generator}
    (member : (known, generator) ∈ session.queues text declOnly) : generator.Fit known := by
  rcases session.queues_cases text declOnly with ⟨_, isQueues⟩ | ⟨rfl, fine, isQueues⟩
  · rw [isQueues] at member
    cases mem_singleton.mp member
    exact poised.fit_owed
  · rw [isQueues] at member
    rcases mem_cons.mp member with isOwed | isOwn
    · cases isOwed
      exact poised.fit_owed
    · cases mem_singleton.mp isOwn
      exact poised.fit_taken fine

/-! ### The end of the call -/

theorem known_ended {entry} (member : entry ∈ (session.ended text declOnly).engine.known)
    (fromCode : entry.FromCode) :
    ∃ queue ∈ session.queues text declOnly,
      entry ∈ runReports (queue.2.runQueue session.patience).1 := by
  obtain ⟨_, _, takes, _⟩ := poised.gathers
  have early : entry ∈ (session.taken text declOnly).engine.known →
      ∃ queue ∈ session.queues text declOnly,
        entry ∈ runReports (queue.2.runQueue session.patience).1 := by
    intro known
    refine ⟨_, mem_cons_self, ?_⟩
    rw [poised.runQueue_owed]
    exact poised.known_entered (poised.unhindered.known entry known fromCode)
  by_cases fails : session.Fails text declOnly
  · rw [takes.ended_failed fails] at member
    exact early member
  · cases declOnly with
    | true =>
      rw [takes.ended_pending fails] at member
      exact early member
    | false =>
      obtain ⟨_, _, _, _, isEnded⟩ := takes.ended_committed fails
      rw [isEnded] at member
      rcases Engine.mem_known_reportAll _ member with old | new
      · exact early old
      · unfold committing at new
        rw [if_pos (poised.generates rfl), takes.patience] at new
        have isQueue : ((session.taken text false).analysis,
            (session.taken text false).generator.commit) ∈ session.queues text false := by
          rw [queues_committed fails]
          exact mem_cons_of_mem _ mem_cons_self
        exact ⟨_, isQueue, new⟩

theorem rests_ended : (session.ended text declOnly).generator.machine.Rests := by
  obtain ⟨_, _, takes, _⟩ := poised.gathers
  by_cases fails : session.Fails text declOnly
  · rw [takes.ended_failed fails]
    exact poised.rests_taken
  · cases declOnly with
    | true =>
      rw [takes.ended_pending fails]
      exact poised.rests_taken
    | false =>
      obtain ⟨_, _, _, _, isEnded⟩ := takes.ended_committed fails
      rw [isEnded]
      unfold committing
      rw [if_pos (poised.generates rfl)]
      exact ((poised.fit_taken fails).runQueue _).1

theorem off_ended : (session.ended text declOnly).journal.dynamicLookup = false := by
  obtain ⟨_, _, takes, _⟩ := poised.gathers
  exact takes.ended_same.2.2.1.trans poised.unhindered.off

end

end Poised

/-! ## Sessions -/

/-- What holds of a static session between requests. -/
structure Firm (session : Session) : Prop extends session.InStep .static where
  off : session.journal.dynamicLookup = false
  rests : session.generator.machine.Rests

variable {session : Session}

section

variable (firm : session.Firm)

include firm

theorem Firm.poised {manner text flags} (isStatic : session.IsStatic (.take manner text))
    (stands : session.Stands flags) (generates : flags.generates = true) :
    Poised (manner.flags flags) (session.prepared manner) text manner.declOnly where
  toStands := stands.prepared manner
  plain := by
    cases manner with
    | declared => simp [Manner.flags, StageFlags.Prompts]
    | compiled mode =>
      have isAsIs : mode ≠ .prompt := fun isPrompt => isStatic.1 (by rw [isPrompt])
      simp [Manner.flags, StageFlags.Prompts, isAsIs]
  generates := manner.generates_flags generates
  off := firm.off
  trails := firm.trails.of_parts rfl rfl (.refl _) rfl
  rests := firm.rests
  harmless := isStatic.2

theorem Firm.take {manner text} (isStatic : session.IsStatic (.take manner text)) :
    (session.take manner text).2.Firm := by
  have inStep : (session.take manner text).2.InStep .static :=
    firm.toInStep.take manner text fun stands generates =>
      (firm.poised isStatic stands generates).trails_compileText
  refine firm.orderly.take_induction firm fun closed _ isOpen => ?_
  obtain ⟨flags, stands, generates⟩ := firm.stands closed
  have poised := firm.poised isStatic stands generates
  obtain ⟨_, _, _, isTaken⟩ := stands.take_ended isOpen manner text
  refine ⟨inStep, ?_, ?_⟩
  · rw [isTaken]
    exact poised.off_ended
  · rw [isTaken]
    exact poised.rests_ended

theorem Firm.of_parts {after : Session} (inStep : after.InStep .static)
    (off : after.journal.dynamicLookup = false)
    (globals : after.generator.machine.globals = session.generator.machine.globals)
    (stack : after.generator.machine.stack = session.generator.machine.stack) : after.Firm := by
  refine ⟨inStep, off, ⟨?_, ?_⟩, stack.trans firm.rests.idle⟩
  · rw [globals]
    exact firm.rests.ids
  · rw [globals]
    exact firm.rests.values

theorem Firm.serve (request : Request) (isStatic : session.IsStatic request) :
    (session.serve request).Firm := by
  have inStep := firm.toInStep.quiet request
  unfold Session.serve at inStep ⊢
  cases request with
  | take manner text => exact firm.take isStatic
  | lookup on =>
    cases isStatic
    specialize inStep rfl nofun
    dsimp only at inStep ⊢
    rcases firm.orderly.enableLookup_cases false with same | ⟨_, _, _, _, isLooked⟩
    · rw [same]
      exact firm
    · rw [isLooked] at inStep ⊢
      exact firm.of_parts inStep rfl rfl rfl
  | load path =>
    specialize inStep rfl nofun
    dsimp only at inStep ⊢
    obtain ⟨_, _, _, _, _, _, _, _, isLoaded⟩ := loadSnapshot_eq session path
    rw [isLoaded] at inStep ⊢
    exact firm.of_parts inStep firm.off rfl rfl
  | write =>
    specialize inStep rfl nofun
    dsimp only at inStep ⊢
    obtain ⟨_, _, _, _, _, isWritten⟩ := writeSnapshot_eq session
    rw [isWritten] at inStep ⊢
    exact firm.of_parts inStep firm.off rfl rfl
  | close =>
    specialize inStep rfl nofun
    dsimp only at inStep ⊢
    cases closed : session.closed with
    | true =>
      rw [close_closed closed]
      exact firm
    | false =>
      obtain ⟨_, isClosed⟩ := close_eq firm.orderly.idle closed
      rw [isClosed] at inStep ⊢
      exact firm.of_parts inStep firm.off rfl rfl
  | line | stage | call => exact isStatic.elim
  | files | output | questions | events => exact firm.of_parts (inStep rfl nofun) firm.off rfl rfl

end

theorem firm_fresh (front : AnalysisSetup) (back : MachineSetup) (options : SessionOptions)
    (tree : FileTree) : (fresh front back options tree).Firm := by
  obtain ⟨globals, _, _, idle⟩ := empty_fresh front back options tree
  refine ⟨inStep_fresh front back options tree .static, rfl, ⟨?_, ?_⟩, idle⟩
  · rw [globals]
    exact nodup_nil
  · rw [globals]
    exact forall_mem_nil _

theorem enables_of_not_pragma {unit : SourceUnit} (isFree : unit.isPragma = false) :
    unit.enables = false := by
  cases unit with
  | pragma => exact Bool.noConfusion isFree
  | _ => rfl

theorem Static.firm (static : Static session) : session.Firm := by
  induction static with
  | served _ request isStatic ih => exact ih.serve request isStatic
  | opened off isOpened =>
    refine opened_induction (fun _ firm => firm.orderly) (fun session text firm free => ?_)
      isOpened (fun front back => firm_fresh front back _ _) (fun isOn => ?_)
      (fun _ path firm => firm.serve (.load path) trivial) fun _ firm => firm.serve .close trivial
    · exact firm.take ⟨by simp, fun unit member => enables_of_not_pragma (free unit member)⟩
    · rw [off] at isOn
      cases isOn

/-! ## Soundness -/

/-- A call of a static session reports no error of lowering, every state of what it runs is
safe, and the variables of the machine hold what they were declared with. -/
theorem static_calls_sound {session : Session} (static : Static session) {manner : Manner}
    {text : Text} (isStatic : session.IsStatic (.take manner text)) :
    (∀ entry ∈ session.diagnosed manner text, entry.FromCode → entry.code = .runtimeError ∧
      ∃ queue ∈ session.launches manner text,
        entry ∈ runReports (queue.2.runQueue session.patience).1) ∧
    (∀ known generator, (known, generator) ∈ session.launches manner text →
      (∀ progress, Generator.Reaches session.patience generator.machine generator.queue progress →
        progress.Safe (Generator.Runs generator.machine generator.queue) (Fault.Remains known) ∧
        progress.machine.Holds known) ∧
      ∀ result ∈ (generator.runQueue session.patience).1, ∀ error, result.error = some error →
        error.fault.Remains known) ∧
    (session.take manner text).2.generator.machine.Holds (session.take manner text).2.analysis := by
  have firm := static.firm
  have after := firm.take isStatic
  rw [← and_assoc]
  refine ⟨?_, after.trails.holds after.rests.toStores⟩
  cases closed : session.closed with
  | true => simp [diagnosed, launches, refusal_closed closed]
  | false =>
    obtain ⟨flags, stands, generates⟩ := firm.stands closed
    have poised := firm.poised isStatic stands generates
    unfold diagnosed launches
    rw [refusal_open firm.orderly.idle closed]
    refine ⟨fun entry member fromCode => ?_, fun known generator member => ?_⟩
    · obtain ⟨queue, launched, isReport⟩ := poised.known_ended member fromCode
      exact ⟨(runReports_code _ entry isReport).1, queue, launched, isReport⟩
    · have fit := poised.fit member
      exact ⟨fun progress reaches => ⟨fit.safe reaches, fit.holds reaches⟩,
        (fit.runQueue session.patience).2⟩

/-- A declared text calls a function that is only announced; the next text runs that call
first, and divides by zero in one of its own. -/
theorem static_calls_sound_after_declaring :
    let opened := fresh {} {} { noBootstrap := true } (.empty [])
    let session := opened.serve (.take .declared "int f(int n); int a = f(2);")
    let text : Text :=
      "int g(int n) \x7b int k = n; return k / (n - 2); \x7d int b = g(3); int c = g(2);"
    let launched := session.launches (.compiled .asIs) text
    Static session ∧ session.IsStatic (.take (.compiled .asIs) text) ∧
      (launched.map fun queue => (queue.2.runQueue session.patience).1.map fun result =>
        result.error.map fun error => error.fault.number) = [[some 1009], [none, some 1007]] ∧
      (session.diagnosed (.compiled .asIs) text).length = 2 ∧
      (∀ entry ∈ session.diagnosed (.compiled .asIs) text, entry.FromCode →
        entry.code = .runtimeError) ∧
      (∀ known generator, (known, generator) ∈ launched → ∀ progress,
        Generator.Reaches session.patience generator.machine generator.queue progress →
        progress.Safe (Generator.Runs generator.machine generator.queue) (Fault.Remains known)) ∧
      (session.take (.compiled .asIs) text).2.generator.machine.Holds
        (session.take (.compiled .asIs) text).2.analysis := by
  intro opened session text launched
  have static : Static session := (Static.opened rfl (opens_bare [])).served _
    ⟨by decide, by decide +kernel⟩
  have isStatic : session.IsStatic (.take (.compiled .asIs) text) := ⟨by decide, by decide +kernel⟩
  obtain ⟨reports, runs, holds⟩ := static_calls_sound static isStatic
  refine ⟨static, isStatic, by decide +kernel, by decide +kernel, ?_, ?_, holds⟩
  · exact fun entry member fromCode => (reports entry member fromCode).1
  · exact fun known generator member progress reaches =>
      ((runs known generator member).1 progress reaches).1

end FragmentCompiler.Session
