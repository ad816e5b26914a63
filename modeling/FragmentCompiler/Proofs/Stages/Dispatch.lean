import FragmentCompiler.Proofs.Stages.Lookups
import FragmentCompiler.Proofs.Stages.Prompt
import FragmentCompiler.Session.Startup

/-!
# Dispatching a group

The stages stand in a fixed order: names are turned into lookups, wrappers are taken
apart, values are shown, the group is dumped and then lowered.  Only the last two look
beyond the analysis.
-/

set_option autoImplicit false

namespace FragmentCompiler

open List

/-- Which of the stages of a session are on. -/
structure StageFlags where
  rewrites : Bool
  extracts : Bool
  echoes : Bool
  dumps : Bool
  generates : Bool
  deriving DecidableEq, Repr

/-- The stages of a session, and after them only one that writes a snapshot. -/
def StageFlags.pipeline (flags : StageFlags) (last : Option (StageSlot StageStore))
    (queue : List Group) : Pipeline StageStore where
  slots := #v[some ⟨.nothing, flags.rewrites⟩, some ⟨.nothing, flags.extracts⟩,
    some ⟨.nothing, flags.echoes⟩, some ⟨.nothing, flags.dumps⟩, some ⟨.nothing, flags.generates⟩,
    last]
  order := [.dynamicRewriter, .declExtractor, .valuePrinter, .dumper, .codeGenerator] ++
    last.toList.map fun _ => .snapshotWriter
  queue

def Pipeline.Arranged (pipeline : Pipeline StageStore) (flags : StageFlags) : Prop :=
  ∃ last queue, pipeline = flags.pipeline last queue

/-! ## The analysis -/

def Analysis.throughStages (analysis : Analysis) (flags : StageFlags) (group : Group) :
    Group × Analysis :=
  let rewritten :=
    if flags.rewrites then
      analysis.updateDecls fun decls => group.foldl Declarations.lookupsIn decls
    else analysis
  let (group, extracted) := if flags.extracts then rewritten.extractGroup group else (group, rewritten)
  (group,
    if flags.echoes then
      extracted.updateDecls fun decls => group.foldl Declarations.echoIn decls
    else extracted)

/-- A wrapper may be taken apart. -/
def StageFlags.Prompts (flags : StageFlags) : Prop := flags.extracts = true ∨ flags.echoes = true

namespace Analysis

theorem Batch.weaken {flaws prompts deferrals lookups base group prompts' deferrals' lookups'}
    {known : Analysis}
    (batch : known.Batch flaws prompts deferrals lookups base group) (prompted : prompts → prompts')
    (deferred : deferrals → deferrals') (looked : lookups → lookups') :
    known.Batch flaws prompts' deferrals' lookups' base group :=
  { batch with
    each := fun id member => (batch.each id member).imp
      (fun accepted => accepted.weaken (.refl known) deferred looked (Nat.le_refl _)
        fun _ _ => rfl)
      (Or.imp_right fun isPrompt => ⟨prompted isPrompt.1, isPrompt.2⟩) }

section Steps

variable {analysis : Analysis} {flaws prompts deferrals lookups : Prop} {base : Nat} {group : Group}

theorem rewritten_regroups (ready : analysis.Ready) (on : Bool)
    (batch : analysis.Batch flaws False deferrals lookups base group) :
    let after := if on then
        analysis.updateDecls fun decls => group.foldl .lookupsIn decls
      else analysis
    analysis.Regroups group group after ∧
      after.Batch flaws False (deferrals ∧ on = false) (deferrals ∨ lookups) base group := by
  cases on with
  | true =>
    exact ⟨regroups_foldl Declarations.lookupsIn_adjusts ready group,
      (batch.withLookups ready.grounded).weaken id (fun never => never.elim) id⟩
  | false =>
    exact ⟨.refl ready group, batch.weaken id
      (fun deferred => ⟨deferred, rfl⟩) .inr⟩

theorem extracted_regroups (ready : analysis.Ready) (on : Bool)
    (batch : analysis.Batch flaws False deferrals lookups base group) :
    let after := if on then analysis.extractGroup group else (group, analysis)
    analysis.Regroups group after.1 after.2 ∧
      after.2.Batch flaws (on = true) deferrals lookups base after.1 := by
  cases on with
  | true =>
    obtain ⟨regroups, batch⟩ := extractGroup_regroups group ready batch
    exact ⟨regroups, batch.weaken (fun _ => rfl) id id⟩
  | false =>
    exact ⟨.refl ready group, batch.weaken (fun never => never.elim) id id⟩

theorem echoed_regroups (ready : analysis.Ready) (on : Bool)
    (batch : analysis.Batch flaws prompts deferrals lookups base group) :
    let after := if on then
        analysis.updateDecls fun decls => group.foldl .echoIn decls
      else analysis
    analysis.Regroups group group after ∧
      after.Batch flaws (prompts ∨ on = true) deferrals lookups base group := by
  cases on with
  | true =>
    exact ⟨regroups_foldl Declarations.echoIn_adjusts ready group,
      (batch.echoIn ready.grounded).weaken (fun _ => .inr rfl) id id⟩
  | false =>
    exact ⟨.refl ready group, batch.weaken .inl id id⟩

theorem throughStages_regroups (ready : analysis.Ready) (flags : StageFlags)
    (batch : analysis.Batch flaws False deferrals lookups base group) :
    analysis.Regroups group (analysis.throughStages flags group).1
        (analysis.throughStages flags group).2 ∧
      (analysis.throughStages flags group).2.Batch flaws flags.Prompts
        (deferrals ∧ flags.rewrites = false) (deferrals ∨ lookups) base
        (analysis.throughStages flags group).1 := by
  obtain ⟨rewrites, batchRewritten⟩ := rewritten_regroups ready flags.rewrites batch
  obtain ⟨extracts, batchExtracted⟩ :=
    extracted_regroups rewrites.evolves.ready flags.extracts batchRewritten
  obtain ⟨echoes, batchEchoed⟩ :=
    echoed_regroups extracts.evolves.ready flags.echoes batchExtracted
  exact ⟨(rewrites.trans extracts batch.bounded).trans echoes batch.bounded, batchEchoed⟩

end Steps

end Analysis

/-! ## The session -/

namespace Session

def dumpText (analysis : Analysis) (group : Group) : Text :=
  "// group of " ++ Text.decimal group.length ++ "\n" ++ analysis.decls.renderGroup group

def dumped (session : Session) (on : Bool) (group : Group) : Session :=
  if on then session.dump (dumpText session.analysis group) else session

def generated (session : Session) (on : Bool) (group : Group) : Session :=
  if on then
    { session with
      generator := (session.generator.handleGroup session.analysis.decls group).1
      analysis := (session.generator.handleGroup session.analysis.decls group).2.foldl
        Analysis.report session.analysis }
  else session

def throughStages (session : Session) (flags : StageFlags) (group : Group) : Group × Session :=
  let (group, analysis) := session.analysis.throughStages flags group
  (group, (({ session with analysis }.dumped flags.dumps group).generated flags.generates group))

def seen (slot : StageSlot StageStore) : StageSlot StageStore :=
  match slot with
  | ⟨.snapshot writer groups transactions, true⟩ => ⟨.snapshot writer (groups + 1) transactions, true⟩
  | other => other

theorem visit_builtin (flags : StageFlags) (last : Option (StageSlot StageStore))
    (queue : List Group) (rest : List StageId) (group : Group) (session : Session) :
    Pipeline.visit (Pipeline.pass handleStage) (.dynamicRewriter :: .declExtractor ::
      .valuePrinter :: .dumper :: .codeGenerator :: rest) (flags.pipeline last queue) (group, session) =
    Pipeline.visit (Pipeline.pass handleStage) rest (flags.pipeline last queue)
      (session.throughStages flags group) := by
  obtain ⟨rewrites, extracts, echoes, dumps, generates⟩ := flags
  cases rewrites <;> cases extracts <;> cases echoes <;> cases dumps <;> cases generates <;> rfl

theorem dispatch_arranged (flags : StageFlags) (last : Option (StageSlot StageStore))
    (queue : List Group) (group : Group) (session : Session) :
    (flags.pipeline last queue).dispatch handleStage group session =
      let passed := session.throughStages flags group
      (passed.1, flags.pipeline (last.map seen) (queue ++ [passed.1]), passed.2) := by
  have builtin := visit_builtin flags last queue (last.toList.map fun _ => .snapshotWriter) group session
  unfold Pipeline.dispatch
  rw [show Pipeline.visit _ (flags.pipeline last queue).order _ _ = _ from builtin]
  rcases last with _ | ⟨_ | _, _ | _⟩ <;> rfl

end Session

end FragmentCompiler
