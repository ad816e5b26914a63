import FragmentCompiler.Proofs.Session.Gather
import FragmentCompiler.Proofs.Session.Run

/-!
# The machine keeps up with the names

Between two calls the machine mirrors the names of the analysis, but for the declarations
that a call without code generation has left to be lowered.
-/

set_option autoImplicit false

namespace FragmentCompiler

/-! ## Lagging behind -/

/-- Names left to be found at run time are looked up there before anything is lowered. -/
def Leeway.rewritten (on : Bool) : Leeway where
  prompts := True
  deferrals := on = true
  leftovers := False
  lookups := True

theorem Leeway.rewritten_covers (flags : StageFlags) (on : Bool) :
    (Leeway.rewritten on).Covers flags on where
  prompts := fun _ => trivial
  deferrals := id
  leftovers := fun isOn isOff => Bool.noConfusion (isOn.symm.trans isOff)
  lookups := fun _ => trivial

theorem Analysis.Placed.rewritten {on} {known : Analysis} {base id : DeclId}
    (placed : known.Placed (.rewritten on) base id) : known.Placed (.rewritten true) base id :=
  placed

/-- A machine mirrors the names of an analysis but for the declarations `owed`. -/
structure Machine.Trails (machine : Machine) (leeway : Leeway) (owed : List DeclId)
    (analysis : Analysis) : Prop where
  named : analysis.Named
  mirrored : ∃ before : Analysis, before.Named ∧ before.Sane leeway ∧
    machine.Mirrors before ∧ before.Joins leeway owed analysis

namespace Analysis

theorem Joins.of_names {before after : Analysis} (leeway : Leeway)
    (kept : ∀ id, id ≤ before.decls.count → after.decls.get? id = before.decls.get? id)
    (learns : before.decls.Extends after.decls) (names : after.names = before.names) :
    before.Joins leeway [] after where
  kept
  learns := .of_decls learns names
  placed := by simp
  covered := fun name meaning known => by rw [names] at known; exact .inl known

theorem Joins.of_same {leeway ids} {before now after : Analysis}
    (joins : before.Joins leeway ids now)
    (decls : after.decls = now.decls) (names : after.names = now.names) :
    before.Joins leeway ids after where
  kept := by rw [decls]; exact joins.kept
  learns := joins.learns.trans (.of_same decls names)
  placed := fun id member => (joins.placed id member).extends (.of_same decls names)
    fun _ _ => by rw [decls]
  covered := by rw [names]; exact joins.covered

end Analysis

namespace Machine

variable {machine : Machine} {leeway : Leeway} {owed : List DeclId} {analysis : Analysis}

theorem Trails.of_mirrors (named : analysis.Named) (sane : analysis.Sane leeway)
    (mirrors : machine.Mirrors analysis) : machine.Trails leeway [] analysis :=
  ⟨named, analysis, named, sane, mirrors,
    .of_names _ (fun _ _ => rfl) (.refl _) rfl⟩

theorem Trails.sane (trails : machine.Trails leeway owed analysis) : analysis.Sane leeway := by
  obtain ⟨named, before, _, sane, _, joins⟩ := trails
  exact joins.sane sane named

theorem Trails.install {unit} (trails : machine.Trails leeway owed analysis)
    (strict : ¬ leeway.leftovers)
    (globals : unit.globals = (({} : CodeUnit).addAll analysis.decls owed).1.globals)
    (functions : unit.functions = (({} : CodeUnit).addAll analysis.decls owed).1.functions) :
    (machine.install unit).Mirrors analysis := by
  obtain ⟨named, before, namedBefore, sane, mirrors, joins⟩ := trails
  have gains := CodeUnit.addAll_gains analysis.decls owed {}
  unfold Machine.install
  rw [globals, functions, gains.globals, gains.functions]
  exact joins.mirrors strict sane namedBefore named mirrors

theorem Trails.settled (trails : machine.Trails leeway [] analysis) (strict : ¬ leeway.leftovers) :
    machine.Mirrors analysis :=
  trails.install strict rfl rfl

theorem Trails.sameShape {after : Machine} (trails : machine.Trails leeway owed analysis)
    (same : machine.SameShape after) : after.Trails leeway owed analysis := by
  obtain ⟨named, before, namedBefore, sane, mirrors, joins⟩ := trails
  exact ⟨named, before, namedBefore, sane, mirrors.sameShape same, joins⟩

theorem Trails.of_same {after : Analysis} (trails : machine.Trails leeway owed analysis)
    (decls : after.decls = analysis.decls) (names : after.names = analysis.names) :
    machine.Trails leeway owed after := by
  obtain ⟨named, before, namedBefore, sane, mirrors, joins⟩ := trails
  refine ⟨named.extends names ?_, before, namedBefore, sane, mirrors, joins.of_same decls names⟩
  rw [decls]
  exact .refl _

theorem sameShape_printed (machine : Machine) (printed : List Text) :
    machine.SameShape { machine with printed } := ⟨rfl, rfl, rfl⟩

end Machine

/-! ## Along a call -/

namespace Session

def Trails (session : Session) (leeway : Leeway) : Prop :=
  session.generator.machine.Trails leeway session.owed session.analysis

section Calls

variable {ids : List DeclId} {earlier : List Transaction} {last : Transaction}

variable {session : Session} {flags : StageFlags} {leeway : Leeway} {text : Text}
  {declOnly : Bool}

theorem pending?_of_log {journal : Journal} (log : journal.log = earlier ++ [last]) :
    journal.pending? = if last.state = .parsed then some last else none := by
  simp [Journal.pending?, Journal.last?, log]

theorem owed_of_done (log : session.journal.log = earlier ++ [last]) (done : last.state ≠ .parsed) :
    session.owed = [] := by
  unfold owed
  rw [pending?_of_log log, if_neg done]
  rfl

theorem owed_of_parsed (log : session.journal.log = earlier ++ [last])
    (parsed : last.state = .parsed) : session.owed = last.batches.flatten := by
  unfold owed
  rw [pending?_of_log log, if_pos parsed]
  rfl

theorem Trails.performed (trails : session.Trails leeway) (strict : ¬ leeway.leftovers) :
    session.performed.2.machine.Mirrors session.analysis :=
  (trails.install strict rfl rfl).sameShape (Generator.runAll_sameShape _ _ _)

section

variable (takes : session.Takes flags text declOnly ids last)

include takes

theorem Takes.still (fine : ¬ session.Fails text declOnly) :
    (session.taken text declOnly).engine.errors = (session.entered text declOnly).engine.errors := by
  obtain ⟨_, _, _, _, isFlushed⟩ := takes.stands.flushed_eq
  have same : session.flushed.engine.errors = (session.entered text declOnly).engine.errors := by
    rw [isFlushed, takes.stands.engine_entered]
  unfold Fails at fine
  rw [same] at fine
  exact Nat.le_antisymm (Nat.le_of_not_lt fine) takes.works.engine.errors

theorem Takes.kept (id : DeclId) (low : id ≤ session.analysis.decls.count) :
    (session.taken text declOnly).analysis.decls.get? id = session.analysis.decls.get? id := by
  obtain ⟨_, decls⟩ := takes.stands.names_entered text declOnly
  rw [← decls] at low ⊢
  exact takes.works.keeps.follows.kept id low

theorem Takes.joins (tracks : (session.entered text declOnly).analysis.Tracks leeway ids []
      (session.taken text declOnly).analysis) :
    session.analysis.Joins leeway ids (session.taken text declOnly).analysis := by
  obtain ⟨names, decls⟩ := takes.stands.names_entered text declOnly
  refine ⟨takes.kept, ?_, fun id member => ?_, fun name meaning known => ?_⟩
  · exact (Analysis.Extends.of_same decls names).trans takes.works.keeps.follows.learns
  · rw [← decls]
    exact tracks.placed id member
  · rw [← names]
    exact (tracks.covered name meaning known).imp_right fun new =>
      new.resolve_right List.not_mem_nil

theorem Takes.shape :
    session.performed.2.machine.SameShape (session.taken text declOnly).generator.machine := by
  rw [takes.machine]
  exact Machine.sameShape_printed _ _

end

section

variable {near : Leeway} (trails : session.Trails leeway) (strict : ¬ leeway.leftovers)
  (within : ∀ {known : Analysis} {base id : DeclId}, known.Placed near base id →
    known.Placed leeway base id)
  (takes : session.Takes flags text declOnly ids last)
  (gathers : Gathers flags near (session.entered text declOnly) ids []
    (session.taken text declOnly))

include trails strict within takes gathers

theorem Trails.taken (fine : ¬ session.Fails text declOnly) :
    (session.taken text declOnly).generator.machine.Trails leeway ids
      (session.taken text declOnly).analysis := by
  have joins := takes.joins (gathers.tracks (takes.still fine))
  have mirrors := (trails.performed strict).sameShape takes.shape
  exact ⟨takes.works.keeps.follows.ready.named, session.analysis, takes.stands.ready.named, trails.sane,
    mirrors, joins.kept, joins.learns, fun id member => within (joins.placed id member),
    joins.covered⟩

theorem Trails.compileText (generates : declOnly = false → flags.generates = true) :
    (session.compileText text declOnly).2.Trails leeway := by
  have named := takes.works.keeps.follows.ready.named
  have mirrors := (trails.performed strict).sameShape takes.shape
  obtain ⟨trace, isCompiled⟩ := takes.stands.compiled_eq text declOnly
  rw [isCompiled]
  unfold Session.Trails
  by_cases fails : session.Fails text declOnly
  · obtain ⟨sameNames, _, _, ready⟩ := takes.rollback
    rw [takes.ended_failed fails, owed_of_done rfl (show TransactionState.failed ≠ .parsed by decide)]
    obtain ⟨_, decls⟩ := takes.stands.names_entered text declOnly
    have learns : session.analysis.decls.Extends (session.taken text declOnly).analysis.decls := by
      rw [← decls]
      exact takes.works.keeps.follows.learns.decls
    exact ⟨ready.named, session.analysis, takes.stands.ready.named, trails.sane, mirrors,
      .of_names _ takes.kept learns sameNames⟩
  · have still := takes.still fails
    have behind := trails.taken strict within takes gathers fails
    cases declOnly with
    | true =>
      rw [takes.ended_pending fails, owed_of_parsed rfl rfl, takes.batches rfl]
      exact behind
    | false =>
      obtain ⟨pipeline, _, _, isArranged, isEnded⟩ := takes.ended_committed fails
      obtain ⟨groups, pending⟩ := gathers.unit (generates rfl) still
      have caught := behind.install strict
        (show (session.taken text false).generator.pending.globals = _ by rw [pending])
        (by rw [pending])
      rw [isEnded, owed_of_done rfl (show TransactionState.committed ≠ .parsed by decide)]
      unfold committing
      rw [if_pos (generates rfl), Generator.runQueue_commit takes.queue.2]
      exact .of_mirrors named behind.sane (caught.sameShape (Generator.runAll_sameShape _ _ _))

end

end Calls

end Session

end FragmentCompiler
