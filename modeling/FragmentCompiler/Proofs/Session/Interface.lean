import FragmentCompiler.Proofs.Execution.Initializer
import FragmentCompiler.Proofs.Session.Reflect

/-!
# Machines and the interface of an analysis

Declarations that were accepted without names left to be found at run time have typed code,
so a machine that mirrors the names of an analysis has what the interface of the analysis
promises.
-/

set_option autoImplicit false

namespace FragmentCompiler

open List

/-- Every name is found before anything runs. -/
def Leeway.static : Leeway where
  prompts := False
  deferrals := False
  leftovers := False
  lookups := False

theorem Leeway.static_covers {on flags} (plain : ¬ flags.Prompts) (off : on = false) :
    Leeway.static.Covers flags on where
  prompts := plain
  deferrals := fun isOn => Bool.noConfusion (isOn.symm.trans off)
  leftovers := fun never => never.elim
  lookups := fun never => never.elim

/-! ## Code -/

namespace Analysis

variable {known : Analysis} {base id : DeclId}

theorem Accepted.lowered_typed {code result types} (accepted : known.Accepted False False base id)
    (isCode : known.decls.lowered? id = some code)
    (signature : known.decls.HasSignature id result types) :
    code.Typed known.interface ∧ code.parameters = types.map ValueKind.ofType ∧
      code.result = .ofType result := by
  obtain ⟨decl, data, body, found, _, isFunction, isBody, isLowered⟩ :=
    Declarations.lowered?_eq_some.mp isCode
  obtain ⟨decl', found', _, sound⟩ := accepted.valid
  cases found.symm.trans found'
  obtain ⟨decl', data', found', isFunction', isResult, isTypes⟩ := signature
  cases found.symm.trans found'
  cases isFunction.symm.trans isFunction'
  rw [isFunction] at sound
  cases sound with
  | function sound =>
    obtain ⟨code', yields, _, parameters, results, typed⟩ := sound.lowers decl isBody
    rw [(yields _ (.refl _ _)).result] at isLowered
    cases isLowered
    exact ⟨typed not_false, parameters.trans (Function.kinds_eq isTypes),
      by rw [results, isResult]⟩

theorem Accepted.initializer_typed {initializer} (accepted : known.Accepted False False base id)
    (isInitializer : known.decls.initializer? id = some initializer) :
    initializer.Typed known.interface := by
  obtain ⟨decl, isValid, made⟩ := Option.bind_eq_some_iff.mp isInitializer
  have found := (Declarations.valid?_eq_some.mp isValid).1
  obtain ⟨decl', found', _, sound⟩ := accepted.valid
  have held := accepted.held decl found
  cases found.symm.trans found'
  unfold Holds at held
  dsimp only at made
  cases body : decl.body with
  | function data =>
    rw [body] at made
    cases made
  | «variable» data =>
    rw [body] at made sound held
    cases sound with
    | «variable» isGlobal isValue initial =>
      simp only [isGlobal, if_true] at made
      obtain ⟨value, isInitial, made⟩ := Option.bind_eq_some_iff.mp made
      obtain ⟨inside, isType⟩ := initial value isInitial
      obtain ⟨code, yields, typed⟩ := inside.lowers
      rw [(yields _ (.refl _ _)).result] at made
      cases made
      have isData := Declarations.asVariable_of_get? found body
      refine ⟨.ofType data.type, ⟨decl.name, data.type, ⟨held, data, isData, isGlobal, rfl,
        isValue⟩, rfl⟩, ?_⟩
      rw [← isType]
      exact typed not_false .empty (forall_mem_nil _)
  | wrapper data =>
    rw [body] at made sound
    cases sound with
    | wrapper sound isVoid alone present =>
      obtain ⟨statement, isBody, made⟩ := Option.bind_eq_some_iff.mp made
      obtain ⟨code, yields, _, parameters, _, typed⟩ := sound.lowers decl isBody
      rw [(yields _ (.refl _ _)).result] at made
      cases made
      refine ⟨parameters.trans ?_, typed not_false⟩
      unfold Function.kinds
      rw [alone]
      rfl

end Analysis

/-! ## Machines -/

namespace Machine

theorem Rests.defineStart {machine : Machine} (rests : machine.Rests) (start : GlobalStart) :
    (machine.defineStart start).Rests := by
  unfold Machine.defineStart Machine.define
  split
  · exact rests
  · rename_i absent
    refine ⟨⟨?_, fun entry member => ?_⟩, rests.idle⟩
    · have fresh : start.id ∉ machine.globals.map Global.id := by
        intro member
        obtain ⟨entry, isEntry, isId⟩ := mem_map.mp member
        exact absurd (beq_iff_eq.mpr isId) (find?_eq_none.mp absent entry isEntry)
      simpa [map_append, nodup_append, rests.ids] using
        fun entry member isId => fresh (mem_map.mpr ⟨entry, member, isId⟩)
    · exact forall_mem_append.mpr ⟨rests.values, forall_mem_singleton.mpr (Value.kind_zero start.kind)⟩
        entry member

theorem Rests.install {machine : Machine} (rests : machine.Rests) (unit : CodeUnit) :
    (machine.install unit).Rests := by
  have defined : ∀ (starts : List GlobalStart) {machine : Machine}, machine.Rests →
      (starts.foldl .defineStart machine).Rests := by
    intro starts
    induction starts with
    | nil => exact id
    | cons start rest ih => exact fun rests => ih (rests.defineStart start)
  obtain ⟨globals, _, stack⟩ := foldl_addFunction_globals unit.functions
    (unit.globals.foldl .defineStart machine)
  obtain ⟨⟨ids, values⟩, idle⟩ := defined unit.globals rests
  unfold Machine.install
  exact ⟨⟨by rw [globals]; exact ids, by rw [globals]; exact values⟩, stack.trans idle⟩

variable {machine : Machine} {analysis : Analysis}

theorem mem_of_function? {name code} (found : machine.function? name = some code) :
    (name, code) ∈ machine.functions := by
  obtain ⟨before, after, split, _⟩ := lookup_eq_some_iff.mp found
  rw [split]
  exact mem_append_right _ mem_cons_self

theorem Mirrors.meets (mirrors : machine.Mirrors analysis) (sane : analysis.Sane .static)
    (named : analysis.Named) (stores : machine.Stores) : machine.Meets analysis.interface where
  ids := stores.ids
  values := stores.values
  places := by
    rintro id kind ⟨name, type, ⟨isNamed, data, isData, _, rfl, _⟩, rfl⟩
    obtain ⟨data', entry, isData', found, _, isKind, _⟩ := mirrors.places name id isNamed
    cases isData.symm.trans isData'
    exact ⟨entry, found, isKind⟩
  codes := by
    intro name code found
    obtain ⟨id, isNamed, _, isLowered⟩ := mirrors.definitions name code (mem_of_function? found)
    obtain ⟨result, types, signature, _⟩ := named.function isNamed
    obtain ⟨⟨decl, isDecl, isName⟩, _⟩ := named name _ isNamed
    obtain ⟨_, _, _, isDecl', _, _, _, isCode⟩ := Declarations.lowered?_eq_some.mp isLowered
    cases isDecl.symm.trans isDecl'
    have accepted := sane name _ isNamed rfl
    exact ⟨(Declarations.name_of_lowered isCode).trans isName,
      (accepted.lowered_typed isLowered signature).1⟩
  heads := by
    rintro name kinds kind code ⟨result, types, ⟨id, isNamed, signature, _⟩, rfl, rfl⟩ found
    obtain ⟨id', isNamed', _, isLowered⟩ := mirrors.definitions name code (mem_of_function? found)
    cases isNamed.symm.trans isNamed'
    have accepted := sane name _ isNamed rfl
    exact (accepted.lowered_typed isLowered signature).2

def Holds (machine : Machine) (analysis : Analysis) : Prop :=
  ∀ entry ∈ machine.globals, ∃ data, analysis.decls.asVariable entry.id = some data ∧
    entry.value.kind = .ofType data.type

theorem Mirrors.holds (mirrors : machine.Mirrors analysis) (stores : machine.Stores) :
    machine.Holds analysis := by
  intro entry member
  obtain ⟨data, first, isData, found, _, isKind, _⟩ :=
    mirrors.places entry.name entry.id (mirrors.globals entry member)
  obtain ⟨isFirst, isId⟩ := mem_of_global? found
  have same : first = entry := inj_on_of_nodup_map stores.ids isFirst member isId
  rw [same] at isKind
  exact ⟨data, isData, (stores.values entry member).trans isKind⟩

theorem Holds.extends {after : Analysis} (holds : machine.Holds analysis)
    (learns : analysis.decls.Extends after.decls) : machine.Holds after := by
  intro entry member
  obtain ⟨data, isData, isKind⟩ := holds entry member
  obtain ⟨data', isData', same⟩ := learns.asVariable isData
  exact ⟨data', isData', by rw [isKind, same.type]⟩

theorem Trails.holds {leeway owed} (trails : machine.Trails leeway owed analysis)
    (stores : machine.Stores) : machine.Holds analysis := by
  obtain ⟨_, before, _, _, mirrors, joins⟩ := trails
  exact (mirrors.holds stores).extends joins.learns.decls

end Machine

/-! ## Queues -/

/-- A fault that may still occur after everything was checked; a function that is missing was
announced and never defined. -/
def Fault.Remains (analysis : Analysis) (fault : Fault) : Prop :=
  fault.number ∈ [1007, 1009, 1010, 1011] ∧
    ∀ name, fault = .undefinedFunction name → ∃ id,
      analysis.names.lookup name = some (.function id) ∧ ¬ analysis.decls.IsDefined id

theorem Fault.Excused.remains {machine analysis} {fault : Fault}
    (excused : fault.Excused analysis.interface machine) (mirrors : machine.Mirrors analysis) :
    fault.Remains analysis := by
  cases excused with
  | numeric isNumeric =>
    cases fault with
    | divisionByZero | tooLarge => simp [Fault.Remains, Fault.number]
    | _ => exact isNumeric.elim
  | tooDeep limit name => simp [Fault.Remains, Fault.number]
  | @undefinedFunction name kinds result isFunction absent =>
    refine ⟨by simp [Fault.number], fun other same => ?_⟩
    cases same
    obtain ⟨_, _, ⟨id, isNamed, _⟩, _⟩ := isFunction
    refine ⟨id, isNamed, fun defined => ?_⟩
    obtain ⟨code, _, found⟩ := mirrors.functions name id isNamed defined
    rw [absent] at found
    cases found

namespace Generator

variable {generator : Generator} {analysis : Analysis}

/-- A queue of typed initializers, and a machine that has what they rely on. -/
structure Fit (generator : Generator) (analysis : Analysis) : Prop where
  mirrors : generator.machine.Mirrors analysis
  meets : generator.machine.Meets analysis.interface
  idle : generator.machine.stack = []
  typed : ∀ initializer ∈ generator.queue, initializer.Typed analysis.interface

theorem fit_commit {ids groups} (trails : generator.machine.Trails .static ids analysis)
    (rests : generator.machine.Rests) (held : generator.released = false)
    (queue : generator.queue = [])
    (pending : generator.pending = { (({} : CodeUnit).addAll analysis.decls ids).1 with groups }) :
    generator.commit.Fit analysis := by
  have mirrors : (generator.machine.install generator.pending).Mirrors analysis :=
    trails.install id (by rw [pending]) (by rw [pending])
  rw [commit_eq held]
  have installed := rests.install generator.pending
  refine ⟨mirrors, mirrors.meets trails.sane trails.named installed.toStores, installed.idle, ?_⟩
  intro initializer member
  have runs : initializer ∈ (({} : CodeUnit).addAll analysis.decls ids).1.runs := by
    simpa [queue, pending, CodeUnit.runs] using member
  rw [CodeUnit.runs_addAll] at runs
  obtain ⟨id, isOwed, isInitializer⟩ := Declarations.mem_runs.mp runs
  obtain ⟨_, _, _, _, _, joins⟩ := trails
  have accepted := (joins.placed id isOwed).resolve_right fun opened => opened.1
  exact accepted.initializer_typed isInitializer

theorem Fit.safe {fuel progress} (fit : generator.Fit analysis)
    (reaches : Reaches fuel generator.machine generator.queue progress) :
    progress.Safe (Runs generator.machine generator.queue) (Fault.Remains analysis) :=
  (reaches.safe fit.meets fit.idle fit.typed).imp (fun _ runs => runs)
    fun _ excused => excused.remains fit.mirrors

theorem Fit.holds {fuel progress} (fit : generator.Fit analysis)
    (reaches : Reaches fuel generator.machine generator.queue progress) :
    progress.machine.Holds analysis := by
  have shape := reaches.sameShape
  refine (fit.mirrors.sameShape shape).holds ⟨?_, (fit.safe reaches).values⟩
  rw [shape.ids]
  exact fit.meets.ids

theorem Fit.runQueue (fit : generator.Fit analysis) (fuel : Nat) :
    (generator.runQueue fuel).2.machine.Rests ∧
      ∀ result ∈ (generator.runQueue fuel).1, ∀ error, result.error = some error →
        error.fault.Remains analysis := by
  obtain ⟨meets, idle, failed⟩ := runAll_typed fuel generator.queue fit.meets fit.idle fit.typed
  exact ⟨⟨meets.toStores, idle⟩, fun result member error isError =>
    (failed result member error isError).remains fit.mirrors⟩

end Generator

end FragmentCompiler
