import FragmentCompiler.Proofs.Execution.Frames

/-!
# Typed runs stay typed

One lemma for each thing a run can do next, then one for a step, then one for a whole run.
-/

set_option autoImplicit false

namespace FragmentCompiler

open List Value

/-! ## Instructions -/

namespace Instruction.Typed

variable {interface : Interface} {declares : Nat → ValueKind → Prop} {size : Nat}
  {result : ValueKind} {layout after : Layout}

theorem le {codes} (typed : Instruction.Typed interface declares size result layout codes after) :
    layout.Le after := by
  induction typed with
  | nil layout => exact .refl layout
  | start fresh _ _ _ _ ih => exact (Layout.le_set fresh _).trans ih
  | _ => assumption

theorem split {first rest}
    (typed : Instruction.Typed interface declares size result layout (first :: rest) after) :
    ∃ middle, Instruction.Typed interface declares size result layout [first] middle ∧
      Instruction.Typed interface declares size result middle rest after := by
  generalize isCodes : first :: rest = codes at typed
  induction typed generalizing first with
  | nil => cases isCodes
  | start fresh room declared initial others ih =>
    cases isCodes
    obtain ⟨middle, begins, goesOn⟩ := ih rfl
    exact ⟨middle, .start fresh room declared initial begins, goesOn⟩
  | nothing others => cases isCodes; exact ⟨_, .nothing (.nil _), others⟩
  | sequence inside others => cases isCodes; exact ⟨_, .sequence inside (.nil _), others⟩
  | started others => cases isCodes; exact ⟨_, .started (.nil _), others⟩
  | evaluate span inside others => cases isCodes; exact ⟨_, .evaluate span inside (.nil _), others⟩
  | branch span testSpan tested chosen otherwise others =>
    cases isCodes
    exact ⟨_, .branch span testSpan tested chosen otherwise (.nil _), others⟩
  | loop span testSpan tested inside others =>
    cases isCodes
    exact ⟨_, .loop span testSpan tested inside (.nil _), others⟩
  | «return» others => cases isCodes; exact ⟨_, .return (.nil _), others⟩
  | returnValue span inside others =>
    cases isCodes
    exact ⟨_, .returnValue span inside (.nil _), others⟩
  | «break» others => cases isCodes; exact ⟨_, .break (.nil _), others⟩
  | «continue» others => cases isCodes; exact ⟨_, .continue (.nil _), others⟩

end Instruction.Typed

/-! ## Values -/

namespace Value

variable {value : Value}

theorem convert_sure {target}
    (converts : (value.kind = .int ∧ target = .float) ∨ (value.kind = .float ∧ target = .int)) :
    Fault.Sure target (value.convert target) := by
  rcases converts with ⟨isKind, rfl⟩ | ⟨isKind, rfl⟩
  · cases value <;> cases isKind
    rfl
  · cases value <;> cases isKind
    simp only [convert, kind, reduceCtorEq, if_false]
    split <;> trivial

theorem exists_bool (isBool : value.kind = .bool) : ∃ truth, value = .bool truth := by
  cases value <;> cases isBool
  exact ⟨_, rfl⟩

theorem length_sure (isString : value.kind = .string) : Fault.Sure .int value.length := by
  cases value <;> cases isString
  rfl

theorem toText_sure (notInvalid : value.kind ≠ .invalid)
    (notNothing : value.kind ≠ .nothing) : Fault.Sure .string value.toText := by
  cases value <;> simp_all [kind, toText, Fault.Sure]

end Value

namespace Machine.Serves

variable {machine : Machine} {setting : Setting}

/-- What was printed, and the calls being run, are of no concern. -/
theorem keep (serves : machine.Serves setting) (printed : List Text) (stack : List Frame) :
    ({ machine with printed, stack } : Machine).Serves setting :=
  ⟨⟨⟨serves.meets.ids, serves.meets.values⟩, serves.meets.places, serves.meets.codes,
    serves.meets.heads⟩, serves.known⟩

theorem assign {value} (serves : machine.Serves setting) {id : DeclId}
    (isVariable : setting.interface.IsVariable id value.kind) :
    (machine.assign id value).Serves setting :=
  ⟨serves.meets.assign isVariable, serves.known⟩

end Machine.Serves

/-! ## Steps -/

namespace Run

@[simp] theorem current_update (run : Run) (change : Frame → Frame) :
    (run.update change).current = change run.current := by
  cases isStack : run.machine.stack <;> simp [update, current, isStack]

@[simp] theorem callers_update (run : Run) (change : Frame → Frame) :
    (run.update change).callers = run.callers := by
  cases isStack : run.machine.stack <;> simp [update, callers, isStack]

theorem stack_append_base (run : Run) : run.stack ++ [run.base] = run.current :: run.callers := by
  unfold current callers
  cases run.stack <;> rfl

section Steps

variable {focus : Focus} {arguments : List Value} {result : ValueKind}

variable {setting : Setting} {run : Run} {function : LoweredFunction} {layout : Layout}
  {todo : List Continuation}

theorem typed_go (serves : run.machine.Serves setting)
    (fits : run.current.Fits setting function layout)
    (next : focus.Fits setting run.callers function layout todo) :
    (run.go focus todo).Typed setting :=
  ⟨serves, .inr ⟨function, layout, fits, next⟩⟩

theorem typed_machine_go {machine : Machine} (serves : machine.Serves setting)
    (same : machine.stack = run.machine.stack) (fits : run.current.Fits setting function layout)
    (next : focus.Fits setting run.callers function layout todo) :
    (({ run with machine } : Run).go focus todo).Typed setting := by
  refine ⟨serves, .inr ⟨function, layout, ?_, ?_⟩⟩
  · simpa only [current, stack, same] using fits
  · simpa only [callers, stack, same] using next

theorem serves_update (serves : run.machine.Serves setting) (change : Frame → Frame) :
    (run.update change).machine.Serves setting := by
  rw [machine_update]
  exact serves.keep _ _

theorem typed_fail {fault} (serves : run.machine.Serves setting) (span : Span)
    (excused : fault.Excused setting.interface run.machine) :
    (run.fail span fault todo).Typed setting :=
  ⟨serves, .inl ⟨_, rfl, excused⟩⟩

theorem typed_update_go {change} (serves : run.machine.Serves setting)
    (fits : (change run.current).Fits setting function layout)
    (next : focus.Fits setting run.callers function layout todo) :
    ((run.update change).go focus todo).Typed setting := by
  rw [← current_update run change] at fits
  rw [← callers_update run change] at next
  exact typed_go (serves_update serves change) fits next

theorem typed_give (serves : run.machine.Serves setting)
    (fits : run.current.Fits setting function layout) (span : Span) {kind : ValueKind}
    {result : Except Fault Value} (sure : Fault.Sure kind result)
    (takes : Continuation.Takes setting run.callers function layout kind todo) :
    (run.give span todo result).Typed setting := by
  cases result with
  | ok value =>
    have isKind : value.kind = kind := sure
    subst isKind
    exact typed_go serves fits takes
  | error fault => exact typed_fail serves span (.numeric sure)

theorem typed_onTruth {value} {span : Span} (isBool : value.kind = .bool) {next : Bool → Progress}
    (each : ∀ truth, (next truth).Typed setting) :
    (run.onTruth span value todo next).Typed setting := by
  obtain ⟨truth, rfl⟩ := exists_bool isBool
  exact each truth

section

variable (serves : run.machine.Serves setting) (fits : run.current.Fits setting function layout)

include serves fits

theorem typed_invoke {code} (runs : setting.Runs code) (span : Span)
    (given : arguments.map kind = code.parameters)
    (takes : Continuation.Takes setting run.callers function layout code.result todo) :
    (run.invoke code arguments span todo).Typed setting := by
  unfold invoke
  split
  · exact typed_fail serves span (.tooDeep _ _)
  · obtain ⟨after, body⟩ := (setting.typed runs).body
    have ends : Continuation.Ends setting (run.stack ++ [run.base]) code after (.leave :: todo) := by
      rw [run.stack_append_base]
      exact .leave fits takes
    refine ⟨serves.keep _ _, .inr
      ⟨code, .ofParameters code.parameters, ⟨runs, rfl, ?_, ?_, ?_⟩, after, body, ends⟩⟩
    · simp only [current, stack, Machine.push, headD_cons, size_toArray, length_append,
        length_replicate]
      omega
    · intro index kind holds
      refine ⟨.inl holds, ?_⟩
      have place : (arguments.map Value.kind)[index]? = some kind := by rw [given]; exact holds
      obtain ⟨value, isValue, isKind⟩ := Option.map_eq_some_iff.mp (getElem?_map ▸ place)
      have below := (List.getElem?_eq_some_iff.mp isValue).1
      refine ⟨value, ?_, isKind⟩
      simp only [current, stack, Machine.push, headD_cons, getElem?_toArray]
      rw [getElem?_append_left below]
      exact isValue
    · exact kind_zero _

theorem typed_call {name} (span : Span)
    (isFunction : setting.interface.IsFunction name (arguments.map kind) result)
    (takes : Continuation.Takes setting run.callers function layout result todo) :
    (run.call name arguments span todo).Typed setting := by
  unfold call
  split
  · rename_i absent
    exact typed_fail serves span (.undefinedFunction isFunction absent)
  · rename_i code found
    obtain ⟨kinds, isResult⟩ := serves.meets.heads isFunction found
    have count : arguments.length = code.parameters.length := by rw [kinds, length_map]
    rw [if_pos count]
    subst isResult
    exact typed_invoke serves fits (serves.known found) span kinds.symm takes

theorem typed_apply {target} (span : Span)
    (called : target.Takes setting.interface (arguments.map kind) result)
    (takes : Continuation.Takes setting run.callers function layout result todo) :
    (run.apply span target arguments todo).Typed setting := by
  generalize isKinds : arguments.map kind = kinds at called
  cases called with
  | function isFunction =>
    subst isKinds
    have reached := fits.reach span
    rw [← current_update run fun frame => { frame with span }] at reached
    rw [← callers_update run fun frame => { frame with span }] at takes
    exact typed_call (serves_update serves _) reached span isFunction takes
  | print => exact typed_machine_go (serves.keep _ _) rfl fits takes
  | len =>
    obtain ⟨value, isValue⟩ := length_eq_one_iff.mp
      (by simpa using congrArg List.length isKinds : arguments.length = 1)
    subst isValue
    exact typed_give serves fits span (length_sure (singleton_inj.mp isKinds)) takes
  | str notInvalid notNothing =>
    obtain ⟨value, isValue⟩ := length_eq_one_iff.mp
      (by simpa using congrArg List.length isKinds : arguments.length = 1)
    subst isValue
    have isKind : value.kind = _ := singleton_inj.mp isKinds
    rw [← isKind] at notInvalid notNothing
    exact typed_give serves fits span (toText_sure notInvalid notNothing) takes

theorem typed_nextArgument {rest more target evaluated} (span : Span)
    (called : target.Takes setting.interface (evaluated.reverse.map kind ++ more) result)
    (given : List.Forall₂ (fun code kind => code.Typed setting.interface layout kind) rest more)
    (takes : Continuation.Takes setting run.callers function layout result todo) :
    (run.nextArgument span target evaluated rest todo).Typed setting := by
  cases given with
  | nil => exact typed_apply serves fits span (by simpa using called) takes
  | cons first others => exact typed_go serves fits ⟨_, first, .argument span called others takes⟩

end

theorem forall₂_of_given {codes kinds interface} (count : codes.length = kinds.length)
    (given : ∀ (index : Nat) (code : Computation) (kind : ValueKind),
      codes[index]? = some code → kinds[index]? = some kind → code.Typed interface layout kind) :
    List.Forall₂ (fun code kind => code.Typed interface layout kind) codes kinds := by
  rw [forall₂_iff_get]
  refine ⟨count, fun index below below' => ?_⟩
  exact given index _ _ (by simp [getElem?_eq_getElem below])
    (by simp [getElem?_eq_getElem below'])

section

variable (serves : run.machine.Serves setting) (fits : run.current.Fits setting function layout)

include serves fits

theorem typed_evaluate {code} {kind : ValueKind} (typed : code.Typed setting.interface layout kind)
    (takes : Continuation.Takes setting run.callers function layout kind todo) :
    (run.evaluate code todo).Typed setting := by
  cases typed with
  | constant isKind =>
    subst isKind
    exact typed_go serves fits takes
  | @slot index _ holds =>
    obtain ⟨_, value, isValue, rfl⟩ := fits.slots holds
    have isRead : run.current.slots.getD index .invalid = value := by
      simp [Array.getD_eq_getD_getElem?, isValue]
    refine typed_go serves fits ?_
    rw [isRead]
    exact takes
  | global span name isVariable =>
    obtain ⟨entry, found, rfl⟩ := serves.meets.places isVariable
    unfold evaluate
    simp only [found]
    refine typed_go serves fits ?_
    show Continuation.Takes _ _ _ _ entry.value.kind _
    rw [serves.meets.global_kind found]
    exact takes
  | convert span inside converts =>
    exact typed_go serves fits ⟨_, inside, .convert span converts takes⟩
  | unary span inside op => exact typed_go serves fits ⟨_, inside, .unary span op takes⟩
  | binary span first second op =>
    exact typed_go serves fits ⟨_, first, .right span second op takes⟩
  | logical span decisive first second =>
    exact typed_go serves fits ⟨_, first, .decide span decisive second takes⟩
  | setSlot holds inside => exact typed_go serves fits ⟨_, inside, .setSlot holds takes⟩
  | setGlobal span name isVariable inside =>
    exact typed_go serves fits ⟨_, inside, .setGlobal span name isVariable takes⟩
  | call span called count given =>
    exact typed_nextArgument serves fits span called (forall₂_of_given count given) takes

theorem typed_startLocals {starts} {after : Layout}
    (can : function.Can setting layout [.locals starts] after)
    (ends : Continuation.Ends setting run.callers function after todo) :
    (run.startLocals starts todo).Typed setting := by
  cases can with
  | started others =>
    cases others
    exact typed_go serves fits ends
  | @start _ _ start starts _ fresh room declared initial others =>
    obtain ⟨slot, kind, begins⟩ := start
    cases begins with
    | none =>
      have isDeclared : function.Declares slot (zero kind).kind := by simpa using declared
      have begun := fits.put (Nat.lt_of_lt_of_le room fits.size) isDeclared
      rw [kind_zero] at begun
      exact typed_update_go serves begun ⟨after, others, ends⟩
    | some code =>
      exact typed_go serves fits ⟨kind, initial code rfl, .start room declared others ends⟩

theorem typed_execute {instruction} {after : Layout}
    (can : function.Can setting layout [instruction] after)
    (ends : Continuation.Ends setting run.callers function after todo) :
    (run.execute instruction todo).Typed setting := by
  -- every other instruction leaves the layout as it is
  by_cases isLocals : ∃ starts, instruction = .locals starts
  · obtain ⟨starts, rfl⟩ := isLocals
    exact typed_startLocals serves fits can ends
  cases can with
  | started => exact absurd ⟨_, rfl⟩ isLocals
  | start => exact absurd ⟨_, rfl⟩ isLocals
  | nothing others | «return» others | «break» others | «continue» others =>
    cases others
    exact typed_go serves fits ends
  | @sequence _ _ _ body _ inside others =>
    cases others
    cases body with
    | nil => exact typed_go serves fits ends
    | cons first rest =>
      obtain ⟨middle, begins, goesOn⟩ := inside.split
      exact typed_go serves fits
        ⟨middle, begins, .sequence (.refl _) goesOn begins.le ends⟩
  | evaluate span inside others =>
    cases others
    exact typed_update_go serves (fits.reach span) ⟨_, inside, .discard ends⟩
  | branch span testSpan tested chosen otherwise others =>
    cases others
    exact typed_update_go serves (fits.reach span)
      ⟨_, tested, .branch testSpan chosen otherwise ends⟩
  | loop span testSpan tested inside others =>
    cases others
    exact typed_update_go serves (fits.reach span)
      ⟨_, tested, .test span testSpan tested inside ends⟩
  | returnValue span inside others =>
    cases others
    exact typed_update_go serves (fits.reach span) ⟨_, inside, .returnValue ends⟩

theorem typed_resume {value}
    (takes : Continuation.Takes setting run.callers function layout value.kind todo) :
    (run.resume value todo).Typed setting := by
  generalize isCallers : run.callers = callers at takes
  generalize isKind : value.kind = kind at takes
  cases takes with
  | finish => exact ⟨serves, isKind⟩
  | convert span converts others =>
    subst isCallers isKind
    exact typed_give serves fits span (convert_sure converts) others
  | unary span op others =>
    subst isCallers
    exact typed_give serves fits span (op value isKind) others
  | right span inside op others =>
    subst isCallers isKind
    exact typed_go serves fits ⟨_, inside, .operate span op others⟩
  | operate span op others =>
    subst isCallers
    exact typed_give serves fits span (op _ value rfl isKind) others
  | decide span decisive inside others =>
    subst isCallers
    refine typed_onTruth isKind fun truth => ?_
    split
    · exact typed_go serves fits others
    · exact typed_go serves fits ⟨_, inside, .truth span others⟩
  | truth span others =>
    subst isCallers
    exact typed_onTruth isKind fun truth => typed_go serves fits others
  | setSlot holds others =>
    subst isCallers isKind
    exact typed_update_go serves (fits.store holds) others
  | setGlobal span name isVariable others =>
    subst isCallers isKind
    obtain ⟨entry, found, _⟩ := serves.meets.places isVariable
    unfold resume
    simp only [found]
    exact typed_machine_go (serves.assign isVariable) rfl fits others
  | argument span called given others =>
    subst isCallers isKind
    exact typed_nextArgument serves fits span (by simpa using called) given others
  | discard others =>
    subst isCallers
    exact typed_go serves fits others
  | branch testSpan chosen otherwise others =>
    subst isCallers
    refine typed_onTruth isKind fun truth => ?_
    cases truth with
    | true => exact typed_go serves fits ⟨_, chosen, others.mono chosen.le⟩
    | false => exact typed_go serves fits ⟨_, otherwise, others.mono otherwise.le⟩
  | test span testSpan tested inside others =>
    subst isCallers
    refine typed_onTruth isKind fun truth => ?_
    split
    · exact typed_go serves fits
        ⟨_, inside, .again span testSpan inside.le tested inside (.refl _) others⟩
    · exact typed_go serves fits others
  | start room declared rest others =>
    subst isCallers isKind
    exact typed_update_go serves (fits.put (Nat.lt_of_lt_of_le room fits.size) declared) ⟨_, rest, others⟩
  | returnValue others =>
    subst isCallers
    exact typed_update_go serves (fits.returned isKind) others

theorem typed_proceed (control : Control)
    (ends : Continuation.Ends setting run.callers function layout todo) :
    (run.proceed control todo).Typed setting := by
  generalize isCallers : run.callers = callers at ends
  cases ends with
  | sequence le can less others =>
    subst isCallers
    unfold proceed
    dsimp only
    split
    · exact typed_go serves (fits.mono le) ⟨_, .sequence can (.nil _), others.mono less⟩
    · exact typed_go serves (fits.mono (less.trans le)) others
  | again span testSpan le tested inside less others =>
    subst isCallers
    have outside := fits.mono (less.trans le)
    have repeats : Focus.Fits setting run.callers function _ _ (.execute (.loop ..)) :=
      ⟨_, .loop span testSpan tested inside (.nil _), others.mono less⟩
    cases control with
    | next => exact typed_go serves (fits.mono le) repeats
    | «break» => exact typed_go serves outside others
    | «continue» => exact typed_go serves (fits.mono le) repeats
    | «return» => exact typed_go serves outside others
  | @leave caller callers _ _ _ _ _ callerFits others =>
    -- the frame on top of the stack is dropped, and the next one is the caller's
    have frames : run.machine.pop.stack ++ [run.base] = caller :: callers := by
      unfold Run.callers at isCallers
      split at isCallers
      · cases isCallers
      · rename_i isStack
        exact congrArg (·.tail ++ [run.base]) isStack ▸ isCallers
    have same := ({ run with machine := run.machine.pop } : Run).stack_append_base
    obtain ⟨isCaller, isOuter⟩ := List.cons.inj (same.symm.trans frames)
    refine ⟨serves.keep _ _, .inr ⟨_, _, isCaller ▸ callerFits, ?_⟩⟩
    show Continuation.Takes setting _ _ _ run.current.result.kind _
    rw [fits.result]
    exact isOuter ▸ others

end

end Steps

variable {setting : Setting}

theorem typed_unwind {error} {run : Run} (serves : run.machine.Serves setting)
    (excused : error.fault.Excused setting.interface run.machine) (todo : List Continuation) :
    (run.unwind error todo).Typed setting := by
  unfold unwind
  split
  · exact ⟨serves, excused⟩
  · exact ⟨serves.keep _ _, .inl ⟨error, rfl, excused.of_functions rfl⟩⟩
  · exact ⟨serves, .inl ⟨error, rfl, excused⟩⟩

theorem typed_step {run : Run} (typed : run.Typed setting) : run.step.Typed setting := by
  obtain ⟨serves, ⟨error, isFocus, excused⟩ | ⟨function, layout, fits, next⟩⟩ := typed
  · unfold step
    rw [isFocus]
    exact typed_unwind serves excused run.todo
  unfold step
  split
  · rename_i code isFocus
    rw [isFocus] at next
    obtain ⟨kind, inside, takes⟩ := next
    exact typed_evaluate serves fits inside takes
  · rename_i value isFocus
    rw [isFocus] at next
    exact typed_resume serves fits next
  · rename_i instruction isFocus
    rw [isFocus] at next
    obtain ⟨after, can, ends⟩ := next
    exact typed_execute serves fits can ends
  · rename_i control isFocus
    rw [isFocus] at next
    exact typed_proceed serves fits control next
  · rename_i isFocus
    rw [isFocus] at next
    exact next.elim

/-- The states a run comes to, one step after another. -/
inductive Visits (start : Progress) : Progress → Prop
  | here : Visits start start
  | step {run : Run} (before : Visits start (.running run)) : Visits start run.step

theorem Visits.typed {start progress} (visits : Visits start progress)
    (typed : start.Typed setting) : progress.Typed setting := by
  induction visits with
  | here => exact typed
  | step _ ih => exact typed_step ih

theorem typed_finish (fuel : Nat) : ∀ {progress : Progress}, progress.Typed setting →
    (finish fuel progress).2.Serves setting ∧
      match (finish fuel progress).1 with
      | .finished value => value.kind = setting.goal
      | .failed error => error.fault.Excused setting.interface (finish fuel progress).2
      | .unfinished => True := by
  induction fuel with
  | zero =>
    intro progress typed
    cases progress with
    | running run => exact ⟨typed.serves.keep _ _, trivial⟩
    | finished value machine => exact typed
    | failed error machine => exact typed
  | succ fuel ih =>
    intro progress typed
    cases progress with
    | running run => exact ih (typed_step typed)
    | finished value machine => exact typed
    | failed error machine => exact typed

end Run

end FragmentCompiler
