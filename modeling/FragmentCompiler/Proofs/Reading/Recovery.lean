import FragmentCompiler.Proofs.Reading.Inclusion

/-!
# Recovery outside all blocks

A call for a unit never ends inside a block, whatever the tokens are: no brace that was taken is
still open, unless the buffer has ended.  What the calls after it find does not depend on what was
read before, so a parser that starts anew with the tokens that are left finds the same units, up
to the numbers of what it declares.
-/

set_option autoImplicit false

namespace FragmentCompiler

open List

/-! ## Buffers stay -/

/-- No buffer is lost or replaced. -/
def FileSet.Grows (before after : FileSet) : Prop :=
  ∀ id buffer, before.get? id = some buffer → after.get? id = some buffer

theorem FileSet.Grows.refl (files : FileSet) : files.Grows files := fun _ _ => id

theorem FileSet.grows_add (files : FileSet) (path content : Text) (flags : BufferFlags) :
    files.Grows (files.add path content flags).2 := by
  intro id buffer found
  have inside : id < files.buffers.size := (Array.getElem?_eq_some_iff.mp found).1
  unfold FileSet.get? FileSet.add
  rw [Array.getElem?_push, if_neg (Nat.ne_of_lt inside)]
  exact found

namespace Parser

variable {p : Parser}

theorem sought_grows {name} {span : Span} {id : FileId} {files : FileSet}
    (found : p.sought span name = .ok (id, files)) : p.files.Grows files := by
  unfold sought at found
  split at found
  · split at found <;> cases found
    · exact .refl _
    · exact p.files.grows_add _ _ _
  · split at found
    · cases found
    · split at found
      · rename_i isLoaded
        cases found
        unfold FileSet.load at isLoaded
        split at isLoaded
        · cases isLoaded
        · cases isLoaded
          exact p.files.grows_add _ _ _
      · cases found

theorem directive_grows (parser : Parser) (token : Token) :
    parser.files.Grows (parser.directive token).2.files :=
  @directive_keeps parser (fun later => parser.files.Grows later.files) sought_grows
    (fun _ grows => grows) (fun _ grows => by unfold enter; split <;> exact grows) (.refl _) token

theorem step_grows (lexed : p.Lexed) : p.files.Grows p.step.2.files := by
  have looked := reads_lookAt lexed 0
  have steps := step_steps p
  generalize p.step = result at steps ⊢
  cases steps with
  | finished _ => exact .refl _
  | leave _ _ =>
    rw [leave, looked.files]
    exact .refl _
  | directive _ =>
    rw [← looked.take.files]
    exact directive_grows _ _
  | group more text =>
    have glanced := glanced_reads lexed
    obtain ⟨_, _, files, _⟩ := runReader_takes glanced.lexed (glanced_starts more text)
    rw [files, glanced.files]
    exact .refl _

end Parser

/-! ## No brace is open -/

/-- The tokens of a buffer that were taken leave no brace open, or the buffer has ended. -/
def Input.Outside (files : FileSet) (input : Input) : Prop :=
  ∃ buffer taken, files.get? input.file = some buffer ∧
    Lexer.lex input.file buffer.content = taken ++ input.pending ∧
    (Lexer.level taken = 0 ∨ (input.peeked 0).kind = .endOfInput)

/-- The same buffer at the same token. -/
structure Input.Like (told : Option Parser.Told) (input other : Input) : Prop where
  same : other = { input with seen := other.seen }
  seen : ∀ before ∈ told, other.seen = input.seen

theorem Input.Outside.mono {files later} {input : Input} (outside : input.Outside files)
    (grows : files.Grows later) : input.Outside later := by
  obtain ⟨buffer, taken, found, rest⟩ := outside
  exact ⟨buffer, taken, grows _ _ found, rest⟩

theorem SourceUnit.eq_finished {change} {unit : SourceUnit}
    (isEnd : unit.renumbered change = .finished) : unit = .finished := by
  cases unit <;> first | rfl | cases isEnd

namespace Parser

variable {p q : Parser} {course : Course} {base : Nat} {buffer : Buffer} {paths : Finset Text}
  {size : Nat} {told : Option Told}

/-- No brace is open in any buffer that is being read. -/
structure Outside (parser : Parser) : Prop where
  flat : parser.depth = 0
  inputs : ∀ input ∈ parser.inputs, input.Outside parser.files

theorem Between.isOutside (between : Between course p q)
    (found : p.files.get? course.origin.file = some buffer)
    (isWhole : course.origin.pending = Lexer.lex course.origin.file buffer.content)
    (lower : ∀ input ∈ course.below, input.Outside p.files) : p.Outside := by
  obtain ⟨flat, level, ⟨_, input, other, isInputs, _, beside⟩, ends⟩ := between
  obtain ⟨taken, isTaken, isLevel⟩ := beside.taken
  have isFile : input.file = course.origin.file := by rw [beside.begun]
  refine ⟨flat, ?_⟩
  rw [isInputs]
  refine forall_mem_cons.mpr ⟨⟨buffer, taken, ?_, ?_, ?_⟩, lower⟩
  · rw [isFile, found]
  · rw [isFile, ← isWhole, isTaken]
  · rw [lookAt_eq isInputs] at ends
    rw [isLevel]
    exact ends

theorem Outside.enter (outside : p.Outside) (id : FileId) : (p.enter id).Outside := by
  cases found : p.files.get? id with
  | none =>
    rw [Parser.enter, found]
    exact outside
  | some buffer =>
    rw [enter_eq found]
    exact ⟨outside.flat, forall_mem_cons.mpr
      ⟨⟨buffer, [], found, rfl, .inl rfl⟩, outside.inputs⟩⟩

theorem Outside.directive (outside : p.Outside) (token : Token) :
    (p.directive token).2.Outside :=
  directive_keeps (fun found => ⟨outside.flat, fun input member =>
      (outside.inputs input member).mono (sought_grows found)⟩)
    (fun _ outside => ⟨outside.flat, outside.inputs⟩) (fun id outside => outside.enter id) outside token

theorem Outside.step (outside : p.Outside) (confined : p.Confined paths size) :
    p.step.2.Outside := by
  have grows := step_grows confined.lexed
  cases isInputs : p.inputs with
  | nil =>
    rw [step_idle isInputs]
    exact outside
  | cons input below =>
    obtain ⟨flat, inputs⟩ := outside
    rw [isInputs] at inputs
    obtain ⟨⟨buffer, taken, found, isLex, ends⟩, lower⟩ := forall_mem_cons.mp inputs
    have between : Between
        { origin := { input with pending := Lexer.lex input.file buffer.content }
          below
          below' := below } p p := by
      refine ⟨flat, Lexer.level taken, ⟨.refl p, input, input, isInputs, isInputs, rfl,
        fun _ _ => rfl, rfl, taken, isLex, rfl⟩, ?_⟩
      rw [lookAt_eq isInputs]
      exact ends
    by_cases isEnd : (p.lookAt 0).1.kind = .endOfInput
    · rw [step_leave isEnd (by simp [isInputs]), lookAt_eq isInputs]
      exact ⟨flat, lower⟩
    · by_cases isDirective : (p.lookAt 0).1.kind = .directive
      · obtain ⟨taken, deep⟩ := between.directive isDirective
        have files := (reads_lookAt confined.lexed 0).take.files
        rw [step_directive isDirective]
        refine (Between.isOutside ⟨deep, 0, taken, .inl rfl⟩ ?_ rfl ?_).directive _
        · rw [files, found]
        · rw [files]
          exact lower
      · obtain ⟨ids, p', q', run, _, after⟩ := between.group confined.lexed isEnd isDirective
        rw [run] at grows ⊢
        exact after.isOutside (grows _ _ found) rfl fun other member =>
          (lower other member).mono grows

/-! ## A parser that starts anew -/

/-- Between two steps, two parsers have the same to read. -/
structure Matched (told : Option Told) (base : Nat) (p q : Parser) : Prop where
  flat : p.depth = 0
  alike : Alike told base p q
  inputs : List.Forall₂ (Input.Like told) p.inputs q.inputs

theorem Between.matched (between : Between course p q)
    (lower : List.Forall₂ (Input.Like course.told) course.below course.below') :
    Matched course.told course.base p q := by
  obtain ⟨flat, _, ⟨alike, input, other, isInputs, isOthers, beside⟩, _⟩ := between
  refine ⟨flat, alike, ?_⟩
  rw [isInputs, isOthers]
  exact .cons ⟨beside.same, beside.seen⟩ lower

theorem Matched.stack (matched : Matched told base p q) :
    q.inputs.map Input.path = p.inputs.map Input.path := by
  have inputs := matched.inputs
  generalize p.inputs = earlier at inputs ⊢
  generalize q.inputs = later at inputs ⊢
  induction inputs with
  | nil => rfl
  | cons like _ ih => rw [map_cons, map_cons, ih, like.same]

theorem Matched.enter (matched : Matched told base p q) (id : FileId) :
    Matched told base (p.enter id) (q.enter id) := by
  have same := matched.alike.files
  cases found : p.files.get? id with
  | none =>
    rw [Parser.enter, Parser.enter, same, found]
    exact matched
  | some buffer =>
    rw [enter_eq found, enter_eq (by rw [same, found])]
    exact ⟨matched.flat, matched.alike.place, .cons ⟨rfl, fun _ _ => rfl⟩ matched.inputs⟩

theorem Matched.includeFile {name} {span : Span}
    (opens : Matched told base (p.openIncluded span name).2 (q.openIncluded span name).2)
    (found : (q.openIncluded span name).1 = (p.openIncluded span name).1) :
    Matched told base (p.includeFile span name) (q.includeFile span name) := by
  unfold Parser.includeFile
  rcases run : p.openIncluded span name with ⟨id, opened⟩
  rcases run' : q.openIncluded span name with ⟨id', other⟩
  rw [run, run'] at opens found
  dsimp only at opens found
  subst found
  cases id' with
  | none => exact opens
  | some id =>
    have same : ∀ path, (other.inputs.any fun input => input.path == path) =
        opened.inputs.any fun input => input.path == path := by
      intro path
      have known := congrArg (fun paths : List Text => paths.any (· == path)) opens.stack
      simp only [any_map] at known
      exact known
    dsimp only
    rw [opens.alike.files, same]
    split
    · exact ⟨opens.flat, opens.alike.record _, opens.inputs⟩
    · exact opens.enter id

/-- Both parsers take the same step. -/
theorem Matched.step (matched : Matched told base p q) (lexed : p.Lexed) :
    ∃ unit p' q', p.step = (unit, p') ∧
      q.step = (unit.map (SourceUnit.renumbered (· - base)), q') ∧ Matched told base p' q' := by
  obtain ⟨flat, alike, inputs⟩ := matched
  cases isInputs : p.inputs with
  | nil =>
    rw [isInputs] at inputs
    have isOthers : q.inputs = [] := forall₂_nil_left_iff.mp inputs
    refine ⟨_, _, _, step_idle isInputs, step_idle isOthers, flat, alike, ?_⟩
    rw [isInputs, isOthers]
    exact .nil
  | cons input below =>
    rw [isInputs] at inputs
    obtain ⟨other, below', like, lower, isOthers⟩ := forall₂_cons_left_iff.mp inputs
    have between : Between ⟨told, base, input, below, below'⟩ p q :=
      ⟨flat, 0, ⟨alike, input, other, isInputs, isOthers, like.same, like.seen, rfl, [], rfl, rfl⟩,
        .inl rfl⟩
    obtain ⟨same, looked⟩ := between.lookAt 0
    by_cases isEnd : (p.lookAt 0).1.kind = .endOfInput
    · refine ⟨none, _, _, step_leave isEnd (by simp [isInputs]),
        step_leave (by rw [same]; exact isEnd) (by simp [isOthers]), ?_⟩
      obtain ⟨flat, _, ⟨alike, _⟩, _⟩ := looked
      refine ⟨flat, alike.place, ?_⟩
      rw [lookAt_eq isInputs, lookAt_eq isOthers]
      exact lower
    · cases includes : p.includes? with
      | none =>
        obtain ⟨unit, p', q', run, other, _, after⟩ := between.step lexed isEnd includes
        exact ⟨unit, p', q', run, other, after.matched lower⟩
      | some name =>
        obtain ⟨isDirective, isName⟩ := includes?_eq_some includes
        obtain ⟨passed, flat⟩ := between.directive isDirective
        obtain ⟨found, opens, deep⟩ := passed.openIncluded (p.lookAt 0).1.span name
        rw [step_directive isDirective, step_directive (by rw [same]; exact isDirective), same,
          directive_of_includedName isName, directive_of_includedName isName]
        refine ⟨none, _, _, rfl, rfl, .includeFile ?_ found⟩
        exact Between.matched ⟨deep.trans flat, 0, opens, .inl rfl⟩ lower

theorem Matched.nextUnit (fuel : Nat) : ∀ {p q : Parser}, Matched told base p q → p.Lexed →
    ∃ unit p' q', nextUnit fuel p = (unit, p') ∧
      nextUnit fuel q = (unit.renumbered (· - base), q') ∧ Matched told base p' q' := by
  induction fuel with
  | zero =>
    intro p q matched _
    exact ⟨.finished, _, _, rfl, rfl, matched.flat, matched.alike.place, .nil⟩
  | succ fuel ih =>
    intro p q matched lexed
    have takes := (step_takes lexed).1
    obtain ⟨unit, p', q', run, other, later⟩ := matched.step lexed
    unfold Parser.nextUnit
    rw [run] at takes
    rw [run, other]
    cases unit with
    | none => exact ih later takes.lexed
    | some unit => exact ⟨unit, p', q', rfl, rfl, later⟩

theorem Matched.drains {units rest others rest'} {fuel : Nat} (matched : Matched told base p q)
    (lexed : p.Lexed) (drains : Drains fuel p units rest) (drains' : Drains fuel q others rest') :
    others = units.map (SourceUnit.renumbered (· - base)) ∧ Matched told base rest rest' := by
  induction drains generalizing q others with
  | ended call _ =>
    obtain ⟨unit, p', q', run, other, later⟩ := matched.nextUnit fuel lexed
    cases run.symm.trans call
    cases drains' with
    | ended call' _ =>
      cases other.symm.trans call'
      exact ⟨rfl, later⟩
    | unit call' _ more _ =>
      cases other.symm.trans call'
      exact absurd rfl more
  | unit call _ more _ ih =>
    have takes := (nextUnit_takes fuel _ lexed).1
    obtain ⟨unit, p', q', run, other, later⟩ := matched.nextUnit fuel lexed
    cases run.symm.trans call
    rw [run] at takes
    cases drains' with
    | ended call' _ =>
      exact absurd (SourceUnit.eq_finished (congrArg Prod.fst (other.symm.trans call'))) more
    | unit call' _ _ rest =>
      cases other.symm.trans call'
      obtain ⟨rfl, last⟩ := ih later takes.lexed rest
      exact ⟨rfl, last⟩

/-- A parser that has declared and reported nothing and starts with the tokens that are left. -/
def renewed (parser : Parser) : Parser :=
  { parser with
    inputs := parser.inputs.map fun input => { input with seen := 0 }
    decls := {}, wrappers := 0, depth := 0, lastSpan := Span.none, errors := 0, reports := #[] }

theorem renewed_matched (flat : p.depth = 0) : Matched none p.decls.count p p.renewed := by
  refine ⟨flat, ⟨?_, ⟨rfl, ?_⟩, nofun⟩, ?_⟩
  · unfold renewed setting
    rw [flat]
  · simp [Declarations.count, renewed]
  · unfold renewed
    dsimp only
    induction p.inputs with
    | nil => exact .nil
    | cons input below ih => exact .cons ⟨rfl, nofun⟩ ih

theorem renewed_confined (confined : p.Confined paths size) : p.renewed.Confined paths size where
  lexed := by
    intro input member lexeme inPending
    obtain ⟨original, isOriginal, rfl⟩ := mem_map.mp member
    exact confined.lexed original isOriginal lexeme inPending
  sized := ⟨confined.sized.buffers, confined.sized.virtuals, confined.sized.files⟩
  paths := confined.paths

/-! ## Calls -/

/-- A call that finds a unit. -/
def Calls (before after : Parser) : Prop :=
  ∃ fuel unit, before.nextUnit fuel = (unit, after) ∧ unit ≠ .finished

theorem Calls.of_unit {parser} (fuel : Nat) (found : (parser.nextUnit fuel).1 ≠ .finished) :
    Calls parser (parser.nextUnit fuel).2 := ⟨fuel, (parser.nextUnit fuel).1, rfl, found⟩

theorem Outside.nextUnit (fuel : Nat) : ∀ {parser : Parser}, parser.Outside →
    parser.Confined paths size → (Parser.nextUnit fuel parser).1 ≠ .finished →
    (Parser.nextUnit fuel parser).2.Outside ∧
      (Parser.nextUnit fuel parser).2.Confined paths size := by
  induction fuel with
  | zero => exact fun _ _ more => absurd rfl more
  | succ fuel ih =>
    intro parser outside confined more
    have after := outside.step confined
    have later := (step_moves confined).2
    unfold Parser.nextUnit at more ⊢
    rcases run : parser.step with ⟨_ | unit, passed⟩ <;> rw [run] at after later more
    · exact ih after later more
    · exact ⟨after, later⟩

/-- However broken the text is, a call that returns a unit ends outside all braces.  In each of
the buffers that are being read the tokens taken so far leave no brace open, unless that buffer has
ended, and the units found from then on are those of a parser that starts anew with the tokens
that are left, up to the numbers of declarations and the names of wrappers. -/
theorem calls_end_outside (parser : Parser) (buffers : List FileId) :
    let start := buffers.foldl enter { parser.abandon with depth := 0 }
    ∀ now, Relation.ReflTransGen Calls start now →
      now.depth = 0 ∧ (∀ input ∈ now.inputs, input.Outside now.files) ∧
      ∃ bound, ∀ fuel, bound ≤ fuel → ∃ units rest rest',
        Drains fuel now units rest ∧
        Drains fuel now.renewed
          (units.map (SourceUnit.renumbered (· - now.decls.count))) rest' ∧
        rest.decls.Shifted now.decls.count rest'.decls := by
  intro start now calls
  obtain ⟨paths, size, confined⟩ := exists_confined { parser with depth := 0 } buffers
  have isStart : buffers.foldl enter (abandon { parser with depth := 0 }) = start := rfl
  rw [isStart] at confined
  have begun : start.Outside := by
    rw [← isStart]
    have idle : Outside (abandon { parser with depth := 0 }) :=
      ⟨rfl, fun _ member => absurd member List.not_mem_nil⟩
    generalize abandon { parser with depth := 0 } = first at idle
    clear confined isStart calls
    induction buffers generalizing first with
    | nil => exact idle
    | cons id _ ih => exact ih _ (idle.enter id)
  obtain ⟨outside, later⟩ : now.Outside ∧ now.Confined paths size := by
    induction calls with
    | refl => exact ⟨begun, confined⟩
    | tail _ call ih =>
      obtain ⟨fuel, unit, run, more⟩ := call
      have after := ih.1.nextUnit fuel ih.2
      rw [run] at after
      exact after more
  refine ⟨outside.flat, outside.inputs, ?_⟩
  refine ⟨weight paths (size + 3) now.inputs + weight paths (size + 3) now.renewed.inputs + 1,
    fun fuel enough => ?_⟩
  obtain ⟨units, rest, drains⟩ := later.drains fuel (by omega)
  obtain ⟨others, rest', drains'⟩ := (renewed_confined later).drains fuel (by omega)
  obtain ⟨rfl, last⟩ := (renewed_matched outside.flat).drains later.lexed drains drains'
  exact ⟨units, rest, rest', drains, drains', last.alike.decls⟩

/-- A parser about to read a function with a broken body and a statement behind it. -/
def brokenBody : Parser :=
  [0].foldl enter
    { abandon { files := (FileSet.add {} "a" "void f() \x7b ( \x7d x;" {}).2 } with depth := 0 }

theorem calls_end_outside_broken_body :
    let now := (brokenBody.nextUnit 2).2
    (brokenBody.nextUnit 2).1 = .group [] ∧ now.depth = 0 ∧
      (∀ input ∈ now.inputs, input.Outside now.files) ∧
      ∃ bound, ∀ fuel, bound ≤ fuel → ∃ units rest rest', Drains fuel now units rest ∧
        Drains fuel now.renewed (units.map (SourceUnit.renumbered (· - now.decls.count))) rest' ∧
        rest.decls.Shifted now.decls.count rest'.decls := by
  have recovered : (brokenBody.nextUnit 2).1 = .group [] := by decide +kernel
  have call : Calls brokenBody (brokenBody.nextUnit 2).2 :=
    .of_unit 2 fun ended => SourceUnit.noConfusion (recovered.symm.trans ended)
  generalize (brokenBody.nextUnit 2).2 = now at call
  exact ⟨recovered, calls_end_outside _ [0] now (.single call)⟩

end Parser

end FragmentCompiler
