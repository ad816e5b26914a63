import FragmentCompiler.Proofs.Reading.Abreast
import FragmentCompiler.Proofs.Reading.Drain

/-!
# Inclusion in place

The stack of buffers does what its name for an include promises: an included buffer stands in the
place of the directive.  Reading in place is said by a recursion in which every buffer is read by
a parser that has nothing else to read: its own tokens one unit after another, and at an include
the included buffer, before the rest.  Draining a parser finds the same units, in the same order
and with the same reports.
-/

set_option autoImplicit false

namespace FragmentCompiler

open List

namespace Parser

/-! ## Reading in place -/

/-- What a parser finds in a buffer that is all it has to read, in at most the given number of
nested steps, with the paths of the buffers around it.  An included buffer is read from its
beginning, without a last token and outside all braces, and then the rest, with the last token
and the braces there were. -/
def inPlace : Nat → List Text → Parser → List SourceUnit × Parser
  | 0, _, parser => ([], parser.abandon)
  | fuel + 1, around, parser =>
    let token := (parser.lookAt 0).1
    if token.kind = .endOfInput then ([], (parser.lookAt 0).2.leave)
    else
      match parser.includes? with
      | none =>
        let (unit, after) := parser.step
        let (units, last) := inPlace fuel around after
        (unit.toList ++ units, last)
      | some name =>
        match (parser.lookAt 0).2.take.2.openIncluded token.span name with
        | (none, opened) => inPlace fuel around opened
        | (some id, opened) =>
          let here := opened.inputs.map Input.path ++ around
          if here.contains (((opened.files.get? id).map Buffer.path).getD []) then
            inPlace fuel around (opened.record
              (.error .includeCycle token.span ("include cycle through " ++ name.quote)))
          else
            let (included, done) := inPlace fuel here
              (enter { opened with inputs := [], lastSpan := Span.none, depth := 0 } id)
            let (units, last) := inPlace fuel around
              { done with
                inputs := opened.inputs, lastSpan := opened.lastSpan, depth := opened.depth }
            (included ++ units, last)

/-! ## Steps and the units they find -/

/-- Steps, with the units they find. -/
inductive Emits : Parser → List SourceUnit → Parser → Prop
  | refl (parser : Parser) : Emits parser [] parser
  | step {before middle after : Parser} {unit : Option SourceUnit} {units : List SourceUnit}
      (run : before.step = (unit, middle)) (more : unit ≠ some .finished)
      (rest : Emits middle units after) : Emits before (unit.toList ++ units) after

variable {before middle after p q : Parser} {units others : List SourceUnit}
  {paths : Finset Text} {size : Nat}

theorem Emits.trans (first : Emits before units middle) (second : Emits middle others after) :
    Emits before (units ++ others) after := by
  induction first with
  | refl parser => exact second
  | step run more _ ih =>
    rw [append_assoc]
    exact .step run more (ih second)

theorem Emits.confined (emits : Emits before units after) (confined : before.Confined paths size) :
    after.Confined paths size := by
  induction emits with
  | refl parser => exact confined
  | step run _ _ ih =>
    have later := (step_moves confined).2
    rw [run] at later
    exact ih later

theorem step_idle (idle : p.inputs = []) : p.step = (some .finished, p) := by
  rw [step, if_pos (List.isEmpty_iff.mpr idle)]

theorem Emits.passed (emits : Emits before units after) (idle : after.inputs = [])
    (passes : Relation.ReflTransGen Passes before middle) : Emits middle units after := by
  induction passes with
  | refl => exact emits
  | tail _ pass ih =>
    cases ih with
    | refl => cases (step_idle idle).symm.trans pass
    | step run _ rest =>
      cases run.symm.trans pass
      exact rest

/-- Draining takes the steps there are. -/
theorem Emits.drains {fuel rest} (drains : Drains fuel before others rest) :
    ∀ {units : List SourceUnit}, Emits before units after → after.inputs = [] →
      others = units ∧ rest = after := by
  induction drains with
  | ended _ found =>
    intro units emits idle
    obtain ⟨turn, passes, ended, _⟩ := found
    cases emits.passed idle passes with
    | refl =>
      cases (step_idle idle).symm.trans ended
      exact ⟨rfl, rfl⟩
    | step run more =>
      cases run.symm.trans ended
      exact absurd rfl more
  | unit _ found more _ ih =>
    intro units emits idle
    obtain ⟨turn, passes, given, _⟩ := found
    cases emits.passed idle passes with
    | refl =>
      cases (step_idle idle).symm.trans given
      exact absurd rfl more
    | step run _ rest =>
      cases run.symm.trans given
      obtain ⟨rfl, last⟩ := ih rest idle
      exact ⟨rfl, last⟩

/-! ## The stack reads in place -/

theorem Alike.refl (parser : Parser) : Alike (some {}) 0 parser parser where
  setting := rfl
  decls := .refl _
  same := fun before isTold => by
    cases isTold
    exact ⟨rfl, (Nat.zero_add _).symm, Array.empty_append.symm,
      (map_id'' Decl.renumbered_id _).symm⟩

theorem Alike.eq (alike : Alike (some {}) 0 p q) (inputs : p.inputs = q.inputs) :
    p = { q with lastSpan := p.lastSpan } := by
  obtain ⟨setting, _, same⟩ := alike
  obtain ⟨wrappers, errors, reports, entries⟩ := same _ rfl
  have decls : q.decls = p.decls :=
    congrArg Declarations.mk (Array.ext' (entries.trans (map_id'' Decl.renumbered_id _)))
  rw [Nat.zero_add] at errors
  rw [Array.empty_append] at reports
  obtain ⟨_, _, _, _, _, _, _, _, _, _, _, _⟩ := p
  obtain ⟨_, _, _, _, _, _, _, _, _, _, _, _⟩ := q
  simp_all [Parser.setting]

/-- The whole of a buffer lies before a parser that enters it. -/
theorem Between.enter {opened other buffer} (alike : Alike (some {}) 0 opened other)
    (flat : opened.depth = 0)
    {id : FileId} (found : opened.files.get? id = some buffer) (span : Span) :
    Between { origin := buffer.toInput id, below := opened.inputs } (opened.enter id)
      (Parser.enter { other with inputs := [], lastSpan := span, depth := 0 } id) := by
  have same : other.files.get? id = some buffer := by rw [alike.files, found]
  have alone : .enter { other with inputs := [], lastSpan := span, depth := 0 } id =
      { other with inputs := [buffer.toInput id], lastSpan := span, depth := 0 } := enter_eq same
  rw [enter_eq found, alone]
  refine ⟨flat, 0, ⟨?_, _, _, rfl, rfl, rfl, fun _ _ => rfl, rfl, [], rfl, rfl⟩, .inl rfl⟩
  have deep : Alike (some {}) 0 { opened with depth := opened.depth } { other with depth := 0 } :=
    alike.setDepth flat.symm
  exact deep.place

variable {origin : Input} {below : List Input} {opened other : Parser}

theorem Abreast.stack (abreast : Abreast { origin, below } 0 opened other) :
    opened.inputs.map Input.path = other.inputs.map Input.path ++ below.map Input.path := by
  obtain ⟨_, input, alone, isInputs, isAlone, beside⟩ := abreast
  rw [isInputs, isAlone, beside.same]
  rfl

/-- After an included buffer the rest is read from where the directive stood. -/
theorem Between.resume (abreast : Abreast { origin, below } 0 opened other)
    (flat : opened.depth = 0) (alike : Alike (some {}) 0 p q) (inputs : p.inputs = opened.inputs)
    (done : p.depth = 0) : Between { origin, below } p
      { q with inputs := other.inputs, lastSpan := other.lastSpan, depth := other.depth } := by
  have deep : other.depth = p.depth := by rw [abreast.alike.depth, flat, done]
  refine ⟨done, 0, ⟨?_, ?_⟩, .inl rfl⟩
  · have kept : Alike (some {}) 0 { p with depth := p.depth } { q with depth := other.depth } :=
      alike.setDepth deep
    exact kept.place
  · rw [inputs]
    exact abreast.place

theorem includeFile_missing {name} {span : Span}
    (missing : p.openIncluded span name = (none, opened)) : p.includeFile span name = opened := by
  rw [includeFile, missing]

theorem includeFile_found {name buffer} {span : Span} {id : FileId}
    (found : p.openIncluded span name = (some id, opened))
    (isBuffer : opened.files.get? id = some buffer) :
    p.includeFile span name = if buffer.path ∈ opened.inputs.map Input.path then
        opened.record (.error .includeCycle span ("include cycle through " ++ name.quote))
      else opened.enter id := by
  rw [includeFile, found]
  dsimp only
  rw [isBuffer]
  refine if_congr ?_ rfl rfl
  simp only [Option.map_some, Option.getD_some, any_eq_true, beq_iff_eq, mem_map]

theorem weight_enter (parser : Parser) (id : FileId) :
    weight paths size parser.inputs ≤ weight paths size (parser.enter id).inputs := by
  unfold enter
  split
  · exact Nat.le_refl _
  · exact Nat.le_add_left _ _

theorem step_lighter {unit} (confined : p.Confined paths size) (run : p.step = (unit, after))
    (more : unit ≠ some .finished) :
    after.Confined paths size ∧
      weight paths (size + 3) after.inputs < weight paths (size + 3) p.inputs := by
  obtain ⟨moves, later⟩ := step_moves confined
  rw [run] at moves later
  exact ⟨later, moves.weight confined more⟩

/-- The steps of a parser up to the end of the current buffer find what reading it in place
finds. -/
theorem inPlace_emits (fuel : Nat) : ∀ {p q : Parser} {origin : Input}
    {below : List Input}, p.Confined paths size → weight paths (size + 3) p.inputs < fuel →
    Between { origin, below } p q →
    ∃ p', p.Emits (inPlace fuel (below.map Input.path) q).1 p' ∧ p'.inputs = below ∧
      Alike (some {}) 0 p' (inPlace fuel (below.map Input.path) q).2 ∧
      (inPlace fuel (below.map Input.path) q).2.inputs = [] ∧ p'.depth = 0 := by
  induction fuel with
  | zero => exact fun _ light => absurd light (Nat.not_lt_zero _)
  | succ fuel ih =>
    intro p q origin below confined light between
    obtain ⟨same, looked⟩ := between.lookAt 0
    rw [inPlace]
    dsimp only
    rw [same]
    split
    · rename_i isEnd
      obtain ⟨flat, _, ⟨alike, input, other, isInputs, isOthers, _⟩, _⟩ := looked
      have busy : p.inputs ≠ [] := by
        intro idle
        rw [lookAt_idle idle, idle] at isInputs
        cases isInputs
      refine ⟨(p.lookAt 0).2.leave, ?_, ?_, alike.place, ?_, flat⟩
      · exact .step (step_leave isEnd busy) (by simp) (.refl _)
      · rw [leave, isInputs]
        rfl
      · rw [leave, isOthers]
        rfl
    · rename_i more
      rw [between.includes?]
      cases includes : p.includes? with
      | none =>
        obtain ⟨unit, p', q', run, other, isMore, after⟩ := between.step confined.lexed more includes
        have unmoved : unit.map (.renumbered (· - 0)) = unit := by
          cases unit with
          | none => rfl
          | some unit => exact congrArg some (SourceUnit.renumbered_id unit)
        obtain ⟨later, lighter⟩ := step_lighter confined run isMore
        obtain ⟨last, emits, ends⟩ := ih later (by omega) after
        rw [other, unmoved]
        exact ⟨last, .step run isMore emits, ends⟩
      | some name =>
        obtain ⟨isDirective, isName⟩ := includes?_eq_some includes
        obtain ⟨passed, flat⟩ := between.directive isDirective
        have run := (step_directive isDirective).trans (directive_of_includedName isName _)
        have taken := (reads_lookAt confined.lexed 0).take
        obtain ⟨_, _, buffered⟩ := openIncluded_sized
          (confined.sized.of_files taken.takes taken.files) (p.lookAt 0).1.span name
        obtain ⟨found, opens, deep⟩ := passed.openIncluded (p.lookAt 0).1.span name
        rw [flat] at deep
        rcases isOpened : (p.lookAt 0).2.take.2.openIncluded (p.lookAt 0).1.span name with
          ⟨_ | id, opened⟩
        all_goals
          rcases isOther : (q.lookAt 0).2.take.2.openIncluded (p.lookAt 0).1.span name with
            ⟨id', other⟩
          rw [isOpened] at found opens deep buffered
          rw [isOther] at found opens
          dsimp only at found opens deep
          subst found
          dsimp only
          rw [isOther]
          dsimp only
        · rw [includeFile_missing isOpened] at run
          obtain ⟨later, lighter⟩ := step_lighter confined run (by simp)
          obtain ⟨last, emits, ends⟩ := ih later (by omega) ⟨deep, 0, opens, .inl rfl⟩
          exact ⟨last, .step run (by simp) emits, ends⟩
        · obtain ⟨buffer, isBuffer, _⟩ := buffered id rfl
          dsimp only at isBuffer
          rw [includeFile_found isOpened isBuffer] at run
          have isSame : other.files.get? id = some buffer := by rw [opens.alike.files, isBuffer]
          rw [isSame, ← opens.stack]
          dsimp only [Option.map_some, Option.getD_some]
          split
          · rename_i inUse
            rw [if_pos (contains_iff_mem.mp inUse)] at run
            obtain ⟨later, lighter⟩ := step_lighter confined run (by simp)
            obtain ⟨last, emits, ends⟩ := ih later (by omega)
              ⟨deep, 0, opens.record _, .inl rfl⟩
            exact ⟨last, .step run (by simp) emits, ends⟩
          · rename_i unused
            rw [if_neg (unused ∘ contains_iff_mem.mpr)] at run
            obtain ⟨later, lighter⟩ := step_lighter confined run (by simp)
            obtain ⟨back, inner, isBack, alike, idle, outside⟩ := ih later (by omega)
              (.enter opens.alike deep isBuffer .none)
            have lower : weight paths (size + 3) back.inputs ≤
                weight paths (size + 3) (opened.enter id).inputs := by
              rw [isBack]
              exact weight_enter opened id
            obtain ⟨last, outer, ends⟩ := ih (inner.confined later) (by omega)
              (.resume opens deep alike isBack outside)
            exact ⟨last, .step run (by simp) (inner.trans outer), ends⟩

theorem step_tail (confined : p.Confined paths size) : p.inputs.tail <:+ p.step.2.inputs := by
  have moves := (step_moves confined).1
  rcases run : p.step with ⟨unit, later⟩
  rw [run] at moves
  dsimp only at moves ⊢
  cases moves with
  | finished inputs =>
    rw [inputs]
    exact nil_suffix
  | leave _ inputs => rw [inputs]
  | read _ consumes =>
    rw [← consumes.1.tail]
    exact tail_suffix _
  | push input _ consumes _ inputs =>
    rw [inputs, ← consumes.1.tail]
    exact (tail_suffix _).trans (suffix_cons _ _)

/-- Draining a parser that has entered a buffer finds what reading the buffer in place finds: the
units of an included buffer stand where the directive stood, and everything is declared, numbered
and reported in that order.  Only the token that was taken last may be another one.  No step
touches a buffer below the current one. -/
theorem drains_in_place (parser : Parser) (id : FileId) :
    let start := enter { parser.abandon with depth := 0 } id
    (∃ bound, ∀ fuel, bound ≤ fuel → ∃ span,
      Drains fuel start (inPlace fuel [] start).1
        { (inPlace fuel [] start).2 with lastSpan := span }) ∧
    ∀ count now, start.Reaches count now → now.inputs.tail <:+ now.step.2.inputs := by
  intro start
  obtain ⟨paths, size, confined⟩ := exists_confined { parser with depth := 0 } [id]
  have isStart : [id].foldl enter (abandon { parser with depth := 0 }) = start := rfl
  rw [isStart] at confined
  refine ⟨⟨weight paths (size + 3) start.inputs + 1, fun fuel enough => ?_⟩,
    fun count now reaches => step_tail (confined.stacked reaches).1⟩
  obtain ⟨units, rest, drains⟩ := confined.drains fuel enough
  obtain ⟨last, emits, idle, alike, ended⟩ : ∃ last, start.Emits (inPlace fuel [] start).1 last ∧
      last.inputs = [] ∧ Alike (some {}) 0 last (inPlace fuel [] start).2 ∧
      (inPlace fuel [] start).2.inputs = [] := by
    cases found : parser.files.get? id with
    | none =>
      have isIdle : start = { parser.abandon with depth := 0 } := by
        show enter { parser.abandon with depth := 0 } id = _
        rw [enter]
        dsimp only [abandon]
        rw [found]
      have idle : start.inputs = [] := by rw [isIdle]; rfl
      have alone : inPlace fuel [] start = ([], start) := by
        obtain ⟨fuel, rfl⟩ := Nat.exists_eq_succ_of_ne_zero (Nat.ne_zero_of_lt enough)
        rw [isIdle]
        rfl
      rw [alone]
      exact ⟨start, .refl start, idle, Alike.refl start, idle⟩
    | some buffer =>
      have between := Between.enter (Alike.refl { parser.abandon with depth := 0 }) rfl found
        parser.lastSpan
      obtain ⟨last, emits, idle, alike, ended, _⟩ := inPlace_emits fuel confined enough between
      exact ⟨last, emits, idle, alike, ended⟩
  obtain ⟨rfl, rfl⟩ := emits.drains drains idle
  exact ⟨rest.lastSpan, alike.eq (idle.trans ended.symm) ▸ drains⟩

end Parser

end FragmentCompiler
