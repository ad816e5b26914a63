import FragmentCompiler.Proofs.Reading.Grammar

/-!
# Reading units

Between two units a parser skips what is broken, follows includes and leaves buffers.
None of that touches the table, and every group it gives is raw.
-/

set_option autoImplicit false

namespace FragmentCompiler.Parser

open List

variable {parser : Parser}

/-! ## Between units -/

theorem Takes.of_fields {before after : Parser} (lexed : after.Lexed)
    (surroundings : after.surroundings = before.surroundings := by rfl)
    (decls : after.decls = before.decls := by rfl)
    (reports : after.reports = before.reports := by rfl) : before.Takes after where
  surroundings
  lexed
  count := Nat.le_of_eq (by rw [decls])
  kept := fun _ _ => by rw [decls]
  made := by
    intro id above below
    rw [decls] at below
    exact absurd above (Nat.not_lt.mpr below)
  reports := ⟨[], by rw [reports, append_nil], forall_mem_nil _⟩

theorem skip_keeps {Keeps : Parser → Prop} (look : ∀ p, Keeps p → Keeps (p.lookAt 0).2)
    (take : ∀ p, Keeps p → Keeps p.take.2) (fuel : Nat) :
    ∀ (depth : Nat) {parser : Parser}, Keeps parser → Keeps (skip fuel depth parser) := by
  induction fuel with
  | zero => exact fun _ _ holds => holds
  | succ fuel ih =>
    intro depth parser holds
    have looked := look _ holds
    have taken := take _ looked
    unfold skip
    dsimp only
    split
    · exact looked
    · split
      · exact taken
      · exact ih _ taken
    · exact ih _ taken
    · split
      · exact taken
      · exact ih _ taken
    · split
      · exact looked
      · exact ih _ taken
    · exact ih _ taken

theorem skip_reads (fuel depth : Nat) (parser : Parser) (lexed : parser.Lexed) :
    parser.Reads [] (skip fuel depth parser) :=
  skip_keeps (fun _ reads => reads.lookAt 0) (fun _ reads => reads.take) fuel depth (.refl lexed)

theorem recover_reads (lexed : parser.Lexed) : parser.Reads [] parser.recover := by
  have flat : parser.Reads [] { parser with depth := 0 } :=
    .of_fields lexed (.refl _) [] (append_nil _).symm (by simp)
  exact flat.trans (skip_reads _ _ _ flat.lexed)

theorem leave_takes (lexed : parser.Lexed) : parser.Takes parser.leave :=
  .of_fields fun input member => lexed input (mem_of_mem_tail member)

theorem Lexed.enter (lexed : parser.Lexed) (id : FileId) : (parser.enter id).Lexed := by
  unfold Parser.enter
  split
  · exact lexed
  · rename_i buffer _
    exact forall_mem_cons.mpr ⟨Lexer.lex_faults id buffer.content, lexed⟩

theorem enter_takes (lexed : parser.Lexed) (id : FileId) : parser.Takes (parser.enter id) := by
  have later := lexed.enter id
  unfold Parser.enter at later ⊢
  split
  · exact .refl lexed
  · rename_i buffer isBuffer
    simp only [isBuffer] at later
    exact .of_fields later

theorem abandon_takes (parser : Parser) : parser.Takes parser.abandon :=
  .of_fields (forall_mem_nil _)

theorem drop_takes (lexed : parser.Lexed) (count : Nat) :
    parser.Takes { parser with inputs := parser.inputs.drop count } :=
  .of_fields fun input member => lexed input (mem_of_mem_drop member)

theorem record_takes (lexed : parser.Lexed) (diagnostic : Diagnostic)
    (text : diagnostic.FromText) : parser.Takes (parser.record diagnostic) :=
  (reads_record lexed diagnostic text).takes

theorem files_takes (lexed : parser.Lexed) (files : FileSet) :
    parser.Takes { parser with files } :=
  .of_fields lexed

/-! ## Directives -/

/-- What an include finds: a buffer, with the buffers there are then, or an error. -/
def sought (parser : Parser) (span : Span) (name : Text) : Except Diagnostic (FileId × FileSet) :=
  match parser.virtuals.lookup name with
  | some content =>
    .ok (match parser.files.latest? name with
      | some id => (id, parser.files)
      | none => parser.files.addVirtual name content)
  | none =>
    match (parser.candidates name).find? parser.tree.isFile with
    | none => .error (.error .includeNotFound span ("include file " ++ name.quote ++ " not found"))
    | some path =>
      match parser.files.load parser.tree path with
      | .ok found => .ok found
      | .error fault =>
        .error (.error .includeNotFound span ("cannot read " ++ name.quote ++ ": " ++ fault.message))

theorem openIncluded_eq (parser : Parser) (span : Span) (name : Text) :
    parser.openIncluded span name = match parser.sought span name with
      | .ok (id, files) => (some id, { parser with files })
      | .error diagnostic => (none, parser.record diagnostic) := by
  unfold openIncluded sought
  cases parser.virtuals.lookup name with
  | some content => cases parser.files.latest? name <;> rfl
  | none =>
    cases (parser.candidates name).find? parser.tree.isFile with
    | none => rfl
    | some path =>
      dsimp only
      cases parser.files.load parser.tree path <;> rfl

theorem sought_text {name diagnostic} {span : Span}
    (missing : parser.sought span name = .error diagnostic) : diagnostic.FromText := by
  have text : Code.includeNotFound.number < 4000 := by decide
  unfold sought at missing
  split at missing
  · cases missing
  · split at missing
    · cases missing
      exact text
    · split at missing
      · cases missing
      · cases missing
        exact text

def includeArgument : Text → Except Text Text
  | 34 :: byte :: rest =>
    if (byte :: rest).contains 34 then .ok ((byte :: rest).takeWhile (· != 34))
    else .error "unterminated include path"
  | _ => .error "expected #include \"file\""

theorem includeDirective_eq (parser : Parser) (span : Span) (argument : Text) :
    parser.includeDirective span argument = match includeArgument argument with
      | .ok name => parser.includeFile span name
      | .error message => parser.record (.error .badDirective span message) := by
  fun_cases includeArgument argument with
  | case1 byte rest closed =>
    rw [includeDirective]
    exact if_pos closed
  | case2 byte rest unclosed =>
    rw [includeDirective]
    exact if_neg unclosed
  | case3 unquoted =>
    rw [includeDirective]
    exact ‹_›

def includedName (token : Token) : Option Text :=
  let (name, after) := Text.cut 32 (directiveBody token)
  if name == "include" then (includeArgument (after.getD []).trim).toOption else none

/-- All that a directive can do; pragmas may be taken or not. -/
inductive Directs (taken : Bool) (token : Token) : Prop
  | included (name : Text) (isName : includedName token = some name)
      (run : ∀ parser : Parser,
        parser.directive token = (none, parser.includeFile token.span name))
  | pragma (key value : Text) (span : Span) (unnamed : includedName token = none)
      (run : ∀ parser : Parser, parser.takesPragmas = taken →
        parser.directive token = (some (.pragma key value span), parser))
  | remark (diagnostic : Diagnostic) (text : diagnostic.FromText)
      (unnamed : includedName token = none)
      (run : ∀ parser : Parser, parser.takesPragmas = taken →
        parser.directive token = (none, parser.record diagnostic))

theorem directive_directs (taken : Bool) (token : Token) : Directs taken token := by
  have bad : Code.badDirective.number < 4000 := by decide
  have unknown : Code.unknownPragma.number < 4000 := by decide
  rcases isPieces : Text.cut 32 (directiveBody token) with ⟨name, after⟩
  by_cases isInclude : (name == "include") = true
  · cases isArgument : includeArgument (after.getD []).trim with
    | ok file =>
      refine .included file ?_ fun parser => ?_
      · simp [includedName, isPieces, isInclude, isArgument, Except.toOption]
      · simp [directive, isPieces, isInclude, includeDirective_eq, isArgument]
    | error message =>
      refine .remark (.error .badDirective token.span message) bad ?_ fun parser _ => ?_
      · simp [includedName, isPieces, isInclude, isArgument, Except.toOption]
      · simp [directive, isPieces, isInclude, includeDirective_eq, isArgument]
  · have unnamed : includedName token = none := by simp [includedName, isPieces, isInclude]
    by_cases isPragma : (name == "pragma") = true
    · have opened : ∀ parser : Parser, parser.directive token =
          parser.pragmaDirective token.span (after.getD []).trim := by
        intro parser
        simp [directive, isPieces, isInclude, isPragma]
      have remark : ∀ diagnostic : Diagnostic, diagnostic.code.number < 4000 →
          (∀ parser : Parser, parser.takesPragmas = taken →
            parser.pragmaDirective token.span (after.getD []).trim =
              (none, parser.record diagnostic)) → Directs taken token :=
        fun diagnostic text run => .remark diagnostic text unnamed fun parser takes =>
          (opened parser).trans (run parser takes)
      rcases isWords : (after.getD []).trim.words with _ | ⟨owner, rest⟩
      · refine remark (.warning .unknownPragma token.span "unknown pragma ignored") unknown
          fun parser _ => ?_
        simp [pragmaDirective, isWords]
      · by_cases isOwner : (owner == "kiln") = true
        · by_cases isPair : ∃ key value, rest = [key, value]
          · obtain ⟨key, value, rfl⟩ := isPair
            cases taken with
            | true =>
              refine .pragma key value token.span unnamed fun parser takes => ?_
              simp [opened, pragmaDirective, isWords, isOwner, takes]
            | false =>
              refine remark (.warning .unknownPragma token.span
                ("pragma " ++ key.quote ++ " has no effect here")) unknown fun parser takes => ?_
              simp [pragmaDirective, isWords, isOwner, takes]
          · refine remark (.error .badDirective token.span "expected #pragma kiln <key> <value>")
              bad fun parser _ => ?_
            rw [pragmaDirective, isWords]
            dsimp only
            rw [if_pos isOwner]
            split
            · exact absurd ⟨_, _, rfl⟩ isPair
            · rfl
        · refine remark (.warning .unknownPragma token.span "unknown pragma ignored") unknown
            fun parser _ => ?_
          simp [pragmaDirective, isWords, isOwner]
    · refine .remark (.error .badDirective token.span ("unknown directive '#" ++ name ++ "'")) bad
        unnamed fun parser _ => ?_
      simp [directive, isPieces, isInclude, isPragma]

/-- What is kept where a buffer is found, on a report and on entering is kept by a directive. -/
theorem directive_keeps {Keeps : Parser → Prop}
    (find : ∀ {span name id files}, parser.sought span name = .ok (id, files) →
      Keeps { parser with files })
    (record : ∀ {p diagnostic}, diagnostic.FromText → Keeps p → Keeps (p.record diagnostic))
    (enter : ∀ {p} id, Keeps p → Keeps (p.enter id)) (holds : Keeps parser) (token : Token) :
    Keeps (parser.directive token).2 := by
  cases directive_directs parser.takesPragmas token with
  | included name _ run =>
    have opened : Keeps (parser.openIncluded token.span name).2 := by
      rw [openIncluded_eq]
      split
      · exact find ‹_›
      · exact record (sought_text ‹_›) holds
    rw [run, includeFile]
    rcases isOpened : parser.openIncluded token.span name with ⟨_ | id, later⟩ <;>
      rw [isOpened] at opened
    · exact opened
    · dsimp only
      split
      · exact record (by decide : Code.includeCycle.number < 4000) opened
      · exact enter id opened
  | pragma _ _ _ _ run =>
    rw [run parser rfl]
    exact holds
  | remark diagnostic text _ run =>
    rw [run parser rfl]
    exact record text holds

theorem directive_takes (lexed : parser.Lexed) (token : Token) :
    parser.Takes (parser.directive token).2 :=
  directive_keeps (fun _ => files_takes lexed _)
    (fun text takes => takes.trans (record_takes takes.lexed _ text))
    (fun id takes => takes.trans (enter_takes takes.lexed id)) (.refl lexed) token

theorem directive_of_includedName {token name} (isName : includedName token = some name)
    (parser : Parser) : parser.directive token = (none, parser.includeFile token.span name) := by
  cases directive_directs parser.takesPragmas token with
  | included other isOther run =>
    cases isName.symm.trans isOther
    exact run parser
  | pragma _ _ _ unnamed => cases isName.symm.trans unnamed
  | remark _ _ unnamed => cases isName.symm.trans unnamed

theorem directive_unit {token unit} (given : (parser.directive token).1 = some unit) :
    (∃ key value span, unit = .pragma key value span) ∧ (parser.directive token).2 = parser := by
  cases directive_directs parser.takesPragmas token with
  | included name _ run =>
    rw [run] at given
    cases given
  | pragma key value span _ run =>
    rw [run parser rfl] at given ⊢
    cases given
    exact ⟨⟨key, value, span, rfl⟩, rfl⟩
  | remark diagnostic _ _ run =>
    rw [run parser rfl] at given
    cases given

/-! ## Units -/

def RawUnit (decls : Declarations) (base : Nat) (unit : SourceUnit) : Prop :=
  ∀ group, unit = .group group → decls.RawGroup base group

theorem runReader_takes {wraps reader} (lexed : parser.Lexed)
    (starts : parser.Starts wraps reader) : parser.Takes (parser.runReader reader).2 ∧
      Input.Ahead parser.inputs (parser.runReader reader).2.inputs ∧
      (parser.runReader reader).2.files = parser.files ∧
      (parser.runReader reader).2.decls.RawGroup parser.decls.count (parser.runReader reader).1 ∧
      (wraps ∨ ∀ id ∈ (parser.runReader reader).1,
        (parser.runReader reader).2.decls.IsPlain id) ∧
      (parser.runReader reader).2.decls.Together (parser.runReader reader).1 := by
  have ran := starts.ran lexed
  unfold runReader
  generalize reader parser = result at ran ⊢
  cases ran with
  | done groups _ =>
    exact ⟨groups.takes, groups.ahead, groups.files, groups.raw, groups.plain,
      groups.together⟩
  | failed reads =>
    have all := reads.then (recover_reads reads.lexed)
    exact ⟨all.takes, all.ahead, all.files, .nil _, .inr (by simp), nofun⟩

/-- Tokens of the current buffer were taken; the other buffers stay as they are. -/
def Consumes (before after : Parser) : Prop :=
  Input.Ahead before.inputs after.inputs ∧ after.remaining < before.remaining

theorem lookAt_of_ahead {before after : Parser} (ahead : Input.Ahead before.inputs after.inputs)
    (unread : before.remaining ≤ after.remaining) (index : Nat) :
    (after.lookAt index).1 = (before.lookAt index).1 := by
  generalize isEarlier : before.inputs = earlier at ahead
  generalize isLater : after.inputs = later at ahead
  cases ahead with
  | nil => rw [lookAt_idle isEarlier, lookAt_idle isLater]
  | within input below seen rest =>
    have whole := rest.eq_of_length_le (by simpa [remaining, isEarlier, isLater] using unread)
    rw [lookAt_eq isEarlier, lookAt_eq isLater, Input.peeked, Input.peeked, whole]

variable {parser : Parser}

theorem take_consumes (lexed : parser.Lexed)
    (more : (parser.lookAt 0).1.kind ≠ .endOfInput) : parser.Consumes parser.take.2 := by
  have taken := remaining_take more
  exact ⟨(reads_take lexed).ahead, by omega⟩

theorem Consumes.after {first second third : Parser}
    (ahead : Input.Ahead first.inputs second.inputs) (consumes : second.Consumes third) :
    first.Consumes third :=
  ⟨ahead.trans consumes.1, Nat.lt_of_lt_of_le consumes.2 (remaining_le ahead)⟩

theorem Consumes.before {first second third : Parser} (consumes : first.Consumes second)
    (ahead : Input.Ahead second.inputs third.inputs) : first.Consumes third :=
  ⟨consumes.1.trans ahead, Nat.lt_of_le_of_lt (remaining_le ahead) consumes.2⟩

section

variable (lexed : parser.Lexed) (more : (parser.lookAt 0).1.kind ≠ .endOfInput)
  (text : (parser.lookAt 0).1.kind ≠ .directive)

include lexed more text

theorem skip_consumes {fuel depth : Nat} (some : 0 < fuel) :
    parser.Consumes (skip fuel depth parser) := by
  obtain ⟨fuel, rfl⟩ := Nat.exists_eq_succ_of_ne_zero (Nat.ne_of_gt some)
  have looked := reads_lookAt lexed 0
  have taken : parser.Consumes (parser.lookAt 0).2.take.2 :=
    (take_consumes looked.lexed (by rw [lookAt_lookAt]; exact more)).after looked.ahead
  have further : ∀ depth, parser.Consumes (skip fuel depth (parser.lookAt 0).2.take.2) :=
    fun depth => taken.before (skip_reads fuel depth _ (reads_take looked.lexed).lexed).ahead
  unfold skip
  dsimp only
  split
  · rename_i isEnd
    exact absurd isEnd more
  · split
    · exact taken
    · exact further _
  · exact further _
  · split
    · exact taken
    · exact further _
  · rename_i isDirective
    exact absurd isDirective text
  · exact further _

theorem recover_consumes : parser.Consumes parser.recover := by
  have flat : Input.Ahead parser.inputs { parser with depth := 0 }.inputs := .refl _
  have same := lookAt_of_ahead flat (Nat.le_refl _) 0
  have left := remaining_take more
  have skipped : Consumes { parser with depth := 0 } parser.recover :=
    skip_consumes (show Lexed { parser with depth := 0 } from lexed) (by rw [same]; exact more)
      (by rw [same]; exact text) (by omega)
  exact skipped.after flat

/-- A declaration that cannot be read may be refused at its first token; then that token is
skipped. -/
theorem runReader_consumes {wraps reader} (starts : parser.Starts wraps reader) :
    parser.Consumes (parser.runReader reader).2 := by
  have ran := starts.ran lexed
  unfold runReader
  generalize reader parser = result at ran ⊢
  cases ran with
  | done groups spent => exact ⟨groups.ahead, spent⟩
  | @failed _ later reads =>
    by_cases unread : parser.remaining ≤ later.remaining
    · have same := lookAt_of_ahead reads.ahead unread 0
      exact (recover_consumes reads.lexed (by rw [same]; exact more)
        (by rw [same]; exact text)).after reads.ahead
    · have consumed : parser.Consumes later := ⟨reads.ahead, Nat.lt_of_not_le unread⟩
      exact consumed.before (recover_reads reads.lexed).ahead

end

/-! ## Steps -/

/-- The parser after it looked far enough to tell which unit begins. -/
def glanced (parser : Parser) : Parser :=
  if (parser.lookAt 0).1.kind.isType then ((parser.lookAt 0).2.lookAt 1).2
  else (parser.lookAt 0).2

def declares (parser : Parser) : Bool :=
  (parser.lookAt 0).1.kind.isType && (parser.lookAt 1).1.kind = .name

def unitReader (parser : Parser) (declares : Bool) : Reader Group :=
  if declares then Reader.declaration parser.nesting
  else (fun id => [id]) <$> Reader.wrapper parser.nesting

theorem lookAt_glanced (parser : Parser) (index : Nat) :
    (parser.glanced.lookAt index).1 = (parser.lookAt index).1 := by
  unfold glanced
  split
  · rw [lookAt_lookAt, lookAt_lookAt]
  · rw [lookAt_lookAt]

theorem glanced_reads (lexed : parser.Lexed) : parser.Reads [] parser.glanced := by
  have looked := reads_lookAt lexed 0
  unfold glanced
  split
  · exact looked.lookAt 1
  · exact looked

theorem step_leave (isEnd : (parser.lookAt 0).1.kind = .endOfInput) (busy : parser.inputs ≠ []) :
    parser.step = (none, (parser.lookAt 0).2.leave) := by
  rw [step, if_neg (busy ∘ List.isEmpty_iff.mp)]
  dsimp only
  rw [isEnd]

theorem step_directive (isDirective : (parser.lookAt 0).1.kind = .directive) :
    parser.step = (parser.lookAt 0).2.take.2.directive (parser.lookAt 0).1 := by
  obtain ⟨input, below, isInputs, _⟩ := busy_of_more (by rw [isDirective]; simp)
  rw [step, if_neg (by simp [isInputs])]
  dsimp only
  rw [isDirective]

section

variable (more : (parser.lookAt 0).1.kind ≠ .endOfInput)
  (text : (parser.lookAt 0).1.kind ≠ .directive)

include more text

theorem glanced_starts :
    parser.glanced.Starts True (parser.glanced.unitReader parser.declares) := by
  unfold unitReader
  split
  · rename_i isDeclared
    refine .declaration ?_
    rw [take_fst, lookAt_glanced]
    exact (Bool.and_eq_true_iff.mp isDeclared).1
  · rename_i undeclared
    refine .wrapper trivial ⟨?_, ?_, fun typed => ?_⟩
    · rw [lookAt_glanced]
      exact more
    · rw [lookAt_glanced]
      exact text
    · rw [lookAt_glanced] at typed ⊢
      simpa [declares, typed] using undeclared

theorem step_group :
    parser.step = (some (.group (parser.glanced.runReader
      (parser.glanced.unitReader parser.declares)).1),
      (parser.glanced.runReader (parser.glanced.unitReader parser.declares)).2) := by
  obtain ⟨input, below, isInputs, _⟩ := busy_of_more more
  unfold step glanced declares unitReader
  rw [if_neg (by simp [isInputs])]
  dsimp only
  split
  · exact absurd ‹_› more
  · exact absurd ‹_› text
  · by_cases typed : (parser.lookAt 0).1.kind.isType = true
    · simp only [typed, if_true, lookAt_lookAt]
    · simp only [typed, Bool.false_and, if_false, Bool.false_eq_true]

end

/-- All that a step can do. -/
inductive Steps (parser : Parser) : Option SourceUnit × Parser → Prop
  | finished (inputs : parser.inputs = []) : Steps parser (some .finished, parser)
  | leave (kind : (parser.lookAt 0).1.kind = .endOfInput) (busy : parser.inputs ≠ []) :
      Steps parser (none, (parser.lookAt 0).2.leave)
  | directive (kind : (parser.lookAt 0).1.kind = .directive) :
      Steps parser ((parser.lookAt 0).2.take.2.directive (parser.lookAt 0).1)
  | group (more : (parser.lookAt 0).1.kind ≠ .endOfInput)
      (text : (parser.lookAt 0).1.kind ≠ .directive) :
      Steps parser (some (.group (parser.glanced.runReader
        (parser.glanced.unitReader parser.declares)).1),
        (parser.glanced.runReader (parser.glanced.unitReader parser.declares)).2)

theorem step_steps (parser : Parser) : parser.Steps parser.step := by
  by_cases idle : parser.inputs = []
  · rw [step, if_pos (List.isEmpty_iff.mpr idle)]
    exact .finished idle
  · by_cases isEnd : (parser.lookAt 0).1.kind = .endOfInput
    · rw [step_leave isEnd idle]
      exact .leave isEnd idle
    · by_cases isDirective : (parser.lookAt 0).1.kind = .directive
      · rw [step_directive isDirective]
        exact .directive isDirective
      · rw [step_group isEnd isDirective]
        exact .group isEnd isDirective

theorem step_takes (lexed : parser.Lexed) :
    parser.Takes parser.step.2 ∧
      ∀ unit, parser.step.1 = some unit → RawUnit parser.step.2.decls parser.decls.count unit := by
  have steps := step_steps parser
  have looked := reads_lookAt lexed 0
  generalize parser.step = result at steps ⊢
  cases steps with
  | finished inputs =>
    refine ⟨.refl lexed, fun unit isUnit group isGroup => ?_⟩
    cases isUnit
    cases isGroup
  | leave kind => exact ⟨looked.takes.trans (leave_takes looked.lexed), by simp⟩
  | directive kind =>
    have taken := looked.take
    refine ⟨taken.takes.trans (directive_takes taken.lexed _), fun unit isUnit group isGroup => ?_⟩
    obtain ⟨⟨key, value, span, isPragma⟩, _⟩ := directive_unit isUnit
    rw [isPragma] at isGroup
    cases isGroup
  | group more text =>
    have reads := glanced_reads lexed
    obtain ⟨takes, _, _, raw, _⟩ := runReader_takes reads.lexed (glanced_starts more text)
    refine ⟨reads.takes.trans takes, fun unit isUnit group isGroup => ?_⟩
    cases isUnit
    cases isGroup
    exact raw.congr reads.count fun _ _ _ => rfl

theorem step_together (lexed : parser.Lexed) {group : Group}
    (isGroup : parser.step.1 = some (.group group)) : parser.step.2.decls.Together group := by
  have steps := step_steps parser
  generalize parser.step = result at steps isGroup ⊢
  cases steps with
  | finished | leave => cases isGroup
  | directive =>
    obtain ⟨⟨_, _, _, isPragma⟩, _⟩ := directive_unit isGroup
    cases isPragma
  | group more text =>
    cases isGroup
    exact (runReader_takes (glanced_reads lexed).lexed (glanced_starts more text)).2.2.2.2.2

theorem nextUnit_takes (fuel : Nat) : ∀ parser : Parser, parser.Lexed →
    parser.Takes (nextUnit fuel parser).2 ∧
      RawUnit (nextUnit fuel parser).2.decls parser.decls.count (nextUnit fuel parser).1 := by
  induction fuel with
  | zero =>
    intro parser lexed
    exact ⟨abandon_takes parser, by intro group isGroup; cases isGroup⟩
  | succ fuel ih =>
    intro parser lexed
    obtain ⟨takes, raw⟩ := step_takes lexed
    unfold nextUnit
    rcases run : parser.step with ⟨_ | unit, later⟩ <;> rw [run] at takes raw
    · obtain ⟨takesMore, rawMore⟩ := ih later takes.lexed
      refine ⟨takes.trans takesMore, fun group isGroup => ?_⟩
      exact (rawMore group isGroup).congr takes.count fun _ _ _ => rfl
    · exact ⟨takes, raw unit rfl⟩

theorem nextUnit_finished (fuel : Nat) : ∀ {parser later : Parser},
    nextUnit fuel parser = (.finished, later) → later.inputs = [] := by
  induction fuel with
  | zero =>
    intro parser later ended
    cases ended
    rfl
  | succ fuel ih =>
    intro parser later ended
    unfold nextUnit at ended
    rcases run : parser.step with ⟨_ | unit, passed⟩ <;> rw [run] at ended
    · exact ih ended
    · cases ended
      unfold step at run
      split at run
      · rename_i isEmpty
        cases run
        exact List.isEmpty_iff.mp isEmpty
      · dsimp only at run
        split at run
        · cases run
        · obtain ⟨⟨_, _, _, isPragma⟩, _⟩ := directive_unit (congrArg Prod.fst run)
          cases isPragma
        · cases run

/-! ## Archived declarations -/

/-- All that the reader of an archive can do next. -/
inductive Archives (least fuel : Nat) (read : List DeclId) (fine : Bool) (parser : Parser) :
    (List DeclId × Bool) × Parser → Prop
  | few (few : parser.inputs.length ≤ least) :
      Archives least fuel read fine parser ((read, fine), parser)
  | leave (high : least < parser.inputs.length) :
      Archives least fuel read fine parser
        (declarationsAbove least fuel read fine (parser.lookAt 0).2.leave)
  | group (well : Bool) (high : least < parser.inputs.length)
      (typed : (parser.lookAt 0).1.kind.isType = true) {run : Group × Parser}
      (isRun : run = (parser.lookAt 0).2.runReader
        (Reader.declaration (parser.lookAt 0).2.nesting)) :
      Archives least fuel read fine parser
        (declarationsAbove least fuel (read ++ run.1) well run.2)
  | refuse (high : least < parser.inputs.length) (span : Span) {later : Parser}
      (isLater : later = ((parser.lookAt 0).2.lookAt 0).2.record
        (.error .unexpectedTopLevel span "expected declaration")) :
      Archives least fuel read fine parser ((read, false),
        { later with inputs := later.inputs.drop (later.inputs.length - least) })

theorem declarationsAbove_archives (least fuel : Nat) (read : List DeclId) (fine : Bool)
    (parser : Parser) : Archives least fuel read fine parser
      (declarationsAbove least (fuel + 1) read fine parser) := by
  rw [declarationsAbove]
  split
  · exact .few ‹_›
  · rename_i high
    have above := Nat.lt_of_not_le high
    dsimp only
    split
    · exact .leave above
    · split
      · rename_i typed
        have group := fun well => @Archives.group least fuel read fine parser well above typed _ rfl
        unfold runReader at group
        split at group
        · exact group fine
        · rw [append_nil] at group
          exact group false
      · obtain ⟨span, here, _⟩ := Reader.place_eq (bare_at (parser.lookAt 0).2)
        rw [Reader.rejectHere, Reader.bind_apply, here]
        exact .refuse above span rfl

theorem declarationsAbove_takes (base : Parser) (least fuel : Nat) :
    ∀ (parser : Parser) (read : List DeclId) (fine : Bool), base.Takes parser →
      parser.decls.RawGroup base.decls.count read → (∀ id ∈ read, parser.decls.IsPlain id) →
      base.Takes (declarationsAbove least fuel read fine parser).2 ∧
        (declarationsAbove least fuel read fine parser).2.decls.RawGroup base.decls.count
          (declarationsAbove least fuel read fine parser).1.1 ∧
        ∀ id ∈ (declarationsAbove least fuel read fine parser).1.1,
          (declarationsAbove least fuel read fine parser).2.decls.IsPlain id := by
  induction fuel with
  | zero => exact fun _ _ _ takes raw plain => ⟨takes, raw, plain⟩
  | succ fuel ih =>
    intro parser read fine takes raw plain
    have looked := reads_lookAt takes.lexed 0
    have kept : ∀ later : Parser, parser.Takes later →
        later.decls.RawGroup base.decls.count read ∧ ∀ id ∈ read, later.decls.IsPlain id :=
      fun later taken => ⟨raw.congr (Nat.le_refl _) fun id _ => taken.kept id, fun id member =>
        (plain id member).imp fun _ known =>
          ⟨(taken.kept id (raw.le_count id member)).trans known.1, known.2⟩⟩
    have archives := declarationsAbove_archives least fuel read fine parser
    generalize declarationsAbove least (fuel + 1) read fine parser = result at archives ⊢
    cases archives with
    | few _ => exact ⟨takes, raw, plain⟩
    | leave _ =>
      have left := looked.takes.trans (leave_takes looked.lexed)
      exact ih _ _ _ (takes.trans left) (kept _ left).1 (kept _ left).2
    | group well _ typed isRun =>
      have starts : (parser.lookAt 0).2.Starts False _ :=
        .declaration (by rw [take_lookAt]; exact typed)
      obtain ⟨made, _, _, new, newPlain, _⟩ := runReader_takes looked.lexed starts
      rw [← isRun] at made new newPlain
      have madeAll := looked.takes.trans made
      obtain ⟨keptRaw, keptPlain⟩ := kept _ madeAll
      refine ih _ _ _ (takes.trans madeAll) (keptRaw.append new
        (Nat.le_trans takes.count looked.count) fun id member => ?_) fun id member => ?_
      · exact Nat.le_trans (raw.le_count id member) looked.count
      · rcases mem_append.mp member with inRead | inNew
        · exact keptPlain id inRead
        · exact newPlain.resolve_left not_false id inNew
    | refuse _ span isLater =>
      have rejected := (looked.lookAt 0).record
        (.error .unexpectedTopLevel span "expected declaration")
        (by decide : Code.unexpectedTopLevel.number < 4000)
      rw [← isLater] at rejected
      have dropped := fun count => rejected.takes.trans (drop_takes rejected.lexed count)
      exact ⟨takes.trans (dropped _), kept _ (dropped _)⟩

theorem declarationsAbove_of_le {least} (few : parser.inputs.length ≤ least) (fuel : Nat)
    (read : List DeclId) (fine : Bool) :
    declarationsAbove least fuel read fine parser = ((read, fine), parser) := by
  cases fuel with
  | zero => rfl
  | succ fuel => rw [declarationsAbove, if_pos few]

theorem declarationsAbove_inputs (fuel : Nat) :
    ∀ (parser : Parser) (read : List DeclId) (fine : Bool), parser.Lexed →
      parser.inputs ≠ [] → parser.remaining < fuel →
      (declarationsAbove parser.inputs.tail.length fuel read fine parser).2.inputs =
        parser.inputs.tail := by
  induction fuel with
  | zero => exact fun _ _ _ _ _ few => absurd few (Nat.not_lt_zero _)
  | succ fuel ih =>
    intro parser read fine lexed nonempty enough
    have looked := reads_lookAt lexed 0
    have some := length_pos_iff.mpr nonempty
    have length : parser.inputs.length = parser.inputs.tail.length + 1 := by
      rw [length_tail]
      omega
    have archives := declarationsAbove_archives parser.inputs.tail.length fuel read fine parser
    generalize declarationsAbove parser.inputs.tail.length (fuel + 1) read fine parser = result
      at archives ⊢
    cases archives with
    | few few => omega
    | leave _ =>
      rw [declarationsAbove_of_le (Nat.le_of_eq (congrArg List.length looked.ahead.tail))]
      exact looked.ahead.tail
    | @group well _ typed run isRun =>
      have starts : (parser.lookAt 0).2.Starts False
          (.declaration (parser.lookAt 0).2.nesting) :=
        .declaration (by rw [take_lookAt]; exact typed)
      have lexedLater := (runReader_takes looked.lexed starts).1.lexed
      obtain ⟨ahead, fewer⟩ := (runReader_consumes looked.lexed
        (by rw [lookAt_lookAt]; rintro isEnd; simp [isEnd, TokenKind.isType] at typed)
        (by rw [lookAt_lookAt]; rintro isText; simp [isText, TokenKind.isType] at typed)
        starts).after looked.ahead
      rw [← isRun] at lexedLater ahead fewer
      -- The buffer is still there, with fewer tokens.
      have still : run.2.inputs ≠ [] := by
        rw [← length_pos_iff, ahead.length]
        exact some
      have next := ih run.2 (read ++ run.1) well lexedLater still
        (Nat.lt_of_lt_of_le fewer (Nat.le_of_lt_succ enough))
      rwa [ahead.tail] at next
    | refuse _ span isLater =>
      have ahead := (looked.lookAt 0).ahead
      subst isLater
      dsimp only [record]
      rw [ahead.length, length, Nat.add_sub_cancel_left, drop_one]
      exact ahead.tail

theorem declarationsOf_takes (lexed : parser.Lexed) (id : FileId) :
    parser.Takes (parser.declarationsOf id).2 ∧
      (parser.declarationsOf id).2.decls.RawGroup parser.decls.count
        (parser.declarationsOf id).1.1 ∧
      ∀ other ∈ (parser.declarationsOf id).1.1, (parser.declarationsOf id).2.decls.IsPlain other :=
  declarationsAbove_takes parser _ _ _ [] true (enter_takes lexed id) (.nil _) (by simp)

theorem declarationsOf_inputs (lexed : parser.Lexed) (id : FileId) :
    (parser.declarationsOf id).2.inputs = parser.inputs := by
  have later := lexed.enter id
  unfold declarationsOf
  cases isBuffer : parser.files.get? id with
  | none =>
    have same : parser.enter id = parser := by simp [enter, isBuffer]
    rw [same, declarationsAbove_of_le (Nat.le_refl _)]
  | some buffer =>
    obtain ⟨input, isEntered⟩ : ∃ input, (parser.enter id).inputs = input :: parser.inputs := by
      simp [enter, isBuffer]
    have read := declarationsAbove_inputs ((parser.enter id).remaining + 1) (parser.enter id) []
      true later (by simp [isEntered]) (Nat.lt_succ_self _)
    rw [isEntered] at read
    exact read

end FragmentCompiler.Parser
