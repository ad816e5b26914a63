import FragmentCompiler.Proofs.Session.Idle
import FragmentCompiler.Proofs.Session.Run

/-!
# The runtime library

A text without directives has no pragmas.  The runtime library is one, so a session is
opened without meeting a pragma.
-/

set_option autoImplicit false

namespace FragmentCompiler

open List

namespace Parser

variable {parser : Parser}

/-- No directive is left to be read. -/
def Undirected (parser : Parser) : Prop :=
  ∀ input ∈ parser.inputs, ∀ lexeme ∈ input.pending, lexeme.token.kind ≠ .directive

/-- Reading finds no pragma, whether or not it follows an include first. -/
def Plain (parser : Parser) : Prop :=
  ∀ fuel, (parser.nextUnit fuel).1.isPragma = false ∧ (parser.nextUnit fuel).2.Undirected

theorem Undirected.ahead {before after : Parser} (plain : before.Undirected)
    (ahead : Input.Ahead before.inputs after.inputs) : after.Undirected := by
  unfold Undirected at plain ⊢
  generalize before.inputs = earlier at plain ahead
  generalize after.inputs = later at ahead ⊢
  cases ahead with
  | nil => exact plain
  | within input below seen rest =>
    obtain ⟨own, below⟩ := forall_mem_cons.mp plain
    exact forall_mem_cons.mpr ⟨fun lexeme inPending => own lexeme (rest.mem inPending), below⟩

theorem Undirected.lookAt (plain : parser.Undirected) (index : Nat) :
    (parser.lookAt index).1.kind ≠ .directive := by
  unfold Parser.lookAt
  cases isInputs : parser.inputs with
  | nil => exact fun never => TokenKind.noConfusion never
  | cons input below =>
    have each := plain input (by rw [isInputs]; exact mem_cons_self)
    dsimp only
    cases isSeen : input.pending[index]? with
    | some lexeme => split <;> exact each lexeme (mem_of_getElem? isSeen)
    | none =>
      cases isLast : input.pending.getLast? with
      | none => split <;> exact fun never => TokenKind.noConfusion never
      | some last => split <;> exact each last (mem_of_getLast? isLast)

theorem Undirected.step (plain : parser.Undirected) (lexed : parser.Lexed) :
    parser.step.2.Undirected ∧ ∀ unit, parser.step.1 = some unit → unit.isPragma = false := by
  have steps := step_steps parser
  have looked := plain.ahead (reads_lookAt lexed 0).ahead
  generalize parser.step = result at steps ⊢
  cases steps with
  | finished inputs =>
    refine ⟨plain, fun unit isUnit => ?_⟩
    cases isUnit
    rfl
  | leave kind => exact ⟨fun input member => looked input (mem_of_mem_tail member), by simp⟩
  | directive kind => exact absurd kind (plain.lookAt 0)
  | group more text =>
    have reads := glanced_reads lexed
    obtain ⟨_, ahead, _⟩ := runReader_takes reads.lexed (glanced_starts more text)
    refine ⟨plain.ahead (reads.ahead.trans ahead), fun unit isUnit => ?_⟩
    cases isUnit
    rfl

theorem Undirected.plain (plain : parser.Undirected) (lexed : parser.Lexed) : parser.Plain := by
  intro fuel
  induction fuel generalizing parser with
  | zero => exact ⟨rfl, fun input member => absurd member not_mem_nil⟩
  | succ fuel ih =>
    obtain ⟨later, unit⟩ := plain.step lexed
    have takes := (step_takes lexed).1
    unfold nextUnit
    rcases run : parser.step with ⟨_ | found, passed⟩ <;> rw [run] at later unit takes
    · exact ih later takes.lexed
    · exact ⟨unit found rfl, later⟩

end Parser

namespace Session

variable {files : FileSet} {parser : Parser}

section Units

variable {flags : StageFlags} {start now : Session} {ids : List DeclId}

theorem Works.inputs_checkedGroup {base group}
    (works : Works flags start ids now.analysis.fetched now)
    (raw : now.analysis.decls.RawGroup base group) :
    (now.checkedGroup group).analysis.parser.inputs = now.analysis.parser.inputs := by
  obtain ⟨_, _, evolves, _⟩ :=
    (Analysis.checkGroup_checked group works.keeps.follows.ready raw).evolves
  exact (Analysis.drained_inputs _).trans evolves.inputs

theorem Works.readUnits_plain (fuel : Nat) :
    ∀ {now : Session} {ids : List DeclId}, Works flags start ids now.analysis.fetched now →
      now.analysis.parser.Plain → ∀ unit ∈ readUnits fuel now, unit.isPragma = false := by
  induction fuel with
  | zero => exact fun _ _ unit member => absurd member not_mem_nil
  | succ fuel ih =>
    intro now ids works plain unit member
    obtain ⟨isFree, undirected⟩ := plain now.patience
    unfold readUnits at member
    rcases isNext : now.analysis.parser.nextUnit now.patience with ⟨next, parser⟩
    rw [isNext] at member isFree undirected
    obtain ⟨_, reads, grouped⟩ := works.nextUnit isNext
    -- Nothing that is done with a unit changes what is left to be read.
    have later : ∀ (after : Session) (ids : List DeclId),
        Works flags start ids after.analysis.fetched after →
        after.analysis.parser.inputs = parser.inputs →
        ∀ unit ∈ readUnits fuel after, unit.isPragma = false := by
      intro after ids ends inputs
      refine ih ends (Parser.Undirected.plain ?_ ends.keeps.follows.ready.lexed)
      unfold Parser.Undirected
      rw [inputs]
      exact undirected
    have drained : { now with analysis := { now.analysis with parser } }.drain.analysis.parser.inputs =
        parser.inputs := Analysis.drained_inputs _
    dsimp only at member
    rcases mem_cons.mp member with isUnit | inRest
    · rw [isUnit]
      exact isFree
    · cases next with
      | finished => exact absurd inRest not_mem_nil
      | pragma key value span => exact Bool.noConfusion isFree
      | group group =>
        cases group with
        | nil => exact later _ _ reads drained unit inRest
        | cons id rest =>
          obtain ⟨raw, below⟩ := grouped _ rfl
          have checks := reads.checkedGroup raw works.keeps.follows.count below
          refine later _ _ checks.dispatchChecked ?_ unit inRest
          exact checks.inputs_dispatch.trans ((reads.inputs_checkedGroup raw).trans drained)

end Units

/-! ## Including the runtime library -/

open Buffer

def bootText : Text := "#include " ++ runtimeName.quote

def bootBuffer : Buffer :=
  let (body, flags) := tidyContent (NormalForm.normalize bootText)
  { path := Path.clean "input_line_1", content := body, ends := lineIndex body,
    flags := { flags with virtual := true, fragment := true } }

def runtimeBuffer : Buffer :=
  let (body, flags) := tidyContent runtimeSource
  { path := Path.clean runtimeName, content := body, ends := lineIndex body,
    flags := { flags with virtual := true } }

theorem boot_lexemes : ∃ lexeme rest, Lexer.lex 0 bootBuffer.content = lexeme :: rest ∧
    lexeme.token.kind = .directive ∧ (∀ other ∈ rest, other.token.kind ≠ .directive) ∧
    Text.cut 32 (Parser.directiveBody lexeme.token) =
      (Text.ofString "include", some runtimeName.quote) :=
  ⟨(Lexer.lex 0 bootBuffer.content).head!, (Lexer.lex 0 bootBuffer.content).tail, by decide⟩

theorem runtime_lexemes :
    ∀ lexeme ∈ Lexer.lex 1 runtimeBuffer.content, lexeme.token.kind ≠ .directive := by
  decide +kernel

theorem addFragment_boot (empty : files.buffers = #[]) :
    files.addFragment "input_line_1" bootText = (0, { files with buffers := #[bootBuffer] }) := by
  simp [FileSet.addFragment, FileSet.add, empty, bootBuffer]

theorem addVirtual_runtime (boots : files.buffers = #[bootBuffer]) :
    files.addVirtual runtimeName runtimeSource =
      (1, { files with buffers := #[bootBuffer, runtimeBuffer] }) := by
  simp [FileSet.addVirtual, FileSet.add, boots, runtimeBuffer]

theorem latest?_runtime (boots : files.buffers = #[bootBuffer]) :
    files.latest? runtimeName = none := by
  have other : (bootBuffer.path == Path.clean runtimeName) = false := rfl
  simp [FileSet.latest?, boots, range_succ, other]

theorem enter_eq {buffer} {id : FileId} (found : parser.files.get? id = some buffer) : ∃ input :
    Input, input.path = buffer.path ∧ input.seen = 0 ∧ input.pending = Lexer.lex id buffer.content ∧
      parser.enter id = { parser with inputs := input :: parser.inputs } := by
  unfold Parser.enter
  rw [found]
  exact ⟨_, rfl, rfl, rfl, rfl⟩

theorem includeFile_runtime (boots : parser.files.buffers = #[bootBuffer])
    (virtuals : parser.virtuals.lookup runtimeName = some runtimeSource)
    (inputs : ∀ input ∈ parser.inputs, input.path = bootBuffer.path) (span : Span) :
    ∃ files input, input.pending = Lexer.lex 1 runtimeBuffer.content ∧
      parser.includeFile span runtimeName =
        { parser with files, inputs := input :: parser.inputs } := by
  have isOpened : parser.openIncluded span runtimeName =
      (some 1, { parser with
        files := { parser.files with buffers := #[bootBuffer, runtimeBuffer] } }) := by
    unfold Parser.openIncluded
    rw [virtuals]
    dsimp only
    rw [latest?_runtime boots, addVirtual_runtime boots]
  have differ : (bootBuffer.path == runtimeBuffer.path) = false := rfl
  have fresh : (parser.inputs.any fun input => input.path == runtimeBuffer.path) = false := by
    rw [any_eq_false]
    intro input member
    rw [inputs input member, differ]
    exact Bool.false_ne_true
  unfold Parser.includeFile
  rw [isOpened]
  dsimp only
  have isPath : (((FileSet.get?
      { parser.files with buffers := #[bootBuffer, runtimeBuffer] } 1).map Buffer.path).getD []) =
        runtimeBuffer.path := rfl
  rw [isPath, fresh]
  let files : FileSet := { parser.files with buffers := #[bootBuffer, runtimeBuffer] }
  obtain ⟨input, _, _, isPending, isEntered⟩ :=
    enter_eq (show { parser with files }.files.get? 1 = some runtimeBuffer from rfl)
  exact ⟨files, input, isPending, isEntered⟩

theorem includeDirective_runtime (parser : Parser) (span : Span) : parser.includeDirective span
    runtimeName.quote.trim = parser.includeFile span runtimeName := by
  have argument : runtimeName.quote.trim = 34 :: 60 :: (Text.ofString "runtime>\"") := rfl
  have closed : List.contains (60 :: (Text.ofString "runtime>\"")) (34 : UInt8) = true := rfl
  have name : (60 :: (Text.ofString "runtime>\"")).takeWhile (· != 34) = runtimeName := rfl
  rw [argument, Parser.includeDirective, closed, if_pos rfl, name]

theorem plain_boot (empty : parser.files.buffers = #[])
    (virtuals : parser.virtuals.lookup runtimeName = some runtimeSource)
    (inputs : parser.inputs = []) :
    ({ parser with files := (parser.files.addFragment "input_line_1" bootText).2 }.enter
      (parser.files.addFragment "input_line_1" bootText).1).Plain := by
  rw [addFragment_boot empty]
  let files : FileSet := { parser.files with buffers := #[bootBuffer] }
  obtain ⟨input, path, unseen, isPending, isEntered⟩ :=
    enter_eq (show { parser with files }.files.get? 0 = some bootBuffer from rfl)
  obtain ⟨lexeme, rest, isLexed, kind, others, isBody⟩ := boot_lexemes
  have isEntered : { parser with files }.enter 0 = { parser with files, inputs := [input] } := by
    rw [isEntered, inputs]
  show ({ parser with files }.enter 0).Plain
  rw [isEntered]
  let looked : Parser :=
    { parser with
      files
      inputs := [{ input with seen := 1 }]
      reports := parser.reports ++ lexeme.faults }
  have isLooked : Parser.lookAt { parser with files, inputs := [input] } 0 =
      (lexeme.token, looked) := by
    simp [Parser.lookAt, isPending, isLexed, unseen, looked]
  let taken : Parser :=
    { looked with
      inputs := [{ input with pending := rest, seen := 0 }], lastSpan := lexeme.token.span }
  have isTaken : looked.take.2 = taken := by
    simp [Parser.take, Parser.lookAt, looked, taken, isPending, isLexed, kind]
  obtain ⟨later, runtime, isRuntime, isIncluded⟩ := includeFile_runtime
    (show taken.files.buffers = #[bootBuffer] from rfl) (show taken.virtuals.lookup _ = _ from virtuals)
    (by simp [taken, path]) lexeme.token.span
  have isStep : Parser.step { parser with files, inputs := [input] } =
      (none, { taken with files := later, inputs := runtime :: taken.inputs }) := by
    unfold Parser.step
    rw [isLooked]
    dsimp only
    rw [kind]
    dsimp only
    rw [isTaken, Parser.directive, isBody]
    dsimp only
    rw [if_neg (by simp), if_pos (by rfl)]
    show (none, Parser.includeDirective taken _ runtimeName.quote.trim) = _
    rw [includeDirective_runtime, isIncluded]
  have undirected : Parser.Undirected
      { taken with files := later, inputs := runtime :: taken.inputs } := by
    exact forall_mem_cons.mpr ⟨isRuntime ▸ runtime_lexemes, forall_mem_singleton.mpr others⟩
  have lexed : Parser.Lexed { taken with files := later, inputs := runtime :: taken.inputs } := by
    intro other member piece inPending
    rcases mem_cons.mp member with isRuntime' | isRest
    · subst isRuntime'
      rw [isRuntime] at inPending
      exact Lexer.lex_faults _ _ piece inPending
    · rw [mem_singleton.mp isRest] at inPending
      exact Lexer.lex_faults 0 bootBuffer.content piece
        (by rw [isLexed]; exact mem_cons_of_mem _ inPending)
  intro fuel
  cases fuel with
  | zero => exact ⟨rfl, forall_mem_nil _⟩
  | succ fuel =>
    unfold Parser.nextUnit
    rw [isStep]
    exact undirected.plain lexed fuel

section Calls

variable {session : Session} {flags : StageFlags}

section

variable (stands : session.Stands flags)

include stands

theorem Stands.units_plain {text declOnly}
    (plain : (session.entered text declOnly).analysis.parser.Plain) :
    ∀ unit ∈ session.units text declOnly, unit.isPragma = false := by
  have begins := stands.begins text declOnly
  exact Works.readUnits_plain _ (begins.unseen _ _) plain

theorem Stands.units_nil (declOnly : Bool) :
    ∀ unit ∈ session.units [] declOnly, unit.isPragma = false := by
  refine stands.units_plain ?_
  rw [stands.analysis_entered_nil]
  refine Parser.Undirected.plain ?_ stands.ready.lexed
  unfold Parser.Undirected
  rw [stands.inputs]
  exact forall_mem_nil _

theorem Stands.units_boot (empty : session.analysis.parser.files.buffers = #[])
    (virtuals : session.analysis.parser.virtuals.lookup runtimeName = some runtimeSource)
    (first : session.journal.fragments = 0) (settled : session.journal.pending? = none) :
    ∀ unit ∈ session.units bootText false, unit.isPragma = false := by
  refine stands.units_plain ?_
  have same : session.cleared.analysis = session.analysis := stands.analysis_cleared
  obtain ⟨_, _, _, _, isCleared⟩ := stands.cleared_eq
  have name : (numbered session.cleared.journal bootText).1 = Text.ofString "input_line_1" := by
    have isJournal : session.cleared.journal = session.journal := by
      rw [isCleared]
      unfold Journal.flushed
      rw [settled]
    unfold numbered Journal.nextFragment
    rw [isJournal, first, if_neg (by decide)]
    show Text.ofString "input_line_" ++ Text.decimal 1 = _
    rfl
  have isEntered : (session.entered bootText false).analysis.parser =
      { session.analysis.parser with
        files := (session.analysis.parser.files.addFragment "input_line_1" bootText).2 }.enter
          (session.analysis.parser.files.addFragment "input_line_1" bootText).1 := by
    rw [← same, ← name]
    unfold entered
    rw [if_neg (by decide)]
    rfl
  rw [isEntered]
  exact plain_boot empty virtuals stands.inputs

end

end Calls

end Session

end FragmentCompiler
