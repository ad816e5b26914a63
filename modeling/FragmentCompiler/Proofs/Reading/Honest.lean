import FragmentCompiler.Proofs.Reading.Unit

/-!
# Nothing is skipped without an error

A reader that fails has reported an error, or has met a token whose error was reported when
it was first looked at.  The bound on the nesting is never the reason: between two tokens at
most eight readers are entered.
-/

set_option autoImplicit false

namespace FragmentCompiler

open List

namespace Parser

variable {parser : Parser}

/-! ## What was reported -/

def Erred (parser : Parser) : Prop := ∃ entry ∈ parser.reports.toList, entry.isError = true

/-- An invalid token is an error, and the errors of the tokens that were looked at were
reported. -/
structure Sound (parser : Parser) : Prop where
  blamed : ∀ input ∈ parser.inputs, ∀ lexeme ∈ input.pending, lexeme.Blamed
  told : ∀ input ∈ parser.inputs, ∀ lexeme ∈ input.pending.take input.seen,
    ∀ fault ∈ lexeme.faults, fault.isError = true → parser.Erred

variable {before after : Parser}

theorem Erred.mono (erred : before.Erred)
    (reports : before.reports.toList ⊆ after.reports.toList) : after.Erred := by
  obtain ⟨entry, member, isError⟩ := erred
  exact ⟨entry, reports member, isError⟩

theorem Sound.of_inputs (sound : before.Sound)
    (inputs : ∀ input ∈ after.inputs, input ∈ before.inputs)
    (grows : before.Erred → after.Erred) : after.Sound where
  blamed := fun input member => sound.blamed input (inputs input member)
  told := fun input member lexeme isSeen fault isFault isError =>
    grows (sound.told input (inputs input member) lexeme isSeen fault isFault isError)

theorem Sound.congr (sound : before.Sound) (inputs : after.inputs = before.inputs)
    (reports : after.reports = before.reports) : after.Sound := by
  refine sound.of_inputs (by rw [inputs]; exact fun _ => id) fun erred => ?_
  rw [Erred, reports]
  exact erred

theorem mem_take_looked {index lexeme} {input : Input}
    (member : lexeme ∈ input.pending.take (input.looked index).seen) :
    lexeme ∈ input.pending.take input.seen ∨ lexeme ∈ input.fresh index := by
  rw [Input.looked, take_add] at member
  refine (mem_append.mp member).imp_right fun inRest => ?_
  rw [Input.fresh, drop_take]
  exact (take_prefix_take_left (by simp [Input.fresh]; omega)).mem inRest

theorem Erred.lookAt (erred : parser.Erred) (index : Nat) : (parser.lookAt index).2.Erred := by
  cases isInputs : parser.inputs with
  | nil =>
    rw [lookAt_idle isInputs]
    exact erred
  | cons input below =>
    rw [lookAt_eq isInputs]
    exact erred.mono (by simp)

theorem Sound.lookAt (sound : parser.Sound) (index : Nat) : (parser.lookAt index).2.Sound := by
  have erred : parser.Erred → (parser.lookAt index).2.Erred := fun erred => erred.lookAt index
  cases isInputs : parser.inputs with
  | nil =>
    rw [lookAt_idle isInputs]
    exact sound
  | cons input below =>
    rw [lookAt_eq isInputs] at erred ⊢
    obtain ⟨blamed, told⟩ := sound
    simp only [isInputs, forall_mem_cons] at blamed told
    refine ⟨forall_mem_cons.mpr ⟨blamed.1, blamed.2⟩, forall_mem_cons.mpr
      ⟨fun lexeme isSeen fault isFault isError => ?_, fun other member lexeme isSeen fault isFault
        isError => erred (told.2 other member lexeme isSeen fault isFault isError)⟩⟩
    rcases mem_take_looked isSeen with before | isFresh
    · exact erred (told.1 lexeme before fault isFault isError)
    · refine ⟨fault, ?_, isError⟩
      simp only [Array.toList_appendList]
      exact mem_append_right _ (mem_flatMap.mpr ⟨lexeme, isFresh, isFault⟩)

theorem Erred.of_lookAt (looked : (parser.lookAt 0).2.Erred) : parser.take.2.Erred := by
  by_cases isEnd : (parser.lookAt 0).1.kind = .endOfInput
  · rw [take_of_end isEnd]
    exact looked
  · obtain ⟨input, below, isInputs, isMore⟩ := busy_of_more isEnd
    rw [lookAt_eq isInputs] at looked
    rw [take_eq isInputs isMore]
    exact looked

theorem Erred.take (erred : parser.Erred) : parser.take.2.Erred :=
  (erred.lookAt 0).of_lookAt

theorem Sound.take (sound : parser.Sound) : parser.take.2.Sound := by
  by_cases isEnd : (parser.lookAt 0).1.kind = .endOfInput
  · rw [take_of_end isEnd]
    exact sound.lookAt 0
  · have erred : parser.Erred → parser.take.2.Erred := .take
    obtain ⟨input, below, isInputs, isMore⟩ := busy_of_more isEnd
    rw [take_eq isInputs isMore] at erred ⊢
    obtain ⟨blamed, told⟩ := sound
    simp only [isInputs, forall_mem_cons] at blamed told
    refine ⟨forall_mem_cons.mpr ⟨fun lexeme inRest =>
      blamed.1 lexeme (mem_of_mem_tail inRest), blamed.2⟩, forall_mem_cons.mpr
      ⟨fun lexeme isSeen fault isFault isError => erred (told.1 lexeme ?_ fault isFault isError),
        fun other member lexeme isSeen fault isFault isError =>
          erred (told.2 other member lexeme isSeen fault isFault isError)⟩⟩
    have passed : lexeme ∈ input.pending.tail.take (input.seen - 1) := isSeen
    rw [← drop_one, ← drop_take] at passed
    exact mem_of_mem_drop passed

theorem Sound.record (sound : parser.Sound) (diagnostic : Diagnostic) :
    (parser.record diagnostic).Sound :=
  sound.of_inputs (fun _ member => member) fun erred =>
    erred.mono (by rw [Parser.record, Array.toList_push]; exact subset_append_left _ _)

theorem erred_record {diagnostic} (parser : Parser) (isError : diagnostic.isError = true) :
    (parser.record diagnostic).Erred :=
  ⟨diagnostic, by simp [Parser.record], isError⟩

theorem Sound.invalid (sound : parser.Sound) (invalid : (parser.lookAt 0).1.kind = .invalid) :
    (parser.lookAt 0).2.Erred := by
  have looked := sound.lookAt 0
  obtain ⟨input, below, isInputs, isMore⟩ := busy_of_more (by rw [invalid]; simp)
  obtain ⟨lexeme, rest, isPending, isToken⟩ := Input.pending_of_peeked isMore
  rw [lookAt_eq isInputs] at invalid looked ⊢
  have inPending : lexeme ∈ input.pending.take (input.looked 0).seen := by
    have seen : 0 < (input.looked 0).seen := by
      simp only [Input.looked, Input.fresh, isPending, length_drop, length_take,
        length_cons]
      omega
    obtain ⟨seen, isSeen⟩ := Nat.exists_eq_succ_of_ne_zero (Nat.ne_of_gt seen)
    rw [isPending, isSeen, take_succ_cons]
    exact mem_cons_self
  obtain ⟨fault, isFault, isError⟩ := looked.blamed _ mem_cons_self lexeme
    (mem_of_mem_take inPending) (by rw [← isToken]; exact invalid)
  exact looked.told _ mem_cons_self lexeme inPending fault isFault isError

/-! ## Readers that report their failures -/

/-- A parser stays sound, and has an error once a reader has failed. -/
theorem sound_kept : Invariant (fun _ p => p.Sound) fun _ p => p.Sound ∧ p.Erred where
  look := fun sound index => sound.lookAt index
  take := fun sound => sound.take
  opens := fun sound => sound.take.congr rfl rfl
  closes := fun sound => sound.take.congr rfl rfl
  declare := fun sound _ => sound.congr rfl rfl
  reject := fun sound diagnostic isError => ⟨sound.record diagnostic, erred_record _ isError⟩
  invalid := fun sound isInvalid => ⟨sound.take, (sound.invalid isInvalid).of_lookAt⟩
  skip := fun failed => ⟨failed.1.take, failed.2.take⟩

/-! ## Units -/

section

variable (sound : parser.Sound)

include sound

theorem Sound.skip (fuel depth : Nat) :
    (skip fuel depth parser).Sound ∧ (parser.Erred → (skip fuel depth parser).Erred) :=
  @skip_keeps (fun later => later.Sound ∧ (parser.Erred → later.Erred))
    (fun _ kept => ⟨kept.1.lookAt 0, fun erred => (kept.2 erred).lookAt 0⟩)
    (fun _ kept => ⟨kept.1.take, fun erred => (kept.2 erred).take⟩) fuel depth _ ⟨sound, id⟩

theorem Sound.recover : parser.recover.Sound ∧ (parser.Erred → parser.recover.Erred) := by
  have flat : Sound { parser with depth := 0 } := sound.of_inputs (fun _ member => member) id
  exact flat.skip parser.remaining parser.depth

theorem Sound.enter (id : FileId) : (parser.enter id).Sound := by
  unfold Parser.enter
  split
  · exact sound
  · rename_i buffer _
    constructor
    · exact forall_mem_cons.mpr ⟨Lexer.lex_blamed id buffer.content, sound.blamed⟩
    · exact forall_mem_cons.mpr ⟨fun _ isSeen => absurd isSeen (by simp), sound.told⟩

theorem Sound.leave : parser.leave.Sound :=
  sound.of_inputs (fun _ member => mem_of_mem_tail member) id

theorem Sound.directive (token : Token) : (parser.directive token).2.Sound :=
  directive_keeps (fun _ => sound.of_inputs (fun _ member => member) id)
    (fun _ sound => sound.record _) (fun id sound => sound.enter id) sound token

theorem Sound.runReader {wraps reader} (lexed : parser.Lexed)
    (starts : parser.Starts wraps reader) : (parser.runReader reader).2.Sound ∧
      ((parser.runReader reader).1 = [] → (parser.runReader reader).2.Erred) := by
  have alone : (Pairing.alone sound_kept).At false 0 parser parser := ⟨⟨rfl, sound⟩, .inl rfl⟩
  have wrapping : (Pairing.alone sound_kept).Wraps :=
    Pairing.alone_wraps sound_kept fun sound _ _ => sound.congr rfl rfl
  unfold Parser.runReader
  cases starts.paired wrapping alone lexed with
  | done run _ at' _ groups =>
    rw [run]
    exact ⟨at'.together.2, fun isEmpty => absurd isEmpty groups.some⟩
  | failed run _ parted =>
    rw [run]
    have recovered := parted.1.recover
    exact ⟨recovered.1, fun _ => recovered.2 parted.2⟩

theorem Sound.glanced : parser.glanced.Sound := by
  unfold Parser.glanced
  split
  · exact (sound.lookAt 0).lookAt 1
  · exact sound.lookAt 0

theorem Sound.step (lexed : parser.Lexed) :
    parser.step.2.Sound ∧ (parser.step.1 = some (.group []) → parser.step.2.Erred) := by
  have steps := step_steps parser
  generalize parser.step = result at steps ⊢
  cases steps with
  | finished inputs => exact ⟨sound, by simp⟩
  | leave kind => exact ⟨(sound.lookAt 0).leave, by simp⟩
  | directive kind =>
    refine ⟨(sound.lookAt 0).take.directive _, fun isGroup => ?_⟩
    obtain ⟨⟨_, _, _, isPragma⟩, _⟩ := directive_unit isGroup
    cases isPragma
  | group more text =>
    obtain ⟨after, failed⟩ := sound.glanced.runReader (glanced_reads lexed).lexed
      (glanced_starts more text)
    refine ⟨after, fun isGroup => failed ?_⟩
    simpa using isGroup

end

theorem Sound.nextUnit (fuel : Nat) : ∀ {parser : Parser}, parser.Sound → parser.Lexed →
    (nextUnit fuel parser).2.Sound ∧
      ((nextUnit fuel parser).1 = .group [] → (nextUnit fuel parser).2.Erred) := by
  induction fuel with
  | zero =>
    intro parser sound lexed
    refine ⟨sound.of_inputs (forall_mem_nil _) id, fun isGroup => ?_⟩
    cases isGroup
  | succ fuel ih =>
    intro parser sound lexed
    obtain ⟨after, failed⟩ := sound.step lexed
    have takes := (step_takes lexed).1
    unfold Parser.nextUnit
    rcases run : parser.step with ⟨_ | unit, later⟩ <;> rw [run] at after failed takes
    · exact ih after takes.lexed
    · exact ⟨after, fun isGroup => failed (congrArg some isGroup)⟩

end Parser

end FragmentCompiler
