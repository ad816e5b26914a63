import FragmentCompiler.Analysis.Declaration
import FragmentCompiler.Proofs.Reading.Recovery

/-!
# Archived texts

While a fragment is being read, the declarations of an archived text may be read from a buffer of
their own.  However broken the text is, the parser goes on as if that had not happened: the
buffers being read, the count of open braces and the number of wrappers are what they were, and
the units found from then on differ in the numbers of declarations only.
-/

set_option autoImplicit false

namespace FragmentCompiler

open List

namespace Parser

variable {first p q : Parser}

/-! ## What reading declarations leaves alone -/

/-- What is set for a parser and the number of its wrappers. -/
def lasting (parser : Parser) : Parser :=
  { parser.setting with wrappers := parser.wrappers, depth := 0 }

/-- Neither the settings nor the count of open braces have changed. -/
def Stays (before after : Parser) : Prop :=
  after.lasting = before.lasting ∧ after.depth = before.depth

theorem Stays.trans {third} (here : p.Stays q) (there : q.Stays third) :
    p.Stays third := ⟨there.1.trans here.1, there.2.trans here.2⟩

theorem lookAt_stays (parser : Parser) (index : Nat) : parser.Stays (parser.lookAt index).2 := by
  cases isInputs : parser.inputs with
  | nil => rw [lookAt_idle isInputs]; exact ⟨rfl, rfl⟩
  | cons input below => rw [lookAt_eq isInputs]; exact ⟨rfl, rfl⟩

theorem take_stays (parser : Parser) : parser.Stays parser.take.2 := by
  by_cases isEnd : (parser.lookAt 0).1.kind = .endOfInput
  · rw [take_of_end isEnd]
    exact lookAt_stays parser 0
  · obtain ⟨input, below, isInputs, more⟩ := busy_of_more isEnd
    rw [take_eq isInputs more]
    exact ⟨rfl, rfl⟩

theorem skip_stays (fuel depth : Nat) (parser : Parser) : parser.Stays (skip fuel depth parser) :=
  skip_keeps (fun p stays => stays.trans (lookAt_stays p 0))
    (fun p stays => stays.trans (take_stays p)) fuel depth ⟨rfl, rfl⟩

/-- Where nothing but declarations is read, a parser keeps what is set for it. -/
theorem lasting_kept (first : Parser) : Invariant
    (fun depth p => p.depth = depth ∧ p.lasting = first.lasting)
    fun _ p => p.lasting = first.lasting where
  look := by
    rintro _ p ⟨rfl, same⟩ index
    have looked := lookAt_stays p index
    exact ⟨looked.2, looked.1.trans same⟩
  take := by
    rintro _ p ⟨rfl, same⟩
    exact ⟨(take_stays p).2, (take_stays p).1.trans same⟩
  opens := by
    rintro _ p ⟨rfl, same⟩
    exact ⟨congrArg (· + 1) (take_stays p).2, (take_stays p).1.trans same⟩
  closes := by
    rintro _ p ⟨deep, same⟩
    exact ⟨by simp only [(take_stays p).2, deep, Nat.add_sub_cancel], (take_stays p).1.trans same⟩
  declare := fun kept _ => kept
  reject := fun kept _ _ => kept.2
  invalid := fun kept _ => (take_stays _).1.trans kept.2
  skip := fun same => (take_stays _).1.trans same

theorem declarationsAbove_stays (least fuel : Nat) : ∀ (parser : Parser) (read : List DeclId)
    (fine : Bool), parser.Lexed → parser.depth = 0 →
    parser.Stays (declarationsAbove least fuel read fine parser).2 := by
  induction fuel with
  | zero => exact fun _ _ _ _ _ => ⟨rfl, rfl⟩
  | succ fuel ih =>
    intro parser read fine lexed flat
    have looked := lookAt_stays parser 0
    have reads := reads_lookAt lexed 0
    have further : ∀ (later : Parser) (ids : List DeclId) (well : Bool), later.Lexed →
        parser.Stays later → parser.Stays (declarationsAbove least fuel ids well later).2 :=
      fun later ids well lexed stays => stays.trans (ih later ids well lexed (stays.2.trans flat))
    have archives := declarationsAbove_archives least fuel read fine parser
    generalize declarationsAbove least (fuel + 1) read fine parser = result at archives ⊢
    cases archives with
    | few _ => exact ⟨rfl, rfl⟩
    | leave _ => exact further _ _ _ (leave_takes reads.lexed).lexed looked
    | group well _ typed isRun =>
      have at' : (Pairing.alone (lasting_kept parser)).At false 0 (parser.lookAt 0).2
          (parser.lookAt 0).2 := ⟨⟨rfl, looked.2.trans flat, looked.1⟩, .inl rfl⟩
      subst isRun
      unfold runReader
      cases Reader.declaration_paired False at' reads.lexed (by rw [lookAt_lookAt]; exact typed)
        (show _ ≤ (parser.lookAt 0).2.nesting by unfold nesting; omega) with
      | done run _ ended _ groups =>
        rw [run]
        exact further _ _ _ groups.takes.lexed
          ⟨ended.together.2.2, ended.together.2.1.trans flat.symm⟩
      | @failed _ later _ _ run _ parted read =>
        rw [run]
        have skipped := skip_stays later.remaining later.depth { later with depth := 0 }
        exact further _ _ _ (recover_reads read.lexed).lexed
          ⟨skipped.1.trans parted, skipped.2.trans flat.symm⟩
    | refuse _ span isLater =>
      subst isLater
      exact looked.trans (lookAt_stays (parser.lookAt 0).2 0)

/-! ## Reading in between -/

/-- The parser with an archived text among its buffers. -/
def addArchived (parser : Parser) (text : Text × Text) : Parser :=
  { parser with
    files := (parser.files.addVirtual ("<snapshot:" ++ text.1 ++ ">") text.2).2 }

/-- The parser after the declarations of an archived text were read. -/
def readArchived (parser : Parser) (text : Text × Text) : Parser :=
  (Analysis.parseArchived { parser } text.1 text.2).2.parser

theorem readArchived_eq (parser : Parser) (text : Text × Text) :
    ∃ id, parser.readArchived text = ((parser.addArchived text).declarationsOf id).2 := by
  refine ⟨(parser.files.addVirtual ("<snapshot:" ++ text.1 ++ ">") text.2).1, ?_⟩
  unfold readArchived Analysis.parseArchived
  dsimp only [addArchived]
  split <;> rfl

/-- Two parsers that have the same to read, outside all braces. -/
structure Level (p q : Parser) : Prop where
  lexed : p.Lexed
  flat : p.depth = 0
  inputs : q.inputs = p.inputs
  stays : p.Stays q

theorem Level.refl (lexed : p.Lexed) (flat : p.depth = 0) : Level p p :=
  ⟨lexed, flat, rfl, rfl, rfl⟩

theorem Level.add (level : Level p q) (text : Text × Text) :
    Level (p.addArchived text) (q.addArchived text) :=
  { level with stays := ⟨congrArg (addArchived · text) level.stays.1, level.stays.2⟩ }

theorem Lexed.congr (lexed : p.Lexed) (inputs : q.inputs = p.inputs) : q.Lexed := by
  unfold Lexed
  rw [inputs]
  exact lexed

theorem Level.read (level : Level p q) (text : Text × Text) :
    Level (p.addArchived text) (q.readArchived text) := by
  obtain ⟨lexed, flat, inputs, stays⟩ := level.add text
  obtain ⟨id, isRead⟩ := readArchived_eq q text
  rw [isRead]
  have lexed' : (q.addArchived text).Lexed := lexed.congr inputs
  have entered : (q.addArchived text).Stays ((q.addArchived text).enter id) := by
    unfold enter
    split <;> exact ⟨rfl, rfl⟩
  refine ⟨lexed, flat, (declarationsOf_inputs lexed' id).trans inputs, ?_⟩
  exact (stays.trans entered).trans
    (declarationsAbove_stays _ _ _ _ _ (lexed'.enter id) (entered.2.trans (stays.2.trans flat)))

theorem Level.all (texts : List (Text × Text)) : ∀ {p q : Parser}, Level p q →
    Level (texts.foldl addArchived p) (texts.foldl readArchived q) := by
  induction texts with
  | nil => exact id
  | cons text _ ih => exact fun level => ih (level.read text)

theorem addArchived_all (texts : List (Text × Text)) (parser : Parser) :
    texts.foldl addArchived parser =
      { parser with files := (texts.foldl addArchived parser).files } := by
  induction texts generalizing parser with
  | nil => rfl
  | cons text _ ih => exact ih (parser.addArchived text)

/-! ## The units found from then on -/

/-- A parser that has declared and reported nothing. -/
def cleared (parser : Parser) : Parser :=
  { parser with decls := {}, errors := 0, reports := #[] }

theorem cleared_matched (flat : p.depth = 0) :
    Matched (some ⟨p.reports, p.errors⟩) p.decls.count p p.cleared where
  flat
  alike := by
    refine ⟨rfl, ⟨rfl, ?_⟩, fun before isTold => ?_⟩
    · simp [Declarations.count, cleared]
    · cases isTold
      exact ⟨rfl, rfl, Array.append_empty.symm, by simp [Declarations.count, cleared]⟩
  inputs := forall₂_same.mpr fun _ _ => ⟨rfl, fun _ _ => rfl⟩

theorem Level.matched (level : Level p q) : Matched (some {}) 0 p.cleared q.cleared where
  flat := level.flat
  alike := by
    have same : ∀ {α : Type} (part : Parser → α), part q.lasting = part p.lasting :=
      fun part => congrArg part level.stays.1
    refine ⟨?_, .refl _, fun before isTold => ?_⟩
    · exact congrArg₂ (fun parser depth => { parser.setting with depth }) level.stays.1
        level.stays.2
    · cases isTold
      exact ⟨same wrappers, rfl, rfl, rfl⟩
  inputs := by
    unfold cleared
    rw [level.inputs]
    exact forall₂_same.mpr fun _ _ => ⟨rfl, fun _ _ => rfl⟩

/-- What happens to a parser up to the next call for a unit: a call that finds one, an archived
text that is read, and whatever is done with the declarations and reports so far. -/
inductive Goes (before : Parser) : Parser → Prop
  | call {after : Parser} (call : before.Calls after) : Goes before after
  | read (text : Text × Text) : Goes before (before.readArchived text)
  | work (decls : Declarations) (errors : Nat) (reports : Array Diagnostic) :
      Goes before { before with decls, errors, reports }

theorem Outside.goes (outside : p.Outside) (lexed : p.Lexed) (goes : p.Goes q) :
    q.Outside ∧ q.Lexed := by
  cases goes with
  | call call =>
    obtain ⟨fuel, unit, run, more⟩ := call
    obtain ⟨paths, size, confined⟩ := lexed.confined
    have after := outside.nextUnit fuel confined
    rw [run] at after
    exact ⟨(after more).1, (after more).2.lexed⟩
  | read text =>
    obtain ⟨_, flat, inputs, stays, deep⟩ := (Level.refl lexed outside.flat).read text
    have grows : p.files.Grows (p.readArchived text).files := by
      have files : (p.readArchived text).lasting.files = (p.addArchived text).lasting.files := by
        rw [stays]
      show p.files.Grows (p.readArchived text).lasting.files
      rw [files]
      exact p.files.grows_add _ _ _
    refine ⟨⟨deep.trans flat, fun input member => ?_⟩, lexed.congr inputs⟩
    rw [inputs] at member
    exact (outside.inputs input member).mono grows
  | work => exact ⟨⟨outside.flat, outside.inputs⟩, lexed⟩

theorem Outside.enterAll (buffers : List FileId) : ∀ {p : Parser}, p.Outside → p.Lexed →
    (buffers.foldl Parser.enter p).Outside ∧ (buffers.foldl Parser.enter p).Lexed := by
  induction buffers with
  | nil => exact And.intro
  | cons id _ ih => exact fun outside lexed => ih (outside.enter id) (lexed.enter id)

theorem Lexed.drains_together (lexed : p.Lexed) (lexed' : q.Lexed) :
    ∃ bound, ∀ fuel, bound ≤ fuel →
      (∃ units rest, Drains fuel p units rest) ∧ ∃ units rest, Drains fuel q units rest := by
  obtain ⟨paths, size, confined⟩ := lexed.confined
  obtain ⟨paths', size', confined'⟩ := lexed'.confined
  exact ⟨weight paths (size + 3) p.inputs + weight paths' (size' + 3) q.inputs + 1,
    fun fuel enough => ⟨confined.drains fuel (by omega), confined'.drains fuel (by omega)⟩⟩

/-- Two parsers find the same units up to the end, with the same declarations and reports for
them.  The numbers of declarations are counted from those made before. -/
def DrainAlike (p q : Parser) : Prop :=
  ∃ bound, ∀ fuel, bound ≤ fuel → ∃ units units' rest rest' reports,
    Drains fuel p units rest ∧ Drains fuel q units' rest' ∧
    units'.map (SourceUnit.renumbered (· - q.decls.count)) =
      units.map (SourceUnit.renumbered (· - p.decls.count)) ∧
    (rest'.decls.entries.toList.drop q.decls.count).map (Decl.renumbered (· - q.decls.count)) =
      (rest.decls.entries.toList.drop p.decls.count).map (Decl.renumbered (· - p.decls.count)) ∧
    rest.reports = p.reports ++ reports ∧ rest'.reports = q.reports ++ reports

theorem Level.drainAlike (level : Level p q) : DrainAlike p q := by
  have lexed := level.lexed.congr level.inputs
  obtain ⟨bound, drain⟩ := level.lexed.drains_together lexed
  obtain ⟨bound', drain'⟩ : ∃ bound, ∀ fuel, bound ≤ fuel →
      (∃ units rest, Drains fuel p.cleared units rest) ∧
        ∃ units rest, Drains fuel q.cleared units rest :=
    Lexed.drains_together level.lexed lexed
  refine ⟨bound + bound', fun fuel enough => ?_⟩
  obtain ⟨⟨units, rest, drains⟩, units', rest', drains'⟩ := drain fuel (by omega)
  obtain ⟨⟨_, last, bare⟩, _, last', bare'⟩ := drain' fuel (by omega)
  -- Both are compared with what they would find, had nothing been declared or reported before.
  obtain ⟨rfl, ended⟩ := (cleared_matched level.flat).drains level.lexed drains bare
  obtain ⟨rfl, ended'⟩ :=
    (cleared_matched (level.stays.2.trans level.flat)).drains lexed drains' bare'
  obtain ⟨isUnits, together⟩ := level.matched.drains level.lexed bare bare'
  obtain ⟨_, _, reports, entries⟩ := ended.alike.same _ rfl
  obtain ⟨_, _, reports', entries'⟩ := ended'.alike.same _ rfl
  obtain ⟨_, _, told, made⟩ := together.alike.same _ rfl
  rw [Array.empty_append] at told
  refine ⟨units, units', rest, rest', last'.reports, drains, drains', ?_, ?_, ?_, reports'⟩
  · rw [isUnits]
    exact map_id'' SourceUnit.renumbered_id _
  · rw [← entries, ← entries', made]
    exact map_id'' Decl.renumbered_id _
  · rw [reports, told]

/-- Reading archived texts in between goes unnoticed, whatever they hold.  The buffers being read
are what they were, and the units found from then on are those found if the texts are only among
the buffers and no one reads them. -/
theorem archived_texts_unnoticed (parser : Parser) (buffers : List FileId) :
    let start := buffers.foldl enter { parser.abandon with depth := 0 }
    ∀ now, Relation.ReflTransGen Goes start now → ∀ texts : List (Text × Text),
      (texts.foldl readArchived now).inputs = now.inputs ∧
        DrainAlike (texts.foldl addArchived now) (texts.foldl readArchived now) := by
  intro start now goes texts
  obtain ⟨outside, lexed⟩ : now.Outside ∧ now.Lexed := by
    induction goes with
    | refl =>
      exact Outside.enterAll buffers ⟨rfl, fun _ member => absurd member List.not_mem_nil⟩
        fun _ member => absurd member List.not_mem_nil
    | tail _ step ih => exact ih.1.goes ih.2 step
  have level := (Level.refl lexed outside.flat).all texts
  refine ⟨?_, level.drainAlike⟩
  rw [level.inputs, addArchived_all]

/-- Both texts are refused: one has a brace that nothing closes, the other a statement. -/
theorem archived_texts_unnoticed_broken_body :
    let now := (brokenBody.nextUnit 2).2
    let texts : List (Text × Text) := [("f", "int f() \x7b ("), ("g", "int g; g = 1;")]
    (brokenBody.nextUnit 2).1 = .group [] ∧
      (texts.foldl readArchived now).inputs = now.inputs ∧
      DrainAlike (texts.foldl addArchived now) (texts.foldl readArchived now) := by
  have recovered : (brokenBody.nextUnit 2).1 = .group [] := by decide +kernel
  have call : Calls brokenBody (brokenBody.nextUnit 2).2 :=
    .of_unit 2 fun ended => SourceUnit.noConfusion (recovered.symm.trans ended)
  generalize (brokenBody.nextUnit 2).2 = now at call
  exact ⟨recovered, archived_texts_unnoticed _ [0] now (.single (.call call)) _⟩

end Parser

end FragmentCompiler
