import FragmentCompiler.Proofs.Reading.Unit

/-!
# Parsers side by side

What a parser reads from a buffer depends on the tokens left in it and on nothing else: neither
on the buffers below it, nor on the declarations made so far.  Two parsers at the same token go
on side by side, up to the numbers of what they declare, and so does a parser with itself, where
the braces it counts are those among the tokens it took.
-/

set_option autoImplicit false

namespace FragmentCompiler

open List

/-! ## Braces -/

/-- How many braces are open after a token.  A closing brace that closes nothing does not count. -/
def TokenKind.level (level : Nat) : TokenKind → Nat
  | .symbol .leftBrace => level + 1
  | .symbol .rightBrace => level - 1
  | _ => level

theorem TokenKind.level_of_isPlain {kind : TokenKind} (plain : kind.isPlain = true)
    (level : Nat) : kind.level level = level := by
  cases kind with
  | symbol mark => cases mark <;> first | rfl | cases plain
  | _ => rfl

/-- How many braces are open after some tokens. -/
def Lexer.level (lexemes : List Lexeme) : Nat :=
  lexemes.foldl (fun level lexeme => lexeme.token.kind.level level) 0

theorem Lexer.level_snoc (lexemes : List Lexeme) (lexeme : Lexeme) :
    level (lexemes ++ [lexeme]) = lexeme.token.kind.level (level lexemes) := by
  simp [level]

/-! ## Declarations up to their numbers -/

/-- A declaration with other numbers. -/
def Decl.renumbered (change : DeclId → DeclId) (decl : Decl) : Decl :=
  { decl with body := decl.body.renumbered change }

theorem Decl.renumbered_id (decl : Decl) : decl.renumbered id = decl := by
  rw [renumbered, DeclBody.renumbered_id]

/-- A declaration with other numbers and, if it is a wrapper, without its name. -/
def Decl.plain (change : DeclId → DeclId) (decl : Decl) : Decl :=
  { decl with
    name := if decl.isWrapper then [] else decl.name
    body := decl.body.renumbered change }

theorem Decl.isWrapper_renumbered (decl : Decl) (change : DeclId → DeclId) :
    isWrapper { decl with body := decl.body.renumbered change } = decl.isWrapper := by
  unfold isWrapper DeclBody.renumbered
  cases decl.body <;> rfl

/-- Apart from some that came first, two tables hold the same declarations. -/
structure Declarations.Shifted (base : Nat) (decls others : Declarations) : Prop where
  count : decls.count = base + others.count
  entries : (decls.entries.toList.drop base).map (Decl.plain (· - base)) =
    others.entries.toList.map (Decl.plain id)

variable {decls others : Declarations}

theorem Declarations.Shifted.enough {base : Nat}
    (shifted : decls.Shifted base others) : base ≤ decls.entries.toList.length := by
  have counts := shifted.count
  simp only [Declarations.count] at counts
  simp only [Array.length_toList]
  omega

theorem Declarations.Shifted.add {decl other} {base : Nat} (shifted : decls.Shifted base others)
    (same : decl.plain (· - base) = other.plain id) : (decls.add decl).2.Shifted
    base (others.add other).2 where
  count := by
    have counts := shifted.count
    simp only [Declarations.count, Declarations.add, Array.size_push] at counts ⊢
    omega
  entries := by
    simp only [Declarations.add, Array.toList_push, drop_append_of_le_length shifted.enough,
      map_append, map_cons, map_nil, shifted.entries, same]

theorem Declarations.Shifted.push {base : Nat}
    (shifted : decls.Shifted base others)
    (same : others.entries.toList = (decls.entries.toList.drop base).map (Decl.renumbered (· - base)))
    (decl : Decl) : (others.add (decl.renumbered (· - base))).2.entries.toList =
      ((decls.add decl).2.entries.toList.drop base).map (Decl.renumbered (· - base)) := by
  simp only [Declarations.add, Array.toList_push, drop_append_of_le_length shifted.enough,
    map_append, map_cons, map_nil, same]

theorem Declarations.Shifted.refl (decls : Declarations) : decls.Shifted 0 decls where
  count := (Nat.zero_add _).symm
  entries := rfl

/-- A unit with other numbers. -/
def SourceUnit.renumbered (change : DeclId → DeclId) : SourceUnit → SourceUnit
  | .group ids => .group (ids.map change)
  | .pragma key value span => .pragma key value span
  | .finished => .finished

theorem SourceUnit.renumbered_id (unit : SourceUnit) : unit.renumbered id = unit := by
  cases unit <;> simp [renumbered]

/-! ## Side by side -/

/-- What is set for a parser, apart from where it reads and what it has made. -/
def Parser.setting (parser : Parser) : Parser :=
  { parser with
    inputs := [], decls := {}, wrappers := 0, lastSpan := Span.none, errors := 0, reports := #[] }

/-- A buffer of which nothing was read. -/
def Buffer.toInput (buffer : Buffer) (id : FileId) : Input where
  file := id
  path := buffer.path
  virtual := buffer.flags.virtual
  fragment := buffer.flags.fragment
  pending := Lexer.lex id buffer.content

theorem Parser.enter_eq {buffer} {parser : Parser} {id : FileId}
    (found : parser.files.get? id = some buffer) :
    parser.enter id = { parser with inputs := buffer.toInput id :: parser.inputs } := by
  rw [enter, found]
  rfl

/-- What a parser had told when another one began to read beside it. -/
structure Parser.Told where
  reports : Array Diagnostic := #[]
  errors : Nat := 0

/-- The same settings and the same declarations after some that came first; if the parsers are
to agree in what they tell from then on, also the same reports and names. -/
structure Parser.Alike (told : Option Told) (base : Nat) (p q : Parser) : Prop where
  setting : q.setting = p.setting
  decls : p.decls.Shifted base q.decls
  same : ∀ before ∈ told, q.wrappers = p.wrappers ∧ p.errors = before.errors + q.errors ∧
    p.reports = before.reports ++ q.reports ∧
    q.decls.entries.toList = (p.decls.entries.toList.drop base).map (Decl.renumbered (· - base))

/-- Two inputs at one token, with so many braces open after those taken since a buffer was as
`origin` says. -/
structure Input.Beside (told : Option Parser.Told) (origin : Input) (level : Nat)
    (input other : Input) : Prop where
  same : other = { input with seen := other.seen }
  seen : ∀ before ∈ told, other.seen = input.seen
  begun : input = { origin with pending := input.pending, seen := input.seen }
  taken : ∃ taken, origin.pending = taken ++ input.pending ∧ Lexer.level taken = level

namespace Input.Beside

variable {told : Option Parser.Told} {origin : Input} {level : Nat} {input other : Input}

section

variable (beside : Beside told origin level input other)

include beside

theorem peeked (index : Nat) : other.peeked index = input.peeked index := by
  rw [beside.same]
  rfl

theorem fresh {before : Parser.Told} (isTold : before ∈ told) (index : Nat) :
    other.fresh index = input.fresh index := by
  rw [beside.same, beside.seen _ isTold]

theorem looked (index : Nat) :
    Beside told origin level (input.looked index) (other.looked index) where
  same := by
    rw [beside.same]
    rfl
  seen := fun _ isTold => by
    rw [Input.looked, beside.fresh isTold, beside.seen _ isTold]
    rfl
  begun := by
    rw [Input.looked, beside.begun]
  taken := beside.taken

theorem after (more : (input.peeked 0).kind ≠ .endOfInput) :
    Beside told origin ((input.peeked 0).kind.level level) input.taken other.taken where
  same := by
    rw [beside.same]
    rfl
  seen := fun _ isTold => by
    rw [Input.taken, Input.taken, beside.seen _ isTold]
  begun := by
    rw [Input.taken, beside.begun]
  taken := by
    obtain ⟨taken, isWhole, isLevel⟩ := beside.taken
    obtain ⟨lexeme, rest, isPending, isToken⟩ := Input.pending_of_peeked more
    refine ⟨taken ++ [lexeme], ?_, ?_⟩
    · rw [isWhole, Input.taken, isPending, append_assoc]
      rfl
    · rw [Lexer.level_snoc, isToken, isLevel]

end

end Input.Beside

namespace Parser

/-- Where two parsers began to read side by side. -/
structure Course where
  told : Option Told := some {}
  base : Nat := 0
  origin : Input
  below : List Input := []
  below' : List Input := []

/-- Two parsers at one token of a buffer. -/
structure Abreast (course : Course) (level : Nat) (p q : Parser) : Prop where
  alike : Alike course.told course.base p q
  place : ∃ input other, p.inputs = input :: course.below ∧ q.inputs = other :: course.below' ∧
    Input.Beside course.told course.origin level input other

variable {told : Option Told} {base level : Nat} {course : Course} {p q : Parser}

section

variable (alike : Alike told base p q)

include alike

theorem Alike.look {inputs inputs' : List Input} {span span' : Span} {new new' : List Diagnostic}
    (news : ∀ before ∈ told, new' = new) :
    Alike told base { p with inputs, lastSpan := span, reports := p.reports ++ new }
      { q with inputs := inputs', lastSpan := span', reports := q.reports ++ new' } where
  setting := alike.setting
  decls := alike.decls
  same := fun before isTold => by
    obtain ⟨wrappers, errors, reports, decls⟩ := alike.same before isTold
    refine ⟨wrappers, errors, Array.ext' ?_, decls⟩
    simp only [news before isTold, reports, Array.toList_append, Array.toList_appendList,
      append_assoc]

theorem Alike.record (diagnostic : Diagnostic) :
    Alike told base (p.record diagnostic) (q.record diagnostic) where
  setting := alike.setting
  decls := alike.decls
  same := fun before isTold => by
    obtain ⟨wrappers, errors, reports, decls⟩ := alike.same before isTold
    refine ⟨wrappers, ?_, ?_, decls⟩
    · simp only [Parser.record, errors]
      split <;> rfl
    · simp only [Parser.record, reports, Array.append_push]

theorem Alike.depth : q.depth = p.depth := by
  have same : q.setting.depth = p.setting.depth := by rw [alike.setting]
  exact same

theorem Alike.setDepth {depth depth' : Nat} (same : depth' = depth) :
    Alike told base { p with depth } { q with depth := depth' } where
  setting := by
    rw [same]
    exact congrArg (fun parser : Parser => { parser with depth }) alike.setting
  decls := alike.decls
  same := alike.same

end

section

variable (abreast : Abreast course level p q)

include abreast

theorem Abreast.lookAt (index : Nat) :
    (q.lookAt index).1 = (p.lookAt index).1 ∧
      Abreast course level (p.lookAt index).2 (q.lookAt index).2 := by
  obtain ⟨alike, input, other, isInputs, isOthers, beside⟩ := abreast
  rw [lookAt_eq isInputs, lookAt_eq isOthers]
  refine ⟨beside.peeked index, alike.look fun _ isTold => ?_, _, _, rfl, rfl, beside.looked index⟩
  rw [beside.fresh isTold]

theorem Abreast.take (more : (p.lookAt 0).1.kind ≠ .endOfInput) :
    Abreast course ((p.lookAt 0).1.kind.level level) p.take.2 q.take.2 := by
  obtain ⟨alike, input, other, isInputs, isOthers, beside⟩ := abreast
  rw [lookAt_eq isInputs] at more ⊢
  rw [take_eq isInputs more, take_eq isOthers (by rw [beside.peeked]; exact more)]
  refine ⟨alike.look fun _ isTold => ?_, _, _, rfl, rfl, beside.after more⟩
  rw [beside.fresh isTold]

theorem Abreast.record (diagnostic : Diagnostic) :
    Abreast course level (p.record diagnostic) (q.record diagnostic) :=
  ⟨abreast.alike.record diagnostic, abreast.place⟩

theorem Abreast.setDepth {depth depth' : Nat} (same : depth' = depth) :
    Abreast course level { p with depth } { q with depth := depth' } :=
  ⟨abreast.alike.setDepth same, abreast.place⟩

end

theorem Alike.declaring (alike : Alike told base p q) (decl : Decl) :
    Alike told base (p.declaring decl)
      (q.declaring { decl with body := decl.body.renumbered (· - base) }) where
  setting := alike.setting
  decls := by
    refine alike.decls.add ?_
    unfold Decl.plain
    rw [Decl.isWrapper_renumbered, DeclBody.renumbered_id]
  same := fun before isTold => by
    obtain ⟨wrappers, errors, reports, decls⟩ := alike.same before isTold
    exact ⟨wrappers, errors, reports, alike.decls.push decls decl⟩

theorem Alike.wrapping (alike : Alike told base p q) (span : Span) (data : Function) :
    Alike told base (p.wrapping span data) (q.wrapping span (data.renumbered (· - base))) where
  setting := alike.setting
  decls := by
    refine alike.decls.add ?_
    have unmoved := Function.renumbered_id (data.renumbered (· - base))
    simp only [Decl.plain, Decl.isWrapper, DeclBody.renumbered, unmoved, if_true]
  same := fun before isTold => by
    obtain ⟨wrappers, errors, reports, decls⟩ := alike.same before isTold
    refine ⟨congrArg (· + 1) wrappers, errors, reports, ?_⟩
    unfold Parser.wrapping
    rw [wrappers]
    exact alike.decls.push decls { span, body := .wrapper data, name := _ }

theorem depth_lookAt (parser : Parser) (index : Nat) :
    (parser.lookAt index).2.depth = parser.depth := by
  cases isInputs : parser.inputs with
  | nil => rw [lookAt_idle isInputs]
  | cons input below => rw [lookAt_eq isInputs]

theorem depth_take (parser : Parser) : parser.take.2.depth = parser.depth := by
  by_cases isEnd : (parser.lookAt 0).1.kind = .endOfInput
  · rw [take_of_end isEnd, depth_lookAt]
  · obtain ⟨input, below, isInputs, more⟩ := busy_of_more isEnd
    rw [take_eq isInputs more]

/-- Two parsers go on side by side past a token that leaves the count of braces as it is. -/
theorem Abreast.pass {kind : TokenKind}
    (abreast : Abreast course level p q ∧ p.depth = level)
    (isKind : (p.lookAt 0).1.kind = kind) (more : kind ≠ .endOfInput := by simp)
    (flat : kind.level level = level := by rfl) :
    Abreast course level p.take.2 q.take.2 ∧ p.take.2.depth = level := by
  have taken := abreast.1.take (by rw [isKind]; exact more)
  rw [isKind, flat] at taken
  exact ⟨taken, (depth_take p).trans abreast.2⟩

/-- Parsers side by side, with the braces they count. -/
def abreast (course : Course) : Pairing where
  number := (· - course.base)
  together := fun level p q => Abreast course level p q ∧ p.depth = level
  parted := fun level p q => Abreast course level p q ∧ p.depth = level
  look := by
    rintro level p q ⟨abreast, isDepth⟩ index
    exact ⟨(abreast.lookAt index).1, (abreast.lookAt index).2,
      (depth_lookAt p index).trans isDepth⟩
  take := fun abreast plain => Abreast.pass abreast rfl (TokenKind.more_of_isPlain plain).1
    (TokenKind.level_of_isPlain plain _)
  opens := by
    rintro level p q ⟨abreast, isDepth⟩ isOpen
    have taken := abreast.take (by simp [isOpen])
    rw [isOpen] at taken
    exact ⟨taken.setDepth (by rw [taken.alike.depth]), by simp [depth_take, isDepth]⟩
  closes := by
    rintro level p q ⟨abreast, isDepth⟩ isClose
    have taken := abreast.take (by simp [isClose])
    rw [isClose] at taken
    exact ⟨taken.setDepth (by rw [taken.alike.depth]), by simp [depth_take, isDepth]⟩
  fragment := by
    rintro level p q ⟨⟨_, input, other, isInputs, isOthers, beside⟩, _⟩
    rw [isInputs, isOthers, head?_cons, head?_cons, beside.same]
    rfl
  numbers := by
    rintro level p q ⟨abreast, _⟩
    have counts := abreast.alike.decls.count
    show p.decls.count + 1 - course.base = q.decls.count + 1
    omega
  declare := fun abreast decl =>
    ⟨⟨abreast.1.alike.declaring decl, abreast.1.place⟩, abreast.2⟩
  reject := fun abreast diagnostic _ => ⟨abreast.1.record diagnostic, abreast.2⟩
  invalid := fun abreast isInvalid => Abreast.pass abreast isInvalid
  skip := by
    rintro level p q abreast (isDirective | ⟨rfl, isClose⟩)
    · exact Abreast.pass abreast isDirective
    · exact Abreast.pass abreast isClose

theorem abreast_wraps (course : Course) : (abreast course).Wraps := by
  rintro level p q ⟨abreast, isDepth⟩ span data
  exact ⟨⟨abreast.alike.wrapping span data, abreast.place⟩, isDepth⟩

/-! ## Recovery -/

/-- Skipping ends outside all braces or at the end of the buffer. -/
theorem Abreast.skip (fuel : Nat) : ∀ {level : Nat} {p q : Parser},
    Abreast course level p q → p.remaining ≤ fuel →
    ∃ last, Abreast course last (Parser.skip fuel level p)
        (Parser.skip fuel level q) ∧
      (last = 0 ∨ ((Parser.skip fuel level p).lookAt 0).1.kind = .endOfInput) ∧
      (Parser.skip fuel level p).depth = p.depth := by
  induction fuel with
  | zero =>
    intro level p q abreast few
    refine ⟨level, abreast, .inr (Decidable.byContradiction fun more => ?_), rfl⟩
    have taken : p.take.2.remaining + 1 = p.remaining := remaining_take more
    omega
  | succ fuel ih =>
    intro level p q abreast few
    obtain ⟨same, looked⟩ := abreast.lookAt 0
    have isDepth := depth_lookAt p 0
    have room := Reader.remaining_lookAt p 0
    unfold Parser.skip
    dsimp only
    rw [same]
    have next : ∀ {kind : TokenKind}, (p.lookAt 0).1.kind = kind → kind ≠ .endOfInput →
        Abreast course (kind.level level) (p.lookAt 0).2.take.2
          (q.lookAt 0).2.take.2 ∧ (p.lookAt 0).2.take.2.depth = p.depth ∧
          (p.lookAt 0).2.take.2.remaining ≤ fuel := by
      intro kind isKind more
      have isNext : ((p.lookAt 0).2.lookAt 0).1.kind = kind := by rw [lookAt_lookAt, isKind]
      have taken := looked.take (by rw [isNext]; exact more)
      have spent : (p.lookAt 0).2.take.2.remaining + 1 = (p.lookAt 0).2.remaining :=
        remaining_take (by rw [isNext]; exact more)
      rw [isNext] at taken
      exact ⟨taken, (depth_take _).trans isDepth, by omega⟩
    have onward : ∀ {kind : TokenKind}, (p.lookAt 0).1.kind = kind → kind ≠ .endOfInput →
        ∃ last, Abreast course last
          (.skip fuel (kind.level level) (p.lookAt 0).2.take.2)
          (.skip fuel (kind.level level) (q.lookAt 0).2.take.2) ∧
        (last = 0 ∨ ((Parser.skip fuel (kind.level level) (p.lookAt 0).2.take.2).lookAt 0).1.kind =
          .endOfInput) ∧
        (Parser.skip fuel (kind.level level) (p.lookAt 0).2.take.2).depth = p.depth := by
      intro kind isKind more
      obtain ⟨taken, deep, left⟩ := next isKind more
      obtain ⟨last, later, ends, kept⟩ := ih taken left
      exact ⟨last, later, ends, kept.trans deep⟩
    split
    · rename_i isEnd
      exact ⟨level, looked, .inr (by rw [lookAt_lookAt, isEnd]), isDepth⟩
    · rename_i isSemicolon
      split
      · rename_i flat
        subst flat
        obtain ⟨taken, deep, _⟩ := next isSemicolon (by simp)
        exact ⟨0, taken, .inl rfl, deep⟩
      · exact onward isSemicolon (by simp)
    · rename_i isOpen
      exact onward isOpen (by simp)
    · rename_i isClose
      split
      · rename_i outer
        obtain ⟨taken, deep, _⟩ := next isClose (by simp)
        exact ⟨_, taken, .inl (by show level - 1 = 0; omega), deep⟩
      · exact onward isClose (by simp)
    · rename_i isDirective
      split
      · rename_i flat
        exact ⟨level, looked, .inl flat, isDepth⟩
      · exact onward isDirective (by simp)
    · rename_i more _ noOpen noClose _
      have flat : (p.lookAt 0).1.kind.level level = level := by
        unfold TokenKind.level
        split
        · exact absurd ‹_› noOpen
        · exact absurd ‹_› noClose
        · rfl
      have passed := onward rfl more
      rw [flat] at passed
      exact passed

theorem Abreast.recover (abreast : Abreast course level p q)
    (isDepth : p.depth = level) :
    ∃ last, Abreast course last p.recover q.recover ∧
      (last = 0 ∨ (p.recover.lookAt 0).1.kind = .endOfInput) ∧ p.recover.depth = 0 := by
  have same : q.remaining = p.remaining := by
    obtain ⟨_, input, other, isInputs, isOthers, beside⟩ := abreast
    rw [remaining, remaining, isInputs, isOthers, beside.same]
  unfold Parser.recover
  rw [same, abreast.alike.depth, isDepth]
  exact Abreast.skip p.remaining (abreast.setDepth rfl) (Nat.le_refl _)

/-! ## Units -/

/-- Between two units no brace is open, unless the buffer has ended with one. -/
structure Between (course : Course) (p q : Parser) : Prop where
  flat : p.depth = 0
  abreast : ∃ level, Abreast course level p q ∧
    (level = 0 ∨ (p.lookAt 0).1.kind = .endOfInput)

section

variable (between : Between course p q)

include between

theorem Between.lookAt (index : Nat) :
    (q.lookAt index).1 = (p.lookAt index).1 ∧
      Between course (p.lookAt index).2 (q.lookAt index).2 := by
  obtain ⟨flat, level, abreast, outside⟩ := between
  refine ⟨(abreast.lookAt index).1, (depth_lookAt p index).trans flat, level,
    (abreast.lookAt index).2, ?_⟩
  rw [lookAt_lookAt]
  exact outside

theorem Between.glanced :
    q.declares = p.declares ∧ Between course p.glanced q.glanced := by
  obtain ⟨first, looked⟩ := between.lookAt 0
  refine ⟨by rw [declares, declares, first, (between.lookAt 1).1], ?_⟩
  unfold Parser.glanced
  rw [first]
  split
  · exact (looked.lookAt 1).2
  · exact looked

theorem Between.outside (more : (p.lookAt 0).1.kind ≠ .endOfInput) :
    Abreast course 0 p q := by
  obtain ⟨_, level, abreast, isFlat | isEnd⟩ := between
  · exact isFlat ▸ abreast
  · exact absurd isEnd more

theorem Between.remaining : q.remaining = p.remaining := by
  obtain ⟨_, level, ⟨_, input, other, isInputs, isOthers, beside⟩, _⟩ := between
  rw [Parser.remaining, Parser.remaining, isInputs, isOthers, beside.same]

theorem Between.runReader {reader} (lexed : p.Lexed) {wraps : Prop} (starts : p.Starts wraps reader)
    (more : (p.lookAt 0).1.kind ≠ .endOfInput) :
    (q.runReader reader).1 = (p.runReader reader).1.map (· - course.base) ∧
      Between course (p.runReader reader).2 (q.runReader reader).2 := by
  have at' : (Parser.abreast course).At true 0 p q :=
    ⟨⟨between.outside more, between.flat⟩, .inr ⟨rfl, more⟩⟩
  unfold Parser.runReader
  cases starts.paired (abreast_wraps course) at' lexed with
  | done run other ended _ =>
    rw [run, other]
    exact ⟨rfl, ended.together.2, 0, ended.together.1, .inl rfl⟩
  | failed run other parted =>
    rw [run, other]
    obtain ⟨last, later, outside, flat⟩ := parted.1.recover parted.2
    exact ⟨rfl, flat, last, later, outside⟩

/-- Both parsers read the same unit. -/
theorem Between.group (lexed : p.Lexed) (more : (p.lookAt 0).1.kind ≠ .endOfInput)
    (text : (p.lookAt 0).1.kind ≠ .directive) :
    ∃ ids p' q', p.step = (some (.group ids), p') ∧
      q.step = (some (.group (ids.map (· - course.base))), q') ∧
      Between course p' q' := by
  have first := (between.lookAt 0).1
  obtain ⟨same, glanced⟩ := between.glanced
  obtain ⟨group, after⟩ := glanced.runReader (glanced_reads lexed).lexed (glanced_starts more text)
    (by rw [lookAt_glanced]; exact more)
  have reader : q.glanced.unitReader q.declares = p.glanced.unitReader p.declares := by
    rw [unitReader, unitReader, nesting, nesting, glanced.remaining, same]
  refine ⟨_, _, _, step_group more text, ?_, after⟩
  rw [step_group (by rw [first]; exact more) (by rw [first]; exact text), reader, group]

end

/-! ## Directives -/

section

variable (alike : Alike told base p q)

include alike

theorem Alike.place {inputs inputs' : List Input} {span span' : Span} :
    Alike told base { p with inputs, lastSpan := span }
      { q with inputs := inputs', lastSpan := span' } :=
  ⟨alike.setting, alike.decls, alike.same⟩

theorem Alike.setFiles (files : FileSet) :
    Alike told base { p with files } { q with files } where
  setting := congrArg (fun parser : Parser => { parser with files }) alike.setting
  decls := alike.decls
  same := alike.same

theorem Alike.files : q.files = p.files := by
  have same : q.setting.files = p.setting.files := by rw [alike.setting]
  exact same

theorem Alike.takesPragmas : q.takesPragmas = p.takesPragmas := by
  have same : q.setting.takesPragmas = p.setting.takesPragmas := by rw [alike.setting]
  exact same

end

/-- An include finds the same from the same place. -/
theorem Abreast.sought (abreast : Abreast course level p q) (span : Span)
    (name : Text) : q.sought span name = p.sought span name := by
  obtain ⟨alike, input, other, isInputs, isOthers, beside⟩ := abreast
  have same : ∀ parser : Parser, parser.sought span name =
      Parser.sought { parser.setting with inputs := parser.inputs } span name := fun _ => rfl
  have candidates : Parser.candidates { p.setting with inputs := q.inputs } name =
      Parser.candidates { p.setting with inputs := p.inputs } name := by
    unfold Parser.candidates
    rw [isInputs, isOthers, beside.same]
  rw [same p, same q, alike.setting]
  unfold Parser.sought
  rw [candidates]

theorem Abreast.openIncluded (abreast : Abreast course level p q)
    (span : Span) (name : Text) :
    (q.openIncluded span name).1 = (p.openIncluded span name).1 ∧
      Abreast course level (p.openIncluded span name).2
        (q.openIncluded span name).2 ∧
      (p.openIncluded span name).2.depth = p.depth := by
  rw [openIncluded_eq, openIncluded_eq, abreast.sought]
  split
  · exact ⟨rfl, ⟨abreast.alike.setFiles _, abreast.place⟩, rfl⟩
  · exact ⟨rfl, abreast.record _, rfl⟩

/-- The buffer that the next directive includes by name. -/
def includes? (parser : Parser) : Option Text :=
  if (parser.lookAt 0).1.kind = .directive then includedName (parser.lookAt 0).1 else none

theorem includes?_eq_some {name : Text} (includes : p.includes? = some name) :
    (p.lookAt 0).1.kind = .directive ∧ includedName (p.lookAt 0).1 = some name := by
  unfold includes? at includes
  split at includes
  · exact ⟨‹_›, includes⟩
  · cases includes

theorem Between.includes? (between : Between course p q) :
    q.includes? = p.includes? := by
  rw [Parser.includes?, Parser.includes?, (between.lookAt 0).1]

theorem Between.directive (between : Between course p q)
    (isDirective : (p.lookAt 0).1.kind = .directive) :
    Abreast course 0 (p.lookAt 0).2.take.2 (q.lookAt 0).2.take.2 ∧
      (p.lookAt 0).2.take.2.depth = 0 := by
  have outside := between.outside (by simp [isDirective])
  exact Abreast.pass ⟨(outside.lookAt 0).2, (depth_lookAt p 0).trans between.flat⟩
    (by rw [lookAt_lookAt, isDirective])

/-- Both parsers take the same step, where it enters or leaves no buffer. -/
theorem Between.step (between : Between course p q) (lexed : p.Lexed)
    (more : (p.lookAt 0).1.kind ≠ .endOfInput) (plain : p.includes? = none) :
    ∃ unit p' q', p.step = (unit, p') ∧
      q.step = (unit.map (SourceUnit.renumbered (· - course.base)), q') ∧ unit ≠ some .finished ∧
      Between course p' q' := by
  by_cases isDirective : (p.lookAt 0).1.kind = .directive
  · have same := (between.lookAt 0).1
    obtain ⟨taken, flat⟩ := between.directive isDirective
    rw [step_directive isDirective, step_directive (by rw [same]; exact isDirective), same]
    rw [Parser.includes?, if_pos isDirective] at plain
    cases directive_directs (p.lookAt 0).2.take.2.takesPragmas (p.lookAt 0).1 with
    | included name isName => cases plain.symm.trans isName
    | pragma key value span _ run =>
      exact ⟨_, _, _, run _ rfl, run _ taken.alike.takesPragmas, by simp, flat, 0, taken, .inl rfl⟩
    | remark diagnostic _ _ run =>
      exact ⟨_, _, _, run _ rfl, run _ taken.alike.takesPragmas, by simp, flat, 0,
        taken.record diagnostic, .inl rfl⟩
  · obtain ⟨ids, p', q', run, other, after⟩ := between.group lexed more isDirective
    exact ⟨_, p', q', run, other, by simp, after⟩

end Parser

end FragmentCompiler
