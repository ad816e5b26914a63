import FragmentCompiler.Proofs.Reading.Lockstep

/-!
# One pass through the grammar

Two parsers in lockstep read the same trees, up to the numbers of declarations.  The trees are
raw, the variables they declare are numbered in the order they stand in, and a function is
declared after all that it owns.

A reader that has room for eight readers at each token never fails for want of it.
-/

set_option autoImplicit false

namespace FragmentCompiler

open List Parser

namespace Reader

variable {pair : Pairing} {begins : Bool} {depth spend fuel : Nat} {p q base : Parser}
  {α β : Type} {made : List Decl} {kind : TokenKind}

/-! ## Expressions -/

theorem isPlain_of_ofKind? {op} (isOp : BinaryOp.ofKind? kind = some op) : kind.isPlain = true := by
  cases kind with
  | symbol mark => cases mark <;> first | rfl | cases isOp
  | _ => first | rfl | cases isOp

/-- With a bound on the nesting that leaves room for eight readers at each token, and some
slack, two runs go on in lockstep. -/
def Lockstep (pair : Pairing) (base : Parser) (begins : Bool) (slack spend fuel : Nat)
    (change : α → α) (good : List Decl → α → Parser → Prop) (reader : Reader α) : Prop :=
  ∀ {depth : Nat} {made : List Decl} {p q : Parser}, pair.Here base begins depth made p q →
    (_ : 8 * p.remaining + slack ≤ fuel := by omega) →
    Paired pair base spend depth change (good made) reader reader p q

/-- Two runs of one reader that declares nothing go on in lockstep. -/
def Roomy (pair : Pairing) (base : Parser) (begins : Bool) (slack spend fuel : Nat)
    (good : α → Prop) (reader : Reader α) : Prop :=
  Lockstep pair base begins slack spend fuel id
    (fun made value later => base.Reads made later ∧ good value) reader

/-- Arguments were read up to the parenthesis that closes them. -/
def Arguments (base : Parser) (made : List Decl) (arguments : List Expr) (later : Parser) : Prop :=
  base.Reads made later ∧ (∀ argument ∈ arguments, argument.Raw) ∧
    (later.lookAt 0).1.kind = .symbol .rightParen

theorem expressions_paired (fuel : Nat) :
    Roomy pair base true 4 1 fuel Expr.Raw (expression fuel) ∧
    (∀ least, Roomy pair base true 3 1 fuel Expr.Raw (operation fuel least)) ∧
    (∀ least left, left.Raw → Roomy pair base false 1 0 fuel Expr.Raw (operations fuel least left)) ∧
    Roomy pair base true 2 1 fuel Expr.Raw (operand fuel) ∧
    (∀ mark op {depth made p q}, pair.Here base true depth made p q →
      (p.lookAt 0).1.kind.isPlain = true → (_ : 8 * p.remaining + 1 ≤ fuel := by omega) →
      Twins pair base 1 depth made Expr.Raw (signed fuel mark op) p q) ∧
    (∀ callee, callee.Raw → Roomy pair base false 1 0 fuel Expr.Raw (calls fuel callee)) ∧
    (∀ opening read, (∀ argument ∈ read, argument.Raw) →
      Lockstep pair base false 5 0 fuel id (Arguments base) (callArguments fuel opening read)) ∧
    Roomy pair base true 1 1 fuel Expr.Raw (primary fuel) := by
  induction fuel with
  | zero =>
    refine ⟨?_, fun _ => ?_, fun _ _ _ => ?_, ?_, fun _ _ {_ _ _ _} _ _ bound => ?_, fun _ _ => ?_,
      fun _ _ _ => ?_, ?_⟩ <;> first | omega | (intro _ _ _ _ _ bound; omega)
  | succ fuel ih =>
    obtain ⟨ihExpression, ihOperation, ihOperations, ihOperand, ihSigned, ihCalls, ihArguments,
      ihPrimary⟩ := ih
    refine ⟨?_, ?_, ?_, ?_, ?_, ?_, ?_, ?_⟩
    · intro depth made p q here bound
      rw [expression]
      refine (ihOperation 1 here).next fun left p₁ q₁ first _ rawLeft => ?_
      refine .accept first (fun equals p₂ q₂ taken _ => ?_) fun _ _ looked _ => .give looked rawLeft
      split
      · refine (ihExpression taken.weaken).next fun value _ _ last _ raw => .give last ?_
        cases rawLeft
        exact .assign _ _ _ raw
      · exact .reject taken
    · intro least depth made p q here bound
      rw [operation]
      exact (ihOperand here).next fun left p₁ q₁ first _ raw => ihOperations least left raw first
    · intro least left rawLeft depth made p q here bound
      rw [operations]
      refine .peek_bind here fun token p₁ q₁ looked same isNext => ?_
      split
      · exact .give looked rawLeft
      · rename_i op isOp
        split
        · exact .give looked rawLeft
        · have plain : (p₁.lookAt 0).1.kind.isPlain = true := by
            rw [isNext]
            exact isPlain_of_ofKind? isOp
          refine (Paired.take looked plain).next fun _ p₂ q₂ taken _ _ => ?_
          refine (ihOperation _ taken.weaken).next fun right p₃ q₃ second _ raw => ?_
          exact (ihOperations _ _ (.binary _ _ rawLeft raw) second).weaken
    · intro depth made p q here bound
      rw [operand]
      refine .peek_bind here fun token p₁ q₁ looked same isNext => ?_
      split
      · rename_i isKind
        exact ihSigned _ _ looked (by rw [isNext, isKind]; rfl)
      · rename_i isKind
        exact ihSigned _ _ looked (by rw [isNext, isKind]; rfl)
      · exact (ihPrimary looked).next fun callee p₂ q₂ called _ raw => ihCalls callee raw called
    · intro mark op depth made p q here plain bound
      rw [signed]
      refine (Paired.take here plain).next fun _ p₁ q₁ taken _ _ => ?_
      exact (ihOperand taken.weaken).next fun inner _ _ last _ raw => .give last (.unary _ _ raw)
    · intro callee rawCallee depth made p q here bound
      rw [calls]
      refine .accept here (fun opening p₁ q₁ taken _ => ?_) fun _ _ looked _ => .give looked rawCallee
      refine (ihArguments _ [] (by simp) taken).bind fun arguments p₂ q₂ given _ known => ?_
      obtain ⟨has, rawArguments, isClose⟩ := known
      refine (Paired.take ⟨given, has⟩ (by rw [isClose]; rfl)).next
        fun _ p₃ q₃ closed _ _ => .lastSpan closed.toAt fun span => ?_
      exact (ihCalls _ (.call _ rawCallee rawArguments) closed).weaken
    · intro opening read rawRead depth made p q here bound
      have more : Lockstep pair base false 4 0 fuel id (Arguments base) (do
          let argument ← expression fuel
          callArguments fuel opening (argument :: read)) := by
        intro depth made p q here room
        refine (ihExpression here.weaken).next fun argument p₁ q₁ given _ raw => ?_
        exact (ihArguments _ _ (forall_mem_cons.mpr ⟨raw, rawRead⟩) given).weaken
      rw [callArguments]
      refine .choose here (fun _ _ looked _ isClose =>
        .pure looked.toAt rfl ⟨looked.reads, fun argument member =>
          rawRead argument (mem_reverse.mp member), isClose⟩) fun p₁ q₁ looked same => ?_
      split
      · refine .sees_bind looked (fun p₂ q₂ seen again isKind => ?_) fun p₂ q₂ seen _ => ?_
        · exact (Paired.take seen (by rw [isKind]; rfl)).next fun _ _ _ taken _ _ => more taken
        · exact .stop (.reject seen)
      · exact more looked
    · intro depth made p q here bound
      rw [primary]
      refine .peek_bind here fun token p₁ q₁ looked same isNext => ?_
      -- Every branch that takes the token knows what it is.
      have take : ∀ {kind : TokenKind}, token.kind = kind → kind.isPlain = true →
          Twins pair base 1 depth made (· = (p₁.lookAt 0).1) .take p₁ q₁ := by
        intro kind isKind plain
        exact Paired.take looked (by rw [isNext, isKind]; exact plain)
      -- A token that is a value by itself.
      have plain : ∀ {kind : TokenKind} {value : Expr}, token.kind = kind → kind.isPlain = true →
          value.Raw → Twins pair base 1 depth made Expr.Raw
            (.take >>= fun _ => pure value) p₁ q₁ := fun isKind plain raw =>
        (take isKind plain).next fun _ _ _ taken _ _ => .give taken raw
      split
      · exact plain ‹_› rfl (.name _ _)
      · refine (take ‹_› rfl).next fun _ _ _ taken _ _ => ?_
        split
        · exact .give taken (.literal _ _ _)
        · exact .reject taken
      · refine (take ‹_› rfl).next fun _ _ _ taken _ _ => ?_
        split
        · exact .give taken (.literal _ _ _)
        · exact .reject taken
      · exact plain ‹_› rfl (.literal _ _ _)
      · exact plain ‹_› rfl (.literal _ _ _)
      · exact plain ‹_› rfl (.literal _ _ _)
      · refine (take ‹_› rfl).next fun opening p₂ q₂ taken _ _ => ?_
        refine (ihExpression taken.weaken).next fun inner p₃ q₃ inside _ raw => ?_
        exact .accept inside (fun _ _ _ closed _ => .lastSpan closed.toAt fun _ =>
          .give closed (.group _ raw)) fun _ _ seen _ => .reject seen
      · rename_i isKind
        refine .failed rfl rfl (pair.invalid looked.together ?_) looked.reads.take
        rw [isNext]
        exact isKind
      · exact .rejectHere looked

theorem expression_paired (here : pair.Here base true depth made p q)
    (bound : 8 * p.remaining + 4 ≤ fuel := by omega) :
    Twins pair base 1 depth made Expr.Raw (expression fuel) p q :=
  (expressions_paired fuel).1 here bound

/-! ## Statements -/

theorem typeOf_isResult {token} (typed : token.kind.isType = true) :
    (typeOf token).IsResult := by
  unfold typeOf
  cases kind : token.kind with
  | keyword word =>
    rw [kind] at typed
    cases word <;> first | exact True.intro | cases typed
  | _ => rw [kind] at typed; cases typed

theorem isPlain_of_isType (typed : kind.isType = true) : kind.isPlain = true := by
  cases kind with
  | keyword word => rfl
  | _ => cases typed

/-- What follows the initial value of a declarator. -/
def declaratorRest (fuel : Nat) (typeToken : Token) (storage : Storage) (nameToken : Token)
    (read : List DeclId) (initial : Option Expr) : Reader (List DeclId) := do
  let start := if read.isEmpty then typeToken.span else nameToken.span
  let id ← declare nameToken.text (start.cover (← lastSpan))
    (.variable { type := typeOf typeToken, initial, storage })
  if ← seesMark .comma then
    let _ ← take
    let nameToken ← expect .name .expectedIdentifier "expected identifier after ','"
    declarators fuel typeToken storage nameToken (id :: read)
  else
    let _ ← expect (.symbol .semicolon) .expectedSemicolon "expected ';' after declaration"
    return (id :: read).reverse

theorem declarators_eq (fuel : Nat) (typeToken : Token) (storage : Storage) (nameToken : Token)
    (read : List DeclId) :
    declarators (fuel + 1) typeToken storage nameToken read = (do
      let initial ← if ← seesMark .assign then do
          let _ ← take
          some <$> expression fuel
        else pure none
      declaratorRest fuel typeToken storage nameToken read initial) := rfl

variable {typeToken : Token}

theorem initialValue_paired (here : pair.Here base false depth made p q)
    (bound : 8 * p.remaining + 4 ≤ fuel := by omega) :
    Twins pair base 1 depth made (∀ value ∈ ·, value.Raw) (some <$> expression fuel) p q :=
  (expression_paired here.weaken).map some (fun _ => rfl)
    fun _ _ known => ⟨known.1, fun _ isValue => Option.some.inj isValue ▸ known.2⟩

theorem declarators_paired (fuel : Nat) (storage : Storage)
    (isValue : (typeOf typeToken).IsValue) :
    ∀ (nameToken : Token) (read : List DeclId) {depth : Nat} {made : List Decl} {p q : Parser},
      pair.At false depth p q → base.Adds storage made read.reverse p →
      (_ : 8 * p.remaining + 5 ≤ fuel := by omega) →
      Paired pair base 1 depth (List.map pair.number)
        (fun ids later => base.Adds storage made ids later ∧ ids ≠ [])
        (declarators fuel typeToken storage nameToken read)
        (declarators fuel typeToken storage nameToken (read.map pair.number)) p q := by
  induction fuel with
  | zero =>
    intro nameToken read depth made p q _ _ bound
    omega
  | succ fuel ih =>
    intro nameToken read depth made p q at' adds bound
    obtain ⟨new, reads, stored, isIds⟩ := adds
    have tail : ∀ initial {p q : Parser}, pair.Here base false depth (made ++ new) p q →
        (∀ value ∈ initial, value.Raw) → (_ : 8 * p.remaining + 4 ≤ fuel := by omega) →
        Paired pair base 1 depth (List.map pair.number)
          (fun ids later => base.Adds storage made ids later ∧ ids ≠ [])
          (declaratorRest fuel typeToken storage nameToken read initial)
          (declaratorRest fuel typeToken storage nameToken (read.map pair.number) initial) p q := by
      intro initial p q here rawInitial room
      unfold declaratorRest
      rw [isEmpty_map]
      refine .lastSpan here.toAt fun span => ?_
      have raw : Variable.Raw { type := typeOf typeToken, initial, storage } :=
        ⟨isValue, rawInitial, rfl⟩
      refine (Paired.declareVariable here raw).bind fun id p₂ q₂ declared _ one => ?_
      have all : base.Adds storage made (id :: read).reverse p₂ := by
        rw [reverse_cons, one.1]
        exact .append stored isIds (one.2.one ⟨rfl, _, rfl, raw, rfl⟩)
      obtain ⟨new, reads, stored, isIds⟩ := all
      refine .accept ⟨declared, reads⟩ (fun _ p₃ q₃ taken _ => ?_) fun p₃ q₃ looked _ => ?_
      · exact (Paired.expect taken).next fun next p₄ q₄ named _ _ =>
          (ih _ (id :: read) named.toAt ⟨new, named.reads, stored, isIds⟩).weaken
      · exact (Paired.expect looked).next fun _ _ _ ended _ _ =>
          .pure ended.toAt (by simp) ⟨⟨new, ended.reads, stored, isIds⟩, by simp⟩
    rw [declarators_eq, declarators_eq]
    refine .accept ⟨at', reads⟩ (fun _ p₁ q₁ taken _ => ?_) fun p₁ q₁ looked _ => ?_
    · exact (initialValue_paired taken).next fun initial p₂ q₂ valued _ raw =>
        (tail initial valued raw).weaken
    · exact tail none looked nofun

theorem variableList_paired (storage : Storage) (typed : typeToken.kind.isType = true)
    (nameToken : Token) :
    Lockstep pair base false 5 1 fuel (List.map pair.number)
      (fun made ids later => base.Adds storage made ids later ∧ ids ≠ [])
      (variableList fuel typeToken storage nameToken) := by
  intro depth made p q here bound
  unfold variableList
  split
  · exact .stop (.reject here)
  · rename_i notVoid
    exact declarators_paired fuel storage ((typeOf_isResult typed).isValue notVoid) nameToken []
      here.toAt here.reads.adds

/-- A statement that declares these local variables. -/
structure Stated (base : Parser) (made : List Decl) (statement : Stmt) (later : Parser) :
    Prop where
  adds : base.Adds .local made statement.declared later
  raw : statement.Raw

open Stmt

/-- Statements that declare these local variables. -/
def Sequence (base : Parser) (made : List Decl) (body : List Stmt) (later : Parser) : Prop :=
  base.Adds .local made (declaredAll body) later ∧ ∀ statement ∈ body, statement.Raw

theorem Paired.state {statement other : Stmt} (here : pair.Here base false depth made p q)
    (raw : statement.Raw) (none : statement.declared = [] := by rfl)
    (same : other = statement.renumbered pair.number := by rfl) :
    Paired pair base 0 depth (renumbered pair.number) (Stated base made) (Pure.pure statement)
      (Pure.pure other) p q :=
  .pure here.toAt same ⟨none ▸ here.reads.adds, raw⟩

theorem localVariables_paired (here : pair.Here base begins depth made p q)
    (typed : (p.lookAt 0).1.kind.isType = true) (bound : 8 * p.remaining + 5 ≤ fuel := by omega) :
    Paired pair base 1 depth (renumbered pair.number) (Stated base made) (localVariables fuel)
      (localVariables fuel) p q := by
  unfold localVariables
  refine (Paired.take here (isPlain_of_isType typed)).next fun typeToken p₁ q₁ taken _ isType => ?_
  rw [← isType] at typed
  refine (Paired.expect taken).next fun nameToken p₂ q₂ named _ _ => ?_
  refine .sees_bind named (fun _ _ looked _ _ => .stop (.rejectHere looked)) fun p₃ q₃ looked _ => ?_
  exact (variableList_paired .local typed nameToken looked).bind fun ids _ _ listed _ known =>
    .lastSpan listed fun _ => .pure listed rfl ⟨known.1, .declare _ _⟩

theorem condition_paired (here : pair.Here base false depth made p q)
    (bound : 8 * p.remaining + 4 ≤ fuel := by omega) :
    Twins pair base 1 depth made Expr.Raw (condition fuel) p q := by
  unfold condition
  refine (Paired.expect here).next fun opening p₁ q₁ opened _ _ => ?_
  refine (expression_paired opened.weaken).next fun value p₂ q₂ valued _ raw => ?_
  exact .accept valued (fun _ _ _ last _ => .give last raw) fun _ _ looked _ => .reject looked

section

variable (here : pair.Here base begins depth made p q) (plain : (p.lookAt 0).1.kind.isPlain = true)

include here plain

theorem Paired.endWord (word : Token) :
    Twins pair base 1 depth made (fun _ => True) (endWord word) p q :=
  (Paired.take here plain).next fun _ _ _ taken _ _ =>
    (Paired.expect taken).next fun _ _ _ ended _ _ =>
      .lastSpan ended.toAt fun _ => .give ended trivial

theorem returning_paired (bound : 8 * p.remaining + 4 ≤ fuel := by omega) :
    Paired pair base 1 depth (renumbered pair.number) (Stated base made) (returning fuel)
      (returning fuel) p q := by
  unfold returning
  refine (Paired.take here plain).next fun word p₁ q₁ taken _ _ => ?_
  have tail : ∀ (value : Option Expr) {spend : Nat} {p q : Parser},
      pair.Here base false depth made p q → (∀ result ∈ value, result.Raw) → spend ≤ 1 →
      Paired pair base spend depth (renumbered pair.number) (Stated base made)
        (do
          let _ ← expect (.symbol .semicolon) .expectedSemicolon "expected ';' after return"
          return .return (word.span.cover (← lastSpan)) value)
        (do
          let _ ← expect (.symbol .semicolon) .expectedSemicolon "expected ';' after return"
          return .return (word.span.cover (← lastSpan)) value) p q := by
    intro value spend p q here raw few
    refine ((Paired.expect here).next fun _ _ _ ended _ _ =>
      .lastSpan ended.toAt fun _ => .state ended (.return _ raw)).weaken few
  refine .sees_bind taken (fun p₂ q₂ looked _ _ => tail none looked nofun (by omega))
    fun p₂ q₂ looked same => ?_
  exact (initialValue_paired looked).next fun value _ _ valued _ raw =>
    tail value valued raw (by omega)

end

theorem expressionStatement_paired (top : Bool) (here : pair.Here base true depth made p q)
    (bound : 8 * p.remaining + 4 ≤ fuel := by omega) :
    Paired pair base 1 depth (renumbered pair.number) (Stated base made)
      (expressionStatement fuel top) (expressionStatement fuel top) p q := by
  unfold expressionStatement
  refine (expression_paired here).next fun value p₁ q₁ valued _ raw => ?_
  refine .accept valued (fun _ _ _ taken _ => .lastSpan taken.toAt fun _ =>
    .state taken (.expression _ _ raw)) fun p₂ q₂ looked _ => ?_
  have tail : ∀ (atEnd : Bool) {p q : Parser}, pair.Here base false depth made p q →
      Paired pair base 0 depth (.renumbered pair.number) (Stated base made)
        (if atEnd then pure (.expression value.span value true)
          else rejectHere .expectedSemicolon "expected ';' after expression")
        (if atEnd then pure (.expression value.span value true)
          else rejectHere .expectedSemicolon "expected ';' after expression") p q := by
    intro atEnd p q here
    split
    · exact .state here (.expression _ _ raw)
    · exact .rejectHere here
  split
  · exact (Paired.atFragmentEnd looked).next fun atEnd _ _ ended _ _ => tail atEnd ended
  · exact tail false looked

theorem block_eq (fuel : Nat) :
    block (fuel + 1) = (do
      let opening ← takeBrace (· + 1)
      let body ← blockBody fuel opening []
      let _ ← takeBrace (· - 1)
      return .block (opening.span.cover (← lastSpan)) body) := rfl

theorem Sequence.snoc {new} {read : List Stmt} {next : Stmt}
    (raw : ∀ statement ∈ read.reverse, statement.Raw) (stored : ∀ decl ∈ new, decl.IsRaw .local)
    (isIds : declaredAll read.reverse = List.range' (base.decls.count + made.length + 1) new.length)
    (stated : Stated base (made ++ new) next p) : Sequence base made (next :: read).reverse p := by
  have last : declaredAll [next] = next.declared := by simp [declaredAll]
  unfold Sequence
  rw [reverse_cons, declaredAll_append, last]
  exact ⟨.append stored isIds stated.1, forall_mem_append.mpr
    ⟨raw, fun _ member => mem_singleton.mp member ▸ stated.2⟩⟩

theorem statements_paired (fuel : Nat) :
    (∀ top, Lockstep pair base true 6 1 fuel (renumbered pair.number) (Stated base)
      (statement fuel top)) ∧
    (∀ {begins depth made p q}, pair.Here base begins depth made p q →
      (p.lookAt 0).1.kind = .symbol .leftBrace → (_ : 8 * p.remaining + 5 ≤ fuel := by omega) →
      Paired pair base 1 depth (renumbered pair.number)
        (fun statement later => Stated base made statement later ∧
          ∃ span body, statement = .block span body)
        (block fuel) (block fuel) p q) ∧
    (∀ opening read {depth made p q}, pair.At false depth p q →
      Sequence base made read.reverse p → (_ : 8 * p.remaining + 7 ≤ fuel := by omega) →
      Paired pair base 0 depth (List.map (renumbered pair.number))
        (fun body later => Sequence base made body later ∧
          (later.lookAt 0).1.kind = .symbol .rightBrace)
        (blockBody fuel opening read)
        (blockBody fuel opening (read.map (renumbered pair.number))) p q) := by
  induction fuel with
  | zero =>
    refine ⟨?_, ?_, ?_⟩
    · intro top depth made p q _ bound
      omega
    · intro begins depth made p q _ _ bound
      omega
    · intro opening read depth made p q _ _ bound
      omega
  | succ fuel ih =>
    obtain ⟨ihStatement, ihBlock, ihBody⟩ := ih
    refine ⟨?_, ?_, ?_⟩
    · intro top depth made p q here bound
      rw [statement]
      refine .peek_bind here fun token p₁ q₁ looked same isNext => ?_
      have plain : ∀ {kind : TokenKind}, token.kind = kind → kind.isPlain = true →
          (p₁.lookAt 0).1.kind.isPlain = true := by
        intro kind isKind plain
        rw [isNext, isKind]
        exact plain
      split
      · rename_i isKind
        exact (ihBlock looked (by rw [isNext, isKind])).mono fun _ _ known => known.1
      · exact (Paired.take looked (plain ‹_› rfl)).next fun _ _ _ taken _ _ =>
          .state taken (.empty _)
      · refine (Paired.take looked (plain ‹_› rfl)).next fun _ p₂ q₂ taken _ _ => ?_
        refine (condition_paired taken).next fun test p₃ q₃ tested _ rawTest => ?_
        refine (ihStatement false tested.weaken).bind fun yes p₄ q₄ chosen _ sawYes => ?_
        obtain ⟨⟨new, has, stored, isIds⟩, rawYes⟩ := sawYes
        have tail : ∀ (no : Option Stmt) {p q : Parser}, pair.At false depth p q →
            base.Adds .local (made ++ new) (declaredOption no) p →
            (∀ other, no = some other → other.Raw) →
            Paired pair base 0 depth (renumbered pair.number) (Stated base made)
              (lastSpan >>= fun span => pure (.branch (token.span.cover span) test yes no))
              (lastSpan >>= fun span => pure (.branch (token.span.cover span) test
                (yes.renumbered pair.number) (no.map (renumbered pair.number)))) p q := by
          intro no p q at' adds rawNo
          exact .lastSpan at' fun _ => .pure at' (by rw [renumbered, renumberedOption_eq])
            ⟨.append stored isIds adds, .branch _ rawTest rawYes rawNo⟩
        refine .accept ⟨chosen, has⟩ (fun _ p₅ q₅ passed _ => ?_)
          fun p₅ q₅ seen _ => tail none seen.toAt seen.reads.adds nofun
        have other : Paired pair base 1 depth (Option.map (renumbered pair.number))
            (fun no later => base.Adds .local (made ++ new) (declaredOption no) later ∧
              ∀ other, no = some other → other.Raw)
            (some <$> statement fuel false) (some <$> statement fuel false) p₅ q₅ :=
          (ihStatement false passed.weaken).map some (fun _ => rfl)
            fun _ _ sawNo => ⟨sawNo.1, fun _ isOther => Option.some.inj isOther ▸ sawNo.2⟩
        exact other.bind fun no _ _ ended _ sawNo => tail no ended sawNo.1 sawNo.2
      · refine (Paired.take looked (plain ‹_› rfl)).next fun _ p₂ q₂ taken _ _ => ?_
        refine (condition_paired taken).next fun test p₃ q₃ tested _ rawTest => ?_
        exact (ihStatement false tested.weaken).bind fun body _ _ read _ sawBody =>
          .lastSpan read fun _ => .pure read rfl ⟨sawBody.1, .loop _ rawTest sawBody.2⟩
      · exact returning_paired looked (plain ‹_› rfl)
      · exact (Paired.endWord looked (plain ‹_› rfl) token).map _ (fun _ => rfl)
          fun _ _ known => ⟨known.1.adds, .break _⟩
      · exact (Paired.endWord looked (plain ‹_› rfl) token).map _ (fun _ => rfl)
          fun _ _ known => ⟨known.1.adds, .continue _⟩
      · rename_i isKind
        have told := looked.reads.record
          (.error .badDirective token.span "directive is not allowed inside a block")
          (by decide : Code.badDirective.number < 4000)
        refine .failed rfl rfl (pair.skip (pair.reject looked.together _ rfl) (.inl ?_)) told.take
        rw [lookAt_record, isNext, isKind]
      · split
        · rename_i typed
          exact localVariables_paired looked (by rw [isNext]; exact typed)
        · exact expressionStatement_paired top looked
    · intro begins depth made p q here isOpen bound
      rw [block_eq]
      refine (Paired.takeBrace here isOpen (pair.opens here.together isOpen)).bind
        fun opening p₁ q₁ opened _ has => ?_
      refine (ihBody opening [] opened ⟨has.adds, by simp⟩).bind fun body p₂ q₂ read _ known => ?_
      obtain ⟨⟨⟨new, has, stored, isIds⟩, rawBody⟩, isClose⟩ := known
      refine (Paired.takeBrace ⟨read, has⟩ isClose (pair.closes read.together isClose)).bind
        fun _ p₃ q₃ closed _ has => .lastSpan closed fun _ => ?_
      exact (Paired.pure closed (by rw [renumbered, renumberedAll_eq]; rfl)
        ⟨⟨⟨new, has, stored, isIds⟩, .block _ rawBody⟩, _, _, rfl⟩).weaken
    · intro opening read depth made p q at' sequence bound
      obtain ⟨⟨new, reads, stored, isIds⟩, rawRead⟩ := sequence
      rw [blockBody, blockBody]
      refine .peek_bind ⟨at', reads⟩ fun token p₁ q₁ looked same isNext => ?_
      split
      · rename_i isClose
        exact .pure looked.toAt (by simp)
          ⟨⟨⟨new, looked.reads, stored, isIds⟩, rawRead⟩, by rw [isNext]; exact isClose⟩
      · split
        · exact .reject looked
        · exact (ihStatement false looked.weaken).bind fun next p₂ q₂ passed _ stated =>
            (ihBody opening (next :: read) passed (.snoc rawRead stored isIds stated)).weaken

/-! ## Declarations -/

/-- A parameter after its type. -/
def parameterNamed (fuel : Nat) (typeToken : Token) (type : Ty) (read : List DeclId)
    (unnamed : Bool) : Reader (List DeclId × Bool) := do
  let data : Variable := { type, storage := .parameter, slot := read.length }
  if ← sees .name then
    let nameToken ← take
    let id ← declare nameToken.text (typeToken.span.cover nameToken.span) (.variable data)
    parameters fuel (id :: read) unnamed
  else
    let id ← declare [] typeToken.span (.variable data)
    parameters fuel (id :: read) true

/-- A parameter and those after it. -/
def parameterRest (fuel : Nat) (read : List DeclId) (unnamed : Bool) :
    Reader (List DeclId × Bool) := do
  let typeToken ← peek
  match Ty.ofKind? typeToken.kind with
  | none => rejectHere .expectedType "expected parameter type"
  | some type =>
    let _ ← take
    if type = .void then
      reject .voidVariable typeToken.span "parameter cannot have type void"
    parameterNamed fuel typeToken type read unnamed

theorem parameters_eq (fuel : Nat) (read : List DeclId) (unnamed : Bool) :
    parameters (fuel + 1) read unnamed = (do
      if ← seesMark .rightParen then return (read.reverse, unnamed)
      else
        if !read.isEmpty then
          let _ ← expect (.symbol .comma) .unexpectedToken
            "expected ',' or ')' in parameter list"
        parameterRest fuel read unnamed) := rfl

theorem isType_of_ofKind? {type} (isType : Ty.ofKind? kind = some type) :
    kind.isPlain = true ∧ type.IsResult := by
  unfold Ty.ofKind? at isType
  split at isType <;> first | (cases isType; exact ⟨rfl, True.intro⟩) | cases isType

/-- The parameters of a function, with nothing else made before them. -/
structure Listed (base : Parser) (ids : List DeclId) (made : List Decl) (later : Parser) : Prop where
  reads : base.Reads made later
  numbers : ids = List.range' (base.decls.count + 1) made.length
  places : ∀ (index : Nat) (decl : Decl), made[index]? = some decl → decl.IsParameter index

theorem Listed.snoc {ids decl} (listed : Listed base ids made p)
    (reads : base.Reads (made ++ [decl]) q) (place : decl.IsParameter made.length) :
    Listed base (ids ++ [base.decls.count + made.length + 1]) (made ++ [decl]) q where
  reads
  numbers := by
    rw [listed.numbers, length_append, length_singleton, ← range'_append_1,
      Nat.add_right_comm]
    rfl
  places := by
    intro index other isOther
    rcases Nat.lt_trichotomy index made.length with early | rfl | late
    · rw [getElem?_append_left early] at isOther
      exact listed.places index other isOther
    · rw [getElem?_concat_length] at isOther
      cases isOther
      exact place
    · rw [getElem?_eq_none (by simp; omega)] at isOther
      cases isOther

/-- Parameters were read up to the parenthesis that closes them. -/
def Closed (base : Parser) (result : List DeclId × Bool) (later : Parser) : Prop :=
  ∃ made, Listed base result.1 made later ∧ (later.lookAt 0).1.kind = .symbol .rightParen

theorem parameters_paired (fuel : Nat) :
    ∀ read unnamed {depth made p q}, pair.At false depth p q → Listed base read.reverse made p →
      (_ : 8 * p.remaining + 1 ≤ fuel := by omega) →
      Paired pair base 0 depth (Prod.map (List.map pair.number) id)
        (Closed base) (parameters fuel read unnamed)
        (parameters fuel (read.map pair.number) unnamed) p q := by
  induction fuel with
  | zero =>
    intro read unnamed depth made p q _ _ bound
    omega
  | succ fuel ih =>
    intro read unnamed depth made p q at' listed bound
    have count : read.length = made.length := by
      rw [← length_reverse, listed.numbers, length_range']
    have next : ∀ {p q}, pair.Here base false depth made p q → 8 * p.remaining ≤ fuel →
        Paired pair base 0 depth (Prod.map (List.map pair.number) id)
          (Closed base) (parameterRest fuel read unnamed)
          (parameterRest fuel (read.map pair.number) unnamed) p q := by
      intro p q here room
      refine .peek_bind here fun typeToken p₁ q₁ looked same isNext => ?_
      split
      · exact .rejectHere looked
      · rename_i type isType
        obtain ⟨plain, isResult⟩ := isType_of_ofKind? isType
        refine (Paired.take looked (by rw [isNext]; exact plain)).next fun _ p₂ q₂ taken _ _ => ?_
        split
        · exact .stop (.reject taken)
        · rename_i notVoid
          have raw : Variable.Raw { type, storage := .parameter, slot := read.length } :=
            ⟨isResult.isValue notVoid, nofun, rfl⟩
          -- A parameter that is declared, and those after it.
          have onward : ∀ {name span unnamed p q}, pair.Here base false depth made p q →
              8 * p.remaining + 1 ≤ fuel →
              Paired pair base 0 depth (Prod.map (List.map pair.number) id) (Closed base)
                (declare name span (.variable
                  { type, storage := .parameter, slot := read.length }) >>= fun id =>
                  parameters fuel (id :: read) unnamed)
                (declare name span (.variable
                  { type, storage := .parameter, slot := read.length }) >>= fun id =>
                  parameters fuel (id :: read.map pair.number) unnamed) p q := by
            intro name span unnamed p q here room
            refine (Paired.declareVariable here raw).bind fun new p' q' declared _ one => ?_
            have longer := listed.snoc one.2 ⟨_, rfl, rfl, count, rfl⟩
            rw [← one.1, ← reverse_cons] at longer
            exact ih (new :: read) unnamed declared longer
          unfold parameterNamed
          rw [length_map]
          exact .accept taken (fun _ p₃ q₃ named _ => (onward named (by omega)).weaken)
            fun p₃ q₃ seen _ => onward seen (by omega)
    rw [parameters_eq, parameters_eq, isEmpty_map]
    refine .choose ⟨at', listed.reads⟩ (fun _ _ looked _ isClose => .pure looked.toAt (by simp)
      ⟨made, ⟨looked.reads, listed.numbers, listed.places⟩, isClose⟩) fun p₁ q₁ looked same => ?_
    dsimp only
    split
    · exact (Paired.expect looked).next fun _ _ _ passed _ _ => next passed (by omega)
    · exact next looked (by omega)

/-- A function from its parameters on. -/
def functionRest (fuel : Nat) (typeToken nameToken : Token) : Reader DeclId := do
  let (ids, unnamed) ← parameters fuel [] false
  let _ ← take
  let data : Function := { result := typeOf typeToken, parameters := ids }
  if ← seesMark .semicolon then
    let _ ← take
    declare nameToken.text (typeToken.span.cover (← lastSpan)) (.function data)
  else if ← seesMark .leftBrace then
    if unnamed then
      rejectHere .expectedIdentifier "parameters of a function definition must be named"
    let body ← block fuel
    declare nameToken.text (typeToken.span.cover (← lastSpan))
      (.function { data with body := some body })
  else rejectHere .expectedSemicolon "expected '\x7b' or ';' after parameter list"

theorem function_eq (fuel : Nat) (typeToken nameToken : Token) :
    function fuel typeToken nameToken = (do
      let _ ← take
      if ← sees (.keyword .void) then
        if (← peekAt 1).kind = .symbol .rightParen then
          let _ ← take
      functionRest fuel typeToken nameToken) := rfl

theorem function_paired {wraps} (nameToken : Token) (typed : typeToken.kind.isType = true)
    (here : pair.Here base false depth [] p q) (isOpen : (p.lookAt 0).1.kind.isPlain = true)
    (bound : 8 * p.remaining + 5 ≤ fuel := by omega) :
    Paired pair base 0 depth pair.number (fun id later => base.Groups wraps [id] later)
      (function fuel typeToken nameToken) (function fuel typeToken nameToken) p q := by
  have result := typeOf_isResult typed
  have tail : ∀ {p q}, pair.Here base false depth [] p q → 8 * p.remaining + 5 ≤ fuel →
      Paired pair base 0 depth pair.number (fun id later => base.Groups wraps [id] later)
        (functionRest fuel typeToken nameToken) (functionRest fuel typeToken nameToken) p q := by
    intro p q here room
    refine (parameters_paired fuel [] false here.toAt ⟨here.reads, rfl, nofun⟩).bind
      fun listed p₁ q₁ after _ known => ?_
    obtain ⟨ids, unnamed⟩ := listed
    obtain ⟨made, ⟨has, numbers, places⟩, isClose⟩ := known
    refine (Paired.take ⟨after, has⟩ (by rw [isClose]; rfl)).next fun _ p₂ q₂ taken _ _ => ?_
    refine .accept taken (fun _ _ _ ended _ => .lastSpan ended.toAt fun _ =>
      .declare ended _ _ _ (ended.reads.group _ _ (.inr nofun) fun decls kept => .function
        (function_raw result numbers places ended.reads.adds (fun _ => nofun) kept)))
      fun p₃ q₃ looked _ => ?_
    refine .choose looked (fun p₄ q₄ seen _ isKind => ?_) fun _ _ seen _ => .rejectHere seen
    dsimp only [Prod.map, id]
    split
    · exact .stop (.rejectHere seen)
    · refine ((statements_paired fuel).2.1 seen isKind).bind fun body _ _ read _ known => ?_
      obtain ⟨⟨adds, rawBody⟩, isBlock⟩ := known
      have ⟨_, has, _⟩ := adds
      refine .lastSpan read fun _ =>
        .declare ⟨read, has⟩ _ _ _ (has.group _ _ (.inr nofun) fun decls kept => .function ?_)
      exact function_raw result numbers places adds
        (fun _ isBody => Option.some.inj isBody ▸ ⟨rawBody, isBlock⟩) kept
  rw [function_eq]
  refine (Paired.take here isOpen).next fun _ p₁ q₁ taken _ _ => ?_
  refine .sees_bind taken (fun p₂ q₂ looked _ isVoid => ?_)
    fun p₂ q₂ looked _ => tail looked (by omega)
  refine .peekAt_bind looked fun p₃ q₃ seen same unmoved => ?_
  split
  · exact (Paired.take seen (by rw [unmoved, isVoid]; rfl)).next
      fun _ _ _ passed _ _ => tail passed (by omega)
  · exact tail seen (by omega)

theorem declaration_paired (wraps : Prop) (at' : pair.At begins depth p q) (lexed : p.Lexed)
    (typed : (p.lookAt 0).1.kind.isType = true) (bound : 8 * p.remaining + 5 ≤ fuel) :
    Paired pair p 1 depth (List.map pair.number) (p.Groups wraps) (declaration fuel) (declaration fuel)
      p q := by
  unfold declaration
  refine (Paired.take ⟨at', .refl lexed⟩ (isPlain_of_isType typed)).next
    fun typeToken p₁ q₁ taken _ isType => ?_
  rw [← isType] at typed
  refine (Paired.expect taken).next fun nameToken p₂ q₂ named _ _ => ?_
  refine .choose named (fun p₃ q₃ looked _ isOpen => ?_) fun p₃ q₃ looked _ => ?_
  · exact (function_paired nameToken typed looked (by rw [isOpen]; rfl)).bind
      fun id _ _ last _ groups => .pure last rfl groups
  · exact ((variableList_paired .global typed nameToken looked).mono
      fun _ _ known => known.1.groups known.2).weaken

theorem Paired.seesFunction_bind {change fine next'} {next : Bool → Reader β}
    (here : pair.Here base begins depth made p q)
    (tail : ∀ (isFunction : Bool) (p' q' : Parser), pair.Here base begins depth made p' q' →
      p'.remaining = p.remaining → (∀ place, (p'.lookAt place).1 = (p.lookAt place).1) →
      (isFunction = true → (p.lookAt 0).1.kind.isType = true ∧ (p.lookAt 1).1.kind = .name) →
      Paired pair base spend depth change fine (next isFunction) (next' isFunction) p' q') :
    Paired pair base spend depth change fine (seesFunction >>= next) (seesFunction >>= next')
      p q := by
  unfold seesFunction
  rw [bind_assoc, bind_assoc]
  refine .peekAt_bind here fun p₁ q₁ looked same unmoved => ?_
  split
  · rw [pure_bind, pure_bind]
    exact tail false p₁ q₁ looked same unmoved (by simp)
  · rename_i isType
    rw [bind_assoc, bind_assoc]
    refine .peekAt_bind looked fun p₂ q₂ seen again still => ?_
    rw [unmoved 1]
    split
    · rw [pure_bind, pure_bind]
      exact tail false p₂ q₂ seen (again.trans same)
        (fun place => (still place).trans (unmoved place)) (by simp)
    · rename_i isName
      rw [bind_assoc, bind_assoc]
      refine .peekAt_bind seen fun p₃ q₃ last third fixed => ?_
      rw [pure_bind, pure_bind]
      exact tail _ p₃ q₃ last (third.trans (again.trans same))
        (fun place => (fixed place).trans ((still place).trans (unmoved place)))
        fun _ => ⟨by simpa using isType, by simpa using isName⟩

end Reader

/-- The next token begins a statement outside all functions. -/
structure Parser.OpensStatement (parser : Parser) : Prop where
  more : (parser.lookAt 0).1.kind ≠ .endOfInput
  text : (parser.lookAt 0).1.kind ≠ .directive
  unnamed : (parser.lookAt 0).1.kind.isType = true → (parser.lookAt 1).1.kind ≠ .name

namespace Reader

variable {pair : Pairing} {begins : Bool} {fuel : Nat} {p q base : Parser} {made : List Decl}

/-- The body of a wrapper takes a token where a statement begins. -/
theorem wrapperBody_paired (fuel : Nat) : ∀ (read : List Stmt) {begins : Bool} {p q : Parser}
    {spend : Nat} {made : List Decl}, pair.At begins 0 p q → Sequence base made read.reverse p →
    8 * p.remaining + 7 ≤ fuel →
    (spend = 0 ∧ begins = false ∨ spend = 1 ∧ p.OpensStatement) →
    Paired pair base spend 0 (List.map (Stmt.renumbered pair.number)) (Sequence base made)
      (wrapperBody fuel read)
      (wrapperBody fuel (read.map (Stmt.renumbered pair.number))) p q := by
  induction fuel with
  | zero =>
    intro read begins p q spend made _ _ bound
    omega
  | succ fuel ih =>
    intro read begins p q spend made at' sequence bound opens
    obtain ⟨⟨new, reads, stored, isIds⟩, rawRead⟩ := sequence
    have idle : (p.OpensStatement → False) → ∀ {p' q'}, pair.Here base begins 0 (made ++ new) p' q' →
        Paired pair base spend 0 (List.map (.renumbered pair.number)) (Sequence base made)
          (pure read.reverse : Reader (List Stmt))
          (pure (read.map (.renumbered pair.number)).reverse) p' q' := by
      intro closed p' q' here
      obtain ⟨rfl, rfl⟩ | ⟨_, opens⟩ := opens
      · exact .pure here.toAt (by simp) ⟨⟨new, here.reads, stored, isIds⟩, rawRead⟩
      · exact (closed opens).elim
    rw [wrapperBody, wrapperBody]
    refine .peekAt_bind ⟨at', reads⟩ fun p₁ q₁ looked same unmoved => ?_
    split
    · rename_i ends
      refine idle (fun opens => ?_) looked
      simp [opens.more, opens.text] at ends
    · refine .seesFunction_bind looked fun isFunction p₂ q₂ seen again still named => ?_
      rw [unmoved 0, unmoved 1] at named
      split
      · rename_i isTrue
        obtain ⟨isType, isName⟩ := named isTrue
        exact idle (fun opens => opens.unnamed isType isName) seen
      · split
        · rename_i isBrace
          obtain ⟨span, here, there⟩ := place_eq seen.toAt
          have failed := pair.skip (pair.reject (At.lookAt seen.toAt 0).together
            (.error .unexpectedTopLevel span "unexpected '\x7d'") rfl)
            (.inr ⟨rfl, by rw [lookAt_record, lookAt_lookAt, still, unmoved]; exact isBrace⟩)
          have told := (seen.reads.lookAt 0).record
            (.error .unexpectedTopLevel span "unexpected '\x7d'")
            (by decide : Code.unexpectedTopLevel.number < 4000)
          refine .failed ?_ ?_ failed told.take
          · rw [bind_apply, here]
            rfl
          · rw [bind_apply, there]
            rfl
        · have begun : pair.Here base true 0 (made ++ new) p₂ q₂ :=
            ⟨⟨seen.together, seen.last.imp_right fun last => ⟨rfl, last.2⟩⟩, seen.reads⟩
          exact ((statements_paired fuel).1 true begun).bind
            fun next p₃ q₃ passed _ stated => ih (next :: read) passed
              (.snoc rawRead stored isIds stated) (by omega) (.inl ⟨by omega, rfl⟩)

theorem wrapper_paired {wraps} (allowed : wraps) (wrapping : pair.Wraps)
    (at' : pair.At begins 0 p q) (lexed : p.Lexed) (bound : 8 * p.remaining + 7 ≤ fuel)
    (opens : p.OpensStatement) :
    Paired pair p 1 0 pair.number (fun id later => p.Groups wraps [id] later) (wrapper fuel)
      (wrapper fuel) p q := by
  unfold wrapper
  refine .peekAt_bind ⟨at', .refl lexed⟩ fun p₁ q₁ looked same unmoved => ?_
  have still : p₁.OpensStatement :=
    ⟨by rw [unmoved]; exact opens.more, by rw [unmoved]; exact opens.text,
      by rw [unmoved, unmoved]; exact opens.unnamed⟩
  refine (wrapperBody_paired fuel [] looked.toAt ⟨looked.reads.adds, by simp⟩ (by omega)
    (.inr ⟨rfl, still⟩)).bind fun body p₂ q₂ read _ sequence => ?_
  obtain ⟨⟨new, has, stored, isIds⟩, rawBody⟩ := sequence
  refine .lastSpan read fun span => ?_
  have wrapped := wrapping read.together ((p.lookAt 0).1.span.cover span)
    { result := .void, body := some (.block ((p.lookAt 0).1.span.cover span) body) }
  have other : ∀ {span' : Span} {body' : List Stmt}, (do
      modify fun parser => { parser with wrappers := parser.wrappers + 1 }
      declare (wrapperStem ++ .decimal (← get).wrappers) span'
        (.wrapper { result := .void, body := some (.block span' body') }) : Reader DeclId) q₂ =
      (some (pair.number (p₂.decls.count + 1)), q₂.wrapping span'
        { result := .void, body := some (.block span' body') }) := by
    intro span' body'
    rw [pair.numbers read.together]
    rfl
  have counted : p.Reads new { p₂ with wrappers := p₂.wrappers + 1 } :=
    { has with lexed := has.lexed }
  refine .done rfl other ⟨?_, .inl read.same⟩ (Nat.le_refl _)
    (counted.group _ _ (.inl allowed) fun decls kept => .wrapper ?_ rfl rfl rfl)
  · simp only [Function.renumbered, Option.map_some, map_nil, Stmt.renumbered,
      Stmt.renumberedAll_eq] at wrapped
    exact wrapped
  · have adds : p.Adds .local [] (Stmt.block ((p.lookAt 0).1.span.cover span) body).declared
        { p₂ with wrappers := p₂.wrappers + 1 } :=
      ⟨new, counted, stored, by rw [Stmt.declared]; exact isIds⟩
    exact function_raw True.intro rfl (by simp) adds
      (fun _ isBody => Option.some.inj isBody ▸ ⟨.block _ rawBody, _, _, rfl⟩) kept

end Reader

/-! ## Units -/

namespace Parser

/-- The readers of units; that of wrappers only where `wraps`. -/
inductive Starts (parser : Parser) (wraps : Prop) : Reader Group → Prop
  | declaration (typed : parser.take.1.kind.isType = true) :
      Starts parser wraps (Reader.declaration parser.nesting)
  | wrapper (allowed : wraps) (opens : parser.OpensStatement) :
      Starts parser wraps ((fun id => [id]) <$> Reader.wrapper parser.nesting)

/-- A reader of units takes a token, or both runs fail. -/
theorem Starts.paired {pair p wraps reader q begins} (starts : p.Starts wraps reader)
    (wrapping : pair.Wraps) (at' : pair.At begins 0 p q) (lexed : p.Lexed) :
    Reader.Paired pair p 1 0 (List.map pair.number) (p.Groups wraps) reader reader p q := by
  have room : 8 * p.remaining + 7 ≤ p.nesting := by
    unfold nesting
    omega
  cases starts with
  | declaration typed =>
    rw [take_fst] at typed
    exact Reader.declaration_paired wraps at' lexed typed (by omega)
  | wrapper allowed opens =>
    exact (Reader.wrapper_paired allowed wrapping at' lexed room opens).map _ (fun _ => rfl)
      fun _ _ groups => groups

theorem invariant_true : Invariant (fun _ _ => True) fun _ _ => True := by
  constructor <;> intros <;> trivial

/-- One parser, of which nothing more is said. -/
def bare : Pairing := .alone invariant_true

theorem bare_at (parser : Parser) : bare.At false 0 parser parser := ⟨⟨rfl, trivial⟩, .inl rfl⟩

/-- What became of a unit. -/
inductive Ran (before : Parser) (wraps : Prop) : Option Group × Parser → Prop
  | done {group : Group} {after : Parser} (groups : before.Groups wraps group after)
      (spent : after.remaining < before.remaining) : Ran before wraps (some group, after)
  | failed {made : List Decl} {after : Parser} (reads : before.Reads made after) :
      Ran before wraps (none, after)

theorem Starts.ran {wraps reader} {parser : Parser} (starts : parser.Starts wraps reader)
    (lexed : parser.Lexed) : parser.Ran wraps (reader parser) := by
  have wraps : bare.Wraps := Pairing.alone_wraps invariant_true fun _ _ _ => trivial
  cases starts.paired wraps (bare_at parser) lexed with
  | done run _ _ spent groups =>
    rw [run]
    exact .done groups spent
  | failed run _ _ reads =>
    rw [run]
    exact .failed reads

end Parser

end FragmentCompiler
