import FragmentCompiler.Proofs.Reading.Declaration

/-!
# Reading in lockstep

The grammar looks at tokens, takes them, reports and declares, and does nothing else.  So a
relation between two parsers that these acts keep is kept by every reader; a parser in lockstep
with itself is one that keeps an invariant.  The numbers of declarations may differ.

A reader that has room for eight readers at each token never fails for want of it.
-/

set_option autoImplicit false

namespace FragmentCompiler

/-! ## Renumbering -/

mutual

/-- The statement with other numbers for the variables it declares. -/
def Stmt.renumbered (change : DeclId → DeclId) : Stmt → Stmt
  | .block span body => .block span (renumberedAll change body)
  | .declare span ids => .declare span (ids.map change)
  | .expression span value unterminated => .expression span value unterminated
  | .echo span value => .echo span value
  | .branch span test yes no =>
    .branch span test (yes.renumbered change) (renumberedOption change no)
  | .loop span test body => .loop span test (body.renumbered change)
  | .return span value => .return span value
  | .break span => .break span
  | .continue span => .continue span
  | .empty span => .empty span

def Stmt.renumberedAll (change : DeclId → DeclId) : List Stmt → List Stmt
  | [] => []
  | first :: rest => first.renumbered change :: renumberedAll change rest

def Stmt.renumberedOption (change : DeclId → DeclId) : Option Stmt → Option Stmt
  | none => none
  | some no => some (no.renumbered change)

end

theorem Stmt.renumberedAll_eq (change : DeclId → DeclId) (body : List Stmt) :
    renumberedAll change body = body.map (renumbered change) := by
  induction body with
  | nil => rfl
  | cons first rest ih => rw [renumberedAll, ih, List.map_cons]

theorem Stmt.renumberedOption_eq (change : DeclId → DeclId) (no : Option Stmt) :
    renumberedOption change no = no.map (renumbered change) := by
  cases no <;> rfl

def Function.renumbered (change : DeclId → DeclId) (data : Function) : Function :=
  { data with
    parameters := data.parameters.map change
    body := data.body.map (Stmt.renumbered change) }

def DeclBody.renumbered (change : DeclId → DeclId) : DeclBody → DeclBody
  | .variable data => .variable data
  | .function data => .function (data.renumbered change)
  | .wrapper data => .wrapper (data.renumbered change)

mutual

theorem Stmt.renumbered_id : ∀ stmt : Stmt, stmt.renumbered id = stmt
  | .block _ body => by rw [renumbered, renumberedAll_id body]
  | .branch _ _ yes no => by rw [renumbered, renumbered_id yes, renumberedOption_id no]
  | .loop _ _ body => by rw [renumbered, renumbered_id body]
  | .declare _ ids => by rw [renumbered, List.map_id]
  | .expression .. | .echo .. | .return .. | .break _ | .continue _ | .empty _ => rfl

theorem Stmt.renumberedAll_id : ∀ body : List Stmt, renumberedAll id body = body
  | [] => rfl
  | first :: rest => by rw [renumberedAll, renumbered_id first, renumberedAll_id rest]

theorem Stmt.renumberedOption_id : ∀ no : Option Stmt, renumberedOption id no = no
  | none => rfl
  | some no => by rw [renumberedOption, renumbered_id no]

end

theorem Function.renumbered_id (data : Function) : data.renumbered id = data := by
  unfold renumbered
  rw [List.map_id, funext Stmt.renumbered_id]
  simp

theorem DeclBody.renumbered_id (body : DeclBody) : body.renumbered id = body := by
  cases body <;> simp [renumbered, Function.renumbered_id]

/-! ## Pairs of parsers -/

/-- A token that is no brace and neither ends nor breaks what is read. -/
def TokenKind.isPlain : TokenKind → Bool
  | .invalid | .endOfInput | .symbol .leftBrace | .symbol .rightBrace => false
  | _ => true

theorem TokenKind.more_of_isPlain {kind : TokenKind} (plain : kind.isPlain = true) :
    kind ≠ .endOfInput ∧ kind ≠ .invalid := by
  constructor <;> rintro rfl <;> cases plain

/-- The parser with one more declaration. -/
def Parser.declaring (parser : Parser) (decl : Decl) : Parser :=
  { parser with decls := (parser.decls.add decl).2 }

/-- The parser with one more wrapper. -/
def Parser.wrapping (parser : Parser) (span : Span) (data : Function) : Parser :=
  declaring { parser with wrappers := parser.wrappers + 1 }
    { name := Reader.wrapperStem ++ Text.decimal (parser.wrappers + 1), span, body := .wrapper data }

/-- How two parsers are related while all goes well, and after a failure, with so many braces
open; and what the numbers of declarations in the first are in the second.  The acts of the
grammar keep the relation. -/
structure Pairing where
  number : DeclId → DeclId
  together : Nat → Parser → Parser → Prop
  parted : Nat → Parser → Parser → Prop
  look : ∀ {depth p q}, together depth p q → ∀ index,
    (q.lookAt index).1 = (p.lookAt index).1 ∧
      together depth (p.lookAt index).2 (q.lookAt index).2
  take : ∀ {depth p q}, together depth p q → (p.lookAt 0).1.kind.isPlain = true →
    together depth p.take.2 q.take.2
  opens : ∀ {depth p q}, together depth p q → (p.lookAt 0).1.kind = .symbol .leftBrace →
    together (depth + 1) { p.take.2 with depth := p.take.2.depth + 1 }
      { q.take.2 with depth := q.take.2.depth + 1 }
  closes : ∀ {depth p q}, together (depth + 1) p q → (p.lookAt 0).1.kind = .symbol .rightBrace →
    together depth { p.take.2 with depth := p.take.2.depth - 1 }
      { q.take.2 with depth := q.take.2.depth - 1 }
  fragment : ∀ {depth p q}, together depth p q →
    q.inputs.head?.map Input.fragment = p.inputs.head?.map Input.fragment
  numbers : ∀ {depth p q}, together depth p q → number (p.decls.count + 1) = q.decls.count + 1
  declare : ∀ {depth p q}, together depth p q → ∀ decl : Decl,
    together depth (p.declaring decl) (q.declaring { decl with body := decl.body.renumbered number })
  reject : ∀ {depth p q}, together depth p q → ∀ diagnostic : Diagnostic,
    diagnostic.isError = true → parted depth (p.record diagnostic) (q.record diagnostic)
  invalid : ∀ {depth p q}, together depth p q → (p.lookAt 0).1.kind = .invalid →
    parted depth p.take.2 q.take.2
  skip : ∀ {depth p q}, parted depth p q →
    (p.lookAt 0).1.kind = .directive ∨ depth = 0 ∧ (p.lookAt 0).1.kind = .symbol .rightBrace →
    parted depth p.take.2 q.take.2

/-- What one parser keeps while all goes well, and after a failure. -/
structure Parser.Invariant (holds failed : Nat → Parser → Prop) : Prop where
  look : ∀ {depth p}, holds depth p → ∀ index, holds depth (p.lookAt index).2
  take : ∀ {depth p}, holds depth p → holds depth p.take.2
  opens : ∀ {depth p}, holds depth p →
    holds (depth + 1) { p.take.2 with depth := p.take.2.depth + 1 }
  closes : ∀ {depth p}, holds (depth + 1) p →
    holds depth { p.take.2 with depth := p.take.2.depth - 1 }
  declare : ∀ {depth p}, holds depth p → ∀ decl, holds depth (p.declaring decl)
  reject : ∀ {depth p}, holds depth p → ∀ diagnostic : Diagnostic,
    diagnostic.isError = true → failed depth (p.record diagnostic)
  invalid : ∀ {depth p}, holds depth p → (p.lookAt 0).1.kind = .invalid → failed depth p.take.2
  skip : ∀ {depth p}, failed depth p → failed depth p.take.2

namespace Pairing

/-- A parser with itself. -/
def alone {holds failed} (kept : Parser.Invariant holds failed) : Pairing where
  number := id
  together := fun depth p q => q = p ∧ holds depth p
  parted := fun depth p _ => failed depth p
  look := by
    rintro _ p _ ⟨rfl, has⟩ index
    exact ⟨rfl, rfl, kept.look has index⟩
  take := by
    rintro _ p _ ⟨rfl, has⟩ _
    exact ⟨rfl, kept.take has⟩
  opens := by
    rintro _ p _ ⟨rfl, has⟩ _
    exact ⟨rfl, kept.opens has⟩
  closes := by
    rintro _ p _ ⟨rfl, has⟩ _
    exact ⟨rfl, kept.closes has⟩
  fragment := by
    rintro _ p _ ⟨rfl, _⟩
    rfl
  numbers := by
    rintro _ p _ ⟨rfl, _⟩
    rfl
  declare := by
    rintro _ p _ ⟨rfl, has⟩ decl
    exact ⟨by rw [DeclBody.renumbered_id], kept.declare has decl⟩
  reject := fun has => kept.reject has.2
  invalid := fun has => kept.invalid has.2
  skip := fun out _ => kept.skip out

variable {pair : Pairing} {base : Parser} {begins : Bool} {depth : Nat} {made : List Decl}
  {p q : Parser}

/-- A new wrapper keeps two parsers together. -/
def Wraps (pair : Pairing) : Prop :=
  ∀ {depth p q}, pair.together depth p q → ∀ span data,
    pair.together depth (p.wrapping span data) (q.wrapping span (data.renumbered pair.number))

theorem alone_wraps {holds failed} (kept : Parser.Invariant holds failed)
    (wraps : ∀ {depth p}, holds depth p → ∀ span data, holds depth (p.wrapping span data)) :
    (alone kept).Wraps := by
  rintro _ _ p ⟨rfl, has⟩ span data
  exact ⟨congrArg (p.wrapping span) (Function.renumbered_id data), wraps has span data⟩

/-- Two parsers in lockstep.  The tokens they took last are the same, unless a unit that is not
empty begins. -/
structure At (pair : Pairing) (begins : Bool) (depth : Nat) (p q : Parser) : Prop where
  together : pair.together depth p q
  last : q.lastSpan = p.lastSpan ∨ begins = true ∧ (p.lookAt 0).1.kind ≠ .endOfInput

theorem At.same (at' : pair.At false depth p q) : q.lastSpan = p.lastSpan := by
  simpa using at'.last

/-- Two parsers in lockstep, the first of which has made these declarations. -/
structure Here (pair : Pairing) (base : Parser) (begins : Bool) (depth : Nat) (made : List Decl)
    (p q : Parser) : Prop extends pair.At begins depth p q where
  reads : base.Reads made p

theorem Here.weaken (here : pair.Here base false depth made p q) :
    pair.Here base begins depth made p q :=
  ⟨⟨here.together, .inl here.same⟩, here.reads⟩

end Pairing

namespace Reader

variable {pair : Pairing} {begins : Bool} {depth spend : Nat} {p q base : Parser} {α β : Type}
  {made : List Decl} {kind : TokenKind}

/-- Two runs that both succeed, with at least so many tokens taken, or both fail.  What was read
is good, and nothing but variables was declared before a failure. -/
inductive Paired (pair : Pairing) (base : Parser) (spend depth : Nat) (change : α → α)
    (good : α → Parser → Prop) (first second : Reader α) (p q : Parser) : Prop
  | done {value : α} {p' q' : Parser} (run : first p = (some value, p'))
      (other : second q = (some (change value), q')) (at' : pair.At false depth p' q')
      (spent : p'.remaining + spend ≤ p.remaining) (good : good value p')
  | failed {left : Nat} {p' q' : Parser} {made : List Decl} (run : first p = (none, p'))
      (other : second q = (none, q')) (parted : pair.parted left p' q')
      (reads : base.Reads made p')

/-- Two runs of one reader that declares nothing. -/
abbrev Twins (pair : Pairing) (base : Parser) (spend depth : Nat) (made : List Decl)
    (good : α → Prop) (reader : Reader α) (p q : Parser) : Prop :=
  Paired pair base spend depth id (fun value later => base.Reads made later ∧ good value) reader
    reader p q

section

variable {good : α → Parser → Prop} {fine : β → Parser → Prop} {first second : Reader α}
  {change : α → α}

theorem Paired.bind {before last change' next'} {next : α → Reader β}
    (head : Paired pair base before depth change good first second p q)
    (tail : ∀ (value : α) (p' q' : Parser), pair.At false depth p' q' →
      p'.remaining + before ≤ p.remaining → good value p' →
      Paired pair base (spend - before) last change' fine (next value) (next' (change value)) p' q') :
    Paired pair base spend last change' fine (first >>= next) (second >>= next') p q := by
  have opened := bind_apply first next p
  have opened' := bind_apply second next' q
  cases head with
  | @done value p' q' run other at' spent isGood =>
    rw [run] at opened
    rw [other] at opened'
    cases tail value p' q' at' spent isGood with
    | done last last' ended more isFine =>
      exact .done (opened.trans last) (opened'.trans last') ended (by omega) isFine
    | failed last last' parted reads =>
      exact .failed (opened.trans last) (opened'.trans last') parted reads
  | failed run other parted reads =>
    rw [run] at opened
    rw [other] at opened'
    exact .failed opened opened' parted reads

theorem Paired.next {before last change' next'} {good : α → Prop} {next : α → Reader β}
    (head : Twins pair base before depth made good first p q)
    (tail : ∀ (value : α) (p' q' : Parser), pair.Here base false depth made p' q' →
      p'.remaining + before ≤ p.remaining → good value →
      Paired pair base (spend - before) last change' fine (next value) (next' value) p' q') :
    Paired pair base spend last change' fine (first >>= next) (first >>= next') p q :=
  head.bind fun value p' q' at' spent known => tail value p' q' ⟨at', known.1⟩ spent known.2

theorem Paired.pure {other value} (at' : pair.At false depth p q) (same : other = change value)
    (holds : good value p) :
    Paired pair base 0 depth change good (pure value) (Pure.pure other) p q :=
  .done rfl (by rw [same]; rfl) at' (Nat.le_refl _) holds

theorem Paired.give {value} {good : α → Prop} (here : pair.Here base false depth made p q)
    (holds : good value) : Twins pair base 0 depth made good (Pure.pure value) p q :=
  .pure here.toAt rfl ⟨here.reads, holds⟩

theorem Paired.map {change'} (make : α → β)
    (known : Paired pair base spend depth change good first second p q)
    (same : ∀ value, make (change value) = change' (make value))
    (holds : ∀ value later, good value later → fine (make value) later) :
    Paired pair base spend depth change' fine (make <$> first) (make <$> second) p q := by
  rw [map_eq_pure_bind, map_eq_pure_bind]
  refine known.bind fun value p' q' at' _ isGood => ?_
  rw [Nat.sub_self]
  exact .pure at' (same value) (holds value p' isGood)

theorem Paired.weaken {more} (known : Paired pair base more depth change good first second p q)
    (enough : spend ≤ more := by omega) :
    Paired pair base spend depth change good first second p q := by
  cases known with
  | done run other at' spent isGood => exact .done run other at' (by omega) isGood
  | failed run other parted reads => exact .failed run other parted reads

theorem Paired.mono {better} (known : Paired pair base spend depth change better first second p q)
    (enough : ∀ value later, better value later → good value later) :
    Paired pair base spend depth change good first second p q := by
  cases known with
  | done run other at' spent isGood => exact .done run other at' spent (enough _ _ isGood)
  | failed run other parted reads => exact .failed run other parted reads

/-- Readers that do the same from other parsers on. -/
theorem Paired.congr {first' second'} {p' q' : Parser}
    (known : Paired pair base spend depth change good first second p q)
    (isFirst : first' p' = first p) (isSecond : second' q' = second q)
    (same : p.remaining = p'.remaining) :
    Paired pair base spend depth change good first' second' p' q' := by
  cases known with
  | done run other at' spent isGood =>
    exact .done (isFirst.trans run) (isSecond.trans other) at' (same ▸ spent) isGood
  | failed run other parted reads =>
    exact .failed (isFirst.trans run) (isSecond.trans other) parted reads

/-- Nothing comes after an error. -/
theorem Paired.stop {next next' : α → Reader β} {change : β → β}
    (head : Paired pair base spend depth id (fun _ _ => False) first second p q) :
    Paired pair base spend depth change fine (first >>= next) (second >>= next') p q :=
  head.bind fun _ _ _ _ _ impossible => impossible.elim

theorem Paired.lastSpan {last change' next'} {next : Span → Reader β}
    (at' : pair.At false depth p q)
    (tail : ∀ span, Paired pair base spend last change' fine (next span) (next' span) p q) :
    Paired pair base spend last change' fine (lastSpan >>= next) (lastSpan >>= next') p q := by
  refine (tail p.lastSpan).congr rfl ?_ rfl
  rw [← at'.same]
  rfl

end

/-! ## Acts -/

open Parser

theorem remaining_lookAt (parser : Parser) (index : Nat) :
    (parser.lookAt index).2.remaining = parser.remaining := by
  cases isInputs : parser.inputs with
  | nil => rw [lookAt_idle isInputs]
  | cons input below =>
    rw [lookAt_eq isInputs, remaining, remaining, isInputs]
    rfl

theorem lookAt_record (parser : Parser) (diagnostic : Diagnostic) (index : Nat) :
    ((parser.record diagnostic).lookAt index).1 = (parser.lookAt index).1 := by
  cases isInputs : parser.inputs with
  | nil =>
    rw [lookAt_idle isInputs, lookAt_idle]
    exact isInputs
  | cons input below =>
    rw [lookAt_eq isInputs, lookAt_eq]
    exact isInputs

theorem lastSpan_lookAt (parser : Parser) (index : Nat) :
    (parser.lookAt index).2.lastSpan = parser.lastSpan := by
  cases isInputs : parser.inputs with
  | nil => rw [lookAt_idle isInputs]
  | cons input below => rw [lookAt_eq isInputs]

theorem lastSpan_take {parser : Parser} (more : (parser.lookAt 0).1.kind ≠ .endOfInput)
    (valid : (parser.lookAt 0).1.kind ≠ .invalid) :
    parser.take.2.lastSpan = (parser.lookAt 0).1.span := by
  obtain ⟨input, below, isInputs, isMore⟩ := busy_of_more more
  rw [lookAt_eq isInputs] at valid ⊢
  rw [take_eq isInputs isMore]
  exact if_neg valid

section

variable (at' : pair.At begins depth p q)

include at'

theorem At.lookAt (index : Nat) : pair.At begins depth (p.lookAt index).2 (q.lookAt index).2 := by
  refine ⟨(pair.look at'.together index).2, ?_⟩
  rw [lastSpan_lookAt, lastSpan_lookAt, lookAt_lookAt]
  exact at'.last

/-- The same token is taken, and becomes the last one. -/
theorem take_same (more : (p.lookAt 0).1.kind ≠ .endOfInput)
    (valid : (p.lookAt 0).1.kind ≠ .invalid) :
    q.take.1 = p.take.1 ∧ q.take.2.lastSpan = p.take.2.lastSpan := by
  have same := (pair.look at'.together 0).1
  constructor
  · rw [take_fst, take_fst, same]
  · rw [lastSpan_take more valid, lastSpan_take (by rw [same]; exact more)
      (by rw [same]; exact valid), same]

theorem place_eq :
    ∃ span, place p = (some span, (p.lookAt 0).2) ∧ place q = (some span, (q.lookAt 0).2) := by
  have opened : ∀ parser : Parser, place parser =
      ((if (parser.lookAt 0).1.kind = .endOfInput &&
          (parser.lookAt 0).2.lastSpan.file = (parser.lookAt 0).1.span.file &&
          0 < (parser.lookAt 0).2.lastSpan.stop then
        pure ⟨(parser.lookAt 0).2.lastSpan.file, (parser.lookAt 0).2.lastSpan.stop,
          (parser.lookAt 0).2.lastSpan.stop⟩
        else pure (parser.lookAt 0).1.span : Reader Span)) (parser.lookAt 0).2 := fun _ => rfl
  rw [opened, opened, lastSpan_lookAt, lastSpan_lookAt, (pair.look at'.together 0).1]
  rcases at'.last with same | ⟨_, more⟩
  · rw [same]
    split <;> exact ⟨_, rfl, rfl⟩
  · simp only [more, decide_false, Bool.false_and, Bool.false_eq_true, if_false]
    exact ⟨_, rfl, rfl⟩

end

/-- Takes a brace and counts it. -/
def takeBrace (count : Nat → Nat) : Reader Token := do
  let token ← Reader.take
  modify fun parser => { parser with depth := count parser.depth }
  return token

section

variable {good : α → Parser → Prop} {fine : β → Parser → Prop}
  (here : pair.Here base begins depth made p q)

include here

/-- What was looked at stays next. -/
theorem Paired.peekAt_bind {index} {next next' : Token → Reader β} {change : β → β}
    (tail : ∀ p' q' : Parser, pair.Here base begins depth made p' q' →
      p'.remaining = p.remaining → (∀ place, (p'.lookAt place).1 = (p.lookAt place).1) →
      Paired pair base spend depth change fine (next (p.lookAt index).1)
        (next' (p.lookAt index).1) p' q') :
    Paired pair base spend depth change fine (peekAt index >>= next) (peekAt index >>= next')
      p q := by
  have same := remaining_lookAt p index
  refine (tail _ _ ⟨At.lookAt here.toAt index, here.reads.lookAt index⟩ same
    (p.lookAt_lookAt index)).congr rfl ?_ same
  rw [← (pair.look here.together index).1]
  rfl

theorem Paired.peek_bind {next next' : Token → Reader β} {change : β → β}
    (tail : ∀ (token : Token) (p' q' : Parser), pair.Here base begins depth made p' q' →
      p'.remaining = p.remaining → (p'.lookAt 0).1 = token →
      Paired pair base spend depth change fine (next token) (next' token) p' q') :
    Paired pair base spend depth change fine (peek >>= next) (peek >>= next') p q :=
  .peekAt_bind here fun p' q' later same next => tail _ p' q' later same (next 0)

theorem Paired.sees_bind {next next' : Bool → Reader β} {change : β → β}
    (yes : ∀ p' q' : Parser, pair.Here base begins depth made p' q' →
      p'.remaining = p.remaining → (p'.lookAt 0).1.kind = kind →
      Paired pair base spend depth change fine (next true) (next' true) p' q')
    (no : ∀ p' q' : Parser, pair.Here base begins depth made p' q' →
      p'.remaining = p.remaining →
      Paired pair base spend depth change fine (next false) (next' false) p' q') :
    Paired pair base spend depth change fine (sees kind >>= next) (sees kind >>= next') p q := by
  unfold sees
  rw [bind_assoc, bind_assoc]
  refine .peek_bind here fun token p' q' later same isNext => ?_
  rw [pure_bind, pure_bind]
  by_cases isKind : token.kind = kind
  · rw [decide_eq_true isKind]
    exact yes p' q' later same (by rw [isNext]; exact isKind)
  · rw [decide_eq_false isKind]
    exact no p' q' later same

theorem Paired.take (plain : (p.lookAt 0).1.kind.isPlain = true) :
    Twins pair base 1 depth made (· = (p.lookAt 0).1) take p q := by
  obtain ⟨more, valid⟩ := TokenKind.more_of_isPlain plain
  obtain ⟨same, last⟩ := take_same here.toAt more valid
  have other : Reader.take q = (some p.take.1, q.take.2) := by
    rw [← same]
    rfl
  exact .done rfl other ⟨pair.take here.together plain, .inl last⟩
    (Nat.le_of_eq (remaining_take more)) ⟨here.reads.take, p.take_fst⟩

/-- The two ways a reader goes on after it looked at the next token. -/
theorem Paired.choose {yes yes' no no'} {change : β → β}
    (first : ∀ p' q' : Parser, pair.Here base begins depth made p' q' →
      p'.remaining = p.remaining → (p'.lookAt 0).1.kind = kind →
      Paired pair base spend depth change fine yes yes' p' q')
    (second : ∀ p' q' : Parser, pair.Here base begins depth made p' q' →
      p'.remaining = p.remaining → Paired pair base spend depth change fine no no' p' q') :
    Paired pair base spend depth change fine (do if ← sees kind then yes else no)
      (do if ← sees kind then yes' else no') p q :=
  .sees_bind here first second

/-- The next token is taken if it is of some kind. -/
theorem Paired.accept {no no'} {yes yes' : Token → Reader β} {change : β → β}
    (first : ∀ (token : Token) (p' q' : Parser), pair.Here base false depth made p' q' →
      p'.remaining + 1 ≤ p.remaining →
      Paired pair base (spend - 1) depth change fine (yes token) (yes' token) p' q')
    (second : ∀ p' q' : Parser, pair.Here base begins depth made p' q' →
      p'.remaining = p.remaining → Paired pair base spend depth change fine no no' p' q')
    (plain : kind.isPlain = true := by rfl) :
    Paired pair base spend depth change fine (do if ← sees kind then Reader.take >>= yes else no)
      (do if ← sees kind then Reader.take >>= yes' else no') p q :=
  .choose here (fun _ _ seen same isKind =>
    (Paired.take seen (by rw [isKind]; exact plain)).next fun token p' q' taken spent _ =>
      first token p' q' taken (by omega)) second

theorem Paired.takeBrace {mark last} {count : Nat → Nat}
    (isMark : (p.lookAt 0).1.kind = .symbol mark)
    (together : pair.together last { p.take.2 with depth := count p.take.2.depth }
      { q.take.2 with depth := count q.take.2.depth }) :
    Paired pair base 1 last id (fun _ p' => base.Reads made p') (takeBrace count)
      (takeBrace count) p q := by
  have more : (p.lookAt 0).1.kind ≠ .endOfInput := by simp [isMark]
  obtain ⟨same, span⟩ := take_same here.toAt more (by simp [isMark])
  have other : Reader.takeBrace count q =
      (some p.take.1, { q.take.2 with depth := count q.take.2.depth }) := by
    rw [← same]
    rfl
  have taken := here.reads.take
  exact .done rfl other ⟨together, .inl span⟩ (Nat.le_of_eq (remaining_take more))
    { taken with lexed := taken.lexed }

theorem Paired.reject {code span message} {change : α → α} (text : code.number < 4000 := by decide) :
    Paired pair base spend depth change good (reject code span message)
      (reject code span message) p q :=
  .failed rfl rfl (pair.reject here.together (.error code span message) rfl)
    (here.reads.record _ text)

theorem Paired.rejectHere {code message} {change : α → α} (text : code.number < 4000 := by decide) :
    Paired pair base spend depth change good (rejectHere code message) (rejectHere code message)
      p q := by
  obtain ⟨span, isHere, isThere⟩ := place_eq here.toAt
  refine .failed ?_ ?_ (pair.reject (At.lookAt here.toAt 0).together (.error code span message) rfl)
    ((here.reads.lookAt 0).record _ text)
  · rw [Reader.rejectHere, bind_apply, isHere]
    rfl
  · rw [Reader.rejectHere, bind_apply, isThere]
    rfl

theorem Paired.expect {code message} (text : code.number < 4000 := by decide)
    (plain : kind.isPlain = true := by rfl) :
    Twins pair base 1 depth made (fun _ => True) (expect kind code message) p q :=
  .choose here
    (fun _ _ seen _ isKind => (Paired.take seen (by rw [isKind]; exact plain)).mono
      fun _ _ taken => ⟨taken.1, trivial⟩)
    fun _ _ seen _ => .rejectHere seen text

end

section

variable (here : pair.Here base false depth made p q)

include here

theorem Paired.declare (name : Text) (span : Span) (body : DeclBody) {good : DeclId → Parser → Prop}
    (holds : good (p.decls.count + 1) (p.declaring { name, span, body })) :
    Paired pair base 0 depth pair.number good (declare name span body)
      (declare name span (body.renumbered pair.number)) p q := by
  refine .done rfl ?_ ⟨pair.declare here.together { name, span, body }, .inl here.same⟩
    (Nat.le_refl _) holds
  show (some (q.decls.count + 1), _) = (some (pair.number (p.decls.count + 1)), _)
  rw [pair.numbers here.together]
  rfl

theorem Paired.declareVariable {name} {span : Span} {data : Variable} (raw : data.Raw) :
    Paired pair base 0 depth pair.number
      (fun id later => id = base.decls.count + made.length + 1 ∧
        base.Reads (made ++ [{ name, span, body := .variable data }]) later)
      (.declare name span (.variable data)) (.declare name span (.variable data)) p q :=
  .declare here name span (.variable data)
    ⟨congrArg (· + 1) here.reads.count_eq, here.reads.declare ⟨rfl, data, rfl, raw, rfl⟩⟩

theorem Paired.atFragmentEnd :
    Twins pair base 0 depth made (fun _ => True) atFragmentEnd p q := by
  have opened : ∀ parser : Parser, Reader.atFragmentEnd parser =
      (if (parser.inputs.head?.map Input.fragment).getD false then .sees .endOfInput
        else Pure.pure false : Reader Bool) parser := by
    intro parser
    unfold Reader.atFragmentEnd
    rw [bind_apply, show (get : Reader Parser) parser = (some parser, parser) from rfl]
    dsimp only
    cases parser.inputs <;> rfl
  have tail : ∀ isFragment : Bool, Twins pair base 0 depth made (fun _ => True)
      (if isFragment then .sees .endOfInput else Pure.pure false) p q := by
    intro isFragment
    split
    · exact .peek_bind here fun _ _ _ later _ _ => .give later trivial
    · exact .give here trivial
  refine (tail _).congr (opened p) ?_ rfl
  rw [opened q, pair.fragment here.together]

end

end Reader

end FragmentCompiler
