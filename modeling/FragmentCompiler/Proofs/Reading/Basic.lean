import FragmentCompiler.Proofs.Lexing
import FragmentCompiler.Proofs.Table
import FragmentCompiler.Session.Transform

/-!
# What reading leaves behind

Reading a declaration adds entries to the table and changes none.  The trees that
come out are raw: no name is resolved, nothing is converted, only names are
assigned, and the numbers inside a tree were all made while it was read.
-/

set_option autoImplicit false

namespace FragmentCompiler

open List

/-! ## Raw trees -/

/-- An expression as the grammar makes it. -/
inductive Expr.Raw : Expr → Prop
  | name (info : ExprInfo) (spelling : Text) : Raw (.name info spelling .unresolved)
  | literal (info : ExprInfo) (spelling : Text) (value : LiteralValue) :
      Raw (.literal info spelling value)
  | unary {operand} (info : ExprInfo) (op : UnaryOp) (inner : Raw operand) : Raw
      (.unary info op operand)
  | binary {left right} (info : ExprInfo) (op : BinaryOp) (first : Raw left) (second : Raw right) :
      Raw (.binary info op left right)
  | assign {value} (info target : ExprInfo) (spelling : Text) (inner : Raw value) :
      Raw (.assign info (.name target spelling .unresolved) value)
  | call {callee arguments} (info : ExprInfo) (called : Raw callee)
      (given : ∀ argument ∈ arguments, Raw argument) : Raw (.call info callee arguments)
  | group (info : ExprInfo) {inner : Expr} (inside : Raw inner) : Raw (.group info inner)

/-- A statement as the grammar makes it. -/
inductive Stmt.Raw : Stmt → Prop
  | block {body} (span : Span) (inside : ∀ statement ∈ body, Raw statement) : Raw (.block span body)
  | declare (span : Span) (ids : List DeclId) : Raw (.declare span ids)
  | expression {value} (span : Span) (unterminated : Bool) (inside : value.Raw) :
      Raw (.expression span value unterminated)
  | branch {yes no test} (span : Span) (tested : test.Raw) (first : Raw yes)
      (second : ∀ other, no = some other → Raw other) : Raw (.branch span test yes no)
  | loop {body test} (span : Span) (tested : test.Raw) (inside : Raw body) : Raw
      (.loop span test body)
  | return {value} (span : Span) (inside : ∀ result, value = some result → result.Raw) :
      Raw (.return span value)
  | break (span : Span) : Raw (.break span)
  | continue (span : Span) : Raw (.continue span)
  | empty (span : Span) : Raw (.empty span)

theorem Stmt.declaredAll_append (first second : List Stmt) :
    declaredAll (first ++ second) = declaredAll first ++ declaredAll second := by
  induction first with
  | nil => rfl
  | cons statement rest ih => simp [declaredAll, ih]

theorem Stmt.declaredAll_toList (no : Option Stmt) : declaredAll no.toList = declaredOption no := by
  cases no <;> simp [declaredAll, declaredOption]

theorem Stmt.declaredAll_branch (span : Span) (test : Expr) (yes : Stmt) (no : Option Stmt)
    (rest : List Stmt) : declaredAll (.branch span test yes no :: rest) =
      declaredAll [yes] ++ (declaredAll no.toList ++ declaredAll rest) := by
  simp [declaredAll_toList, declaredAll, declared]

theorem Stmt.declaredAll_loop (span : Span) (test : Expr) (body : Stmt) (rest : List Stmt) :
    declaredAll (.loop span test body :: rest) = declaredAll [body] ++ declaredAll rest := by
  simp [declaredAll, declared]

/-- A variable as the grammar makes it. -/
structure Variable.Raw (data : Variable) : Prop where
  type : data.type.IsValue
  initial : ∀ value, data.initial = some value → value.Raw
  hoisted : data.hoisted = none

def Function.owned (data : Function) : List DeclId :=
  data.parameters ++ ((data.body.map Stmt.declared).getD [])

namespace Declarations

variable {id : DeclId}

def owned (decls : Declarations) (id : DeclId) : List DeclId :=
  match decls.asFunction id with
  | some data => data.owned
  | none => []

/-- A number stands for a variable nobody has checked yet. -/
def RawVariable (decls : Declarations) (id : DeclId) : Prop :=
  ∃ decl data, decls.get? id = some decl ∧ decl.invalid = false ∧ decl.body = .variable data ∧
    data.Raw

theorem RawVariable.congr {before after : Declarations} (same : after.get? id = before.get? id)
    (raw : before.RawVariable id) : after.RawVariable id := by
  obtain ⟨decl, data, found, rest⟩ := raw
  exact ⟨decl, data, same.trans found, rest⟩

theorem RawVariable.le_count {decls : Declarations} (raw : decls.RawVariable id) :
    id ≤ decls.count := by
  obtain ⟨_, _, found, _⟩ := raw
  exact le_count_of_get? found

/-- A number stands for a variable that lives in a given place. -/
def IsStored (decls : Declarations) (storage : Storage) (id : DeclId) : Prop :=
  ∃ data, decls.asVariable id = some data ∧ data.storage = storage

theorem IsStored.congr {storage} {before after : Declarations}
    (same : after.get? id = before.get? id) (stored : before.IsStored storage id) :
    after.IsStored storage id := by
  obtain ⟨data, found, isStored⟩ := stored
  exact ⟨data, (asVariable_congr same).trans found, isStored⟩

theorem IsStored.le_count {storage} {decls : Declarations} (stored : decls.IsStored storage id) :
    id ≤ decls.count := by
  obtain ⟨data, found, _⟩ := stored
  obtain ⟨decl, isDecl, _⟩ := asVariable_eq_some.mp found
  exact le_count_of_get? isDecl

end Declarations

/-! ## Readers -/

/-- The faults of the tokens still to be read are lexical. -/
def Parser.Lexed (parser : Parser) : Prop :=
  ∀ input ∈ parser.inputs, ∀ lexeme ∈ input.pending, ∀ fault ∈ lexeme.faults, fault.FromText

/-- Tokens of the current buffer were looked at or taken. -/
inductive Input.Ahead : List Input → List Input → Prop
  | nil : Ahead [] []
  | within (input : Input) (below : List Input) {pending : List Lexer.Lexeme} (seen : Nat)
      (rest : pending <:+ input.pending) :
      Ahead (input :: below) ({ input with pending, seen } :: below)

theorem Input.Ahead.refl : ∀ inputs : List Input, Ahead inputs inputs
  | [] => .nil
  | input :: below => .within input below input.seen (suffix_refl _)

theorem Input.Ahead.trans {first second third} (left : Ahead first second)
    (right : Ahead second third) : Ahead first third := by
  cases left with
  | nil => exact right
  | within input below seen rest =>
    cases right with
    | within _ _ later more => exact .within input below later (more.trans rest)

theorem Input.Ahead.length {before} {after : List Input} (ahead : Ahead before after) :
    after.length = before.length := by
  cases ahead <;> rfl

theorem Input.Ahead.tail {before} {after : List Input} (ahead : Ahead before after) :
    after.tail = before.tail := by
  cases ahead <;> rfl

/-- A variable as the grammar declares it. -/
def Decl.IsRaw (storage : Storage) (decl : Decl) : Prop :=
  decl.invalid = false ∧ ∃ data, decl.body = .variable data ∧ data.Raw ∧ data.storage = storage

/-- Where a parser looks for what is included, and whether it takes pragmas. -/
def Parser.surroundings (parser : Parser) :=
  (parser.tree, parser.includePaths, parser.virtuals, parser.takesPragmas)

/-- The surroundings stay as they are, and only the text was reported about. -/
structure Parser.Furthers (before after : Parser) : Prop where
  surroundings : after.surroundings = before.surroundings
  lexed : after.Lexed
  reports : ∃ new, after.reports.toList = before.reports.toList ++ new ∧
    ∀ entry ∈ new, Diagnostic.FromText entry

theorem Parser.Furthers.trans {first second third : Parser} (left : first.Furthers second)
    (right : second.Furthers third) : first.Furthers third := by
  obtain ⟨firstNew, firstEq, firstText⟩ := left.reports
  obtain ⟨secondNew, secondEq, secondText⟩ := right.reports
  exact ⟨right.surroundings.trans left.surroundings, right.lexed, firstNew ++ secondNew,
    by rw [secondEq, firstEq, append_assoc], forall_mem_append.mpr ⟨firstText, secondText⟩⟩

theorem Parser.Furthers.tree {before after : Parser} (furthers : before.Furthers after) :
    after.tree = before.tree := congrArg (·.1) furthers.surroundings

theorem Parser.Furthers.virtuals {before after : Parser} (furthers : before.Furthers after) :
    after.virtuals = before.virtuals := congrArg (·.2.2.1) furthers.surroundings

/-- What reading part of a declaration does to a parser: it makes variables and reports about the
text, and keeps everything else. -/
structure Parser.Reads (made : List Decl) (before after : Parser) : Prop
    extends before.Furthers after where
  ahead : Input.Ahead before.inputs after.inputs
  files : after.files = before.files
  entries : after.decls.entries.toList = before.decls.entries.toList ++ made
  raw : ∀ decl ∈ made, ∃ storage, decl.IsRaw storage

variable {before after : Parser}

theorem Parser.Lexed.of_ahead (lexed : before.Lexed)
    (ahead : Input.Ahead before.inputs after.inputs) : after.Lexed := by
  unfold Lexed at lexed ⊢
  generalize before.inputs = earlier at ahead lexed
  generalize after.inputs = later at ahead ⊢
  cases ahead with
  | nil => exact lexed
  | within input below seen rest =>
    obtain ⟨own, below⟩ := forall_mem_cons.mp lexed
    exact forall_mem_cons.mpr ⟨fun lexeme inPending => own lexeme (rest.subset inPending), below⟩

theorem Parser.Reads.of_fields (lexed : before.Lexed)
    (ahead : Input.Ahead before.inputs after.inputs) (new : List Diagnostic)
    (reports : after.reports.toList = before.reports.toList ++ new)
    (text : ∀ entry ∈ new, Diagnostic.FromText entry)
    (surroundings : after.surroundings = before.surroundings := by rfl)
    (files : after.files = before.files := by rfl) (decls : after.decls = before.decls := by rfl) :
    before.Reads [] after where
  surroundings
  lexed := lexed.of_ahead ahead
  reports := ⟨new, reports, text⟩
  ahead
  files
  entries := by rw [decls, append_nil]
  raw := forall_mem_nil _

theorem Parser.Reads.refl {parser : Parser} (lexed : parser.Lexed) : parser.Reads [] parser :=
  of_fields lexed (.refl _) [] (append_nil _).symm (by simp)

theorem Parser.Reads.trans {made more} {first second third : Parser}
    (left : first.Reads made second) (right : second.Reads more third) :
    first.Reads (made ++ more) third where
  toFurthers := left.toFurthers.trans right.toFurthers
  ahead := left.ahead.trans right.ahead
  files := right.files.trans left.files
  entries := by rw [right.entries, left.entries, append_assoc]
  raw := forall_mem_append.mpr ⟨left.raw, right.raw⟩

theorem Parser.Reads.then {made} {first second third : Parser} (left : first.Reads made second)
    (right : second.Reads [] third) : first.Reads made third :=
  append_nil made ▸ left.trans right

namespace Input

/-- The token so far ahead. -/
def peeked (input : Input) (index : Nat) : Token :=
  match input.pending[index]? with
  | some lexeme => lexeme.token
  | none => (input.pending.getLast?.map Lexer.Lexeme.token).getD Parser.endToken

/-- The tokens that looking ahead sees for the first time. -/
def fresh (input : Input) (index : Nat) : List Lexer.Lexeme :=
  (input.pending.take (index + 1)).drop input.seen

def looked (input : Input) (index : Nat) : Input :=
  { input with seen := input.seen + (input.fresh index).length }

def taken (input : Input) : Input :=
  { input with pending := input.pending.tail, seen := input.seen - 1 }

theorem pending_of_peeked {input : Input} (more : (input.peeked 0).kind ≠ .endOfInput) :
    ∃ lexeme rest, input.pending = lexeme :: rest ∧ input.peeked 0 = lexeme.token := by
  cases isPending : input.pending with
  | nil =>
    rw [peeked, isPending] at more
    exact absurd rfl more
  | cons lexeme rest => exact ⟨lexeme, rest, rfl, by rw [peeked, isPending]; rfl⟩

end Input

namespace Parser

variable {parser : Parser} {input : Input} {below : List Input}

theorem lookAt_eq (isInputs : parser.inputs = input :: below) (index : Nat) :
    parser.lookAt index = (input.peeked index,
      { parser with
        inputs := input.looked index :: below
        reports := parser.reports ++ (input.fresh index).flatMap Lexer.Lexeme.faults }) := by
  unfold lookAt
  rw [isInputs]
  dsimp only
  split
  · rename_i early
    have none : input.fresh index = [] :=
      drop_eq_nil_of_le (Nat.le_trans (length_take_le _ _) early)
    obtain ⟨_, _, _, _, _, _, inputs, _, _, _, _, _⟩ := parser
    cases isInputs
    simp [Input.looked, none]
    rfl
  · rfl

theorem take_of_end (isEnd : (parser.lookAt 0).1.kind = .endOfInput) :
    parser.take = parser.lookAt 0 := by
  unfold take
  dsimp only
  split
  · rfl
  · rw [if_pos isEnd]

theorem take_eq (isInputs : parser.inputs = input :: below)
    (more : (input.peeked 0).kind ≠ .endOfInput) :
    parser.take = (input.peeked 0,
      { parser with
        inputs := input.taken :: below
        reports := parser.reports ++ (input.fresh 0).flatMap Lexer.Lexeme.faults
        lastSpan := if (input.peeked 0).kind = .invalid then parser.lastSpan
          else (input.peeked 0).span }) := by
  have seen : input.seen + (input.fresh 0).length - 1 = input.seen - 1 := by
    unfold Input.fresh
    rw [length_drop, length_take]
    omega
  unfold take
  rw [lookAt_eq isInputs]
  dsimp only [Input.looked]
  rw [if_neg more, seen]
  rfl

theorem Lexed.fresh (lexed : parser.Lexed) (isInputs : parser.inputs = input :: below) (index : Nat)
    : ∀ entry ∈ (input.fresh index).flatMap Lexer.Lexeme.faults, Diagnostic.FromText entry := by
  intro entry member
  obtain ⟨lexeme, inFresh, isFault⟩ := mem_flatMap.mp member
  exact lexed input (by rw [isInputs]; exact mem_cons_self) lexeme
    (mem_of_mem_take (mem_of_mem_drop inFresh)) entry isFault

theorem reads_lookAt (lexed : parser.Lexed) (index : Nat) :
    parser.Reads [] (parser.lookAt index).2 := by
  cases isInputs : parser.inputs with
  | nil =>
    rw [lookAt, isInputs]
    exact .refl lexed
  | cons input below =>
    have ahead : Input.Ahead parser.inputs (input.looked index :: below) := by
      rw [isInputs]
      exact .within input below _ (suffix_refl _)
    rw [lookAt_eq isInputs]
    exact .of_fields lexed ahead _ (by simp) (lexed.fresh isInputs index)

theorem lookAt_idle (idle : parser.inputs = []) (index : Nat) :
    parser.lookAt index = (endToken, parser) := by
  rw [lookAt, idle]

theorem busy_of_more (more : (parser.lookAt 0).1.kind ≠ .endOfInput) :
    ∃ input below, parser.inputs = input :: below ∧ (input.peeked 0).kind ≠ .endOfInput := by
  cases isInputs : parser.inputs with
  | nil =>
    rw [lookAt_idle isInputs] at more
    exact absurd rfl more
  | cons input below =>
    rw [lookAt_eq isInputs] at more
    exact ⟨input, below, rfl, more⟩

theorem reads_take (lexed : parser.Lexed) : parser.Reads [] parser.take.2 := by
  by_cases isEnd : (parser.lookAt 0).1.kind = .endOfInput
  · rw [take_of_end isEnd]
    exact reads_lookAt lexed 0
  · obtain ⟨input, below, isInputs, more⟩ := busy_of_more isEnd
    have ahead : Input.Ahead parser.inputs (input.taken :: below) := by
      rw [isInputs]
      exact .within input below _ (tail_suffix _)
    rw [take_eq isInputs more]
    exact .of_fields lexed ahead _ (by simp) (lexed.fresh isInputs 0)

theorem reads_record (lexed : parser.Lexed) (diagnostic : Diagnostic)
    (text : diagnostic.FromText) : parser.Reads [] (parser.record diagnostic) :=
  .of_fields lexed (.refl _) [diagnostic] (by simp [record]) (by simpa using text)

section

variable {made : List Decl} (reads : parser.Reads made after)

include reads

theorem Reads.lookAt (index : Nat) : parser.Reads made (after.lookAt index).2 :=
  reads.then (reads_lookAt reads.lexed index)

theorem Reads.take : parser.Reads made after.take.2 := reads.then (reads_take reads.lexed)

theorem Reads.record (diagnostic : Diagnostic) (text : diagnostic.FromText) :
    parser.Reads made (after.record diagnostic) :=
  reads.then (reads_record reads.lexed diagnostic text)

end

theorem lookAt_lookAt (parser : Parser) (first second : Nat) :
    ((parser.lookAt first).2.lookAt second).1 = (parser.lookAt second).1 := by
  cases isInputs : parser.inputs with
  | nil => rw [lookAt_idle isInputs]
  | cons input below =>
    rw [lookAt_eq isInputs, lookAt_eq isInputs, lookAt_eq rfl]
    rfl

theorem take_fst (parser : Parser) : parser.take.1 = (parser.lookAt 0).1 := by
  unfold take
  dsimp only
  split
  · rfl
  · split <;> rfl

theorem remaining_le (ahead : Input.Ahead before.inputs after.inputs) :
    after.remaining ≤ before.remaining := by
  unfold Parser.remaining
  generalize before.inputs = earlier at ahead ⊢
  generalize after.inputs = later at ahead ⊢
  cases ahead with
  | nil => exact Nat.le_refl _
  | within input below seen rest => exact rest.length_le

theorem remaining_take (more : (parser.lookAt 0).1.kind ≠ .endOfInput) :
    parser.take.2.remaining + 1 = parser.remaining := by
  obtain ⟨input, below, isInputs, isMore⟩ := busy_of_more more
  obtain ⟨lexeme, rest, isPending, _⟩ := Input.pending_of_peeked isMore
  rw [take_eq isInputs isMore, remaining, remaining, isInputs]
  dsimp only [Input.taken]
  rw [isPending]
  rfl

theorem take_lookAt (parser : Parser) (index : Nat) :
    (parser.lookAt index).2.take.1 = (parser.lookAt 0).1 := by
  rw [take_fst, lookAt_lookAt]

end Parser

namespace Reader

variable {α β : Type}

theorem bind_apply (reader : Reader α) (next : α → Reader β) (parser : Parser) :
    (reader >>= next) parser =
      match reader parser with
      | (some value, parser) => next value parser
      | (none, parser) => (none, parser) := by
  have opened : (reader >>= next) parser =
      (match (reader parser).1 with
        | some value => next value
        | none => (pure none : StateM Parser (Option β))) (reader parser).2 := rfl
  rw [opened]
  rcases reader parser with ⟨_ | value, later⟩ <;> rfl

end Reader

end FragmentCompiler
