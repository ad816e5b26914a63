import FragmentCompiler.Token.Lexer

/-!
# Lexical faults

Whatever is wrong with a token carries a lexical code, and an invalid token has a fault.
-/

set_option autoImplicit false

namespace FragmentCompiler

open List

/-- The diagnostic is lexical, syntactic or semantic: the text itself is at fault. -/
def Diagnostic.FromText (diagnostic : Diagnostic) : Prop := diagnostic.code.number < 4000

namespace Lexer

/-! ## What is found -/

/-- What is found at the start of a text: a token of a kind, or a lexical fault. -/
inductive Scan.Sane (good : TokenKind → Prop) : Scan → Prop
  | token {kind : TokenKind} (length : Nat) (holds : good kind) : Sane good ⟨kind, length, none⟩
  | bad {code} (length : Nat) (message : Text) (lexical : code.number < 4000)
      (other : code ≠ Code.tokenTooLong) : Sane good (.bad length code message)

theorem Scan.Sane.mono {good fine} {scanned : Scan} (sane : scanned.Sane good)
    (enough : ∀ kind, good kind → fine kind) : scanned.Sane fine := by
  cases sane with
  | token length holds => exact .token length (enough _ holds)
  | bad length message lexical other => exact .bad length message lexical other

theorem Scan.Sane.lexical {good code message} {scanned : Scan} (sane : scanned.Sane good)
    (fault : scanned.fault = some (code, message)) :
    code.number < 4000 ∧ code ≠ Code.tokenTooLong := by
  cases sane with
  | token => cases fault
  | bad _ _ lexical other =>
    cases fault
    exact ⟨lexical, other⟩

theorem Scan.Sane.kind {good} {scanned : Scan} (sane : scanned.Sane good) {kind : TokenKind}
    (isKind : scanned.kind = kind) (valid : kind ≠ .invalid) : good kind := by
  cases sane with
  | token _ holds => exact isKind ▸ holds
  | bad => exact absurd isKind.symm valid

theorem scanName_sane (input : Text) :
    (scanName input).Sane fun kind => kind = .name ∨ ∃ word, kind = .keyword word := by
  unfold scanName
  dsimp only
  split
  · exact .bad _ _ (by decide) (by decide)
  · split
    · exact .token _ (.inr ⟨_, rfl⟩)
    · exact .token _ (.inl rfl)

def IsNumber (kind : TokenKind) : Prop := kind = .integer ∨ kind = .float

theorem scanBased_sane (accept : UInt8 → Bool) (text input : Text) :
    (scanBased accept text input).Sane IsNumber := by
  unfold scanBased
  dsimp only
  split
  · exact .token _ (.inl rfl)
  · exact .bad _ _ (by decide) (by decide)

theorem scanDecimal_sane (input : Text) : (scanDecimal input).Sane IsNumber := by
  unfold scanDecimal
  dsimp only
  split
  · exact .bad _ _ (by decide) (by decide)
  · split
    · split
      · exact .token _ (.inl rfl)
      · exact .token _ (.inr rfl)
    · exact .bad _ _ (by decide) (by decide)

theorem scanNumber_sane (input : Text) : (scanNumber input).Sane IsNumber := by
  unfold scanNumber
  split
  · split
    · exact scanBased_sane _ _ _
    · split
      · exact scanBased_sane _ _ _
      · exact scanDecimal_sane _
  · exact scanDecimal_sane _

theorem scanString_sane (input : Text) : (scanString input).Sane (· = .string) := by
  unfold scanString
  split
  · exact .token _ rfl
  · exact .bad _ _ (by decide) (by decide)
  · exact .bad _ _ (by decide) (by decide)

theorem scanSymbol_sane (input : Text) : (scanSymbol input).Sane
    fun kind => ∃ mark, kind = .symbol mark := by
  unfold scanSymbol
  split
  · exact .bad _ _ (by decide) (by decide)
  · dsimp only
    split
    · exact .token _ ⟨_, rfl⟩
    · split
      · exact .token _ ⟨_, rfl⟩
      · exact .bad _ _ (by decide) (by decide)

theorem scan_sane (input : Text) :
    (scan input).Sane fun kind => kind ≠ .invalid ∧ kind ≠ .endOfInput := by
  have number : ∀ kind, IsNumber kind → kind ≠ .invalid ∧ kind ≠ .endOfInput := by
    rintro _ (rfl | rfl) <;> exact ⟨nofun, nofun⟩
  unfold scan
  split
  · exact .bad _ _ (by decide) (by decide)
  · split
    · refine (scanName_sane _).mono ?_
      rintro _ (rfl | ⟨word, rfl⟩) <;> exact ⟨nofun, nofun⟩
    split
    · exact (scanNumber_sane _).mono number
    split
    · exact (scanNumber_sane _).mono number
    split
    · refine (scanString_sane _).mono ?_
      rintro _ rfl
      exact ⟨nofun, nofun⟩
    split
    · exact .token _ ⟨nofun, nofun⟩
    · refine (scanSymbol_sane _).mono ?_
      rintro _ ⟨mark, rfl⟩
      exact ⟨nofun, nofun⟩

/-! ## Faults -/

theorem triviaWithin_faults (fuel : Nat) (cursor : Cursor) :
    ∀ fault ∈ (triviaWithin fuel cursor).2.1, fault.FromText := by
  induction fuel generalizing cursor with
  | zero =>
    intro fault member
    cases member
  | succ fuel ih =>
    intro fault member
    unfold triviaWithin at member
    split at member
    · cases member
    · rename_i kind length complete found
      simp only [mem_append] at member
      rcases member with own | later
      · split at own
        · cases own
        · rw [mem_singleton.mp own]
          show (1003 : Nat) < 4000
          decide
      · exact ih _ fault later

/-- What is wrong with a token itself. -/
def Scan.faults (scanned : Scan) (span : Span) : List Diagnostic :=
  match scanned.fault with
  | some (code, message) => [Diagnostic.error code span message]
  | none => []

theorem scan_faults (input : Text) (span : Span) :
    ∀ fault ∈ (scan input).faults span, fault.FromText ∧ fault.code ≠ .tokenTooLong := by
  intro fault member
  unfold Scan.faults at member
  split at member
  · rename_i isFault
    rw [mem_singleton.mp member]
    exact (scan_sane _).lexical isFault
  · cases member

theorem next_faults (cursor : Cursor) : ∀ fault ∈ (next cursor).1.faults, fault.FromText := by
  intro fault member
  have early := triviaWithin_faults cursor.rest.length cursor
  unfold next at member
  dsimp only at member
  split at member
  · exact early fault member
  · split at member
    · simp only [mem_append, mem_singleton] at member
      rcases member with (inEarly | inOwn) | isExcess
      · exact early fault inEarly
      · exact (scan_faults _ _ fault inOwn).1
      · rw [isExcess]
        show (1005 : Nat) < 4000
        decide
    · simp only [mem_append] at member
      rcases member with inEarly | inOwn
      · exact early fault inEarly
      · exact (scan_faults _ _ fault inOwn).1

theorem mem_lexWithin {lexeme} (fuel : Nat) : ∀ {cursor : Cursor},
    lexeme ∈ lexWithin fuel cursor → ∃ place, lexeme = (next place).1 := by
  induction fuel with
  | zero => exact fun member => absurd member not_mem_nil
  | succ fuel ih =>
    intro cursor member
    unfold lexWithin at member
    split at member <;> rename_i isNext
    · exact ⟨cursor, by rw [mem_singleton.mp member, isNext]⟩
    · rcases mem_cons.mp member with isHead | inRest
      · exact ⟨cursor, by rw [isHead, isNext]⟩
      · exact ih inRest

theorem lex_faults (file : FileId) (content : Text) :
    ∀ lexeme ∈ lex file content, ∀ fault ∈ lexeme.faults, fault.FromText := by
  intro lexeme member
  obtain ⟨place, rfl⟩ := mem_lexWithin _ member
  exact next_faults place

/-! ## Invalid tokens -/

def Lexeme.Blamed (lexeme : Lexeme) : Prop :=
  lexeme.token.kind = .invalid → ∃ fault ∈ lexeme.faults, fault.isError = true

theorem next_blamed (cursor : Cursor) : (next cursor).1.Blamed := by
  unfold next
  generalize triviaWithin cursor.rest.length cursor = found
  obtain ⟨leading, early, start⟩ := found
  dsimp only
  split
  · exact fun invalid => TokenKind.noConfusion invalid
  · split
    · exact fun _ => ⟨_, mem_append_right _ (mem_singleton_self _), rfl⟩
    · intro invalid
      have sane := scan_sane start.rest
      generalize scan start.rest = scanned at sane invalid ⊢
      cases sane with
      | token _ holds => exact absurd invalid holds.1
      | bad => exact ⟨_, mem_append_right _ (mem_singleton_self _), rfl⟩

theorem lex_blamed (file : FileId) (content : Text) :
    ∀ lexeme ∈ lex file content, lexeme.Blamed := by
  intro lexeme member
  obtain ⟨place, rfl⟩ := mem_lexWithin _ member
  exact next_blamed place

end Lexer

end FragmentCompiler
