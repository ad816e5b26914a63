import FragmentCompiler.Proofs.Literals
import Mathlib.Data.List.Forall2
import Mathlib.Data.Nat.Digits.Lemmas

/-!
# What integer literals mean

An integer literal stands for the value of its digits in its base.
-/

set_option autoImplicit false

namespace FragmentCompiler

open List

/-- A number starts with a digit or with a point. -/
theorem Lexer.scan_integer {input} (isInteger : (scan input).kind = .integer) : ∃ byte rest,
    input = byte :: rest ∧ (isDigit byte = true ∨ byte = 46) ∧ scan input = scanNumber input := by
  cases input with
  | nil => cases isInteger
  | cons byte rest =>
    refine ⟨byte, rest, rfl, ?_⟩
    unfold scan at isInteger ⊢
    dsimp only at isInteger ⊢
    split_ifs at isInteger ⊢ with _ digit point
    · rcases (scanName_sane _).kind isInteger nofun with never | ⟨_, never⟩ <;> cases never
    · exact ⟨.inl digit, rfl⟩
    · simp only [Bool.and_eq_true, beq_iff_eq] at point
      exact ⟨.inr point.1, rfl⟩
    · cases (scanString_sane _).kind isInteger nofun
    · obtain ⟨_, never⟩ := (scanSymbol_sane _).kind isInteger nofun
      cases never

namespace Literal

open Lexer

/-- The byte is the figure for a value below sixteen. -/
def IsFigure (byte : UInt8) (value : Nat) : Prop :=
  (Text.ofString "0123456789abcdef")[value]? = some byte ∨
    (Text.ofString "0123456789ABCDEF")[value]? = some byte

instance (byte : UInt8) (value : Nat) : Decidable (IsFigure byte value) :=
  inferInstanceAs (Decidable (_ ∨ _))

/-- The ways to mark a base. -/
def baseMarks : List (Text × Nat) :=
  [("0x", 16), ("0X", 16), ("0b", 2), ("0B", 2), ([], 10)]

/-- A text is a mark and at least one figure below its base, underscores anywhere between
them; `values` are what the figures stand for. -/
def Written (literal : Text) (base : Nat) (values : List Nat) : Prop :=
  ∃ mark run, (mark, base) ∈ baseMarks ∧ literal = mark ++ run ∧ values ≠ [] ∧
    Forall₂ IsFigure (run.filter (· != 95)) values ∧ ∀ value ∈ values, value < base

/-- A class of bytes holds figures below a base only. -/
def Figures (accept : UInt8 → Bool) (base : Nat) : Prop :=
  ∀ byte, accept byte = true → IsFigure byte (digitValue byte) ∧ digitValue byte < base

theorem figures_of_codes {accept base} (all : ∀ code : Fin 256, accept (.ofNat code) = true →
    IsFigure (.ofNat code) (digitValue (.ofNat code)) ∧ digitValue (.ofNat code) < base) :
    Figures accept base := by
  intro byte
  simpa using all ⟨byte.toNat, byte.toNat_lt⟩

theorem digitValue_figure {byte value} (figure : IsFigure byte value) : digitValue byte = value :=
    by
  have low : value < 16 := by
    rcases figure with found | found <;> exact (List.getElem?_eq_some_iff.mp found).1
  rcases figure with found | found <;> interval_cases value <;>
    (rw [← Option.some.inj found]; decide)

theorem map_digitValue {digits values} (figures : Forall₂ IsFigure digits values) :
    digits.map digitValue = values := by
  induction figures with
  | nil => rfl
  | cons figure _ ih => rw [map_cons, digitValue_figure figure, ih]

theorem baseAndDigits_written {literal base values} (written : Written literal base values) :
    ∃ digits, baseAndDigits literal = (base, digits) ∧ digits.map digitValue = values := by
  obtain ⟨mark, run, marked, rfl, _, figures, low⟩ := written
  refine ⟨run.filter (· != 95), ?_, map_digitValue figures⟩
  unfold baseAndDigits
  rw [filter_append]
  simp only [baseMarks, mem_cons, Prod.mk.injEq, not_mem_nil, or_false] at marked
  rcases marked with ⟨rfl, rfl⟩ | ⟨rfl, rfl⟩ | ⟨rfl, rfl⟩ | ⟨rfl, rfl⟩ | ⟨rfl, rfl⟩
  iterate 4 rfl
  rw [filter_nil, nil_append]
  generalize run.filter (· != 95) = digits at figures
  cases figures with
  | nil => rfl
  | cons _ others =>
    cases others with
    | nil => simp
    | cons figure _ =>
      -- No figure below ten is the letter of a mark.
      have small := low _ (mem_cons_of_mem _ mem_cons_self)
      rw [← digitValue_figure figure] at small
      split
      · rename_i isDigits
        cases isDigits
        split_ifs with hex binary
        · simp only [Bool.or_eq_true, beq_iff_eq] at hex
          rcases hex with rfl | rfl <;> exact absurd small (by decide)
        · simp only [Bool.or_eq_true, beq_iff_eq] at binary
          rcases binary with rfl | rfl <;> exact absurd small (by decide)
        · rfl
      · rfl

theorem integer?_written {literal base values} (written : Written literal base values) :
    integer? literal = if Nat.ofDigits base values.reverse ≤ 2 ^ 63 - 1 then
      some (Nat.ofDigits base values.reverse) else none := by
  obtain ⟨digits, isBase, isValues⟩ := baseAndDigits_written written
  have isValue : Decimal.valueInBase base values = Nat.ofDigits base values.reverse := by
    rw [Nat.ofDigits_eq_foldr, foldr_reverse]
    simp [Decimal.valueInBase, Nat.add_comm, Nat.mul_comm]
  unfold integer?
  rw [isBase]
  dsimp only
  rw [isValues, isValue]
  rfl

theorem take_digitRun (accept : UInt8 → Bool) (input : Text) :
    input.take (digitRun accept input).length = digitRun accept input :=
  (prefix_iff_eq_take.mp ( takeWhile_prefix _)).symm

theorem written_of_run {mark base accept input} (marked : (mark, base) ∈ baseMarks)
    (figures : Figures accept base) (any : hasDigit (digitRun accept input) = true) :
    ∃ values, Written (mark ++ digitRun accept input) base values := by
  have accepted : ∀ byte ∈ (digitRun accept input).filter (· != 95), accept byte = true := by
    intro byte member
    have := mem_takeWhile_imp (mem_filter.mp member).1
    simp_all
  refine ⟨_, mark, _, marked, rfl, ?_, forall₂_map_right_iff.mpr (forall₂_same.mpr
    fun byte member => (figures byte (accepted byte member)).1), ?_⟩
  · obtain ⟨byte, member, notBlank⟩ := any_eq_true.mp any
    exact ne_nil_of_mem (mem_map_of_mem (mem_filter.mpr ⟨member, notBlank⟩))
  · intro value member
    obtain ⟨byte, isByte, rfl⟩ := mem_map.mp member
    exact (figures byte (accepted byte isByte)).2

/-- What was found at the start of a text is a written integer, if it is an integer at all. -/
def WritesIntegers (scanned : Scan) (input : Text) : Prop :=
  scanned.kind = .integer → ∃ base values, Written (input.take scanned.length) base values

theorem scanBased_written {base accept message rest} (mark : Text)
    (marked : (mark, base) ∈ baseMarks) (two : mark.length = 2) (figures : Figures accept base) :
    WritesIntegers (scanBased accept message (mark ++ rest)) (mark ++ rest) := by
  unfold scanBased WritesIntegers
  rw [← two, drop_left]
  dsimp only
  split
  · rename_i any
    intro _
    rw [take_length_add_append, take_digitRun]
    exact ⟨base, written_of_run marked figures any⟩
  · exact nofun

theorem scanDecimal_written {byte rest} (starts : isDigit byte = true ∨ byte = 46) :
    WritesIntegers (scanDecimal (byte :: rest)) (byte :: rest) := by
  unfold scanDecimal WritesIntegers
  dsimp only
  split
  · exact nofun
  split
  · dsimp only
    split
    · rename_i whole
      intro _
      simp only [Bool.and_eq_true, decide_eq_true_eq, Option.isNone_iff_eq_none] at whole
      obtain ⟨noFraction, noExponent⟩ := whole
      rcases starts with digit | rfl
      · rw [noFraction] at noExponent ⊢
        rw [noExponent, Option.map_none, Option.getD_none, Nat.add_zero, take_digitRun]
        have any : hasDigit (digitRun isDigit (byte :: rest)) = true := by
          refine any_eq_true.mpr ⟨byte, by simp [digitRun, digit], bne_iff_ne.mpr ?_⟩
          rintro rfl
          cases digit
        exact ⟨10, @written_of_run [] 10 isDigit _ (by simp [baseMarks])
          (figures_of_codes (by decide +kernel)) any⟩
      · simp [digitRun, isDigit, fractionLength] at noFraction
    · exact nofun
  · exact nofun

theorem scanNumber_written {byte rest} (starts : isDigit byte = true ∨ byte = 46) :
    WritesIntegers (scanNumber (byte :: rest)) (byte :: rest) := by
  unfold scanNumber
  split
  · rename_i mark rest' isInput
    cases isInput
    split_ifs with hex binary
    · refine scanBased_written [48, mark] ?_ rfl
        (show Figures isHexDigit 16 from figures_of_codes (by decide +kernel))
      simp only [Bool.or_eq_true, beq_iff_eq] at hex
      rcases hex with rfl | rfl <;> decide
    · refine scanBased_written [48, mark] ?_ rfl
        (show Figures isBinaryDigit 2 from figures_of_codes (by decide +kernel))
      simp only [Bool.or_eq_true, beq_iff_eq] at binary
      rcases binary with rfl | rfl <;> decide
    · exact scanDecimal_written starts
  · exact scanDecimal_written starts

/-- What the parser makes of an integer literal that stands next: its value, or a report that
it is out of range. -/
def Means (token : Token) (value : Nat) : Prop :=
  ∀ (parser : Parser) (fuel : Nat), (parser.lookAt 0).1 = token →
    let after := (parser.lookAt 0).2.take.2
    if value ≤ 2 ^ 63 - 1 then
      ∃ number : Int64, number.toInt = value ∧
        Reader.primary (fuel + 1) parser = (some (Reader.literal token (.int number)), after)
    else Reader.primary (fuel + 1) parser = (none, after.record (.error .badNumber token.span
      ("integer literal " ++ token.text.quote ++ " out of range")))

theorem means_of_integer? {token value} (isInteger : token.kind = .integer)
    (isValue : integer? token.text = if value ≤ 2 ^ 63 - 1 then some value else none) :
    Means token value := by
  intro parser fuel isNext after
  rw [Reader.primary]
  simp only [bind, OptionT.bind, OptionT.mk, StateT.bind, Reader.peek, Reader.peekAt, isNext]
  rw [isInteger]
  dsimp only
  rw [isValue]
  split
  · rename_i fits
    exact ⟨_, Int64.toInt_ofNat_of_lt (by omega), rfl⟩
  · rfl

/-- Every integer literal is written in figures of its base, and stands for their positional
value unless that is too large. -/
theorem integers_positional (file : FileId) (content : Text) (lexeme : Lexeme)
    (member : lexeme ∈ Lexer.lex file content) (isInteger : lexeme.token.kind = .integer) :
    (∃ base values, Written lexeme.token.text base values) ∧
      ∀ base values, Written lexeme.token.text base values →
        let value := Nat.ofDigits base values.reverse
        integer? lexeme.token.text = (if value ≤ 2 ^ 63 - 1 then some value else none) ∧
          Means lexeme.token value := by
  obtain ⟨input, isKind, isText⟩ := lex_scanned member (isInteger ▸ nofun) (isInteger ▸ nofun)
  obtain ⟨byte, rest, rfl, starts, isScan⟩ := scan_integer (isKind.trans isInteger)
  rw [isScan] at isKind isText
  refine ⟨isText ▸ scanNumber_written starts (isKind.trans isInteger), fun base values written => ?_⟩
  have isValue := integer?_written written
  exact ⟨isValue, means_of_integer? isInteger isValue⟩

theorem integers_positional_hexadecimal :
    let lexeme : Lexeme := ⟨{ kind := .integer, span := ⟨0, 0, 6⟩, text := "0x_7F_" }, []⟩
    lexeme ∈ Lexer.lex 0 "0x_7F_;" ∧ lexeme.token.kind = .integer ∧
      ∃ base values, Written lexeme.token.text base values := by
  intro lexeme
  have member : lexeme ∈ Lexer.lex 0 "0x_7F_;" := by decide +kernel
  exact ⟨member, rfl, (integers_positional 0 "0x_7F_;" lexeme member rfl).1⟩

end Literal

end FragmentCompiler
