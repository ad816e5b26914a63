import FragmentCompiler.Parser.Grammar
import FragmentCompiler.Proofs.Lexing
import Mathlib.Data.List.TakeWhile

/-!
# What string literals mean

A string literal is cut into the same pieces by the lexer, which looks for its end, and by
whoever wants its value.
-/

set_option autoImplicit false

namespace FragmentCompiler

open List

namespace Lexer

/-- A token with a text of its own is what is found somewhere in the buffer. -/
theorem lex_scanned {file content} {lexeme : Lexeme} (member : lexeme ∈ lex file content)
    (valid : lexeme.token.kind ≠ .invalid) (notEnd : lexeme.token.kind ≠ .endOfInput) :
    ∃ input, (scan input).kind = lexeme.token.kind ∧
      lexeme.token.text = input.take (scan input).length := by
  obtain ⟨place, rfl⟩ := mem_lexWithin _ member
  unfold next at valid notEnd ⊢
  generalize triviaWithin place.rest.length place = found at *
  obtain ⟨leading, early, start⟩ := found
  dsimp only at valid notEnd ⊢
  split at valid
  · rename_i isEnd
    rw [if_pos isEnd] at notEnd
    exact absurd rfl notEnd
  · rename_i more
    rw [if_neg more] at notEnd ⊢
    split at valid
    · exact absurd rfl valid
    · rename_i short
      rw [if_neg short]
      exact ⟨start.rest, rfl, rfl⟩

/-- Only a quote starts a string literal. -/
theorem scan_string {input} (isString : (scan input).kind = .string) :
    ∃ rest, input = 34 :: rest ∧ scan input = scanString input := by
  cases input with
  | nil => cases isString
  | cons byte rest =>
    refine ⟨rest, ?_⟩
    unfold scan at isString ⊢
    dsimp only at isString ⊢
    split_ifs at isString ⊢ with _ _ _ quote
    · rcases (scanName_sane _).kind isString nofun with never | ⟨_, never⟩ <;> cases never
    · cases (scanNumber_sane _).kind isString nofun <;> contradiction
    · cases (scanNumber_sane _).kind isString nofun <;> contradiction
    · exact ⟨by rw [beq_iff_eq.mp quote], rfl⟩
    · obtain ⟨_, never⟩ := (scanSymbol_sane _).kind isString nofun
      cases never

end Lexer

namespace Literal

open Lexer

/-- A piece of a string literal between its quotes: a byte that stands for itself, or a
backslash with the byte it takes along. -/
inductive Piece where
  | plain (byte : UInt8) (holds : byte ≠ 34 ∧ byte ≠ 92 ∧ byte ≠ 10)
  | escape (byte : UInt8)

namespace Piece

def text : Piece → Text
  | .plain byte _ => [byte]
  | .escape byte => [92, byte]

def meaning : Piece → Text
  | .plain byte _ => [byte]
  | .escape byte =>
    if byte = 110 then [10]
    else if byte = 116 then [9]
    else if byte = 114 then [13]
    else if byte = 34 ∨ byte = 92 then [byte]
    else [92, byte]

/-- The piece that is written for a byte. -/
def ofByte (byte : UInt8) : Piece :=
  if newline : byte = 10 then .escape 110
  else if byte = 9 then .escape 116
  else if byte = 13 then .escape 114
  else if special : byte = 34 ∨ byte = 92 then .escape byte
  else .plain byte ⟨fun quote => special (.inl quote), fun slash => special (.inr slash), newline⟩

theorem meaning_ofByte (byte : UInt8) : (ofByte byte).meaning = [byte] := by
  unfold ofByte
  split_ifs with newline tab feed special
  · rw [newline]; rfl
  · rw [tab]; rfl
  · rw [feed]; rfl
  · rcases special with rfl | rfl <;> rfl
  · rfl

/-- The lexer passes over a piece as a whole. -/
theorem stringLength_text (piece : Piece) (rest : Text) : stringLength (piece.text ++ rest) =
    ((stringLength rest).1 + piece.text.length, (stringLength rest).2) := by
  cases piece with
  | plain byte holds =>
    obtain ⟨notQuote, notSlash, notNewline⟩ := holds
    simp only [text, singleton_append]
    rw [stringLength.eq_4 _ _ (by simp_all) (by simp_all)]
    simp [notQuote, notNewline]
  | escape byte => rfl

theorem unescape_text (piece : Piece) (rest : Text) :
    unescape (piece.text ++ rest) = piece.meaning ++ unescape rest := by
  cases piece with
  | plain byte holds =>
    simp only [text, meaning, singleton_append]
    rw [unescape.eq_3 _ _ (by simp_all)]
  | escape byte =>
    simp only [text, meaning, cons_append, nil_append]
    rw [unescape.eq_2]
    split_ifs <;> simp_all

end Piece

section Pieces

open Piece

theorem stringLength_pieces (pieces : List Piece) (rest : Text) :
    stringLength (pieces.flatMap text ++ rest) =
      ((stringLength rest).1 + (pieces.flatMap text).length, (stringLength rest).2) := by
  induction pieces with
  | nil => rfl
  | cons piece others ih =>
    rw [flatMap_cons, append_assoc, stringLength_text, ih, length_append]
    exact Prod.ext (by dsimp only; omega) rfl

theorem unescape_pieces (pieces : List Piece) (rest : Text) :
    unescape (pieces.flatMap text ++ rest) = pieces.flatMap meaning ++ unescape rest := by
  induction pieces with
  | nil => rfl
  | cons piece others ih =>
    rw [flatMap_cons, append_assoc, unescape_text, ih, flatMap_cons,
      append_assoc]

/-- Up to its closing quote a literal is made of pieces. -/
theorem pieces_of_closed {input} {length : Nat}
    (closed : stringLength input = (length, .closed)) : ∃ (pieces : List Piece) (rest : Text),
      input = pieces.flatMap text ++ 34 :: rest ∧ length = (pieces.flatMap text).length + 1 := by
  fun_induction stringLength input generalizing length with
  | case1 => cases closed
  | case2 => cases closed
  | case3 byte rest inner ending isRest ih =>
    cases closed
    obtain ⟨pieces, after, rfl, rfl⟩ := ih isRest
    exact ⟨.escape byte :: pieces, after, rfl, rfl⟩
  | case4 byte rest notLast notPair quote =>
    cases closed
    exact ⟨[], rest, by rw [beq_iff_eq.mp quote]; rfl, rfl⟩
  | case5 => cases closed
  | case6 byte rest notLast notPair notQuote notNewline inner ending isRest ih =>
    cases closed
    obtain ⟨pieces, after, rfl, rfl⟩ := ih isRest
    refine ⟨.plain byte ⟨?_, ?_, ?_⟩ :: pieces, after, rfl, rfl⟩
    · simpa using notQuote
    · rintro rfl
      cases isRest : pieces.flatMap text ++ 34 :: after with
      | nil => exact notLast rfl isRest
      | cons other others => exact notPair other others rfl isRest
    · simpa using notNewline

/-- The text of pieces between quotes. -/
def inQuotes (pieces : List Piece) : Text := 34 :: (pieces.flatMap text ++ [34])

/-- The literal that is written for a text. -/
def quoted (content : Text) : Text := inQuotes (content.map ofByte)

/-- The pieces of a literal stand between its quotes; after any number of them both the lexer
and the reading of its value go on with the next one. -/
def InStep (literal : Text) : Prop :=
  ∃ pieces : List Piece, literal = inQuotes pieces ∧ unquote literal = pieces.flatMap meaning ∧
    ∀ before after, pieces = before ++ after →
      stringLength (pieces.flatMap text ++ [34]) =
        ((stringLength (after.flatMap text ++ [34])).1 + (before.flatMap text).length, .closed) ∧
      unescape (pieces.flatMap text) = before.flatMap meaning ++ unescape (after.flatMap text)

theorem unquote_inQuotes (pieces : List Piece) :
    unquote (inQuotes pieces) = pieces.flatMap meaning := by
  have isBody : body (inQuotes pieces) = pieces.flatMap text := by
    have last : (34 :: (pieces.flatMap text ++ [34])).getLast? = some 34 := by
      rw [← cons_append, getLast?_concat]
    simp [body, inQuotes, last]
  have isValue := unescape_pieces pieces []
  rw [append_nil, unescape, append_nil] at isValue
  rw [unquote, isBody, isValue]

theorem inStep_inQuotes (pieces : List Piece) : InStep (inQuotes pieces) := by
  refine ⟨pieces, rfl, unquote_inQuotes pieces, ?_⟩
  rintro before after rfl
  rw [flatMap_append, append_assoc, stringLength_pieces, unescape_pieces]
  exact ⟨by rw [stringLength_pieces after]; rfl, rfl⟩

theorem unquote_quoted (content : Text) : unquote (quoted content) = content := by
  rw [quoted, unquote_inQuotes, flatMap_map]
  simp [meaning_ofByte]

theorem scan_quoted (content rest : Text) :
    scan (quoted content ++ rest) = ⟨.string, (quoted content).length, none⟩ := by
  have isLength : stringLength ((quoted content).tail ++ rest) =
      ((quoted content).tail.length, .closed) := by
    rw [quoted, inQuotes, tail_cons, append_assoc, stringLength_pieces]
    simp [stringLength, Nat.add_comm]
  show scanString (34 :: ((quoted content).tail ++ rest)) = _
  rw [scanString, drop_one, tail_cons, isLength]
  rfl

theorem next_quoted {content} (file : FileId) (rest : Text)
    (fits : (quoted content).length ≤ 4096) : Lexer.next ⟨file, 0, quoted content ++ rest⟩ = (⟨{
      kind := .string, span := ⟨file, 0, (quoted content).length⟩, text := quoted content }, []⟩,
      some ⟨file, (quoted content).length, rest⟩) := by
  have noTrivia : triviaWithin (quoted content ++ rest).length ⟨file, 0, quoted content ++ rest⟩ =
      ([], [], ⟨file, 0, quoted content ++ rest⟩) := rfl
  have more : ¬ (quoted content ++ rest).isEmpty = true := nofun
  have short : ¬ (quoted content).length > longestToken := Nat.not_lt.mpr fits
  unfold Lexer.next
  simp only [noTrivia, scan_quoted]
  rw [if_neg more, if_neg short]
  simp [Cursor.span, Cursor.advance]

theorem scanString_inStep {rest} (isString : (scanString (34 :: rest)).kind = .string) :
    InStep ((34 :: rest).take (scanString (34 :: rest)).length) := by
  unfold scanString at isString ⊢
  rw [drop_one, tail_cons] at isString ⊢
  split at isString
  · rename_i length closed
    obtain ⟨pieces, after, isRest, rfl⟩ := pieces_of_closed closed
    have isLiteral :
        (34 :: rest).take ((pieces.flatMap text).length + 1 + 1) = inQuotes pieces := by
      rw [isRest, take_succ_cons, take_length_add_append]
      rfl
    rw [isLiteral]
    exact inStep_inQuotes pieces
  · cases isString
  · cases isString

/-- Every text is denoted by its escaped literal, which is read as one token; and every string
literal is cut into pieces in the same way by the lexer and by the reading of its value. -/
theorem strings_escaped (file : FileId) (content rest : Text)
    (fits : (quoted content).length ≤ 4096) :
    (∃ others, Lexer.lex file (quoted content ++ rest) = ⟨{
      kind := .string, span := ⟨file, 0, (quoted content).length⟩, text := quoted content }, []⟩ ::
        others) ∧ unquote (quoted content) = content ∧
      ∀ buffer, ∀ lexeme ∈ Lexer.lex file buffer, lexeme.token.kind = .string →
        InStep lexeme.token.text := by
  refine ⟨⟨_, by rw [Lexer.lex, lexWithin, next_quoted file rest fits]⟩, unquote_quoted content, ?_⟩
  intro buffer lexeme member isString
  obtain ⟨input, isKind, isText⟩ := lex_scanned member (isString ▸ nofun) (isString ▸ nofun)
  obtain ⟨_, rfl, isScan⟩ := scan_string (isKind.trans isString)
  rw [isScan] at isKind isText
  rw [isText]
  exact scanString_inStep (isKind.trans isString)

theorem strings_escaped_newline : (quoted [34, 92, 10, 255]).length ≤ 4096 ∧
    ∃ others, Lexer.lex 0 (quoted [34, 92, 10, 255] ++ [92, 34]) = ⟨{
      kind := .string, span := ⟨0, 0, 9⟩, text := quoted [34, 92, 10, 255] }, []⟩ :: others :=
  ⟨by decide, (strings_escaped 0 [34, 92, 10, 255] [92, 34] (by decide)).1⟩

end Pieces

end Literal

end FragmentCompiler
