import FragmentCompiler.Proofs.Lexing

/-!
# Tokens tile their buffer

Every byte of a buffer belongs to one token or to one piece between tokens, in order and
without a gap, as long as no token is too long.  Looking ahead changes nothing about the
tokens that are read.
-/

set_option autoImplicit false

namespace FragmentCompiler

open List Utf8

/-! ## Code points -/

theorem Utf8.decode_size (byte : UInt8) (rest : Text) :
    0 < (decode (byte :: rest)).2 ∧
      (decode (byte :: rest)).2 ≤ (byte :: rest).length := by
  unfold decode
  dsimp only
  repeat' split
  all_goals simp

theorem Utf8.decode_code {byte} (high : 0x80 ≤ byte) (rest : Text) :
    0x80 ≤ (decode (byte :: rest)).1 := by
  have lead : 128 ≤ byte.toNat := high
  have apart : ∀ other : UInt8, byte ≠ other → byte.toNat ≠ other.toNat :=
    fun other ne same => ne (UInt8.toNat_inj.mp same)
  have three := apart 0xE0
  have four := apart 0xF0
  clear apart
  unfold decode
  dsimp only
  rw [if_neg (UInt8.not_lt.mpr high)]
  repeat' split
  all_goals simp_all [replacement, continuationBits, UInt8.le_iff_toNat_le]
  all_goals omega

namespace Lexer

variable {input rest : Text} {byte : UInt8}

/-! ## Lengths of tokens -/

/-- A token takes at least one byte and no more than there are. -/
structure Scan.Fits (scanned : Scan) (input : Text) : Prop where
  positive : 0 < scanned.length
  within : scanned.length ≤ input.length

theorem nameLength_le (input : Text) : ∀ pending, nameLength pending input ≤ input.length := by
  induction input with
  | nil => exact fun _ => Nat.le_refl 0
  | cons byte rest ih =>
    intro pending
    cases pending with
    | succ more =>
      have := ih more
      simp only [nameLength, length_cons]
      omega
    | zero =>
      have := ih ((decode (byte :: rest)).2 - 1)
      simp only [nameLength, length_cons]
      split <;> omega

theorem isNamePart_first (starts : (isNameStart byte || 0x80 ≤ byte) = true)
    (letter : ¬ (0x80 ≤ (decode (byte :: rest)).1 &&
      !isLetter (decode (byte :: rest)).1) = true) :
    isNamePart (decode (byte :: rest)).1 = true := by
  by_cases high : 0x80 ≤ byte
  · have code := decode_code high rest
    simp [isNamePart, code] at letter ⊢
    simp [letter]
  · have low : byte < 0x80 := UInt8.not_le.mp high
    have code : (decode (byte :: rest)).1 = byte.toNat := by simp [decode, low]
    have below : byte.toNat < 0x80 := low
    rw [code]
    simp [isNameStart, high, UInt8.le_iff_toNat_le] at starts
    rcases starts with (rfl | upper) | lower
    · rfl
    · simp [isNamePart, isLetter, below, upper]
    · simp [isNamePart, isLetter, below, lower]

theorem scanName_fits (starts : (isNameStart byte || 0x80 ≤ byte) = true) :
    (scanName (byte :: rest)).Fits (byte :: rest) := by
  obtain ⟨positive, within⟩ := decode_size byte rest
  unfold scanName
  dsimp only
  split
  · exact ⟨positive, within⟩
  · rename_i letter
    have first := isNamePart_first starts letter
    have long : 0 < nameLength 0 (byte :: rest) := by
      rw [nameLength]
      simp only [first, if_true]
      omega
    split <;> exact ⟨long, nameLength_le _ 0⟩

theorem length_takeWhile (accept : UInt8 → Bool) (input : Text) :
    (input.takeWhile accept).length ≤ input.length :=
  (List.takeWhile_prefix accept).length_le

theorem length_digitRun (accept : UInt8 → Bool) (input : Text) :
    (digitRun accept input).length ≤ input.length := length_takeWhile ..

theorem fractionLength_le (input : Text) : fractionLength input ≤ input.length := by
  unfold fractionLength
  split
  · rename_i rest
    have := length_digitRun isDigit rest
    simp only [length_cons]
    omega
  · exact Nat.zero_le _

theorem exponentLength_le {hasDigits} {length : Nat}
    (found : exponentLength input = some (length, hasDigits)) : length ≤ input.length := by
  unfold exponentLength at found
  split at found
  · rename_i mark rest
    split at found
    · cases found
      generalize isSign : (rest.take 1).takeWhile (fun byte => byte == 43 || byte == 45) = sign
      have short : sign.length ≤ rest.length := by
        rw [← isSign]
        exact Nat.le_trans (length_takeWhile ..) (length_take_le' ..)
      have digits := length_digitRun isDigit (rest.drop sign.length)
      rw [length_drop] at digits
      simp only [length_cons]
      omega
    · cases found
  · cases found

theorem suffixLength_le (input : Text) : suffixLength input ≤ input.length := by
  unfold suffixLength
  split
  · split
    · exact length_takeWhile ..
    · exact Nat.zero_le _
  · exact Nat.zero_le _

theorem scanBased_fits (accept : UInt8 → Bool) (message : Text)
    (marked : 2 ≤ input.length) : (scanBased accept message input).Fits input := by
  have digits := length_digitRun accept (input.drop 2)
  rw [length_drop] at digits
  unfold scanBased
  dsimp only
  split
  · exact ⟨by dsimp only; omega, by dsimp only; omega⟩
  · exact ⟨by dsimp only [Scan.bad]; omega, by dsimp only [Scan.bad]; omega⟩

theorem scanDecimal_fits (starts : 0 < (digitRun isDigit input).length +
      fractionLength (input.drop (digitRun isDigit input).length)) :
    (scanDecimal input).Fits input := by
  have whole := length_digitRun isDigit input
  have fraction := fractionLength_le (input.drop (digitRun isDigit input).length)
  rw [length_drop] at fraction
  unfold scanDecimal
  dsimp only
  have room : (digitRun isDigit input).length +
      fractionLength (input.drop (digitRun isDigit input).length) ≤ input.length := by omega
  generalize (digitRun isDigit input).length +
    fractionLength (input.drop (digitRun isDigit input).length) = mantissa at *
  split
  · rename_i length found
    have exponent := exponentLength_le found
    rw [length_drop] at exponent
    exact ⟨by dsimp only [Scan.bad]; omega, by dsimp only [Scan.bad]; omega⟩
  · have exponent : ((exponentLength (input.drop mantissa)).map (·.1)).getD 0 ≤
        input.length - mantissa := by
      cases found : exponentLength (input.drop mantissa) with
      | none => exact Nat.zero_le _
      | some pair =>
        have := exponentLength_le found
        rwa [length_drop] at this
    have suffix := suffixLength_le (input.drop
      (mantissa + ((exponentLength (input.drop mantissa)).map (·.1)).getD 0))
    rw [length_drop] at suffix
    split
    · exact ⟨by dsimp only; omega, by dsimp only; omega⟩
    · exact ⟨by dsimp only [Scan.bad]; omega, by dsimp only [Scan.bad]; omega⟩

theorem scanNumber_fits (starts : isDigit byte = true ∨ byte = 46) :
    (scanNumber (byte :: rest)).Fits (byte :: rest) := by
  have decimal : (scanDecimal (byte :: rest)).Fits (byte :: rest) := by
    apply scanDecimal_fits
    rcases starts with digit | rfl
    · simp only [digitRun, digit, Bool.true_or, takeWhile_cons, if_true, length_cons]
      omega
    · have none_before : digitRun isDigit (46 :: rest) = [] := rfl
      rw [none_before]
      simp only [length_nil, drop_zero, fractionLength]
      omega
  unfold scanNumber
  split
  · rename_i mark others same
    have marked : 2 ≤ (byte :: rest).length := by simp [same]
    split
    · exact scanBased_fits _ _ marked
    · split
      · exact scanBased_fits _ _ marked
      · exact decimal
  · exact decimal

theorem stringLength_le (input : Text) : (stringLength input).1 ≤ input.length := by
  fun_induction stringLength input with
  | case1 => exact Nat.zero_le _
  | case2 => exact Nat.le_refl _
  | case3 byte rest length ending isRest ih =>
    rw [isRest] at ih
    simp only [length_cons]
    omega
  | case4 byte rest => simp
  | case5 byte rest => exact Nat.zero_le _
  | case6 byte rest =>
    rename_i isRest ih
    rw [isRest] at ih
    simp only [length_cons]
    omega

theorem scanString_fits (rest : Text) : (scanString (34 :: rest)).Fits (34 :: rest) := by
  have long := stringLength_le rest
  unfold scanString
  rw [drop_one, tail_cons]
  split <;> rename_i length isLength <;> rw [isLength] at long
  · exact ⟨by simp, by simpa using long⟩
  · exact ⟨by simp [Scan.bad], by simpa [Scan.bad] using long⟩
  · exact ⟨by simp [Scan.bad], by simpa [Scan.bad] using long⟩

theorem scanSymbol_fits (byte : UInt8) (rest : Text) :
    (scanSymbol (byte :: rest)).Fits (byte :: rest) := by
  unfold scanSymbol
  dsimp only
  split
  · rename_i mark isLong
    have more : 0 < rest.length := by
      cases rest with
      | nil => cases isLong
      | cons => simp
    exact ⟨by simp, by simp only [length_cons]; omega⟩
  · split
    · exact ⟨by simp, by simp⟩
    · exact ⟨by simp [Scan.bad], by simp [Scan.bad]⟩

theorem scan_fits (more : input ≠ []) : (scan input).Fits input := by
  cases input with
  | nil => exact absurd rfl more
  | cons byte rest =>
    unfold scan
    dsimp only
    split
    · exact scanName_fits (by assumption)
    split
    · exact scanNumber_fits (.inl (by assumption))
    split
    · rename_i dot
      rw [Bool.and_eq_true, beq_iff_eq] at dot
      exact scanNumber_fits (.inr dot.1)
    split
    · rename_i quote
      rw [beq_iff_eq] at quote
      rw [quote]
      exact scanString_fits rest
    split
    · rename_i hash
      rw [beq_iff_eq] at hash
      exact ⟨by simp [lineLength, hash], length_takeWhile ..⟩
    · exact scanSymbol_fits byte rest

theorem blockCommentLength_le (input : Text) : (blockCommentLength input).1 ≤ input.length := by
  fun_induction blockCommentLength input with
  | case1 => exact Nat.zero_le _
  | case2 => simp
  | case3 byte rest =>
    rename_i isRest ih
    rw [isRest] at ih
    simp only [length_cons]
    omega

theorem scanTrivia?_length {kind complete} {length : Nat}
    (found : scanTrivia? input = some (kind, length, complete)) :
    0 < length ∧ length ≤ input.length := by
  unfold scanTrivia? at found
  split at found
  · cases found
  · rename_i byte rest
    split at found
    · rename_i space
      cases found
      exact ⟨by simp [space], length_takeWhile ..⟩
    split at found
    · rename_i newline
      cases found
      exact ⟨by simp [beq_iff_eq.mp newline], length_takeWhile ..⟩
    split at found
    · cases found
      exact ⟨by simp [lineLength], length_takeWhile ..⟩
    · rename_i body _ _
      cases found
      have := blockCommentLength_le body
      exact ⟨by omega, by simp only [length_cons]; omega⟩
    · cases found

/-! ## Pieces of a buffer -/

def leadingPieces (lexeme : Lexeme) : List (Span × Text) :=
  lexeme.token.leading.map fun trivia => (trivia.span, trivia.text)

def pieces (lexeme : Lexeme) : List (Span × Text) :=
  leadingPieces lexeme ++ [(lexeme.token.span, lexeme.token.text)]

/-- Pieces follow each other from one place of a buffer to another, and each holds what the
buffer has there. -/
def Tiles (file : FileId) (content : Text) : Nat → List (Span × Text) → Nat → Prop
  | start, [], stop => start = stop
  | start, (span, text) :: rest, stop =>
    span.file = file ∧ span.start = start ∧ start ≤ span.stop ∧
      text = (content.drop start).take (span.stop - start) ∧
      Tiles file content span.stop rest stop

def Lexeme.TooLong (lexeme : Lexeme) : Prop :=
  ∃ fault ∈ lexeme.faults, fault.code = Code.tokenTooLong

/-- A cursor stands in a buffer, with the rest of it ahead. -/
structure Cursor.In (cursor : Cursor) (file : FileId) (content : Text) : Prop where
  file : cursor.file = file
  offset : cursor.offset ≤ content.length
  rest : cursor.rest = content.drop cursor.offset

section Pieces

variable {file : FileId} {content : Text} {cursor : Cursor}

theorem Tiles.append {middle second stop first} (right : Tiles file content middle second stop) : ∀
    {start : Nat},
      Tiles file content start first middle → Tiles file content start (first ++ second) stop := by
  induction first with
  | nil =>
    rintro start rfl
    exact right
  | cons piece rest ih =>
    rintro start ⟨isFile, isStart, forward, holds, later⟩
    exact ⟨isFile, isStart, forward, holds, ih later⟩

theorem Cursor.In.length (inside : cursor.In file content) :
    cursor.offset + cursor.rest.length = content.length := by
  have := inside.offset
  rw [inside.rest, length_drop]
  omega

theorem Cursor.In.advance (inside : cursor.In file content) {length : Nat}
    (fits : length ≤ cursor.rest.length) : (cursor.advance length).In file content where
  file := inside.file
  offset := by
    have := inside.length
    dsimp only [Cursor.advance]
    omega
  rest := by
    dsimp only [Cursor.advance]
    rw [inside.rest, drop_drop]

theorem Cursor.In.tiles {stop} (inside : cursor.In file content) (length : Nat)
    {rest : List (Span × Text)} (later : Tiles file content (cursor.offset + length) rest stop) :
    Tiles file content cursor.offset ((cursor.span length, cursor.rest.take length) :: rest)
      stop := by
  refine ⟨inside.file, rfl, Nat.le_add_right _ _, ?_, later⟩
  dsimp only [Cursor.span]
  rw [inside.rest, Nat.add_sub_cancel_left]

theorem triviaWithin_tiles (fuel : Nat) : ∀ {cursor : Cursor}, cursor.In file content →
    let found := triviaWithin fuel cursor
    found.2.2.In file content ∧ found.2.2.rest.length ≤ cursor.rest.length ∧
      Tiles file content cursor.offset
        (found.1.map fun trivia => (trivia.span, trivia.text)) found.2.2.offset ∧
      ∀ fault ∈ found.2.1, fault.code ≠ .tokenTooLong := by
  induction fuel with
  | zero => exact fun inside => ⟨inside, Nat.le_refl _, rfl, forall_mem_nil _⟩
  | succ fuel ih =>
    intro cursor inside
    unfold triviaWithin
    cases found : scanTrivia? cursor.rest with
    | none => exact ⟨inside, Nat.le_refl _, rfl, forall_mem_nil _⟩
    | some piece =>
      obtain ⟨kind, length, complete⟩ := piece
      obtain ⟨_, fits⟩ := scanTrivia?_length found
      obtain ⟨stops, shorter, tiles, faults⟩ := ih (inside.advance fits)
      refine ⟨stops, Nat.le_trans shorter ?_, inside.tiles length tiles, ?_⟩
      · simp [Cursor.advance]
      · intro fault member
        rcases mem_append.mp member with own | later
        · split at own
          · cases own
          · rw [mem_singleton.mp own]
            show Code.unterminatedComment ≠ Code.tokenTooLong
            decide
        · exact faults fault later

/-- What reading one token gives. -/
inductive Reads (file : FileId) (content : Text) (cursor : Cursor) : Lexeme → Option Cursor → Prop
  | finished {lexeme} (kind : lexeme.token.kind = .endOfInput)
      (span : lexeme.token.span = ⟨file, content.length, content.length⟩)
      (tiles : Tiles file content cursor.offset (pieces lexeme) content.length)
      (fine : ¬ lexeme.TooLong) : Reads file content cursor lexeme none
  | token {lexeme : Lexeme} {after : Cursor} (inside : after.In file content)
      (shorter : after.rest.length < cursor.rest.length)
      (kind : lexeme.token.kind ≠ .endOfInput)
      (positive : lexeme.token.span.start < lexeme.token.span.stop)
      (tiles : Tiles file content cursor.offset (pieces lexeme) after.offset)
      (fine : ¬ lexeme.TooLong) : Reads file content cursor lexeme (some after)
  | tooLong {lexeme : Lexeme} {after : Cursor} (inside : after.In file content)
      (ends : after.rest = []) (kind : lexeme.token.kind = .invalid)
      (long : lexeme.token.span.start + longestToken < lexeme.token.span.stop)
      (within : lexeme.token.span.stop ≤ content.length)
      (tiles : Tiles file content cursor.offset (leadingPieces lexeme) lexeme.token.span.start)
      (isTooLong : lexeme.TooLong) : Reads file content cursor lexeme (some after)

theorem next_reads (inside : cursor.In file content) :
    Reads file content cursor (next cursor).1 (next cursor).2 := by
  obtain ⟨stops, shorter, tiles, early⟩ := triviaWithin_tiles cursor.rest.length inside
  unfold next
  generalize triviaWithin cursor.rest.length cursor = found at *
  obtain ⟨leading, faults, start⟩ := found
  dsimp only at stops shorter tiles early ⊢
  have total := stops.length
  split
  · rename_i isEnd
    have nothing : start.rest = [] := List.isEmpty_iff.mp isEnd
    have atEnd : start.offset = content.length := by simpa [nothing] using total
    have span : start.span 0 = ⟨file, content.length, content.length⟩ := by
      simp [Cursor.span, stops.file, atEnd]
    refine .finished rfl span ?_ (fun ⟨fault, member, isLong⟩ => early fault member isLong)
    refine .append ?_ tiles
    have here : Tiles file content start.offset [(start.span 0, start.rest.take 0)]
        content.length := stops.tiles 0 atEnd
    exact here
  · rename_i notEnd
    have more : start.rest ≠ [] := fun nothing => notEnd (by simp [nothing])
    have fits := scan_fits more
    have sane := scan_sane start.rest
    split
    · rename_i long
      refine .tooLong (stops.advance (Nat.le_refl _)) (by simp [Cursor.advance]) rfl ?_ ?_ tiles ?_
      · exact Nat.add_lt_add_left long _
      · have := fits.within
        dsimp only [Cursor.span]
        omega
      · exact ⟨_, mem_append_right _ (mem_singleton_self _), rfl⟩
    · have here : Tiles file content start.offset
          [(start.span (scan start.rest).length, start.rest.take (scan start.rest).length)]
          (start.offset + (scan start.rest).length) := stops.tiles _ rfl
      refine .token (stops.advance fits.within) ?_ ?_ ?_ (here.append tiles) ?_
      · have := fits.positive
        have := fits.within
        simp only [Cursor.advance, length_drop]
        omega
      · generalize scan start.rest = scanned at sane
        cases sane with
        | token _ holds => exact holds.2
        | bad => exact nofun
      · exact Nat.lt_add_of_pos_right fits.positive
      · rintro ⟨fault, member, isLong⟩
        rcases mem_append.mp member with inEarly | inOwn
        · exact early fault inEarly isLong
        · exact (scan_faults _ _ fault inOwn).2 isLong

theorem next_end (nothing : cursor.rest = []) :
    next cursor = (⟨{ kind := .endOfInput, span := cursor.span 0 }, []⟩, none) := by
  simp [next, nothing, triviaWithin]

/-- A buffer was read from a place on: in tokens that are not empty, and then its end.  Either
they tile it, or they do up to a token that is too long and the last one. -/
structure Covers (file : FileId) (content : Text) (start : Nat) (tokens : List Lexeme)
    (last : Lexeme) : Prop where
  each : ∀ lexeme ∈ tokens, lexeme.token.kind ≠ .endOfInput ∧
    lexeme.token.span.start < lexeme.token.span.stop
  kind : last.token.kind = .endOfInput
  span : last.token.span = ⟨file, content.length, content.length⟩
  tiles : (∀ lexeme ∈ tokens ++ [last], ¬ lexeme.TooLong) ∧
      Tiles file content start ((tokens ++ [last]).flatMap pieces) content.length ∨
    ∃ (before : List Lexeme) (long : Lexeme), tokens = before ++ [long] ∧ long.TooLong ∧
      (∀ lexeme ∈ before ++ [last], ¬ lexeme.TooLong) ∧ long.token.kind = .invalid ∧
      long.token.span.start + 4096 < long.token.span.stop ∧
      long.token.span.stop ≤ content.length ∧
      Tiles file content start (before.flatMap pieces ++ leadingPieces long) long.token.span.start

theorem lexWithin_covers (fuel : Nat) : ∀ {cursor : Cursor}, cursor.In file content →
    cursor.rest.length < fuel → ∃ tokens last, lexWithin fuel cursor = tokens ++ [last] ∧
      Covers file content cursor.offset tokens last := by
  induction fuel with
  | zero => exact fun _ never => absurd never (Nat.not_lt_zero _)
  | succ fuel ih =>
    intro cursor inside enough
    have reads := next_reads inside
    unfold lexWithin
    rcases isNext : next cursor with ⟨lexeme, rest⟩
    rw [isNext] at reads
    dsimp only at reads
    cases reads with
    | finished kind span tiles fine =>
      refine ⟨[], lexeme, rfl, forall_mem_nil _, kind, span, .inl ⟨?_, ?_⟩⟩
      · simpa using fine
      · simpa using tiles
    | @token after inside' shorter kind positive tiles fine =>
      obtain ⟨tokens, last, isRest, covers⟩ := ih inside' (by omega)
      refine ⟨lexeme :: tokens, last, by simp [isRest], ?_, covers.kind, covers.span, ?_⟩
      · exact forall_mem_cons.mpr ⟨⟨kind, positive⟩, covers.each⟩
      · rcases covers.tiles with ⟨fines, later⟩ |
          ⟨before, long, isBefore, isLong, fines, isInvalid, exceeds, within, later⟩
        · exact .inl ⟨forall_mem_cons.mpr ⟨fine, fines⟩, later.append tiles⟩
        · refine .inr ⟨lexeme :: before, long, by simp [isBefore], isLong,
            forall_mem_cons.mpr ⟨fine, fines⟩, isInvalid, exceeds, within, ?_⟩
          rw [flatMap_cons, append_assoc]
          exact later.append tiles
    | @tooLong after inside' ends kind long within tiles isTooLong =>
      have atEnd : after.offset = content.length := by simpa [ends] using inside'.length
      have more : cursor.rest ≠ [] := by
        intro nothing
        rw [next_end nothing] at isNext
        cases isNext
      obtain ⟨steps, rfl⟩ : ∃ steps, fuel = steps + 1 := by
        have := length_pos_iff.mpr more
        exact Nat.exists_eq_add_one.mpr (by omega)
      refine ⟨[lexeme], ⟨{ kind := .endOfInput, span := after.span 0 }, []⟩, ?_, ?_, rfl, ?_,
        .inr ⟨[], lexeme, rfl, isTooLong, ?_, kind, long, within, tiles⟩⟩
      · simp only [lexWithin, next_end ends]
        rfl
      · simp only [mem_singleton]
        rintro _ rfl
        exact ⟨by simp [kind], by omega⟩
      · simp [Cursor.span, inside'.file, atEnd]
      · simp [Lexeme.TooLong]

end Pieces

/-! ## Looking ahead -/

/-- What may be asked of a lexer. -/
inductive Look where
  | peek
  | next
  deriving DecidableEq, Repr

namespace Scanner

/-- The tokens that are read while the lexer is asked. -/
def answers (scanner : Scanner) : List Look → List Lexeme
  | [] => []
  | .peek :: rest => scanner.peek.2.answers rest
  | .next :: rest => scanner.next.1 :: scanner.next.2.answers rest

theorem next_peek (scanner : Scanner) : scanner.peek.2.next = scanner.next := by
  rcases scanner with ⟨cursor, ahead⟩
  cases ahead <;> rfl

theorem answers_peek {looks} (scanner : Scanner) (reads : ∀ look ∈ looks, look = .next) :
    scanner.peek.2.answers looks = scanner.answers looks := by
  cases looks with
  | nil => rfl
  | cons look rest =>
    rw [reads look (mem_cons_self ..)]
    simp only [answers, next_peek]

theorem answers_filter (looks : List Look) : ∀ scanner : Scanner,
    scanner.answers looks = scanner.answers (looks.filter (· = .next)) := by
  induction looks with
  | nil => exact fun _ => rfl
  | cons look rest ih =>
    intro scanner
    cases look with
    | peek =>
      have onlyNext : ∀ look ∈ rest.filter (· = .next), look = .next := by simp
      exact (ih _).trans (scanner.answers_peek onlyNext)
    | next => exact congrArg (scanner.next.1 :: ·) (ih _)

theorem answers_lexWithin (fuel : Nat) : ∀ cursor : Cursor,
    ({ cursor } : Scanner).answers (List.replicate (lexWithin fuel cursor).length .next) =
      lexWithin fuel cursor := by
  induction fuel with
  | zero => exact fun _ => rfl
  | succ fuel ih =>
    intro cursor
    unfold lexWithin
    split
    · rename_i lexeme isNext
      simp [answers, next, isNext]
    · rename_i lexeme rest isNext
      simpa [answers, next, isNext, replicate_succ] using ih rest

end Scanner

/-- Whatever is asked of a lexer, looking ahead does not change what is read, and what is read
up to the end of the input covers the buffer. -/
theorem tokens_tile (file : FileId) (content : Text) (looks : List Look) :
    let scanner := Scanner.ofText file content
    scanner.answers looks = scanner.answers (looks.filter (· = .next)) ∧
      ∃ tokens last, Covers file content 0 tokens last ∧
        scanner.answers (List.replicate (tokens.length + 1) .next) = tokens ++ [last] ∧
        lex file content = tokens ++ [last] := by
  intro scanner
  have inside : Cursor.In ⟨file, 0, content⟩ file content := ⟨rfl, Nat.zero_le _, rfl⟩
  obtain ⟨tokens, last, isLexed, covers⟩ :=
    lexWithin_covers (content.length + 1) inside (Nat.lt_succ_self _)
  refine ⟨scanner.answers_filter looks, tokens, last, covers, ?_, isLexed⟩
  have reads := Scanner.answers_lexWithin (content.length + 1) ⟨file, 0, content⟩
  rw [isLexed, List.length_append, List.length_singleton] at reads
  exact reads

end Lexer

end FragmentCompiler
