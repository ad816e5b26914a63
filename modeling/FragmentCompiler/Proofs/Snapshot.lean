import FragmentCompiler.Snapshot.Basic
import Mathlib.Algebra.Group.Nat.Defs
import Mathlib.Tactic.SplitIfs

/-!
# Snapshots

What is written as a snapshot is read again: the wire form gives back the payload, and the
digest of the entries, which frames each text by its length, gives away every other list of
entries.
-/

set_option autoImplicit false

namespace FragmentCompiler

open List

namespace Wire

variable {α β : Type} {field : Text → α → Option (Decode α)} {entries : List ArchivedDecl}

/-! ## Reading what was written -/

/-- Reading takes this text from the front, whatever follows it. -/
def Yields (read : Decode α) (text : Text) (result : α) : Prop :=
  ∀ rest, read (text ++ rest) = some (result, rest)

theorem Yields.bind {front first back last} {read : Decode α} {next : α → Decode β}
    (left : Yields read front first) (right : Yields (next first) back last) :
    Yields (read >>= next) (front ++ back) last := by
  intro rest
  rw [append_assoc]
  exact (congrArg (Option.bind · _) (left _)).trans (right rest)

theorem Yields.map {text result} {read : Decode α} (change : α → β)
    (yields : Yields read text result) : Yields (change <$> read) text (change result) :=
  fun rest => congrArg (Option.bind · _) (yields rest)

theorem yields_byte (first : UInt8) : Yields byte [first] first := fun _ => rfl

theorem yields_bytes (text : Text) : Yields (bytes text.length) text text := fun rest => by
  simp [bytes]

theorem length_bigEndian (count number : Nat) : (bigEndian count number).length = count := by
  induction count with
  | zero => rfl
  | succ count ih => rw [bigEndian, length_cons, ih]

theorem foldl_bigEndian (count written total : Nat) :
    (bigEndian count written).foldl (fun total digit => total * 256 + digit.toNat) total =
      total * 256 ^ count + written % 256 ^ count := by
  induction count generalizing total with
  | zero => simp [bigEndian, Nat.mod_one]
  | succ count ih =>
    have digit : (written / Nat.pow 256 count % 256).toUInt8.toNat = written / 256 ^ count % 256 :=
      Nat.mod_mod _ _
    rw [bigEndian, foldl_cons, ih, digit, Nat.pow_succ, Nat.mod_mul, Nat.add_mul,
      Nat.mul_assoc, Nat.mul_comm 256, Nat.add_assoc, Nat.mul_comm (written / _ % _),
      Nat.add_comm (_ * (_ % _))]

theorem yields_number {count written : Nat} (small : written < 256 ^ count) :
    Yields (number count) (bigEndian count written) written := by
  have read := (yields_bytes (bigEndian count written)).map value
  have isWritten : value (bigEndian count written) = written := by
    rw [value, foldl_bigEndian, Nat.zero_mul, Nat.zero_add, Nat.mod_eq_of_lt small]
  rwa [isWritten, length_bigEndian] at read

theorem yields_short {first inline size : Nat} (wide : List (Nat × Nat)) (short : size < inline)
    (low : first + inline ≤ 0xC0) :
    Yields (byte >>= length first inline wide) [(first + size).toUInt8] (some size) := by
  have isNat : (first + size).toUInt8.toNat = first + size :=
    Nat.mod_eq_of_lt (Nat.lt_of_lt_of_le (Nat.add_lt_add_left short first) (by omega))
  have present : (first + size).toUInt8 ≠ 0xC0 := fun same => by
    have known : first + size = 0xC0 := isNat.symm.trans (congrArg UInt8.toNat same)
    omega
  refine (yields_byte _).bind (fun rest => ?_ : Yields _ [] _)
  unfold length
  rw [if_neg present, isNat, if_pos (by simp; omega), Nat.add_sub_cancel_left]
  rfl

theorem yields_long {code wide} {first inline width size : Nat} (present : code ≠ 0xC0)
    (long : (first ≤ code.toNat && code.toNat < first + inline) = false)
    (known : wide.lookup code.toNat = some width) (small : size < 256 ^ width) :
    Yields (byte >>= length first inline wide) (code :: bigEndian width size) (some size) := by
  refine (yields_byte code).bind ?_
  unfold length
  rw [if_neg present, long, known]
  exact (yields_number small).map some

theorem yields_stringHeader {size} (small : size < 256 ^ 4) :
    Yields (byte >>= textLength) (stringHeader size) (some size) := by
  unfold stringHeader
  split
  · rename_i short
    exact yields_short _ short (by decide)
  · split
    · rename_i short
      exact yields_long (by decide) (by decide) rfl short
    · split
      · rename_i short
        exact yields_long (by decide) (by decide) rfl short
      · exact yields_long (by decide) (by decide) rfl small

theorem yields_arrayHeader {size} (small : size < 256 ^ 4) :
    Yields (byte >>= arrayLength) (arrayHeader size) (some size) := by
  unfold arrayHeader
  split
  · rename_i short
    exact yields_short _ short (by decide)
  · split
    · rename_i short
      exact yields_long (by decide) (by decide) rfl short
    · exact yields_long (by decide) (by decide) rfl small

theorem Yields.after {first front result back last} {next : α → Decode β}
    (left : Yields (byte >>= first) front result) (right : Yields (next result) back last) :
    Yields (byte >>= fun code => first code >>= next) (front ++ back) last := by
  rw [← bind_assoc]
  exact left.bind right

theorem yields_string {text} (small : text.length < 256 ^ 4) :
    Yields readString (string text) text :=
  (yields_stringHeader small).after (yields_bytes text)

/-! ## Fields -/

/-- So many fields were written, each over the value read so far. -/
structure Fields (field : Text → α → Option (Decode α)) (count : Nat) (old : α) (text : Text)
    (result : α) : Prop where
  room : count ≤ text.length
  yields : ∀ fuel, count ≤ fuel → Yields (fieldsWithin field fuel count old) text result

theorem Fields.nil (old : α) : Fields field 0 old [] old :=
  ⟨Nat.le_refl 0, fun fuel _ rest => by cases fuel <;> rfl⟩

theorem Fields.cons {old text part more last} {count : Nat} {read : Decode β} {change : β → α}
    (name : Text)
    (small : name.length < 256 ^ 4) (known : field name old = some do return change (← read))
    (yields : Yields read text part) (others : Fields field count (change part) more last) :
    Fields field (count + 1) old (string name ++ (text ++ more)) last := by
  refine ⟨?_, fun fuel enough => ?_⟩
  · have header : 1 ≤ (string name).length := by
      unfold string stringHeader
      split_ifs <;> simp
    have room := others.room
    simp only [length_append]
    omega
  · obtain ⟨fuel, rfl⟩ := Nat.exists_eq_add_of_lt (Nat.lt_of_lt_of_le (Nat.succ_pos _) enough)
    rw [Nat.zero_add] at enough ⊢
    rw [fieldsWithin]
    refine (yields_string small).bind ?_
    rw [known]
    exact (yields.map change).bind (others.yields fuel (Nat.le_of_succ_le_succ enough))

/-- A record that is written as a map of few fields. -/
theorem Fields.whole {old text result zero} {count : Nat}
    (fields : Fields field count old text result) (short : count < 16) (names : List Text) :
    Yields (record names field zero old) ((0x80 + count).toUInt8 :: text) result := by
  intro rest
  have header : mapLength (0x80 + count).toUInt8 (text ++ rest) = some (some count, text ++ rest) :=
    yields_short [(0xDE, 2), (0xDF, 4)] short (by decide : 0x80 + 16 ≤ 0xC0) (text ++ rest)
  have read := fields.yields ((text ++ rest).length + 1)
    (Nat.le_trans fields.room (by simp only [length_append]; omega)) rest
  rw [← read]
  rw [record, cons_append]
  dsimp only [bind, StateT.bind, byte, MonadState.get, getThe, MonadStateOf.get, StateT.get, pure,
    Option.bind]
  rw [header]
  rfl

/-! ## The payload -/

theorem yields_entry {decl} (old : ArchivedDecl) (kind : decl.kind.length < 256 ^ 4)
    (name : decl.name.length < 256 ^ 4) (source : decl.source.length < 256 ^ 4) :
    Yields (readEntry old) (entry decl) decl := by
  have isText : entry decl = (0x80 + 3 : Nat).toUInt8 :: (string "kind" ++ (string decl.kind ++
      (string "name" ++ (string decl.name ++ (string "source" ++ (string decl.source ++ [])))))) := by
    simp [entry]
  unfold readEntry
  rw [isText]
  refine Fields.whole ?_ (by decide) _
  exact .cons "kind" (by decide) rfl (yields_string kind) <|
    .cons "name" (by decide) rfl (yields_string name) <|
    .cons "source" (by decide) rfl (yields_string source) (.nil _)

/-- The lengths that the wire form can tell. -/
structure Fits (payload : Payload) : Prop where
  tool : payload.tool.length < 256 ^ 4
  count : payload.decls.length < 256 ^ 4
  kind : ∀ decl ∈ payload.decls, decl.kind.length < 256 ^ 4
  name : ∀ decl ∈ payload.decls, decl.name.length < 256 ^ 4
  source : ∀ decl ∈ payload.decls, decl.source.length < 256 ^ 4

theorem yields_entries (entries : List ArchivedDecl)
    (each : ∀ decl ∈ entries, ∀ old, Yields (readEntry old) (entry decl) decl) :
    ∀ fuel old, entries.length ≤ fuel →
      Yields (entriesWithin fuel entries.length old) (entries.flatMap entry) entries := by
  induction entries with
  | nil => exact fun fuel _ _ _ => by cases fuel <;> rfl
  | cons decl rest ih =>
    intro fuel old enough
    obtain ⟨fuel, rfl⟩ := Nat.exists_eq_add_of_lt (Nat.lt_of_lt_of_le (Nat.succ_pos _) enough)
    rw [Nat.zero_add, length_cons, flatMap_cons, entriesWithin]
    refine (each decl mem_cons_self _).bind (.map (decl :: ·) ?_)
    exact ih (fun other member => each other (mem_cons_of_mem _ member)) _ _
      (by rw [length_cons] at enough; omega)

theorem yields_readEntries (old : List ArchivedDecl) (count : entries.length < 256 ^ 4)
    (each : ∀ decl ∈ entries, ∀ old, Yields (readEntry old) (entry decl) decl) :
    Yields (readEntries old) (arrayHeader entries.length ++ entries.flatMap entry) entries := by
  refine (yields_arrayHeader count).after fun rest => ?_
  have room : entries.length ≤ (entries.flatMap entry ++ rest).length + 1 := by
    clear count each
    induction entries with
    | nil => exact Nat.zero_le _
    | cons decl others ih =>
      simp only [flatMap_cons, entry, length_cons, length_append] at ih ⊢
      omega
  exact yields_entries entries each _ old room rest

theorem yields_readSchema {schema : Nat} (small : schema < 65536) :
    Yields readSchema (0xCD :: bigEndian 2 schema) schema := by
  have read := (yields_number (show schema < 256 ^ 2 from small)).map (· % 65536)
  rw [Nat.mod_eq_of_lt small] at read
  exact (yields_byte 0xCD).bind read

theorem yields_readDigest {digest old : Text} (small : digest.length < 256)
    (size : digest.length = old.length) :
    Yields (readDigest old) (0xC4 :: bigEndian 1 digest.length ++ digest) digest := by
  refine (yields_long (by decide) (by decide) rfl small : Yields (byte >>= textLength) _ _).after ?_
  have read := (yields_bytes digest).map (· ++ old.drop digest.length)
  simp only [size, drop_length, append_nil] at read
  simp only [size, drop_length, append_nil, Nat.lt_irrefl, if_false]
  exact read

theorem decode_encode {payload} (fits : Fits payload) (schema : payload.schema < 65536)
    (digest : payload.digest.length = 32) : decode (encode payload) = some payload := by
  have isText : encode payload = (0x80 + 4 : Nat).toUInt8 :: (string "schema" ++
      ((0xCD :: bigEndian 2 payload.schema) ++ (string "tool" ++ (string payload.tool ++
        (string "decls" ++ ((arrayHeader payload.decls.length ++ payload.decls.flatMap entry) ++
          (string "digest" ++ ((0xC4 :: bigEndian 1 payload.digest.length ++ payload.digest) ++
            [])))))))) := by
    simp [encode]
  have read : Yields readPayload (encode payload) payload := by
    unfold readPayload
    rw [isText]
    refine Fields.whole ?_ (by decide) _
    exact .cons "schema" (by decide) rfl (yields_readSchema schema) <|
      .cons "tool" (by decide) rfl (yields_string fits.tool) <|
      .cons "decls" (by decide) rfl (yields_readEntries [] fits.count fun decl member old =>
        yields_entry old (fits.kind decl member) (fits.name decl member) (fits.source decl member)) <|
      .cons "digest" (by decide) rfl (yields_readDigest (by omega) digest) (.nil _)
  have whole := read []
  rw [append_nil] at whole
  exact congrArg (Option.map Prod.fst) whole

end Wire

/-! ## The digest -/

namespace Text

theorem digit_of_mem {number digit} (member : digit ∈ Nat.toDigits 10 number) :
    digit.toNat < 58 := by
  have isDigit := Nat.isDigit_of_mem_toDigits (by decide) (by decide) member
  simp [Char.isDigit, UInt32.le_iff_toNat_le] at isDigit
  exact Nat.lt_succ_of_le isDigit.2

theorem colon_notMem_decimal (number : Nat) : 58 ∉ decimal number := by
  intro member
  obtain ⟨digit, isDigit, isColon⟩ := mem_map.mp member
  have small := digit_of_mem isDigit
  have value : digit.toNat % 256 = 58 := congrArg UInt8.toNat isColon
  omega

theorem decimal_injective {left right} (same : decimal left = decimal right) :
    left = right := by
  have digits : ∀ number, (decimal number).map (fun byte => Char.ofNat byte.toNat) =
      Nat.toDigits 10 number := by
    intro number
    rw [decimal, map_map]
    refine (map_congr_left fun digit member => ?_).trans (map_id _)
    have isByte : digit.toNat.toUInt8.toNat = digit.toNat :=
      Nat.mod_eq_of_lt (Nat.lt_trans (digit_of_mem member) (by decide))
    exact (congrArg Char.ofNat isByte).trans (Char.ofNat_toNat digit)
  have sameDigits := (digits left).symm.trans ((congrArg _ same).trans (digits right))
  rw [← @Nat.ofDigitChars_ten_toDigits left, sameDigits, Nat.ofDigitChars_ten_toDigits]

end Text

namespace Snapshot

variable {entries : List ArchivedDecl}

theorem framed_append (text more : Text) :
    framed text ++ more = Text.decimal text.length ++ 58 :: (text ++ more) := by
  rw [framed, append_assoc, append_assoc]
  rfl

/-- A length ends at the first colon, so it tells where the framed text ends. -/
theorem framed_append_inj {left more right rest}
    (same : framed left ++ more = framed right ++ rest) : left = right ∧ more = rest := by
  have size : ∀ number more, (Text.decimal number ++ 58 :: more).takeWhile (· != 58) =
      Text.decimal number := fun number more => by
    rw [takeWhile_append_of_pos, takeWhile_cons_of_neg (by decide), append_nil]
    exact fun digit member => bne_iff_ne.mpr fun isColon =>
      Text.colon_notMem_decimal number (isColon ▸ member)
  rw [framed_append, framed_append] at same
  have sizes := (size _ _).symm.trans ((congrArg _ same).trans (size _ _))
  have bodies := append_inj_right same (congrArg List.length sizes)
  exact append_inj (tail_eq_of_cons_eq bodies) (Text.decimal_injective sizes)

theorem framedEntries_injective : ∀ {entries others : List ArchivedDecl},
    entries.flatMap framedEntry = others.flatMap framedEntry → entries = others
  | [], [], _ => rfl
  | [], entry :: rest, same | entry :: rest, [], same => by
    simp [framedEntry, append_assoc, framed_append] at same
  | entry :: rest, other :: others, same => by
    rw [flatMap_cons, flatMap_cons, framedEntry, framedEntry] at same
    simp only [append_assoc] at same
    obtain ⟨kind, same⟩ := framed_append_inj same
    obtain ⟨name, same⟩ := framed_append_inj same
    obtain ⟨source, same⟩ := framed_append_inj same
    have isEntry : entry = other := by
      cases entry
      cases other
      simp_all
    rw [isEntry, framedEntries_injective same]

/-- What is hashed tells the entries: no field has an end mark, but each has its length before
it. -/
theorem digest_input_injective :
    let input (entries : List ArchivedDecl) : Text := entries.flatMap fun entry =>
      [entry.kind, entry.name, entry.source].flatMap fun field =>
        Text.decimal field.length ++ ":" ++ field
    (∀ entries, digest entries = Sha256.hash (input entries)) ∧ Function.Injective input := by
  intro input
  have isInput : input = flatMap framedEntry := by
    refine congrArg flatMap (funext fun entry => ?_)
    simp [framedEntry, framed]
  rw [isInput]
  exact ⟨fun _ => rfl, fun _ _ => framedEntries_injective⟩

theorem nameProblem_distinct (entries : List ArchivedDecl) : ∀ seen : List Text,
    (∀ entry ∈ entries, entry.name ≠ []) → (entries.map (·.name)).Nodup →
      (∀ entry ∈ entries, entry.name ∉ seen) → nameProblem seen entries = none := by
  induction entries with
  | nil => exact fun _ _ _ _ => rfl
  | cons entry rest ih =>
    intro seen named distinct unseen
    rw [map_cons, nodup_cons] at distinct
    have isNamed := named entry mem_cons_self
    have isUnseen := unseen entry mem_cons_self
    rw [nameProblem, if_neg (by simpa using isNamed), if_neg (by simpa using isUnseen)]
    refine ih _ (fun other member => named other (mem_cons_of_mem _ member)) distinct.2
      fun other member => ?_
    rw [mem_cons, not_or]
    exact ⟨fun isName => distinct.1 (isName ▸ mem_map_of_mem member),
      unseen other (mem_cons_of_mem _ member)⟩

theorem lookup_archive {entry} {path tool : Text} (distinct : (entries.map (·.name)).Nodup)
    (member : entry ∈ entries) :
    (archive ⟨path, tool, entries⟩).lookup entry.name = some entry := by
  unfold archive Archive.lookup
  induction entries with
  | nil => cases member
  | cons first rest ih =>
    rw [map_cons, nodup_cons] at distinct
    rw [map_cons, lookup_cons]
    rcases mem_cons.mp member with rfl | inRest
    · simp
    · have differs : (entry.name == first.name) = false := by
        rw [beq_eq_false_iff_ne]
        exact fun isName => distinct.1 (isName ▸ mem_map_of_mem inRest)
      rw [differs]
      exact ih distinct.2 inRest

theorem lookup_archive_none {path tool name : Text} (strange : name ∉ entries.map (·.name)) :
    (archive ⟨path, tool, entries⟩).lookup name = none := by
  unfold archive Archive.lookup
  rw [lookup_eq_none_iff]
  rintro ⟨other, entry⟩ member
  obtain ⟨entry, inEntries, isPair⟩ := mem_map.mp member
  cases isPair
  exact bne_iff_ne.mpr fun isName => strange (isName ▸ mem_map_of_mem inEntries)

/-! ## Round trips -/

theorem length_digest (entries : List ArchivedDecl) : (digest entries).length = 32 := rfl

/-- What is written as a snapshot is read again, the same entries in the same order, and each
is found under its name; and a payload that has the digest of these entries but is not made
of them is damaged, as far as the hash tells the two framings apart. -/
theorem snapshots_restore {version : Version}
    (fits : Wire.Fits { tool := version.tool, decls := entries })
    (named : ∀ entry ∈ entries, entry.name ≠ []) (distinct : (entries.map (·.name)).Nodup)
    (path : Text) :
    ∃ snapshot, decode path (encode version entries) = .ok snapshot ∧
      snapshot.path = path ∧ snapshot.tool = version.tool ∧ snapshot.entries = entries ∧
      (∀ entry ∈ entries, snapshot.archive.lookup entry.name = some entry) ∧
      (∀ name ∉ entries.map (·.name), snapshot.archive.lookup name = none) ∧
      ∀ (content : Text) (payload : Payload), Wire.decode content = some payload →
        payload.schema = schemaVersion → payload.digest = digest entries →
        payload.decls ≠ entries →
        (Sha256.hash (payload.decls.flatMap framedEntry) =
            Sha256.hash (entries.flatMap framedEntry) →
          payload.decls.flatMap framedEntry = entries.flatMap framedEntry) →
        decode path content = .error (.damaged path .digestMismatch) := by
  refine ⟨⟨path, version.tool, entries⟩, ?_, rfl, rfl, rfl,
    fun entry member => lookup_archive distinct member,
    fun name strange => lookup_archive_none strange, ?_⟩
  · have read : Wire.decode (encode version entries) = some
        ⟨schemaVersion, version.tool, entries, digest entries⟩ :=
      Wire.decode_encode ⟨fits.tool, fits.count, fits.kind, fits.name, fits.source⟩
        (by decide : schemaVersion < 65536) (length_digest entries)
    unfold decode
    rw [read]
    have fine := nameProblem_distinct entries [] named distinct fun _ _ => List.not_mem_nil
    simp [fine]
  · intro content payload isPayload schema isDigest differ apart
    unfold decode
    rw [isPayload]
    dsimp only
    rw [if_neg (not_not_intro schema), if_pos]
    rw [isDigest]
    exact fun same => differ (framedEntries_injective (apart same))

/-- Two declarations, and then one of them left out. -/
theorem snapshots_restore_two :
    let entries : List ArchivedDecl := [⟨"var", "x", "int x = 1;"⟩, ⟨"proto", "f", "int f();"⟩]
    decode "a" (encode {} entries) = .ok ⟨"a", "kiln 0.1.0-dev", entries⟩ ∧
      decode "a" (Wire.encode ⟨schemaVersion, [], entries.drop 1, digest entries⟩) =
        .error (.damaged "a" .digestMismatch) := by
  intro entries
  obtain ⟨snapshot, read, isPath, isTool, isEntries, _, _, damaged⟩ :=
    @snapshots_restore entries {} (by constructor <;> decide) (by decide) (by decide) "a"
  refine ⟨?_, damaged _ ⟨schemaVersion, [], entries.drop 1, digest entries⟩ ?_ rfl rfl
    (by decide) fun same => ?_⟩
  · rw [read]
    cases snapshot
    simp_all
    rfl
  · exact Wire.decode_encode (by constructor <;> decide) (by decide) (length_digest entries)
  · exact absurd same (by decide +kernel)

end Snapshot

end FragmentCompiler
