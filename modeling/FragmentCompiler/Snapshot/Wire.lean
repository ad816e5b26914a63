import FragmentCompiler.Analysis.Basic

/-!
# The wire form of a snapshot

A snapshot is written in MessagePack: a map with the schema, the tool, the
declarations and their digest.  Reading is lenient: keys may be missing, repeated
or unknown, a structure may come as an array of its fields, and an absent value
clears a field.
-/

namespace FragmentCompiler

structure Payload where
  schema : Nat := 0
  tool : Text := []
  decls : List ArchivedDecl := []
  digest : Text := List.replicate 32 0
  deriving DecidableEq, Repr, Inhabited

namespace Wire

/-! ## Writing -/

def bigEndian : Nat → Nat → Text
  | 0, _ => []
  | count + 1, value => (value / Nat.pow 256 count % 256).toUInt8 :: bigEndian count value

def stringHeader (length : Nat) : Text :=
  if length < 32 then [(0xA0 + length).toUInt8]
  else if length < 256 then 0xD9 :: bigEndian 1 length
  else if length < 65536 then 0xDA :: bigEndian 2 length
  else 0xDB :: bigEndian 4 length

def string (value : Text) : Text := stringHeader value.length ++ value

def arrayHeader (length : Nat) : Text :=
  if length < 16 then [(0x90 + length).toUInt8]
  else if length < 65536 then 0xDC :: bigEndian 2 length
  else 0xDD :: bigEndian 4 length

def entry (decl : ArchivedDecl) : Text :=
  0x83 :: (string "kind" ++ string decl.kind ++ string "name" ++ string decl.name ++
    string "source" ++ string decl.source)

def encode (payload : Payload) : Text :=
  0x84 :: (string "schema" ++ 0xCD :: bigEndian 2 payload.schema ++
    string "tool" ++ string payload.tool ++
    string "decls" ++ arrayHeader payload.decls.length ++ payload.decls.flatMap entry ++
    string "digest" ++ 0xC4 :: bigEndian 1 payload.digest.length ++ payload.digest)

/-! ## Reading -/

abbrev Decode := StateT Text Option

def byte : Decode UInt8
  | [] => none
  | first :: rest => some (first, rest)

def bytes (count : Nat) : Decode Text := fun input =>
  if count ≤ input.length then some (input.take count, input.drop count) else none

def value (digits : Text) : Nat := digits.foldl (fun total digit => total * 256 + digit.toNat) 0

def number (count : Nat) : Decode Nat := value <$> bytes count

/-- A length after its code: inline, or in so many bytes; the code of the absent value
has none. -/
def length (first count : Nat) (wide : List (Nat × Nat)) (code : UInt8) : Decode (Option Nat) :=
  if code = 0xC0 then return none
  else if first ≤ code.toNat && code.toNat < first + count then
    return some (code.toNat - first)
  else
    match wide.lookup code.toNat with
    | some width => some <$> number width
    | none => failure

def textLength : UInt8 → Decode (Option Nat) :=
  length 0xA0 32 [(0xD9, 1), (0xC4, 1), (0xDA, 2), (0xC5, 2), (0xDB, 4), (0xC6, 4)]

def arrayLength : UInt8 → Decode (Option Nat) := length 0x90 16 [(0xDC, 2), (0xDD, 4)]

def mapLength : UInt8 → Decode (Option Nat) := length 0x80 16 [(0xDE, 2), (0xDF, 4)]

/-- A string; an absent one is empty. -/
def readString : Decode Text := do
  match ← textLength (← byte) with
  | none => return []
  | some count => bytes count

def signed (count : Nat) : Decode Nat := do
  let read ← number count
  let wrapped :=
    if Nat.pow 256 count ≤ 2 * read then read + (18446744073709551616 - Nat.pow 256 count)
    else read
  return wrapped % 65536

/-- The lowest sixteen bits of a number; an absent one is zero. -/
def readSchema : Decode Nat := do
  let code ← byte
  if code = 0xC0 then return 0
  else if code < 0x80 then return code.toNat
  else if 0xE0 ≤ code then return 65280 + code.toNat
  else
    match code.toNat with
    | 0xCC => (· % 65536) <$> number 1
    | 0xCD => (· % 65536) <$> number 2
    | 0xCE => (· % 65536) <$> number 4
    | 0xCF => (· % 65536) <$> number 8
    | 0xD0 => signed 1
    | 0xD1 => signed 2
    | 0xD2 => signed 4
    | 0xD3 => signed 8
    | _ => failure

/-- Bytes over the front of a field of fixed size; an absent value changes nothing. -/
def readDigest (old : Text) : Decode Text := do
  match ← textLength (← byte) with
  | none => return old
  | some count =>
    if old.length < count then failure
    else return (← bytes count) ++ old.drop count

/-- How much follows a code: values, and bytes before them. -/
def contents (code : UInt8) : Decode Nat := do
  if code < 0x80 || 0xE0 ≤ code then return 0
  else if code < 0x90 then return 2 * (code.toNat - 0x80)
  else if code < 0xA0 then return code.toNat - 0x90
  else if code < 0xC0 then
    let _ ← bytes (code.toNat - 0xA0)
    return 0
  else
    match code.toNat with
    | 0xC0 | 0xC2 | 0xC3 => return 0
    | 0xC4 | 0xD9 => do let _ ← bytes (← number 1); return 0
    | 0xC5 | 0xDA => do let _ ← bytes (← number 2); return 0
    | 0xC6 | 0xDB => do let _ ← bytes (← number 4); return 0
    | 0xC7 => do let _ ← bytes ((← number 1) + 1); return 0
    | 0xC8 => do let _ ← bytes ((← number 2) + 1); return 0
    | 0xC9 => do let _ ← bytes ((← number 4) + 1); return 0
    | 0xCC | 0xD0 => do let _ ← bytes 1; return 0
    | 0xCD | 0xD1 | 0xD4 => do let _ ← bytes 2; return 0
    | 0xD5 => do let _ ← bytes 3; return 0
    | 0xCA | 0xCE | 0xD2 => do let _ ← bytes 4; return 0
    | 0xD6 => do let _ ← bytes 5; return 0
    | 0xCB | 0xCF | 0xD3 => do let _ ← bytes 8; return 0
    | 0xD7 => do let _ ← bytes 9; return 0
    | 0xD8 => do let _ ← bytes 17; return 0
    | 0xDC => number 2
    | 0xDD => number 4
    | 0xDE => (2 * ·) <$> number 2
    | 0xDF => (2 * ·) <$> number 4
    | _ => failure

/-- Skips so many values; every value takes at least one byte. -/
def skipWithin : Nat → Nat → Decode Unit
  | _, 0 => return ()
  | 0, _ + 1 => failure
  | fuel + 1, count + 1 => do
      let inner ← contents (← byte)
      skipWithin fuel (count + inner)

def skip : Decode Unit := do skipWithin (← get).length 1

/-- So many fields of a map, each over the value read so far; every field takes at least
one byte. -/
def fieldsWithin {α : Type} (field : Text → α → Option (Decode α)) : Nat → Nat → α → Decode α
  | _, 0, read => return read
  | 0, _ + 1, _ => failure
  | fuel + 1, count + 1, read => do
      let name ← readString
      match field name read with
      | some decode => fieldsWithin field fuel count (← decode)
      | none => do
          skip
          fieldsWithin field fuel count read

def fieldsInOrder {α : Type} (field : Text → α → Option (Decode α)) : List Text → α → Decode α
  | [], read => return read
  | name :: rest, read => do
      match field name read with
      | some decode => fieldsInOrder field rest (← decode)
      | none => failure

def record {α : Type} (names : List Text) (field : Text → α → Option (Decode α)) (zero old : α) :
    Decode α := do
  let code ← byte
  let input ← get
  match mapLength code input with
  | some (none, rest) => do set rest; return zero
  | some (some count, rest) => do
      set rest
      fieldsWithin field (rest.length + 1) count old
  | none =>
    match arrayLength code input with
    | none => failure
    | some (count, rest) =>
      set rest
      if count.getD 0 = 0 then return zero
      else if count.getD 0 = names.length then fieldsInOrder field names old
      else failure

def readEntry (old : ArchivedDecl) : Decode ArchivedDecl :=
  record ["kind", "name", "source"]
    (fun name read =>
      if name == "kind" then some do return { read with kind := ← readString }
      else if name == "name" then some do return { read with name := ← readString }
      else if name == "source" then some do return { read with source := ← readString }
      else none)
    ⟨[], [], []⟩ old

/-- So many declarations, each over the earlier one in its place; every one takes at
least one byte. -/
def entriesWithin : Nat → Nat → List ArchivedDecl → Decode (List ArchivedDecl)
  | _, 0, _ => return []
  | 0, _ + 1, _ => failure
  | fuel + 1, count + 1, old => do
      let first ← readEntry (old.headD ⟨[], [], []⟩)
      return first :: (← entriesWithin fuel count old.tail)

def readEntries (old : List ArchivedDecl) : Decode (List ArchivedDecl) := do
  match ← arrayLength (← byte) with
  | none => return []
  | some count => do entriesWithin ((← get).length + 1) count old

def readPayload : Decode Payload :=
  record ["schema", "tool", "decls", "digest"]
    (fun name read =>
      if name == "schema" then some do return { read with schema := ← readSchema }
      else if name == "tool" then some do return { read with tool := ← readString }
      else if name == "decls" then some do return { read with decls := ← readEntries read.decls }
      else if name == "digest" then some do return { read with digest := ← readDigest read.digest }
      else none)
    {} {}

/-- A snapshot; what follows it is ignored. -/
def decode (input : Text) : Option Payload := (readPayload input).map Prod.fst

end Wire

end FragmentCompiler
