import FragmentCompiler.Toml.Document

/-!
# Reading a TOML document
-/

namespace FragmentCompiler.Toml

open FragmentCompiler

def afterBlanks (text : Text) : Text := text.dropWhile isBlankByte

def afterGaps (inComment : Bool) : Text → Text
  | [] => []
  | byte :: rest =>
    if isLineEnd byte then afterGaps false rest
    else if inComment || byte = 35 then afterGaps true rest
    else if isBlankByte byte then afterGaps false rest
    else byte :: rest

def lineEnd? (text : Text) : Option Text :=
  match afterBlanks text with
  | [] => some []
  | byte :: rest => if isLineEnd byte || byte = 35 then some (byte :: rest) else none

def keyPart? (text : Text) : Option (Text × Text) :=
  match text with
  | 34 :: rest => basicString .plain rest
  | 39 :: rest => literalString rest
  | _ =>
    let part := text.takeWhile isBare
    if part.isEmpty then none else some (part, text.dropWhile isBare)

def key? (close : UInt8) : Nat → Text → Option (Key × Text)
  | 0, _ => none
  | fuel + 1, text =>
    (keyPart? (afterBlanks text)).bind fun (part, rest) =>
      match afterBlanks rest with
      | [] => none
      | byte :: rest =>
        if byte = close then some ([part], rest)
        else if byte = 46 then
          (key? close fuel rest).map fun (parts, rest) => (part :: parts, rest)
        else none

structure Taken where
  value : Value
  document : Document
  rest : Text

mutual

def value? (fuel : Nat) (context : Key) (name : Text) (inArray : Bool) (document : Document)
    (text : Text) : Option Taken :=
  match fuel with
  | 0 => none
  | fuel + 1 =>
    match afterBlanks text with
    | 91 :: rest =>
      (items? fuel context name (document.noteArray (context ++ [name]) true) rest).map
        fun (items, document, rest) => ⟨.array items, document, rest⟩
    | 123 :: rest =>
      let key := context ++ [name]
      let document := document.addImplicit key
      let entered := if inArray then document.enterElement? key else document.enterTable? key
      entered.bind fun document => entries? fuel key true document rest
    | text =>
      match string? text with
      | some (value, rest) => some ⟨.string value, document, rest⟩
      | none => (scalar? text).map fun (value, rest) => ⟨.scalar value, document, rest⟩

def items? (fuel : Nat) (context : Key) (name : Text) (document : Document) (text : Text) :
    Option (List Value × Document × Text) :=
  match fuel with
  | 0 => none
  | fuel + 1 =>
    match afterGaps false text with
    | 93 :: rest => some ([], document, rest)
    | text =>
      match value? fuel context name true document text with
      | none => none
      | some taken =>
        match afterGaps false taken.rest with
        | 93 :: rest => some ([taken.value], taken.document, rest)
        | 44 :: rest =>
          (items? fuel context name taken.document rest).map
            fun (items, rest) => (taken.value :: items, rest)
        | _ => none

/-- The entries of a table between braces up to its closing brace; only before the
first entry may the brace stand at once. -/
def entries? (fuel : Nat) (context : Key) (isFirst : Bool) (document : Document)
    (text : Text) : Option Taken :=
  match fuel with
  | 0 => none
  | fuel + 1 =>
    match afterBlanks text with
    | 125 :: rest => if isFirst then some ⟨.table [], document, rest⟩ else none
    | text =>
      match statement? fuel context document text with
      | none => none
      | some (name, taken) =>
        match afterBlanks taken.rest with
        | 125 :: rest => some ⟨.table [(name, taken.value)], taken.document, rest⟩
        | 44 :: rest =>
          (entries? fuel context false taken.document rest).map fun others =>
            match others.value with
            | .table entries =>
              { others with value := .table (Table.put entries name taken.value) }
            | _ => others
        | _ => none

def statement? (fuel : Nat) (context : Key) (document : Document) (text : Text) :
    Option (Text × Taken) :=
  match fuel with
  | 0 => none
  | fuel + 1 =>
    match key? 61 text.length text with
    | none => none
    | some (key, rest) =>
      match document.enterParts? context key.dropLast with
      | none => none
      | some (document, inner) =>
        let name := key.getLast?.getD []
        let full := inner ++ [name]
        match value? fuel inner name false (document.mention full) rest with
        | none => none
        | some taken =>
          (taken.document.assign? inner name taken.value).map fun document =>
            let isArray := match taken.value with
              | .array _ => true
              | _ => false
            (name, { taken with document := document.noteArray full isArray })

end

/-- A table header after its opening bracket; the result has the table entered. -/
def header? (document : Document) (text : Text) : Option (Key × Document × Text) :=
  match text with
  | 91 :: rest =>
    (key? 93 rest.length rest).bind fun (key, rest) =>
      match rest with
      | 93 :: rest => (document.enterElement? key).map fun document => (key, document, rest)
      | _ => none
  | _ =>
    (key? 93 text.length text).bind fun (key, rest) =>
      (document.enterTable? key).map fun document => (key, document, rest)

def statements? : Nat → Key → Document → Text → Option Document
  | 0, _, _, _ => none
  | fuel + 1, context, document, text =>
    match afterGaps false text with
    | [] => some document
    | 91 :: rest =>
      match header? document rest with
      | none => none
      | some (key, document, rest) =>
        (lineEnd? rest).bind
          (statements? fuel key ((document.mention key).noteArray key false))
    | text =>
      match statement? (2 * text.length + 2) context document text with
      | none => none
      | some (_, taken) =>
        (lineEnd? taken.rest).bind (statements? fuel context taken.document)

def isAllowed (code : Nat) : Bool := code == 9 || code == 10 || code == 13 || (32 ≤ code && code != 127)

def returnsFit : Text → Bool
  | [] => true
  | 13 :: 10 :: rest => returnsFit rest
  | byte :: rest => byte != 13 && returnsFit rest

def withoutMark (text : Text) : Text :=
  match text with
  | 0xEF :: 0xBB :: 0xBF :: rest => rest
  | 0xFF :: 0xFE :: rest => rest
  | 0xFE :: 0xFF :: rest => rest
  | _ => text

def Document.ofText? (text : Text) : Option Document :=
  let text := withoutMark text
  if Utf8.isValid text && (Utf8.runes text).all (fun rune => isAllowed rune.code) &&
      returnsFit text then
    statements? (text.length + 1) [] {} text
  else none

end FragmentCompiler.Toml
