import FragmentCompiler.Toml.Scalar

/-!
# The tables of a TOML document

A document is built statement by statement.  A table that a longer name mentions
exists implicitly and may still be defined once.
-/

namespace FragmentCompiler.Toml

open FragmentCompiler

inductive Value where
  | scalar (value : Scalar)
  | string (value : Text)
  | array (items : List Value)
  | table (entries : List (Text × Value))
  /-- An array of tables that headers add to. -/
  | tables (elements : List (List (Text × Value)))
  deriving Inhabited

abbrev Table := List (Text × Value)

abbrev Key := List Text

def isBare (byte : UInt8) : Bool := isAlphanumeric byte || byte == 95 || byte == 45

def quotedByte (byte : UInt8) : Text :=
  match byte with
  | 34 => "\\\""
  | 92 => "\\\\"
  | 8 => "\\b"
  | 9 => "\\t"
  | 10 => "\\n"
  | 12 => "\\f"
  | 13 => "\\r"
  | _ => if byte < 32 || byte = 127 then "\\u00" ++ Text.hexByte byte else [byte]

def renderPart (part : Text) : Text :=
  if !part.isEmpty && part.all isBare then part
  else "\"" ++ part.flatMap quotedByte ++ "\""

def Key.render (key : Key) : Text := Text.join "." (key.map renderPart)

def Table.get? (table : Table) (name : Text) : Option Value := table.lookup name

def Table.put (table : Table) (name : Text) (value : Value) : Table :=
  if table.any (·.1 == name) then
    table.map fun entry => if entry.1 == name then (name, value) else entry
  else table ++ [(name, value)]

/-- The table a key leads to; an array of tables leads to its last element. -/
def Table.at? : Key → Table → Option Table
  | [], table => some table
  | part :: rest, table =>
    match table.get? part with
    | some (.table entries) => Table.at? rest entries
    | some (.tables elements) => elements.getLast?.bind (Table.at? rest)
    | _ => none

def Table.change (update : Table → Table) : Key → Table → Table
  | [], table => update table
  | part :: rest, table =>
    match table.get? part with
    | some (.table entries) => table.put part (.table (Table.change update rest entries))
    | some (.tables elements) =>
      let last := (elements.getLast?.map (Table.change update rest)).toList
      table.put part (.tables (elements.dropLast ++ last))
    | _ => table

structure Document where
  root : Table := []
  keys : List Key := []
  /-- The tables that only longer names mention. -/
  implicit : List Key := []
  /-- The names whose value is an array. -/
  arrays : List Key := []
  deriving Inhabited

namespace Document

def mention (document : Document) (key : Key) : Document :=
  { document with keys := document.keys ++ [key] }

def addImplicit (document : Document) (key : Key) : Document :=
  { document with implicit := key :: document.implicit.filter (· != key) }

def noteArray (document : Document) (key : Key) (isArray : Bool) : Document :=
  let others := document.arrays.filter (· != key)
  { document with arrays := if isArray then key :: others else others }

def put (document : Document) (context : Key) (name : Text) (value : Value) : Document :=
  { document with root := document.root.change (fun table => table.put name value) context }

/-- Gives a name in a table a value.  An array may be replaced, an implicit table
may be defined, and nothing else may have a value already. -/
def assign? (document : Document) (context : Key) (name : Text) (value : Value) : Option Document :=
  let key := context ++ [name]
  let defined := { document with implicit := document.implicit.filter (· != key) }
  (document.root.at? context).bind fun table =>
    if (table.get? name).isNone then some (document.put context name value)
    else if document.arrays.contains key then some (defined.put context name value)
    else if document.implicit.contains key then some defined
    else none

def reach? (document : Document) (done : Key) : Key → Option Document
  | [] => some document
  | part :: rest =>
    let key := done ++ [part]
    match (document.root.at? done).bind (·.get? part) with
    | none => reach? ((document.put done part (.table [])).addImplicit key) key rest
    | some (.table _) => reach? document key rest
    | some (.tables _) => reach? document key rest
    | some _ => none

def enterTable? (document : Document) (key : Key) : Option Document :=
  (document.reach? [] key.dropLast).bind fun document =>
    document.assign? key.dropLast (key.getLast?.getD []) (.table [])

def enterElement? (document : Document) (key : Key) : Option Document :=
  let context := key.dropLast
  let name := key.getLast?.getD []
  (document.reach? [] context).bind fun document =>
    match (document.root.at? context).bind (·.get? name) with
    | none => some (document.put context name (.tables [[]]))
    | some (.tables elements) => some (document.put context name (.tables (elements ++ [[]])))
    | some _ => none

/-- Enters the tables of a dotted name from a table on; the result has the last one. -/
def enterParts? (document : Document) (context : Key) : Key → Option (Document × Key)
  | [] => some (document, context)
  | part :: rest =>
    let key := context ++ [part]
    ((document.addImplicit key).enterTable? key).bind fun document =>
      enterParts? document key rest

def defines (document : Document) (key : Key) : Bool :=
  ((document.root.at? key.dropLast).bind (·.get? (key.getLast?.getD []))).isSome

end Document

end FragmentCompiler.Toml
