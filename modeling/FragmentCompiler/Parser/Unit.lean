import FragmentCompiler.Parser.Grammar
import FragmentCompiler.Text.Blank

/-!
# Top-level units

A parser is asked for one unit after another.  Directives are carried out between
units; a pragma is handed to the caller.  After a syntax error everything up to
the end of the broken declaration is skipped.
-/

namespace FragmentCompiler

inductive SourceUnit where
  /-- Declarations; none after a syntax error. -/
  | group (ids : Group)
  | pragma (key value : Text) (span : Span)
  | finished
  deriving DecidableEq, Repr, Inhabited

namespace Parser

/-! ## Recovery -/

/-- Skips tokens up to a semicolon or a closing brace outside all open braces.  A
directive ends the search outside braces. -/
def skip : Nat → Nat → Parser → Parser
  | 0, _, parser => parser
  | fuel + 1, depth, parser =>
    let (token, parser) := parser.lookAt 0
    let next := parser.take.2
    match token.kind with
    | .endOfInput => parser
    | .symbol .semicolon => if depth = 0 then next else skip fuel depth next
    | .symbol .leftBrace => skip fuel (depth + 1) next
    | .symbol .rightBrace => if depth ≤ 1 then next else skip fuel (depth - 1) next
    | .directive => if depth = 0 then parser else skip fuel depth next
    | _ => skip fuel depth next

def recover (parser : Parser) : Parser :=
  skip parser.remaining parser.depth { parser with depth := 0 }

/-! ## Directives -/

def candidates (parser : Parser) (name : Text) : List Text :=
  if Path.isAbsolute name then [name]
  else
    let beside := match parser.inputs with
      | input :: _ => if input.virtual then [] else [Path.joinAll [Path.directory input.path, name]]
      | [] => []
    beside ++ parser.includePaths.map (fun directory => Path.joinAll [directory, name]) ++
      [Path.joinAll [parser.files.base, name]]

def openIncluded (parser : Parser) (span : Span) (name : Text) : Option FileId × Parser :=
  match parser.virtuals.lookup name with
  | some content =>
    match parser.files.latest? name with
    | some id => (some id, parser)
    | none =>
      let (id, files) := parser.files.addVirtual name content
      (some id, { parser with files })
  | none =>
    match (parser.candidates name).find? parser.tree.isFile with
    | none =>
      (none, parser.record
        (.error .includeNotFound span ("include file " ++ name.quote ++ " not found")))
    | some path =>
      match parser.files.load parser.tree path with
      | .ok (id, files) => (some id, { parser with files })
      | .error fault =>
        (none, parser.record
          (.error .includeNotFound span
            ("cannot read " ++ name.quote ++ ": " ++ fault.message)))

def includeFile (parser : Parser) (span : Span) (name : Text) : Parser :=
  match parser.openIncluded span name with
  | (none, parser) => parser
  | (some id, parser) =>
    let path := ((parser.files.get? id).map Buffer.path).getD []
    if parser.inputs.any fun input => input.path == path then
      parser.record (.error .includeCycle span ("include cycle through " ++ name.quote))
    else parser.enter id

def includeDirective (parser : Parser) (span : Span) (argument : Text) : Parser :=
  match argument with
  | 34 :: byte :: rest =>
    let quoted := byte :: rest
    if quoted.contains 34 then
      parser.includeFile span (quoted.takeWhile (· != 34))
    else parser.record (.error .badDirective span "unterminated include path")
  | _ => parser.record (.error .badDirective span "expected #include \"file\"")

def pragmaDirective (parser : Parser) (span : Span) (argument : Text) :
    Option SourceUnit × Parser :=
  match argument.words with
  | owner :: rest =>
    if owner == "kiln" then
      match rest with
      | [key, value] =>
        if parser.takesPragmas then (some (.pragma key value span), parser)
        else
          (none, parser.record
            (.warning .unknownPragma span
              ("pragma " ++ key.quote ++ " has no effect here")))
      | _ =>
        (none, parser.record
          (.error .badDirective span "expected #pragma kiln <key> <value>"))
    else (none, parser.record (.warning .unknownPragma span "unknown pragma ignored"))
  | [] => (none, parser.record (.warning .unknownPragma span "unknown pragma ignored"))

/-- The text of a directive without its mark and without a comment; the argument
of an include may hold what looks like one. -/
def directiveBody (token : Token) : Text :=
  let body := (token.text.withoutLead "#").trim
  if body.startsWith "include" || !Text.containsText "//" body then body
  else (Text.upTo "//" body).trim

def directive (parser : Parser) (token : Token) : Option SourceUnit × Parser :=
  let (name, after) := Text.cut 32 (directiveBody token)
  let rest := (after.getD []).trim
  if name == "include" then (none, parser.includeDirective token.span rest)
  else if name == "pragma" then parser.pragmaDirective token.span rest
  else
    (none, parser.record
      (.error .badDirective token.span ("unknown directive '#" ++ name ++ "'")))

/-! ## Units -/

def runReader (parser : Parser) (reader : Reader Group) : Group × Parser :=
  match reader parser with
  | (some ids, parser) => (ids, parser)
  | (none, parser) => ([], parser.recover)

/-- Reads one thing: the end of a buffer, a directive or a unit. -/
def step (parser : Parser) : Option SourceUnit × Parser :=
  if parser.inputs.isEmpty then (some .finished, parser)
  else
    let (token, parser) := parser.lookAt 0
    match token.kind with
    | .endOfInput => (none, parser.leave)
    | .directive => parser.take.2.directive token
    | kind =>
      let (second, parser) := if kind.isType then parser.lookAt 1 else (token, parser)
      let reader :=
        if kind.isType && second.kind = .name then Reader.declaration parser.nesting
        else (fun id => [id]) <$> Reader.wrapper parser.nesting
      let (ids, parser) := parser.runReader reader
      (some (.group ids), parser)

/-- Reads up to the next unit, in at most the given number of steps; the rest is given
up after them. -/
def nextUnit : Nat → Parser → SourceUnit × Parser
  | 0, parser => (.finished, parser.abandon)
  | fuel + 1, parser =>
    match parser.step with
    | (some unit, parser) => (unit, parser)
    | (none, parser) => nextUnit fuel parser

/-- Declarations of a buffer that holds nothing else, until the inputs are as few
as the given number; those read so far, and whether all was well. -/
def declarationsAbove (least : Nat) : Nat → List DeclId → Bool → Parser →
    (List DeclId × Bool) × Parser
  | 0, read, fine, parser => ((read, fine), parser)
  | fuel + 1, read, fine, parser =>
    if parser.inputs.length ≤ least then ((read, fine), parser)
    else
      let (token, parser) := parser.lookAt 0
      if token.kind = .endOfInput then declarationsAbove least fuel read fine parser.leave
      else if token.kind.isType then
        match Reader.declaration parser.nesting parser with
        | (some ids, parser) => declarationsAbove least fuel (read ++ ids) fine parser
        | (none, parser) => declarationsAbove least fuel read false parser.recover
      else
        let (_, parser) :=
          (Reader.rejectHere .unexpectedTopLevel "expected declaration" : Reader Unit) parser
        ((read, false), { parser with inputs := parser.inputs.drop (parser.inputs.length - least) })

/-- All declarations of a buffer; statements and directives are refused. -/
def declarationsOf (parser : Parser) (id : FileId) : (List DeclId × Bool) × Parser :=
  let entered := parser.enter id
  declarationsAbove parser.inputs.length (entered.remaining + 1) [] true entered

end Parser

end FragmentCompiler
