import FragmentCompiler.Number.Decimal
import FragmentCompiler.Syntax.Basic
import FragmentCompiler.Text.Quoted

/-!
# Values

The values a running program handles and how they are shown.
-/

namespace FragmentCompiler

inductive ValueKind where
  /-- Of a slot that holds nothing yet. -/
  | invalid
  /-- Of the result of a void call. -/
  | nothing
  | int
  | float
  | bool
  | string
  deriving DecidableEq, Repr, Inhabited

namespace ValueKind

def name : ValueKind → Text
  | .invalid => "invalid"
  | .nothing => "void"
  | .int => "int"
  | .float => "float"
  | .bool => "bool"
  | .string => "string"

/-- The kind of a name; a name of no kind stands for no value. -/
def ofName (name : Text) : ValueKind :=
  ([.nothing, .int, .float, .bool, .string].find? fun kind => kind.name = name).getD .invalid

def ofType : Ty → ValueKind
  | .void => .nothing
  | .int => .int
  | .float => .float
  | .bool => .bool
  | .string => .string
  | .invalid | .dynamic => .invalid

end ValueKind

inductive Value where
  | invalid
  | nothing
  | int (value : Int64)
  | float (value : Float)
  | bool (value : Bool)
  | string (value : Text)
  deriving Repr, Inhabited

namespace Value

def kind : Value → ValueKind
  | .invalid => .invalid
  | .nothing => .nothing
  | .int _ => .int
  | .float _ => .float
  | .bool _ => .bool
  | .string _ => .string

def zero : ValueKind → Value
  | .invalid => .invalid
  | .nothing => .nothing
  | .int => .int 0
  | .float => .float 0
  | .bool => .bool false
  | .string => .string []

def ofLiteral : LiteralValue → Value
  | .int value => .int value
  | .float value => .float value
  | .string value => .string value
  | .bool value => .bool value

/-- A floating-point number as text; whole numbers keep a fraction. -/
def displayFloat (value : Float) : Text :=
  if value.isNaN then "nan"
  else if value.isInf then if value < 0 then "-inf" else "inf"
  else
    let digits := Decimal.render value
    if digits.any fun byte => byte == 46 || byte == 101 then digits else digits ++ ".0"

def display : Value → Text
  | .invalid => "<invalid>"
  | .nothing => "void"
  | .int value => Text.ofInt value.toInt
  | .float value => displayFloat value
  | .bool true => "true"
  | .bool false => "false"
  | .string value => value

def echo (value : Value) : Text :=
  let shown := match value with
    | .string text => text.quote
    | other => other.display
  "(" ++ value.kind.name ++ ") " ++ shown

end Value

end FragmentCompiler
