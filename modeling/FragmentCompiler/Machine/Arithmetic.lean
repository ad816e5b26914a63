import FragmentCompiler.Machine.Fault

/-!
# Operators on values

Integers wrap around at sixty-four bits.  Operands of mixed numeric kinds are
widened to floating point; that happens only for names found at run time, as the
analysis inserts conversions everywhere else.
-/

namespace FragmentCompiler

namespace Value

def holds (op : BinaryOp) (order : Ordering) : Bool :=
  match op with
  | .lt => order == .lt
  | .le => order != .gt
  | .gt => order == .gt
  | .ge => order != .lt
  | .eq => order == .eq
  | _ => order != .eq

def compareIntegers (left right : Int64) : Ordering :=
  if left < right then .lt else if right < left then .gt else .eq

/-- An operator on integers; division goes toward zero. -/
def integerOperation (op : BinaryOp) (left right : Int64) : Except Fault Value :=
  match op with
  | .add => .ok (.int (left + right))
  | .sub => .ok (.int (left - right))
  | .mul => .ok (.int (left * right))
  | .div => if right = 0 then .error .divisionByZero else .ok (.int (left / right))
  | .mod => if right = 0 then .error .divisionByZero else .ok (.int (left % right))
  | .and | .or => .error (.notOnIntegers op)
  | _ => .ok (.bool (holds op (compareIntegers left right)))

def floatOperation (op : BinaryOp) (left right : Float) : Except Fault Value :=
  match op with
  | .add => .ok (.float (left + right))
  | .sub => .ok (.float (left - right))
  | .mul => .ok (.float (left * right))
  | .div => .ok (.float (left / right))
  | .lt => .ok (.bool (left < right))
  | .le => .ok (.bool (left ≤ right))
  | .gt => .ok (.bool (right < left))
  | .ge => .ok (.bool (right ≤ left))
  | .eq => .ok (.bool (left == right))
  | .ne => .ok (.bool (left != right))
  | .mod | .and | .or => .error (.notOnFloats op)

def operate (op : BinaryOp) (left right : Value) : Except Fault Value :=
  match left, right with
  | .int a, .int b => integerOperation op a b
  | .int a, .float b => floatOperation op a.toFloat b
  | .float a, .int b => floatOperation op a b.toFloat
  | .float a, .float b => floatOperation op a b
  | .string a, .string b =>
    if op = .add then .ok (.string (a ++ b))
    else if op.isComparison then .ok (.bool (holds op (Text.order a b)))
    else .error (.badOperands op .string .string)
  | .bool a, .bool b =>
    if op = .eq then .ok (.bool (a == b))
    else if op = .ne then .ok (.bool (a != b))
    else .error (.badOperands op .bool .bool)
  | _, _ => .error (.badOperands op left.kind right.kind)

def operateUnary (op : UnaryOp) (operand : Value) : Except Fault Value :=
  match op, operand with
  | .negate, .int value => .ok (.int (-value))
  | .negate, .float value => .ok (.float (-value))
  | .not, .bool value => .ok (.bool !value)
  | _, _ => .error (.badOperand op operand.kind)

def integerBound : Float := Float.ofScientific 9223372036854775808 false 0

def truncate (value : Float) : Float := if value < 0 then value.ceil else value.floor

def toInteger? (value : Float) : Option Int64 :=
  let whole := truncate value
  if whole.isNaN || whole < -integerBound || integerBound ≤ whole then none
  else some whole.toInt64

def convert (target : ValueKind) (value : Value) : Except Fault Value :=
  if value.kind = target then .ok value
  else
    match value, target with
    | .int number, .float => .ok (.float number.toFloat)
    | .float number, .int =>
      match toInteger? number with
      | some integer => .ok (.int integer)
      | none => .error (.tooLarge number)
    | _, _ => .error (.badConversion value.kind target)

def truth : Value → Except Fault Bool
  | .bool value => .ok value
  | value => .error (.badCondition value.kind)

def length : Value → Except Fault Value
  | .string text => .ok (.int (Int64.ofNat (Utf8.count text)))
  | value => .error (.noLength value.kind)

def toText : Value → Except Fault Value
  | .invalid => .error (.noText .invalid)
  | .nothing => .error (.noText .nothing)
  | value => .ok (.string value.display)

def printed (values : List Value) : Text := Text.join " " (values.map display) ++ "\n"

end Value

end FragmentCompiler
