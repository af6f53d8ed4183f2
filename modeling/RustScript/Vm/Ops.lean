import RustScript.Vm.Value

/-!
# Operations on runtime values

What the arithmetic, comparison and shift instructions compute from the values
they pop.  The right operand is popped, and so checked, before the left one.  An
instruction may carry a hint about the types of its operands; a hint that names
one of the specialised pairs selects an operation that insists on those types.

Floating point arithmetic is a parameter: nothing here depends on how a float
operation rounds.
-/

namespace RustScript.Vm

/-- Floating point arithmetic on bit patterns. -/
structure FloatOps where
  ofInt : Int64 → UInt64
  add : UInt64 → UInt64 → UInt64
  sub : UInt64 → UInt64 → UInt64
  mul : UInt64 → UInt64 → UInt64
  div : UInt64 → UInt64 → UInt64
  rem : UInt64 → UInt64 → UInt64
  neg : UInt64 → UInt64
  lt : UInt64 → UInt64 → Bool

/-- The operand types recorded for an instruction; `unknown` records nothing. -/
abbrev OperandTypes := ValueType × ValueType

/-! ## Reading operands -/

def asInt : Value → Except VmError Int64
  | .int value => .ok value
  | _ => .error (.typeMismatch "int")

def asBool : Value → Except VmError Bool
  | .bool value => .ok value
  | _ => .error (.typeMismatch "bool")

def asFloatExact : Value → Except VmError UInt64
  | .float bits => .ok bits
  | _ => .error (.typeMismatch "float")

def asString : Value → Except VmError String
  | .string value => .ok value
  | _ => .error (.typeMismatch "string")

def asBytes : Value → Except VmError (List UInt8)
  | .bytes value => .ok value
  | _ => .error (.typeMismatch "bytes")

inductive NumericValue where
  | int (value : Int64)
  | float (bits : UInt64)

def asNumeric : Value → Except VmError NumericValue
  | .int value => .ok (.int value)
  | .float bits => .ok (.float bits)
  | _ => .error (.typeMismatch "number")

def NumericValue.toFloat (F : FloatOps) : NumericValue → UInt64
  | .int value => F.ofInt value
  | .float bits => bits

/-- An operation on two operands.  The right operand is popped and checked before the left
one is popped. -/
structure BinaryOp where
  {Rhs Lhs : Type}
  rhs : Value → Except VmError Rhs
  lhs : Value → Except VmError Lhs
  apply : Lhs → Rhs → Except VmError Value

/-- The operation on two operands that are there. -/
def BinaryOp.eval (op : BinaryOp) (lhs rhs : Value) : Except VmError Value := do
  let rhs ← op.rhs rhs
  let lhs ← op.lhs lhs
  op.apply lhs rhs

structure UnaryOp where
  {Operand : Type}
  operand : Value → Except VmError Operand
  apply : Operand → Except VmError Value

/-! ## Arithmetic -/

def intBinaryNumericOp (op : Int64 → Int64 → Except VmError Int64) : BinaryOp where
  rhs := asInt
  lhs := asInt
  apply lhs rhs := do return .int (← op lhs rhs)

def floatBinaryNumericOp (op : UInt64 → UInt64 → UInt64) : BinaryOp where
  rhs := asFloatExact
  lhs := asFloatExact
  apply lhs rhs := .ok (.float (op lhs rhs))

/-- Two integers give an integer; as soon as one operand is a float, both are. -/
def binaryNumericOp (F : FloatOps) (intOp : Int64 → Int64 → Except VmError Int64)
    (floatOp : UInt64 → UInt64 → UInt64) : BinaryOp where
  rhs := asNumeric
  lhs := asNumeric
  apply
    | .int lhs, .int rhs => do return .int (← intOp lhs rhs)
    | lhs, rhs => .ok (.float (floatOp (lhs.toFloat F) (rhs.toFloat F)))

def checkedIntDiv (lhs rhs : Int64) : Except VmError Int64 :=
  if rhs = 0 then .error .divisionByZero
  else if lhs = Int64.minValue ∧ rhs = -1 then .error (.integerOverflow "division")
  else .ok (lhs / rhs)

def checkedIntRem (lhs rhs : Int64) : Except VmError Int64 :=
  if rhs = 0 then .error .divisionByZero
  else if lhs = Int64.minValue ∧ rhs = -1 then .error (.integerOverflow "remainder")
  else .ok (lhs % rhs)

/-- An arithmetic instruction: the hint selects the specialised operation. -/
def numericOp (F : FloatOps) (hint : OperandTypes)
    (intOp : Int64 → Int64 → Except VmError Int64) (floatOp : UInt64 → UInt64 → UInt64) :
    BinaryOp :=
  match hint with
  | (.int, .int) => intBinaryNumericOp intOp
  | (.float, .float) => floatBinaryNumericOp floatOp
  | _ => binaryNumericOp F intOp floatOp

def subOp (F : FloatOps) (hint : OperandTypes) : BinaryOp :=
  numericOp F hint (fun lhs rhs => .ok (lhs - rhs)) F.sub

def mulOp (F : FloatOps) (hint : OperandTypes) : BinaryOp :=
  numericOp F hint (fun lhs rhs => .ok (lhs * rhs)) F.mul

def divOp (F : FloatOps) (hint : OperandTypes) : BinaryOp :=
  numericOp F hint checkedIntDiv F.div

def modOp (F : FloatOps) (hint : OperandTypes) : BinaryOp :=
  numericOp F hint checkedIntRem F.rem

/-- Any value can be popped for addition.  Concatenating two arrays makes a new object. -/
def binaryAddOp (F : FloatOps) (fresh : Nat) : BinaryOp where
  rhs := .ok
  lhs := .ok
  apply
    | .int lhs, .int rhs => .ok (.int (lhs + rhs))
    | .int lhs, .float rhs => .ok (.float (F.add (F.ofInt lhs) rhs))
    | .float lhs, .int rhs => .ok (.float (F.add lhs (F.ofInt rhs)))
    | .float lhs, .float rhs => .ok (.float (F.add lhs rhs))
    | .string lhs, .string rhs => .ok (.string (lhs ++ rhs))
    | .bytes lhs, .bytes rhs => .ok (.bytes (lhs ++ rhs))
    | .array _ lhs, .array _ rhs => .ok (.array fresh (lhs ++ rhs))
    | _, _ => .error (.typeMismatch "number/string or bytes/bytes or array/array")

def addOp (F : FloatOps) (fresh : Nat) (hint : OperandTypes) : BinaryOp :=
  match hint with
  | (.int, .int) => intBinaryNumericOp fun lhs rhs => .ok (lhs + rhs)
  | (.float, .float) => floatBinaryNumericOp F.add
  | (.string, .string) => ⟨asString, asString, fun lhs rhs => .ok (.string (lhs ++ rhs))⟩
  | (.bytes, .bytes) => ⟨asBytes, asBytes, fun lhs rhs => .ok (.bytes (lhs ++ rhs))⟩
  | _ => binaryAddOp F fresh

def negOp (F : FloatOps) (hint : OperandTypes) : UnaryOp :=
  match hint with
  | (.int, .unknown) => ⟨asInt, fun value => .ok (.int (-value))⟩
  | (.float, .unknown) => ⟨asFloatExact, fun bits => .ok (.float (F.neg bits))⟩
  | _ =>
    { operand := asNumeric
      apply
        | .int value => .ok (.int (-value))
        | .float bits => .ok (.float (F.neg bits)) }

def notOp : UnaryOp := ⟨asBool, fun value => .ok (.bool !value)⟩

def andOp : BinaryOp := ⟨asBool, asBool, fun lhs rhs => .ok (.bool (lhs && rhs))⟩

def orOp : BinaryOp := ⟨asBool, asBool, fun lhs rhs => .ok (.bool (lhs || rhs))⟩

/-! ## Shifts -/

def shiftAmount (value : Value) : Except VmError Int64 := do
  let value ← asInt value
  if 0 ≤ value ∧ value ≤ 63 then return value else throw (.invalidShift value)

def shlOp : BinaryOp := ⟨shiftAmount, asInt, fun lhs rhs => .ok (.int (lhs <<< rhs))⟩

def shrOp : BinaryOp := ⟨shiftAmount, asInt, fun lhs rhs => .ok (.int (lhs >>> rhs))⟩

/-- `logical_shr_i64`: the shift of the unsigned reinterpretation. -/
def logicalShr (value amount : Int64) : Int64 := (value.toUInt64 >>> amount.toUInt64).toInt64

def lshrOp : BinaryOp := ⟨shiftAmount, asInt, fun lhs rhs => .ok (.int (logicalShr lhs rhs))⟩

/-! ## Comparison -/

def nullEqOp : BinaryOp where
  rhs := .ok
  lhs := .ok
  apply
    | .null, .null => .ok (.bool true)
    | _, _ => .error (.typeMismatch "null")

def ceqOp (hint : OperandTypes) : BinaryOp :=
  match hint with
  | (.int, .int) => ⟨asInt, asInt, fun lhs rhs => .ok (.bool (lhs == rhs))⟩
  | (.float, .float) => ⟨asFloatExact, asFloatExact, fun lhs rhs => .ok (.bool (floatEq lhs rhs))⟩
  | (.bool, .bool) => ⟨asBool, asBool, fun lhs rhs => .ok (.bool (lhs == rhs))⟩
  | (.string, .string) => ⟨asString, asString, fun lhs rhs => .ok (.bool (lhs == rhs))⟩
  | (.null, .null) => nullEqOp
  | _ => ⟨.ok, .ok, fun lhs rhs => .ok (.bool (valueEq lhs rhs))⟩

def compareNumericOp (F : FloatOps) (intOp : Int64 → Int64 → Bool)
    (floatOp : UInt64 → UInt64 → Bool) : BinaryOp where
  rhs := asNumeric
  lhs := asNumeric
  apply
    | .int lhs, .int rhs => .ok (.bool (intOp lhs rhs))
    | lhs, rhs => .ok (.bool (floatOp (lhs.toFloat F) (rhs.toFloat F)))

/-- An order comparison: the hint selects the specialised operation. -/
def compareOp (F : FloatOps) (hint : OperandTypes) (intOp : Int64 → Int64 → Bool)
    (floatOp : UInt64 → UInt64 → Bool) : BinaryOp :=
  match hint with
  | (.int, .int) => ⟨asInt, asInt, fun lhs rhs => .ok (.bool (intOp lhs rhs))⟩
  | (.float, .float) =>
    ⟨asFloatExact, asFloatExact, fun lhs rhs => .ok (.bool (floatOp lhs rhs))⟩
  | _ => compareNumericOp F intOp floatOp

def cltOp (F : FloatOps) (hint : OperandTypes) : BinaryOp :=
  compareOp F hint (fun lhs rhs => decide (lhs < rhs)) F.lt

def cgtOp (F : FloatOps) (hint : OperandTypes) : BinaryOp :=
  compareOp F hint (fun lhs rhs => decide (lhs > rhs)) fun lhs rhs => F.lt rhs lhs

end RustScript.Vm
