import RustScript.Bytecode.Value

/-!
# Values inside the virtual machine

The values an instruction computes with.  Arrays, maps and callables are
reference counted; the machine can tell two of them apart by their address, as a
map key and, for callables, everywhere.  Each of these values therefore carries
the identity of the heap object it refers to.  A builtin that updates a container
detaches it before it writes, so the result is a new object: nobody else refers
to an object that is updated in place.

A map is the list of its entries.  The iteration order of the source's hash map
is not observable here, since `mapEq` looks entries up by key.
-/

namespace RustScript.Vm

inductive VmError where
  | stackUnderflow
  | typeMismatch (expected : String)
  | divisionByZero
  | integerOverflow (operation : String)
  | invalidShift (value : Int64)
  | invalidConstant (index : UInt32)
  | invalidLocal (index : UInt8)
  | invalidCall (index : UInt16)
  | invalidCallArity (name : String) (expected got : UInt8)
  | invalidFrameState (message : String)
  | frameAllocationLimit (requested limit : Nat)
  | invalidCallable
  | invalidCallablePrototype (prototypeId : UInt32)
  | invalidCallablePrototypeId (value : Int64)
  | invalidBranchTarget (target : Nat)
  | callableArityMismatch (prototypeId : UInt32) (expected got : UInt8)
  | callScriptRequiresEnvironment (prototypeId : UInt32)
  | callStackOverflow (limit : Nat)
  | invalidCallStackLimit (limit : Nat)
  | unboundImport (name : String)
  | invalidOpcode (opcode : UInt8)
  | bytecodeBounds
  | hostError (message : String)
  | jitNative (message : String)
  /-- A failure of the execution scope, with its text. -/
  | executionScope (message : String)
  | invalidFuelCheckInterval (interval : Nat)
  | invalidEpochCheckInterval (interval : Nat)
  | interruptionModeConflict (active requested : String)
  | fuelOverflow
  | outOfFuel (needed remaining : Nat)
  | epochDeadlineReached (current deadline : Nat)
  deriving DecidableEq, Repr

/-- Errors that are neither about the code as such nor interruptions. -/
def VmError.Harmless : VmError → Prop
  | .invalidOpcode _ | .invalidConstant _ | .invalidBranchTarget _ | .bytecodeBounds => False
  | .outOfFuel .. | .epochDeadlineReached .. => False
  | _ => True

inductive Value where
  | null
  | int (value : Int64)
  | float (bits : UInt64)
  | bool (value : Bool)
  | string (value : String)
  | bytes (value : List UInt8)
  | array (object : Nat) (values : List Value)
  | map (object : Nat) (entries : List (Value × Value))
  | callable (object : Nat) (value : CallableValue)

namespace Value

def isCallable : Value → Bool
  | .callable .. => true
  | _ => false

def valueType : Value → ValueType
  | .null => .null
  | .int _ => .int
  | .float _ => .float
  | .bool _ => .bool
  | .string _ => .string
  | .bytes _ => .bytes
  | .array .. => .array
  | .map .. => .map
  | .callable .. => .callable

end Value

mutual
/-- The value as it is spelled, without the identities of its objects. -/
def Value.erase : Value → RustScript.Value
  | .null => .null
  | .int value => .int value
  | .float bits => .float bits
  | .bool value => .bool value
  | .string value => .string value
  | .bytes value => .bytes value
  | .array _ values => .array (Value.eraseAll values)
  | .map _ entries => .map (Value.eraseEntries entries)
  | .callable _ value => .callable value

def Value.eraseAll : List Value → List RustScript.Value
  | [] => []
  | v :: vs => v.erase :: Value.eraseAll vs

def Value.eraseEntries : List (Value × Value) → List (RustScript.Value × RustScript.Value)
  | [] => []
  | (k, v) :: es => (k.erase, v.erase) :: Value.eraseEntries es
end

/-! ## Equality -/

/-- A float whose exponent is all ones and whose fraction is not zero. -/
def isNan (bits : UInt64) : Bool := decide (0x7FF0000000000000 < bits &&& 0x7FFFFFFFFFFFFFFF)

def isZero (bits : UInt64) : Bool := bits == 0 || bits == 0x8000000000000000

/-- IEEE equality: no NaN equals anything, and the two zeroes are equal. -/
def floatEq (lhs rhs : UInt64) : Bool :=
  !isNan lhs && (lhs == rhs || (isZero lhs && isZero rhs))

/-- Two callables are equal when they have the same prototype and share their environment. -/
def callableValueEq (lhs rhs : CallableValue) : Bool := lhs == rhs

def mapKeyEq : Value → Value → Bool
  | .null, .null => true
  | .int lhs, .int rhs => lhs == rhs
  | .float lhs, .float rhs => canonicalFloatKeyBits lhs == canonicalFloatKeyBits rhs
  | .bool lhs, .bool rhs => lhs == rhs
  | .string lhs, .string rhs => lhs == rhs
  | .bytes lhs, .bytes rhs => lhs == rhs
  | .array lhs _, .array rhs _ => lhs == rhs
  | .map lhs _, .map rhs _ => lhs == rhs
  | .callable _ lhs, .callable _ rhs => callableValueEq lhs rhs
  | _, _ => false

namespace VmMap

def get (entries : List (Value × Value)) (key : Value) : Option Value :=
  (entries.find? fun entry => mapKeyEq entry.1 key).map Prod.snd

def insert (entries : List (Value × Value)) (key value : Value) : List (Value × Value) :=
  AssocMap.insert mapKeyEq entries key value

def remove (entries : List (Value × Value)) (key : Value) : List (Value × Value) :=
  entries.filter fun entry => !mapKeyEq entry.1 key

end VmMap

mutual
/-- `Value::eq`: arrays element by element, maps as sets of entries.  A map is equal to
itself without looking inside, an array is not. -/
def valueEq : Value → Value → Bool
  | .null, .null => true
  | .int lhs, .int rhs => lhs == rhs
  | .float lhs, .float rhs => floatEq lhs rhs
  | .bool lhs, .bool rhs => lhs == rhs
  | .string lhs, .string rhs => lhs == rhs
  | .bytes lhs, .bytes rhs => lhs == rhs
  | .array _ lhs, .array _ rhs => valuesEq lhs rhs
  | .map object lhs, .map object' rhs =>
    object == object' || (lhs.length == rhs.length && entriesEq lhs rhs)
  | .callable _ lhs, .callable _ rhs => callableValueEq lhs rhs
  | _, _ => false

def valuesEq : List Value → List Value → Bool
  | [], [] => true
  | v :: vs, w :: ws => valueEq v w && valuesEq vs ws
  | _, _ => false

/-- Every entry is found in the other map with an equal value. -/
def entriesEq : List (Value × Value) → List (Value × Value) → Bool
  | [], _ => true
  | (key, value) :: entries, other =>
    (match VmMap.get other key with
      | some found => valueEq value found
      | none => false) && entriesEq entries other
end

/-! ## Builtins on containers -/

/-- `array_push`; the result is the object `fresh`. -/
def arrayPush (fresh : Nat) (items value : Value) : Except VmError Value :=
  match items with
  | .array _ values => .ok (.array fresh (values ++ [value]))
  | _ => .error (.typeMismatch "array")

/-- The entries after `set` on a map: storing null removes the key. -/
def setMap (entries : List (Value × Value)) (key value : Value) : List (Value × Value) :=
  match value with
  | .null => VmMap.remove entries key
  | value => VmMap.insert entries key value

def setArray (values : List Value) (index : Int64) (value : Value) : Except VmError (List Value) :=
  if index < 0 then .error (.hostError "array index must be non-negative")
  else
    let index := index.toInt.toNat
    if index < values.length then .ok (values.set index value)
    else if index = values.length then .ok (values ++ [value])
    else .error (.hostError ("array index " ++ toString index ++ " out of bounds"))

/-- `set`; the result is the object `fresh`. -/
def setOwned (fresh : Nat) (container key value : Value) : Except VmError Value :=
  match container with
  | .array _ values =>
    match key with
    | .int index => do return .array fresh (← setArray values index value)
    | _ => .error (.typeMismatch "int")
  | .map _ entries =>
    if key.isCallable then
      .error (.hostError "callable values are not supported as map keys")
    else .ok (.map fresh (setMap entries key value))
  | _ => .error (.typeMismatch "array/map")

end RustScript.Vm
