import RustScript.Bytecode.Program
import RustScript.Vm.Value

/-!
# The frontend IR

The program representation that every source frontend lowers into.  Expressions
and statements are mutually recursive: a block expression holds a list of
statements, and statements hold expressions.  Local variables are slot numbers;
each closure body and each function body runs in a frame of its own.

The ten binary operators of the source share the constructor `Expr.binary`, the
two arithmetic prefixes and the three copy and borrow wrappers share
`Expr.unary`, and the six literals share `Expr.literal`.  Type arguments, semantic
node ids and the declared schema of a `let` steer type inference only and are
left out.
-/

namespace RustScript.Compiler

abbrev LocalSlot := Nat

/-! ## Builtin functions -/

/-- The builtins that the compiler treats by name; `other` stands for the rest of the
catalog. -/
inductive BuiltinFunction where
  | len
  | slice
  | arrayNew
  | arrayPush
  | mapNew
  | get
  | has
  | set
  | toString
  | typeOf
  | assert
  | bindCallable
  | detachLocal
  | other (index : UInt16)
  deriving DecidableEq, Repr

namespace BuiltinFunction

def callIndex : BuiltinFunction → UInt16
  | .len => 0xFFA2
  | .slice => 0xFFA3
  | .arrayNew => 0xFFA5
  | .arrayPush => 0xFFA6
  | .mapNew => 0xFFA7
  | .get => 0xFFA8
  | .has => 0xFFA9
  | .set => 0xFFAA
  | .toString => 0xFF9F
  | .typeOf => 0xFFA0
  | .assert => 0xFFA1
  | .bindCallable => 0xFF94
  | .detachLocal => 0xFF93
  | .other index => index

def named : List BuiltinFunction :=
  [.len, .slice, .arrayNew, .arrayPush, .mapNew, .get, .has, .set, .toString, .typeOf, .assert,
    .bindCallable, .detachLocal]

/-- The catalog assigns every call index from `0xFF93` on. -/
def fromCallIndex (index : UInt16) : Option BuiltinFunction :=
  if index < 0xFF93 then none
  else some ((named.find? fun builtin => builtin.callIndex == index).getD (.other index))

end BuiltinFunction

/-! ## Expressions and statements -/

inductive Literal where
  | null
  | int (value : Int64)
  | float (bits : UInt64)
  | bool (value : Bool)
  | string (value : String)
  | bytes (value : List UInt8)
  deriving DecidableEq, Repr

inductive BinaryOp where
  | add
  | sub
  | mul
  | div
  | mod
  | and
  | or
  | eq
  | lt
  | gt
  deriving DecidableEq, Repr

inductive UnaryOp where
  | neg
  | not
  | toOwned
  | borrow
  | borrowMut
  deriving DecidableEq, Repr

inductive MatchTypePattern where
  | int
  | float
  | number
  | bool
  | string
  | bytes
  | array
  | map
  deriving DecidableEq, Repr

inductive MatchPattern where
  | int (value : Int64)
  | string (value : String)
  | bytes (value : List UInt8)
  | null
  | none
  | someBinding (slot : LocalSlot)
  | type (pattern : MatchTypePattern)
  deriving DecidableEq, Repr

/-- The catalog resolution of one call site: the selected function and how it
receives each argument. -/
structure ResolvedHostCall where
  name : String
  passing : List HostParamPassing
  deriving DecidableEq, Repr

/-- The identity of a declaration: the module that owns it and its position there. -/
structure SymbolId where
  module : Nat
  index : Nat
  deriving DecidableEq, Repr

/-- The frame of a closure: its parameter slots, and the slots it captures as pairs of
a slot of the enclosing frame and a slot of its own. -/
structure ClosureFrame where
  paramSlots : List LocalSlot
  captureCopies : List (LocalSlot × LocalSlot)
  deriving DecidableEq, Repr

mutual
inductive Expr where
  | literal (value : Literal)
  | functionRef (index : UInt16)
  | moduleFunctionRef (symbol : SymbolId)
  | unresolvedFunctionRef
  | optionalGet (container key : Expr) (containerSlot keySlot : LocalSlot)
  | optionUnwrapOr (value : Expr) (valueSlot : LocalSlot) (fallback : Expr)
  | call (index : UInt16) (args : List Expr) (resolution : Option ResolvedHostCall)
  | moduleCall (symbol : SymbolId) (args : List Expr)
  | localCall (index : LocalSlot) (args : List Expr)
  | closure (frame : ClosureFrame) (body : Expr)
  | closureCall (frame : ClosureFrame) (body : Expr) (args : List Expr)
  | binary (op : BinaryOp) (lhs rhs : Expr)
  | unary (op : UnaryOp) (inner : Expr)
  | var (index : LocalSlot)
  | moveVar (index : LocalSlot)
  | moveField (root : LocalSlot) (key : String)
  | moveIndex (root : LocalSlot) (index : Int64)
  | ifElse (condition thenExpr elseExpr : Expr)
  | match (valueSlot resultSlot : LocalSlot) (value : Expr)
      (arms : List (MatchPattern × Expr)) (default : Expr)
  | block (stmts : List Stmt) (expr : Expr)

inductive Stmt where
  | noop (line : Nat)
  | let (index : LocalSlot) (expr : Expr) (line : Nat)
  | assign (index : LocalSlot) (expr : Expr) (line : Nat)
  | closureLet (frame : ClosureFrame) (body : Expr) (line : Nat)
  | funcDecl (index : UInt16) (hasImpl : Bool) (line : Nat)
  | expr (expr : Expr) (line : Nat)
  | ifElse (condition : Expr) (thenBranch elseBranch : List Stmt) (line : Nat)
  | for (init : Stmt) (condition : Expr) (post : Stmt) (body : List Stmt) (line : Nat)
  | while (condition : Expr) (body : List Stmt) (line : Nat)
  | break (line : Nat)
  | continue (line : Nat)
  /-- Null out the slot. -/
  | drop (index : LocalSlot) (line : Nat)
end

instance : Inhabited Expr := ⟨.literal .null⟩

namespace Expr

abbrev null : Expr := .literal .null

abbrev int (value : Int64) : Expr := .literal (.int value)

abbrev bool (value : Bool) : Expr := .literal (.bool value)

abbrev string (value : String) : Expr := .literal (.string value)

end Expr

/-! ## Constants known at compile time -/

/-- The shift that multiplies by `value`, when `value` is a positive power of two. -/
def shiftAmountForPowerOfTwo (value : Int64) : Option Nat :=
  if value ≤ 0 then none
  else (List.range 63).find? fun shift => value.toInt == 2 ^ shift

/-- The shift that a literal factor of a multiplication is replaced by. -/
def Expr.literalShift : Expr → Option Nat
  | .literal (.int value) => shiftAmountForPowerOfTwo value
  | _ => none

/-! ## Programs -/

structure FunctionImpl where
  paramSlots : List LocalSlot
  captureCopies : List (LocalSlot × LocalSlot)
  bodyStmts : List Stmt
  bodyExpr : Expr

/-- The function implementations by function index. -/
abbrev FunctionImpls := List (UInt16 × FunctionImpl)

def FunctionImpls.get (impls : FunctionImpls) (index : UInt16) : Option FunctionImpl :=
  List.lookup index impls

structure FunctionDecl where
  name : String
  arity : UInt8
  index : UInt16
  args : List String
  argSchemas : List (Option TypeSchema)
  returnSchema : Option TypeSchema
  typeParams : List String
  exported : Bool
  returnType : ValueType
  symbol : Option SymbolId

structure FrontendIr where
  stmts : List Stmt
  locals : Nat
  localBindings : List (String × LocalSlot)
  functions : List FunctionDecl
  functionImpls : FunctionImpls

end RustScript.Compiler
