import RustScript.Bytecode.Program
import RustScript.Lib.LittleEndian
import RustScript.Lib.Wp
import RustScript.Vm.Ops

/-!
# The state of an interpreter

`Instance` is one execution position inside a program: the instruction pointer,
the operand stack, the local slots of all frames in one vector, the frames, and
the capture cells that local slots share with closures.  Shared cells and callable
environments live in a heap that only grows.  The fields that only native code
reads, the counters and the queues of the embedding API are left out.

`CoreM` computations act on an instance and may fail; a failure keeps the state it
was raised in.  The operand stack is a list with its top in front.
-/

namespace RustScript.Vm

open ByteCodec (ofLeBytes)
open Wp (lift)

inductive FrameContinuation where
  | halt
  | resumeBytecode (returnIp : Nat)
  | returnToHost
  deriving DecidableEq, Repr

structure ExecutionFrame where
  continuation : FrameContinuation
  operandStackBase : Nat
  localBase : Nat
  localCount : Nat
  prototypeId : Option UInt32
  deriving DecidableEq, Repr

def ExecutionFrame.root (localCount : Nat) : ExecutionFrame := ⟨.halt, 0, 0, localCount, none⟩

/-- A call that reached the host. -/
structure HostCall where
  index : UInt16
  args : List Value

structure Instance (W : Type) where
  ip : Nat
  stack : List Value
  locals : List Value
  /-- The cell that a local slot shares with closures, by absolute slot. -/
  captureCells : Nat → Option Nat
  /-- The active frames, innermost first. -/
  executionFrames : List ExecutionFrame
  activeLocalBaseCache : Nat
  activeOperandStackBaseCache : Nat
  callDepth : Nat
  maxScriptCallDepth : Nat
  hostReturn : Option Value
  waitingHostOp : Option Nat
  /-- The callable objects this instance made. -/
  ownedCallables : List Nat
  nextObject : Nat
  cells : List Value
  environments : List (List Nat)
  /-- The state of everything outside the interpreter, and the calls made to it. -/
  world : W
  hostCalls : List HostCall

abbrev CoreM (W : Type) := EStateM VmError (Instance W)

variable {W : Type}

/-! ## Operands -/

def popValue : CoreM W Value := fun s =>
  match s.stack with
  | [] => .error .stackUnderflow s
  | value :: stack => .ok value { s with stack }

def peekValue : CoreM W Value := fun s =>
  match s.stack with
  | [] => .error .stackUnderflow s
  | value :: _ => .ok value s

def push (value : Value) : CoreM W Unit := modify fun s => { s with stack := value :: s.stack }

/-- Pop a value and check its type. -/
def popAs {α : Type} (check : Value → Except VmError α) : CoreM W α := do
  lift (check (← popValue))

def popBool : CoreM W Bool := popAs asBool

def BinaryOp.exec (op : BinaryOp) : CoreM W Unit := do
  let rhs ← popAs op.rhs
  let lhs ← popAs op.lhs
  push (← lift (op.apply lhs rhs))

def UnaryOp.exec (op : UnaryOp) : CoreM W Unit := do
  let operand ← popAs op.operand
  push (← lift (op.apply operand))

/-- The identity of the next heap object. -/
def allocate : CoreM W Nat := fun s => .ok s.nextObject { s with nextObject := s.nextObject + 1 }

/-! ## Reading the code -/

def readU8 (code : List UInt8) : CoreM W UInt8 := fun s =>
  match code[s.ip]? with
  | some byte => .ok byte { s with ip := s.ip + 1 }
  | none => .error .bytecodeBounds s

def readBytes (code : List UInt8) (count : Nat) : CoreM W (List UInt8) := fun s =>
  if s.ip + count > code.length then .error .bytecodeBounds s
  else .ok ((code.drop s.ip).take count) { s with ip := s.ip + count }

def readU16 (code : List UInt8) : CoreM W UInt16 := do
  return UInt16.ofNat (ofLeBytes (← readBytes code 2))

def readU32 (code : List UInt8) : CoreM W UInt32 := do
  return UInt32.ofNat (ofLeBytes (← readBytes code 4))

def setIp (ip : Nat) : CoreM W Unit := modify fun s => { s with ip }

def advance (count : Nat) : CoreM W Unit := modify fun s => { s with ip := s.ip + count }

/-! ## Captured variables -/

mutual
/-- The environments that the callables inside a value refer to. -/
def Value.environments : Value → List Nat
  | .callable _ value => value.env.toList
  | .array _ values => Value.allEnvironments values
  | .map _ entries => Value.entryEnvironments entries
  | _ => []

def Value.allEnvironments : List Value → List Nat
  | [] => []
  | v :: vs => v.environments ++ Value.allEnvironments vs

def Value.entryEnvironments : List (Value × Value) → List Nat
  | [] => []
  | (k, v) :: es => k.environments ++ (v.environments ++ Value.entryEnvironments es)
end

namespace Instance

/-- The cells that a value refers to directly. -/
def cellsOf (s : Instance W) (value : Value) : List Nat :=
  value.environments.flatMap fun env => s.environments.getD env []

/-- One step further through the contents of cells. -/
def expand (s : Instance W) (cells : List Nat) : List Nat :=
  cells ++ cells.flatMap fun cell => s.cellsOf (s.cells.getD cell .null)

/-- A cell can be reached from a value.  The source walks the cells depth first and visits
each one once, so as many steps as there are cells suffice. -/
def valueReferencesCaptureCell (s : Instance W) (value : Value) (target : Nat) : Bool :=
  (s.expand^[s.cells.length] (s.cellsOf value)).contains target

def activeLocalBase (s : Instance W) : Nat := s.activeLocalBaseCache

def scriptFrameDepth (s : Instance W) : Nat :=
  s.executionFrames.countP fun frame => frame.prototypeId.isSome

/-- The contents of a slot: of the cell it shares, or its own. -/
def slotValue (s : Instance W) (absolute : Nat) : Option Value :=
  match s.captureCells absolute with
  | some cell => some (s.cells.getD cell .null)
  | none => s.locals[absolute]?

end Instance

/-! ## Local slots -/

def absoluteLocalIndex (index : UInt8) : CoreM W Nat := fun s =>
  let absolute := s.activeLocalBase + index.toNat
  if absolute < s.locals.length then .ok absolute s else .error (.invalidLocal index) s

def loadLocalValue (index : UInt8) : CoreM W Value := do
  let absolute ← absoluteLocalIndex index
  let s ← get
  return (s.slotValue absolute).getD .null

def setSlot (absolute : Nat) (value : Value) : CoreM W Unit :=
  modify fun s => { s with locals := s.locals.set absolute value }

/-- A shared slot is written through its cell, which must not come to hold itself. -/
def storeLocalAbsolute (absolute : Nat) (index : UInt8) (value : Value) : CoreM W Unit := fun s =>
  match s.captureCells absolute with
  | some cell =>
    if s.valueReferencesCaptureCell value cell then
      .error (.invalidFrameState "callable capture ownership cycle is unsupported") s
    else
      .ok () { s with
        cells := s.cells.set cell value
        locals := s.locals.set absolute value }
  | none =>
    if absolute < s.locals.length then .ok () { s with locals := s.locals.set absolute value }
    else .error (.invalidLocal index) s

def storeLocal (index : UInt8) (value : Value) : CoreM W Unit := do
  let absolute ← absoluteLocalIndex index
  storeLocalAbsolute absolute index value

/-- `detach_local_with_drop_contract`: the slot gives up its cell and its value. -/
def detachLocal (index : UInt8) : CoreM W Unit := do
  let absolute ← absoluteLocalIndex index
  modify fun s => { s with
    captureCells := fun slot => if slot = absolute then none else s.captureCells slot
    locals := s.locals.set absolute .null }

/-- A new cell. -/
def allocateCell (value : Value) : CoreM W Nat := fun s =>
  .ok s.cells.length { s with cells := s.cells ++ [value] }

end RustScript.Vm
