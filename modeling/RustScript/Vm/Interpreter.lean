import RustScript.Vm.Calls

/-!
# The interpreter, one instruction at a time

`Engine.execute` is what one instruction does to an instance.  It knows neither
fuel nor fusion: an instruction that enters a frame, or a host call in front of a
`Ret`, says so in its result, and the run loop goes on from there.

Operands come from tables that are built once from the code.  The tables are
filled by a walk over the instructions that stops at the first byte that is no
opcode; an instruction the walk did not reach reads its operands from the code.
-/

namespace RustScript.Vm

open ByteCodec (ofLeBytes)
open Wp (lift expect)

variable {W : Type}

/-! ## Decoded instructions -/

/-- The offsets at which the walk over the code finds an instruction; every step consumes at
least one byte. -/
def decodedStarts : Nat → Nat → List UInt8 → List Nat
  | 0, _, _ => []
  | _ + 1, _, [] => []
  | fuel + 1, ip, byte :: rest =>
    match OpCode.tryFrom byte with
    | none => []
    | some opcode =>
      ip :: decodedStarts fuel (ip + 1 + opcode.operandLen) (rest.drop opcode.operandLen)

def readU32At (code : List UInt8) (offset : Nat) : Option UInt32 :=
  if offset + 4 ≤ code.length then
    some (UInt32.ofNat (ofLeBytes ((code.drop offset).take 4)))
  else none

/-- The function whose region holds an offset; offsets outside all regions and the program's
own region belong to none. -/
def regionOwner (regions : List FunctionRegion) (ip : Nat) : Option UInt32 :=
  (regions.find? fun region =>
    decide (region.startIp.toNat ≤ ip) && decide (ip < region.endIp.toNat)).bind
      FunctionRegion.prototypeId

namespace Engine

variable (E : Engine W)

/-- The opcode at an offset that the walk reached. -/
def decodedOpcodeAt (ip : Nat) : Option OpCode :=
  if ip ∈ decodedStarts E.program.code.length 0 E.program.code then
    E.program.code[ip]?.bind OpCode.tryFrom
  else none

def decodedLdcValueAt (ip : Nat) : Option Value :=
  match E.decodedOpcodeAt ip with
  | some .ldc => (readU32At E.program.code (ip + 1)).bind fun index => E.constants[index.toNat]?
  | _ => none

def decodedJumpTargetAt (ip : Nat) : Option Nat :=
  match E.decodedOpcodeAt ip with
  | some .br | some .brfalse => (readU32At E.program.code (ip + 1)).map UInt32.toNat
  | _ => none

/-- A branch whose target belongs to the same function needs no check when it is taken. -/
def decodedJumpTargetIsValidAt (ip : Nat) : Bool :=
  match E.decodedJumpTargetAt ip with
  | some target =>
    decide (target < E.program.code.length) &&
      regionOwner E.program.functionRegions ip == regionOwner E.program.functionRegions target
  | none => false

def decodedLocalIndexAt (ip : Nat) : Option UInt8 :=
  match E.decodedOpcodeAt ip with
  | some .ldloc | some .stloc => E.program.code[ip + 1]?
  | _ => none

/-! ## Type hints -/

def operandTypeHint (ip : Nat) : OperandTypes :=
  match E.program.typeMap with
  | some typeMap =>
    ((typeMap.operandTypes.find? fun entry => entry.1 == ip).map Prod.snd).getD (.unknown, .unknown)
  | none => (.unknown, .unknown)

def localTypeHint (index : UInt8) : ValueType :=
  (E.program.typeMap.bind fun typeMap => typeMap.localTypes[index.toNat]?).getD .unknown

/-! ## Branches -/

def activePrototype (s : Instance W) : Option UInt32 :=
  s.executionFrames.head?.bind ExecutionFrame.prototypeId

/-- A checked branch stays inside the active function. -/
def jumpTargetIsValid (s : Instance W) (target : Nat) : Bool :=
  match activePrototype s with
  | some prototypeId =>
    match (E.program.callablePrototypes[prototypeId.toNat]?).bind fun prototype =>
        match prototype.target with
        | .scriptFunction functionId => E.program.scriptFunctions[functionId.toNat]?
        | .hostImport _ => none with
    | some function =>
      decide (function.entryIp.toNat ≤ target) && decide (target < function.endIp.toNat)
    | none => false
  | none => (regionOwner E.program.functionRegions target).isNone

def jumpTo (target : Nat) : CoreM W Unit := fun s =>
  if target ≥ E.program.code.length then .error .bytecodeBounds s
  else if E.program.functionRegions ≠ [] ∧ ¬ E.jumpTargetIsValid s target then
    .error (.invalidBranchTarget target) s
  else .ok () { s with ip := target }

/-- The target operand of the branch at `opcodeIp`. -/
def readTarget (opcodeIp : Nat) : CoreM W Nat :=
  match E.decodedJumpTargetAt opcodeIp with
  | some target => do
      advance 4
      return target
  | none => do return (← readU32 E.program.code).toNat

def branch (opcodeIp target : Nat) : CoreM W Unit :=
  if E.decodedJumpTargetIsValidAt opcodeIp then setIp target else E.jumpTo target

def branchUnless (condition : Bool) (opcodeIp target : Nat) : CoreM W Unit :=
  if condition then pure () else E.branch opcodeIp target

/-- The local operand of the instruction at `opcodeIp`. -/
def readLocalIndex (opcodeIp : Nat) : CoreM W UInt8 :=
  match E.decodedLocalIndexAt opcodeIp with
  | some index => do
      advance 1
      return index
  | none => readU8 E.program.code

def readConstant (opcodeIp : Nat) : CoreM W Value :=
  match E.decodedLdcValueAt opcodeIp with
  | some value => do
      advance 4
      return value
  | none => do
      let index ← readU32 E.program.code
      expect E.constants[index.toNat]? (.invalidConstant index)

/-! ## Instructions -/

/-- How an instruction ends: with an outcome, in a new frame, or after a host call with a
`Ret` as the next instruction. -/
inductive Stepped where
  | outcome (outcome : ExecOutcome)
  | entered
  | tailReturn
  deriving DecidableEq, Repr

def Stepped.continue : Stepped := .outcome .continue

def canFuseCallRetPattern (ip : Nat) : Bool := E.program.code[ip]? == some OpCode.ret.toByte

/-- The operation of an instruction on two operands; a new array becomes the object `fresh`. -/
def binaryOp (opcodeIp fresh : Nat) : OpCode → Option BinaryOp
  | .add => some (addOp E.floatOps fresh (E.operandTypeHint opcodeIp))
  | .sub => some (subOp E.floatOps (E.operandTypeHint opcodeIp))
  | .mul => some (mulOp E.floatOps (E.operandTypeHint opcodeIp))
  | .div => some (divOp E.floatOps (E.operandTypeHint opcodeIp))
  | .mod => some (modOp E.floatOps (E.operandTypeHint opcodeIp))
  | .shl => some shlOp
  | .shr => some shrOp
  | .lshr => some lshrOp
  | .and => some andOp
  | .or => some orOp
  | .ceq => some (ceqOp (E.operandTypeHint opcodeIp))
  | .clt => some (cltOp E.floatOps (E.operandTypeHint opcodeIp))
  | .cgt => some (cgtOp E.floatOps (E.operandTypeHint opcodeIp))
  | _ => none

/-- The identity of an array on top of the stack is in use. -/
def claimObject : CoreM W Unit := modify fun s =>
  match s.stack with
  | .array object _ :: _ => { s with nextObject := max s.nextObject (object + 1) }
  | _ => s

def executeBinary (opcodeIp : Nat) (opcode : OpCode) : CoreM W Unit := do
  let s ← get
  match E.binaryOp opcodeIp s.nextObject opcode with
  | some op =>
    op.exec
    claimObject
  | none => pure ()

/-- What an answer of the host means for a `Call` instruction. -/
def hostCallStepped (canFuseTailHalt : Bool) : HostCallExecOutcome → Stepped
  | .returned => if canFuseTailHalt then .tailReturn else .continue
  | .halted => .outcome .halted
  | .yielded => .outcome .yielded
  | .pending opId => .outcome (.waiting opId)

def executeCall (callIp : Nat) : CoreM W Stepped := do
  let index ← readU16 E.program.code
  let argc ← readU8 E.program.code
  let s ← get
  let canFuseTailHalt := E.canFuseCallRetPattern s.ip
  let outcome ← E.executeHostCall index argc callIp
  return hostCallStepped canFuseTailHalt outcome

def Entered.stepped : Entered → Stepped
  | .frame => .entered
  | .host outcome => .outcome outcome

/-- The instructions that stay in line. -/
def executeInline (opcodeIp : Nat) : OpCode → CoreM W Unit
  | .nop => pure ()
  | .ldc => do push (← E.readConstant opcodeIp)
  | .neg => (negOp E.floatOps (E.operandTypeHint opcodeIp)).exec
  | .not => notOp.exec
  | .pop => do let _ ← popValue
  | .dup => do push (← peekValue)
  | .ldloc => do
      let index ← E.readLocalIndex opcodeIp
      push (← loadLocalValue index)
  | .stloc => do
      let index ← E.readLocalIndex opcodeIp
      let value ← popValue
      storeLocal index value
  | opcode => E.executeBinary opcodeIp opcode

/-- One instruction; its opcode has been read. -/
def execute (opcode : OpCode) : CoreM W Stepped := do
  let opcodeIp := (← get).ip - 1
  match opcode with
  | .ret => do return .outcome (← E.completeActiveFrame)
  | .br => do
      let target ← E.readTarget opcodeIp
      E.branch opcodeIp target
      return .continue
  | .brfalse => do
      let target ← E.readTarget opcodeIp
      let condition ← popBool
      E.branchUnless condition opcodeIp target
      return .continue
  | .call => E.executeCall opcodeIp
  | .callValue => do
      let argc ← readU8 E.program.code
      return (← E.executeCallValue argc).stepped
  | .callScript => do
      let prototypeId ← readU32 E.program.code
      let argc ← readU8 E.program.code
      return (← E.executeCallScript prototypeId argc).stepped
  | opcode => do
      E.executeInline opcodeIp opcode
      return .continue

end Engine

end RustScript.Vm
