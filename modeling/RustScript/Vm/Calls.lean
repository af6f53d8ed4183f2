import RustScript.Compiler.Ir
import RustScript.Vm.Instance

/-!
# Calls

Entering and leaving frames, binding closures and calling the host.

A frame owns a range of the vector of locals, at its end.  A callee starts from
null slots; then the program's functions, the callables of the caller's slots,
the arguments, the captured cells and the callee itself are stored, in this
order, so that a later one wins.

The host is a parameter: what a call answers is a function of its arguments and
of the whole instance, and it can change nothing but the world outside.  The two
builtins that act on the frame itself, `__bind_callable` and `__detach_local`, are
part of the interpreter.  Checks against type schemas are a parameter too.
-/

namespace RustScript.Vm

open Compiler (BuiltinFunction)
open Wp (lift require expect)

inductive HostAnswer where
  | returned (values : List Value)
  | halted
  /-- A function that yields is called again with the same arguments; a builtin is not. -/
  | yielded (retry : Bool)
  | pending (opId : Nat)
  /-- A failed call leaves some of its arguments on the stack, top first. -/
  | failed (error : VmError) (left : List Value)

structure HostResult (W : Type) where
  answer : HostAnswer
  world : W
  nextObject : Nat

/-- Host functions and builtins. -/
structure Host (W : Type) where
  /-- The imports of the program are bound. -/
  bindings : Except String Unit
  /-- The arity and the capability of a call are checked before its arguments are taken. -/
  authorize : UInt16 → UInt8 → Except String Unit
  /-- A builtin is replaced by a host function. -/
  overrides : UInt16 → Bool
  call : UInt16 → List Value → Instance W → HostResult W
  /-- What is asked of a host: a function fails for reasons of its own.  It does not hand on a
  failed charge of fuel (`vm.consume_fuel(n)?`) or another interruption, which the run loop
  would take for its own and yield, nor an error about the code. -/
  ownErrors : ∀ index args s error left,
    (call index args s).answer = .failed error left → error.Harmless := by rintro _ _ _ _ _ ⟨⟩

/-- A program with everything an interpreter needs to run it. -/
structure Engine (W : Type) where
  program : Program
  /-- The constants as values of this interpreter. -/
  constants : List Value
  erase_constants : constants.map Value.erase = program.constants
  floatOps : FloatOps
  host : Host W
  validate : Instance W → Value → TypeSchema → Except VmError Unit

inductive ExecOutcome where
  | continue
  | halted
  | yielded
  | waiting (opId : Nat)
  deriving DecidableEq, Repr

inductive HostCallExecOutcome where
  | returned
  | halted
  | yielded
  | pending (opId : Nat)
  deriving DecidableEq, Repr

variable {W : Type}

def mapCallableSchemaError (error : VmError) (context : String) : VmError :=
  match error with
  | .hostError message => .hostError message
  | _ => .typeMismatch context

namespace Engine

variable (E : Engine W)

/-! ## Closures -/

/-- The cell of a slot, or a new one. -/
def cellOr (cell : Option Nat) (value : Value) : CoreM W Nat :=
  match cell with
  | some cell => pure cell
  | none => allocateCell value

/-- The cell of a slot that is captured by reference, which the slot shares from now on. -/
def shareCell (source : UInt16) (value : Value) : CoreM W Nat := do
  let s ← get
  let absolute := s.activeLocalBase + source.toNat
  require (absolute < s.locals.length)
    (.invalidFrameState "capture source exceeds active frame locals")
  let cell ← cellOr (s.captureCells absolute) value
  modify fun s => { s with
    captureCells := fun slot => if slot = absolute then some cell else s.captureCells slot
    locals := s.locals.set absolute (s.cells.getD cell .null) }
  return cell

/-- The cell of a captured variable: a variable captured by reference shares the cell of its
slot, every other one, and the callable itself, gets a cell of its own. -/
def bindCapture (prototype : CallablePrototype) (value : Value) (source target : UInt16)
    (mode : CaptureBindingMode) : CoreM W Nat :=
  if prototype.selfSlot ≠ some target ∧ (mode = .borrow ∨ mode = .borrowMut) then
    shareCell source value
  else allocateCell value

def bindCaptures (prototype : CallablePrototype) :
    List Value → List UInt16 → List UInt16 → List CaptureBindingMode → CoreM W (List Nat)
  | value :: values, source :: sources, target :: targets, mode :: modes => do
      let cell ← bindCapture prototype value source target mode
      let cells ← bindCaptures prototype values sources targets modes
      return cell :: cells
  | _, _, _, _ => return []

def bindCallableValue (prototypeId : UInt32) (captures : List Value) : CoreM W Value := do
  let prototype ← expect E.program.callablePrototypes[prototypeId.toNat]?
    (.invalidCallablePrototype prototypeId)
  require (captures.length = prototype.captureSlots.length ∧
      captures.length = prototype.captureModes.length ∧
      captures.length = prototype.captureSourceSlots.length)
    (.invalidFrameState "callable capture layout mismatch")
  let cells ← bindCaptures prototype captures prototype.captureSourceSlots
    prototype.captureSlots prototype.captureModes
  let s ← get
  let env := if prototype.kind = .closure ∨ cells ≠ [] then some s.environments.length else none
  let object ← allocate
  modify fun s => { s with
    environments := if env.isSome then s.environments ++ [cells] else s.environments
    ownedCallables := s.ownedCallables ++ [object] }
  return .callable object ⟨prototypeId, prototype.kind, env⟩

/-! ## Host calls -/

/-- Where execution goes on after a call that waits for the host. -/
def callResumeIp (callIp : Nat) : Except VmError Nat :=
  match E.program.code[callIp]? with
  | none => .error .bytecodeBounds
  | some raw =>
    match OpCode.tryFrom raw with
    | none => .error (.invalidOpcode raw)
    | some opcode =>
      if opcode ≠ .call ∧ opcode ≠ .callValue then .error (.invalidOpcode opcode.toByte)
      else if callIp + 1 + opcode.operandLen > E.program.code.length then
        .error .bytecodeBounds
      else .ok (callIp + 1 + opcode.operandLen)

def callablePrototypeId : Option Value → Except VmError UInt32
  | some (.int value) =>
    if 0 ≤ value.toInt ∧ value.toInt < 4294967296 then .ok (UInt32.ofNat value.toInt.toNat)
    else .error (.invalidCallablePrototype 0xFFFFFFFF)
  | _ => .error (.typeMismatch "callable prototype id")

def callableCaptures : Option Value → Except VmError (List Value)
  | some (.array _ captures) => .ok captures
  | _ => .error (.typeMismatch "callable captures")

def detachedSlot : Option Value → Except VmError UInt8
  | some (.int value) =>
    if 0 ≤ value.toInt ∧ value.toInt < 256 then .ok (UInt8.ofNat value.toInt.toNat)
    else .error (.typeMismatch "local slot")
  | _ => .error (.typeMismatch "local slot")

/-- The builtin `__bind_callable`, applied to its arguments. -/
def bindCallableBuiltin (args : List Value) : CoreM W Value := do
  let prototypeId ← lift (callablePrototypeId args.head?)
  let captures ← lift (callableCaptures args.tail.head?)
  E.bindCallableValue prototypeId captures

/-- The builtin `__detach_local`, applied to its arguments. -/
def detachLocalBuiltin (args : List Value) : CoreM W Unit := do
  detachLocal (← lift (detachedSlot args.head?))

/-- Replace the arguments on the stack by the results, the last one on top. -/
def replaceArgs (argc : Nat) (values : List Value) : CoreM W Unit :=
  modify fun s => { s with stack := values.reverse ++ s.stack.drop argc }

/-- What a host function or a builtin answers takes effect. -/
def applyAnswer (argc callIp : Nat) : HostAnswer → CoreM W HostCallExecOutcome
  | .returned values => do
      replaceArgs argc values
      return .returned
  | .halted => do
      replaceArgs argc []
      return .halted
  | .yielded true => do
      setIp callIp
      return .yielded
  | .yielded false => do
      replaceArgs argc []
      return .yielded
  | .pending opId => do
      replaceArgs argc []
      let resumeIp ← lift (E.callResumeIp callIp)
      modify fun s => { s with waitingHostOp := some opId, ip := resumeIp }
      return .pending opId
  | .failed error left => do
      modify fun s => { s with stack := left ++ s.stack.drop argc }
      throw error

def callHost (index : UInt16) (argc callIp : Nat) : CoreM W HostCallExecOutcome := do
  let s ← get
  let args := (s.stack.take argc).reverse
  let result := E.host.call index args s
  modify fun s => { s with
    world := result.world
    nextObject := result.nextObject
    hostCalls := s.hostCalls ++ [⟨index, args⟩] }
  E.applyAnswer argc callIp result.answer

def executeHostCall (index : UInt16) (argc : UInt8) (callIp : Nat) :
    CoreM W HostCallExecOutcome := do
  lift ((E.host.authorize index argc).mapError .hostError)
  let s ← get
  require (argc.toNat ≤ s.stack.length) .stackUnderflow
  let args := (s.stack.take argc.toNat).reverse
  if index = BuiltinFunction.bindCallable.callIndex ∧ ¬ E.host.overrides index then
    let callable ← E.bindCallableBuiltin args
    replaceArgs argc.toNat [callable]
    return .returned
  else if index = BuiltinFunction.detachLocal.callIndex ∧ ¬ E.host.overrides index then
    detachLocalBuiltin args
    replaceArgs argc.toNat []
    return .returned
  else E.callHost index argc.toNat callIp

/-! ## Entering a frame -/

def checkedFrameEnd (localBase localCount : Nat) : Except VmError Nat :=
  if localCount > maxFrameLocalCount then
    .error (.frameAllocationLimit localCount maxFrameLocalCount)
  else .ok (localBase + localCount)

/-- The callables in the slots of the calling frame. -/
def inheritedCallables : CoreM W (List (Nat × Value)) := fun s =>
  match s.executionFrames with
  | [] => .ok [] s
  | frame :: _ =>
    if frame.localBase + frame.localCount > s.locals.length then
      .error (.invalidFrameState "active local frame range is invalid") s
    else
      let slots := (s.locals.drop frame.localBase).take frame.localCount
      .ok ((slots.zipIdx.filter fun slot => slot.1.isCallable).map fun slot => (slot.2, slot.1)) s

/-- The program's functions, each as a new callable object. -/
def storeRootCallable (localBase localCount : Nat) (binding : RootCallableBinding) :
    CoreM W Unit := do
  require (binding.localSlot.toNat < localCount)
    (.invalidFrameState "root callable binding is outside the script frame")
  let prototype ← expect E.program.callablePrototypes[binding.prototypeId.toNat]?
    (.invalidCallablePrototype binding.prototypeId)
  let object ← allocate
  modify fun s => { s with ownedCallables := s.ownedCallables ++ [object] }
  setSlot (localBase + binding.localSlot.toNat)
    (.callable object ⟨binding.prototypeId, prototype.kind, none⟩)

def storeInherited (localBase localCount : Nat) (inherited : Nat × Value) : CoreM W Unit :=
  if inherited.1 < localCount then setSlot (localBase + inherited.1) inherited.2 else pure ()

def storeArgument (localBase localCount : Nat) (argument : UInt16 × Value) : CoreM W Unit := do
  require (argument.1.toNat < localCount)
    (.invalidFrameState "parameter slot is outside the script frame")
  setSlot (localBase + argument.1.toNat) argument.2

/-- A captured variable starts with the value of its cell and shares the cell, unless it is
the callee itself. -/
def storeCapture (prototype : CallablePrototype) (localBase : Nat) (capture : UInt16 × Nat) :
    CoreM W Unit := do
  require (capture.1.toNat < prototype.frameLocalCount)
    (.invalidFrameState "capture slot is outside the script frame")
  let absolute := localBase + capture.1.toNat
  modify fun s => { s with locals := s.locals.set absolute (s.cells.getD capture.2 .null) }
  if prototype.selfSlot = some capture.1 then pure ()
  else
    modify fun s => { s with
      captureCells := fun slot =>
        if slot = absolute then some capture.2 else s.captureCells slot }

/-- The captured variables of a callable that has an environment.  The slots are paired with
their modes and then with the cells. -/
def storeCaptures (prototype : CallablePrototype) (localBase : Nat)
    (callable : Option (Nat × CallableValue)) : CoreM W Unit :=
  match callable.bind fun callable => callable.2.env with
  | none => pure ()
  | some env => do
      let s ← get
      let cells := s.environments.getD env []
      require (cells.length = prototype.captureSlots.length)
        (.invalidFrameState "callable environment layout mismatch")
      let slots := (prototype.captureSlots.zip prototype.captureModes).map Prod.fst
      (slots.zip cells).forM (storeCapture prototype localBase)

def storeSelf (prototype : CallablePrototype) (localBase : Nat)
    (callable : Option (Nat × CallableValue)) : CoreM W Unit :=
  match prototype.selfSlot with
  | none => pure ()
  | some slot => do
      require (slot.toNat < prototype.frameLocalCount)
        (.invalidFrameState "self slot is outside the script frame")
      let callable ← expect callable (.invalidFrameState "self slot requires a callable value")
      setSlot (localBase + slot.toNat) (.callable callable.1 callable.2)

/-- The slots of a new frame, up to the point where the frame is pushed. -/
def initializeLocals (prototype : CallablePrototype) (callable : Option (Nat × CallableValue))
    (operands : List Value) (localBase : Nat) (inherited : List (Nat × Value)) :
    CoreM W Unit := do
  let localCount := prototype.frameLocalCount
  modify fun s => { s with locals := s.locals ++ List.replicate localCount .null }
  E.program.rootCallableBindings.forM (E.storeRootCallable localBase localCount)
  inherited.forM (storeInherited localBase localCount)
  (prototype.parameterSlots.zip operands).forM (storeArgument localBase localCount)
  storeCaptures prototype localBase callable
  storeSelf prototype localBase callable

/-- The arguments against the schema of the prototype. -/
def checkArguments (schema : Option TypeSchema) (operands : List Value) : CoreM W Unit :=
  match schema with
  | some (.callable params _) => do
      require (params.length = operands.length) (.typeMismatch "callable argument schema")
      let s ← get
      (params.zip operands).forM fun argument =>
        lift ((E.validate s argument.2 argument.1).mapError fun error =>
          mapCallableSchemaError error "callable argument schema")
  | _ => pure ()

/-- The checks of a call that come before its target is looked at. -/
def checkCall (prototypeId : UInt32) (callable : Option (Nat × CallableValue))
    (operands : List Value) : CoreM W CallablePrototype := do
  let prototype ← expect E.program.callablePrototypes[prototypeId.toNat]?
    (.invalidCallablePrototype prototypeId)
  require (prototype.frameLocalCount ≤ maxFrameLocalCount)
    (.frameAllocationLimit prototype.frameLocalCount maxFrameLocalCount)
  require (callable.isSome ∨ (prototype.captureSlots = [] ∧ prototype.selfSlot = none))
    (.callScriptRequiresEnvironment prototypeId)
  require (prototype.arity = UInt8.ofNat operands.length)
    (.callableArityMismatch prototypeId prototype.arity (UInt8.ofNat operands.length))
  E.checkArguments prototype.schema operands
  return prototype

/-- Enter a script function.  The interruption tick that follows is the caller's. -/
def enterFunction (prototypeId : UInt32) (prototype : CallablePrototype) (functionId : UInt32)
    (callable : Option (Nat × CallableValue)) (operands : List Value) (operandStackBase : Nat)
    (continuation : FrameContinuation) : CoreM W Unit := do
  let s ← get
  require (s.callDepth < s.maxScriptCallDepth) (.callStackOverflow s.maxScriptCallDepth)
  let function ← expect E.program.scriptFunctions[functionId.toNat]?
    (.invalidCallablePrototype prototypeId)
  require (prototype.parameterSlots.length = operands.length)
    (.callableArityMismatch prototypeId (UInt8.ofNat prototype.parameterSlots.length)
      (UInt8.ofNat operands.length))
  let localBase := s.locals.length
  let _ ← lift (checkedFrameEnd localBase prototype.frameLocalCount)
  let inherited ← inheritedCallables
  E.initializeLocals prototype callable operands localBase inherited
  modify fun s => { s with
    executionFrames :=
      ⟨continuation, operandStackBase, localBase, prototype.frameLocalCount, some prototypeId⟩ ::
        s.executionFrames
    activeLocalBaseCache := localBase
    activeOperandStackBaseCache := operandStackBase }
  modify fun s => { s with
    callDepth := s.scriptFrameDepth
    ip := function.entryIp.toNat }

/-- What an answer of the host means for a call through a callable value: if the host
yields, the callable goes back under its arguments. -/
def finishImport (callable : Nat × CallableValue) (operandStackBase : Nat) :
    HostCallExecOutcome → CoreM W ExecOutcome
  | .returned => return .continue
  | .halted => return .halted
  | .yielded => do
      modify fun s =>
        let above := s.stack.length - operandStackBase
        { s with
          stack := s.stack.take above ++ .callable callable.1 callable.2 :: s.stack.drop above }
      return .yielded
  | .pending opId => return .waiting opId

/-- Call a host import through a callable value.  The call site is the `CallValue`
instruction in front of the instruction pointer. -/
def callImport (importIndex : UInt16) (callable : Nat × CallableValue) (operands : List Value)
    (operandStackBase : Nat) : CoreM W ExecOutcome := do
  modify fun s => { s with stack := operands.reverse ++ s.stack }
  let s ← get
  let outcome ← E.executeHostCall importIndex (UInt8.ofNat operands.length) (s.ip - 2)
  finishImport callable operandStackBase outcome

/-- How a call went on: in a new frame, or with an answer of the host. -/
inductive Entered where
  | frame
  | host (outcome : ExecOutcome)

def enterScriptFrame (prototypeId : UInt32) (callable : Option (Nat × CallableValue))
    (operands : List Value) (operandStackBase : Nat) (continuation : FrameContinuation) :
    CoreM W Entered := do
  let prototype ← E.checkCall prototypeId callable operands
  match prototype.target with
  | .scriptFunction functionId =>
    E.enterFunction prototypeId prototype functionId callable operands operandStackBase continuation
    return .frame
  | .hostImport importIndex =>
    let callable ← expect callable (.invalidCallablePrototype prototypeId)
    return .host (← E.callImport importIndex callable operands operandStackBase)

def asCallable : Option Value → Except VmError (Nat × CallableValue)
  | some (.callable object value) => .ok (object, value)
  | _ => .error .invalidCallable

/-- `CallValue`: the callee stands under its arguments. -/
def executeCallValue (argc : UInt8) : CoreM W Entered := do
  let s ← get
  require (argc.toNat + 1 ≤ s.stack.length) .stackUnderflow
  let operands := (s.stack.take argc.toNat).reverse
  let operandStackBase := s.stack.length - (argc.toNat + 1)
  modify fun s => { s with stack := s.stack.drop (argc.toNat + 1) }
  let callable ← lift (asCallable s.stack[argc.toNat]?)
  E.enterScriptFrame callable.2.prototypeId (some callable) operands operandStackBase
    (.resumeBytecode s.ip)

/-- `CallScript`: a static call, which has no callable value. -/
def executeCallScript (prototypeId : UInt32) (argc : UInt8) : CoreM W Entered := do
  let s ← get
  require (argc.toNat ≤ s.stack.length) .stackUnderflow
  let operands := (s.stack.take argc.toNat).reverse
  let operandStackBase := s.stack.length - argc.toNat
  modify fun s => { s with stack := s.stack.drop argc.toNat }
  E.enterScriptFrame prototypeId none operands operandStackBase (.resumeBytecode s.ip)

/-! ## Leaving a frame -/

/-- Drop the cells of the slots in a range. -/
def retainOutside (localBase localEnd : Nat) (cells : Nat → Option Nat) : Nat → Option Nat :=
  fun slot => if localBase ≤ slot ∧ slot < localEnd then none else cells slot

/-- The schema of the result of a call. -/
def resultSchema (frame : ExecutionFrame) : Option TypeSchema :=
  frame.prototypeId.bind fun id =>
    E.program.callablePrototypes[id.toNat]?.bind fun prototype =>
      match prototype.schema with
      | some (.callable _ schema) => some schema
      | _ => none

def checkResult (frame : ExecutionFrame) (result : Value) : CoreM W Unit :=
  match E.resultSchema frame with
  | some schema => do
      let s ← get
      lift ((E.validate s result schema).mapError fun error =>
        mapCallableSchemaError error "callable return schema")
  | none => pure ()

/-- The frame is no longer active. -/
def popFrame (frames : List ExecutionFrame) : CoreM W Unit := modify fun s => { s with
  executionFrames := frames
  activeLocalBaseCache := (frames.head?.map ExecutionFrame.localBase).getD 0
  activeOperandStackBaseCache := (frames.head?.map ExecutionFrame.operandStackBase).getD 0 }

def updateCallDepth : CoreM W Unit := modify fun s => { s with callDepth := s.scriptFrameDepth }

/-- The result on top of the operands of the frame, which are dropped. -/
def takeResult (operandStackBase : Nat) : CoreM W Value := fun s =>
  let result := if s.stack.length > operandStackBase then s.stack.headD .null else .null
  .ok result { s with stack := s.stack.drop (s.stack.length - operandStackBase) }

/-- Give up the cells of the slots of a script frame. -/
def releaseCells (frame : ExecutionFrame) : CoreM W Unit :=
  if frame.prototypeId.isSome then do
    let localEnd ← lift (checkedFrameEnd frame.localBase frame.localCount)
    modify fun s => { s with
      captureCells := retainOutside frame.localBase localEnd s.captureCells }
  else pure ()

/-- Give back the slots of a frame. -/
def releaseLocals (frame : ExecutionFrame) : CoreM W Unit := do
  releaseCells frame
  let localEnd := frame.localBase + frame.localCount
  let s ← get
  require (localEnd = s.locals.length)
    (.invalidFrameState "active local frame does not end at the local stack tail")
  modify fun s => { s with locals := s.locals.take frame.localBase }

/-- Where the result of a call goes. -/
def continueWith (result : Value) : FrameContinuation → CoreM W ExecOutcome
  | .halt => do
      push result
      return .halted
  | .resumeBytecode returnIp => do
      modify fun s => { s with ip := returnIp, stack := result :: s.stack }
      return .continue
  | .returnToHost => do
      modify fun s => { s with hostReturn := some result }
      return .halted

def completeActiveFrame : CoreM W ExecOutcome := do
  let s ← get
  match s.executionFrames with
  | [] => throw (.invalidFrameState "missing active frame")
  | frame :: frames => do
      popFrame frames
      require (frame.operandStackBase ≤ s.stack.length)
        (.invalidFrameState "operand stack is below the active frame base")
      if frame.continuation = .halt then do
        updateCallDepth
        return .halted
      else do
        let result ← takeResult frame.operandStackBase
        updateCallDepth
        releaseLocals frame
        E.checkResult frame result
        continueWith result frame.continuation

end Engine

end RustScript.Vm
