import RustScript.Vm.Interpreter
import RustScript.Vm.RunContext

/-!
# Running a program

The run loops around the interpreter, with the debugger off.  Each
instruction, each entry into a frame and each `Ret` right after a host call takes
a tick of the run context; a tick that fails turns into the status `yielded`.
Without fuel and deadlines there are no ticks, and short runs of scalar
instructions are executed at once (`tryFuseScalarSequence`).

`State.fetches` records every offset at which an opcode is read.  The loops take
the number of rounds they may make and answer `none` when it does not suffice.

The machine code of AOT programs and traces is not modelled.  `runInternal` is a call of
`run` that enters none; in `Runs` the machine may enter any code of a given family
between two rounds.

`Action` lists what an embedder can do with a virtual machine.
-/

namespace RustScript.Vm

open Wp (lift require expect zoom rescue)

structure State (W : Type) where
  inst : Instance W
  runCtx : RunContext
  /-- The offsets at which an opcode was read. -/
  fetches : List Nat

abbrev VmM (W : Type) := EStateM VmError (State W)

variable {W : Type}

def core {α : Type} (x : CoreM W α) : VmM W α := zoom State.inst (fun st inst => { st with inst }) x

def chargeInterruptTick : VmM W Unit :=
  zoom State.runCtx (fun st runCtx => { st with runCtx }) RunContext.chargeInterruptTick

def fetched (offsets : List Nat) : VmM W Unit :=
  modify fun st => { st with fetches := st.fetches ++ offsets }

/-! ## Fused sequences -/

def NumericValue.toValue : NumericValue → Value
  | .int value => .int value
  | .float bits => .float bits

/-- The number in a local slot. -/
def Instance.localNumericValue (s : Instance W) (index : UInt8) : Option NumericValue :=
  if s.activeLocalBase + index.toNat < s.locals.length then
    (s.slotValue (s.activeLocalBase + index.toNat)).bind fun value => (asNumeric value).toOption
  else none

/-- An arithmetic instruction on two scalars. -/
def scalarOp (F : FloatOps) (intOp : Int64 → Int64 → Except VmError Int64)
    (floatOp : UInt64 → UInt64 → UInt64) : NumericValue → NumericValue → Except VmError NumericValue
  | .int lhs, .int rhs => (intOp lhs rhs).map .int
  | lhs, rhs => .ok (.float (floatOp (lhs.toFloat F) (rhs.toFloat F)))

def scalarCompare (F : FloatOps) (intOp : Int64 → Int64 → Bool)
    (floatOp : UInt64 → UInt64 → Bool) : NumericValue → NumericValue → Bool
  | .int lhs, .int rhs => intOp lhs rhs
  | lhs, rhs => floatOp (lhs.toFloat F) (rhs.toFloat F)

def checkedShl (lhs rhs : Int64) : Except VmError Int64 :=
  if 0 ≤ rhs ∧ rhs ≤ 63 then .ok (lhs <<< rhs) else .error (.invalidShift rhs)

/-- How a fused sequence ends. -/
inductive FusedEnd where
  /-- The sequence is not of the fused kind; nothing has happened. -/
  | declined
  | failed (error : VmError)
  | store (dst : UInt8) (value : NumericValue) (cursor : Nat)
  | branch (condition : Bool) (jumpOpcodeIp target cursor : Nat)

/-- One instruction of a sequence: to the next one, or to an end.  Nothing of the instance
is written before the end. -/
inductive ScalarStep where
  | next (cursor : Nat) (stack : List NumericValue)
  | last (result : FusedEnd)

namespace Engine

variable (E : Engine W)

def localScalarValueWithHint (s : Instance W) (index : UInt8) : Option NumericValue :=
  match s.localNumericValue index with
  | none => none
  | some value =>
    match E.localTypeHint index, value with
    | .int, .int value => some (.int value)
    | .float, .float bits => some (.float bits)
    | .int, _ => none
    | .float, _ => none
    | _, value => some value

/-- Push a scalar on the private stack, which has eight places. -/
def pushScalar (value : Option NumericValue) (cursor : Nat) (stack : List NumericValue) :
    ScalarStep :=
  match value with
  | none => .last .declined
  | some value =>
    if stack.length = 8 then .last .declined else .next cursor (value :: stack)

def scalarArithmetic (opcode : OpCode) (lhs rhs : NumericValue) :
    Option (Except VmError NumericValue) :=
  match opcode with
  | .add => some (scalarOp E.floatOps (fun lhs rhs => .ok (lhs + rhs)) E.floatOps.add lhs rhs)
  | .sub => some (scalarOp E.floatOps (fun lhs rhs => .ok (lhs - rhs)) E.floatOps.sub lhs rhs)
  | .mul => some (scalarOp E.floatOps (fun lhs rhs => .ok (lhs * rhs)) E.floatOps.mul lhs rhs)
  | .div => some (scalarOp E.floatOps checkedIntDiv E.floatOps.div lhs rhs)
  | .mod => some (scalarOp E.floatOps checkedIntRem E.floatOps.rem lhs rhs)
  | .shl =>
    match lhs, rhs with
    | .int lhs, .int rhs => some ((checkedShl lhs rhs).map .int)
    | _, _ => none
  | _ => none

def stepArithmetic (opcode : OpCode) (cursor : Nat) : List NumericValue → ScalarStep
  | rhs :: lhs :: stack =>
    match E.scalarArithmetic opcode lhs rhs with
    | none => .last .declined
    | some (.error error) => .last (.failed error)
    | some (.ok value) => .next (cursor + 1) (value :: stack)
  | _ => .last .declined

/-- A comparison ends a sequence together with the branch after it. -/
def stepCompare (condition : NumericValue → NumericValue → Bool) (cursor : Nat) :
    List NumericValue → ScalarStep
  | [rhs, lhs] =>
    if E.program.code[cursor + 1]? = some OpCode.brfalse.toByte then
      match E.decodedJumpTargetAt (cursor + 1) with
      | none => .last .declined
      | some target => .last (.branch (condition lhs rhs) (cursor + 1) target cursor)
    else .last .declined
  | _ => .last .declined

def scalarStep (s : Instance W) (opcode : OpCode) (cursor : Nat) (stack : List NumericValue) :
    ScalarStep :=
  match opcode with
  | .ldc =>
    pushScalar ((E.decodedLdcValueAt cursor).bind fun value => (asNumeric value).toOption)
      (cursor + 5) stack
  | .ldloc =>
    pushScalar ((E.decodedLocalIndexAt cursor).bind (E.localScalarValueWithHint s))
      (cursor + 2) stack
  | .add | .sub | .mul | .div | .mod | .shl => E.stepArithmetic opcode cursor stack
  | .stloc =>
    match stack, E.decodedLocalIndexAt cursor with
    | [value], some dst => .last (.store dst value cursor)
    | _, _ => .last .declined
  | .clt =>
    E.stepCompare (scalarCompare E.floatOps (fun lhs rhs => decide (lhs < rhs)) E.floatOps.lt)
      cursor stack
  | .cgt =>
    E.stepCompare (scalarCompare E.floatOps (fun lhs rhs => decide (lhs > rhs))
      fun lhs rhs => E.floatOps.lt rhs lhs) cursor stack
  | _ => .last .declined

/-- The offsets read by a step that ends a sequence: a fused branch is read as well. -/
def FusedEnd.fetches : FusedEnd → List Nat
  | .branch _ jumpOpcodeIp _ _ => [jumpOpcodeIp]
  | _ => []

/-- Follow a sequence, for at most `steps` instructions. -/
def scanScalarSequence (s : Instance W) : Nat → Nat → List NumericValue → List Nat × FusedEnd
  | 0, _, _ => ([], .declined)
  | steps + 1, cursor, stack =>
    match E.program.code[cursor]? with
    | none => ([], .declined)
    | some raw =>
      match OpCode.tryFrom raw with
      | none => ([cursor], .declined)
      | some opcode =>
        match E.scalarStep s opcode cursor stack with
        | .last result => (cursor :: FusedEnd.fetches result, result)
        | .next next stack =>
          let rest := scanScalarSequence s steps next stack
          (cursor :: rest.1, rest.2)

/-- The writes of a fused sequence; the answer says whether there was one. -/
def commitFused : FusedEnd → CoreM W Bool
  | .declined => return false
  | .failed error => throw error
  | .store dst value cursor => do
      let s ← get
      storeLocalAbsolute (s.activeLocalBase + dst.toNat) dst value.toValue
      setIp (cursor + 2)
      return true
  | .branch condition jumpOpcodeIp target cursor => do
      setIp (cursor + 6)
      E.branchUnless condition jumpOpcodeIp target
      return true

/-- Execute the sequence that starts with the load of `src`, if it is of the fused kind. -/
def tryFuseScalarSequence (src : UInt8) (allowSuperinstructions : Bool) : VmM W Bool :=
  if allowSuperinstructions then do
    let s := (← get).inst
    match E.localScalarValueWithHint s src with
    | none => return false
    | some initial => do
        let scan := E.scanScalarSequence s 16 s.ip [initial]
        fetched scan.1
        core (E.commitFused scan.2)
  else return false

/-! ## The run loops -/

/-- The result of a run that did not fail. -/
inductive VmStatus where
  | halted
  | yielded
  | waiting (opId : Nat)
  deriving DecidableEq, Repr

def outcomeToStatus : ExecOutcome → Option VmStatus
  | .continue => none
  | .halted => some .halted
  | .yielded => some .yielded
  | .waiting opId => some (.waiting opId)

def interruptionEnabled : VmM W Bool := do return (← get).runCtx.interruptionEnabled

/-- A tick is charged only under interruption. -/
def chargeIfEnabled : VmM W Unit := do
  if ← interruptionEnabled then chargeInterruptTick else pure ()

def pushLocal (index : UInt8) : CoreM W Unit := do push (← loadLocalValue index)

/-- The load itself, if it was not part of a fused sequence. -/
def loadUnless (fused : Bool) (index : UInt8) : VmM W Unit :=
  if fused then pure () else core (pushLocal index)

/-- A load may start a fused sequence. -/
def executeLdloc (allowSuperinstructions : Bool) : VmM W ExecOutcome := do
  let opcodeIp := (← get).inst.ip - 1
  let index ← core (E.readLocalIndex opcodeIp)
  let fused ← E.tryFuseScalarSequence index allowSuperinstructions
  loadUnless fused index
  return .continue

/-- What follows an instruction in the same round: the tick for a new frame, or the tick and
the `Ret` after a host call. -/
def finishStep : Stepped → VmM W ExecOutcome
  | .outcome outcome => return outcome
  | .entered => do
      chargeInterruptTick
      return .continue
  | .tailReturn => do
      chargeIfEnabled
      fetched [(← get).inst.ip]
      core (advance 1)
      core E.completeActiveFrame

def executeInterpreterInstruction (raw : UInt8) (allowSuperinstructions : Bool) :
    VmM W ExecOutcome :=
  match OpCode.tryFrom raw with
  | none => throw (.invalidOpcode raw)
  | some .ldloc => E.executeLdloc allowSuperinstructions
  | some opcode => do E.finishStep (← core (E.execute opcode))

/-- Read the opcode at the instruction pointer. -/
def fetchOpcode : VmM W UInt8 := do
  fetched [(← get).inst.ip]
  core (readU8 E.program.code)

def checkBounds : VmM W Unit := do
  require ((← get).inst.ip < E.program.code.length) .bytecodeBounds

/-- One round without interruption; the answer has the opcode. -/
def fastRound : VmM W (UInt8 × ExecOutcome) := do
  E.checkBounds
  let raw ← E.fetchOpcode
  let outcome ← E.executeInterpreterInstruction raw true
  return (raw, outcome)

/-- The loop without interruption.  It is left when a host function turned interruption on,
which the answer `some none` says. -/
def runFastInterpreter : Nat → VmM W (Option (Option VmStatus))
  | 0 => return none
  | rounds + 1 => do
      let round ← E.fastRound
      match outcomeToStatus round.2 with
      | some status => return some (some status)
      | none => do
          let enabled ← interruptionEnabled
          if (round.1 = OpCode.call.toByte ∨ round.1 = OpCode.callValue.toByte) ∧ enabled then
            return some none
          else runFastInterpreter rounds

/-- One instruction under interruption. -/
def tickAndExecute : VmM W ExecOutcome := do
  chargeIfEnabled
  let raw ← E.fetchOpcode
  let enabled ← interruptionEnabled
  E.executeInterpreterInstruction raw (!enabled)

/-- An interruption ends the round as a yield. -/
def handleInterrupt (error : VmError) : Option (VmM W ExecOutcome) :=
  if error.isInterrupt then
    some do
      modify fun st => { st with runCtx := st.runCtx.markInterruptYield error }
      return .yielded
  else none

def rearm : VmM W Unit := modify fun st => { st with runCtx := st.runCtx.rearmEpochAfterYield }

/-- One round of the general loop. -/
def loopRound : VmM W ExecOutcome := do
  rearm
  E.checkBounds
  rescue E.tickAndExecute handleInterrupt

def runLoop : Nat → VmM W (Option VmStatus)
  | 0 => return none
  | rounds + 1 => do
      let outcome ← E.loopRound
      match outcomeToStatus outcome with
      | some status => return some status
      | none => runLoop rounds

/-- Run until something ends the run, starting with the loop without interruption. -/
def runUninterrupted (rounds : Nat) : VmM W (Option VmStatus) := do
  match ← E.runFastInterpreter rounds with
  | none => return none
  | some (some status) => return some status
  | some none => E.runLoop rounds

/-- Run when nothing is waited for. -/
def runRounds (rounds : Nat) : VmM W (Option VmStatus) := do
  rearm
  let enabled ← interruptionEnabled
  if enabled then E.runLoop rounds else E.runUninterrupted rounds

def runInternal (rounds : Nat) : VmM W (Option VmStatus) := do
  lift (E.host.bindings.mapError .hostError)
  match (← get).inst.waitingHostOp with
  | some opId => return some (.waiting opId)
  | none => E.runRounds rounds

/-- The compiled code, an AOT program or a trace, that the machine may enter in a state. -/
abbrev Compiled (W : Type) := State W → VmM W ExecOutcome → Prop

/-- The rounds of a call of `run`, with compiled code entered in front of any of them.  An
interruption in compiled code makes the run yield. -/
inductive Loops (compiled : Compiled W) : State W → VmStatus → State W → Prop where
  | interpreted {rounds : Nat} {st st' : State W} {status : VmStatus} :
      E.runRounds rounds st = .ok (some status) st' → Loops compiled st status st'
  | ended {rounds : Nat} {st st₁ st' : State W} {code : VmM W ExecOutcome}
      {outcome : ExecOutcome} {status : VmStatus} :
      E.runRounds rounds st = .ok none st₁ → compiled st₁ code →
      rescue code handleInterrupt st₁ = .ok outcome st' → outcomeToStatus outcome = some status →
      Loops compiled st status st'
  | goesOn {rounds : Nat} {st st₁ st₂ st' : State W} {code : VmM W ExecOutcome}
      {outcome : ExecOutcome} {status : VmStatus} :
      E.runRounds rounds st = .ok none st₁ → compiled st₁ code →
      rescue code handleInterrupt st₁ = .ok outcome st₂ → outcomeToStatus outcome = none →
      Loops compiled st₂ status st' → Loops compiled st status st'

/-- A call of `run` on a machine with compiled code. -/
inductive Runs (compiled : Compiled W) (st : State W) : VmStatus → State W → Prop where
  | waiting {opId : Nat} : E.host.bindings = .ok () → st.inst.waitingHostOp = some opId →
      Runs compiled st (.waiting opId) st
  | loops {status : VmStatus} {st' : State W} : E.host.bindings = .ok () →
      st.inst.waitingHostOp = none → E.Loops compiled st status st' → Runs compiled st status st'

/-! ## Host invocations -/

/-- Give up the innermost frame. -/
def abandonFrame (s : Instance W) (frame : ExecutionFrame) : Instance W :=
  { s with
    executionFrames := s.executionFrames.tail
    captureCells :=
      retainOutside frame.localBase (frame.localBase + frame.localCount) s.captureCells
    locals := s.locals.take frame.localBase }

def abortHostInvocation (stackBase frameCount : Nat) : CoreM W Unit := modify fun s =>
  let abandoned := s.executionFrames.take (s.executionFrames.length - frameCount)
  let s := abandoned.foldl abandonFrame s
  { s with
    activeLocalBaseCache := (s.executionFrames.head?.map ExecutionFrame.localBase).getD 0
    activeOperandStackBaseCache :=
      (s.executionFrames.head?.map ExecutionFrame.operandStackBase).getD 0
    stack := s.stack.drop (s.stack.length - stackBase)
    callDepth := s.scriptFrameDepth
    hostReturn := none
    waitingHostOp := none }

/-- A failure gives up the invocation. -/
def orAbort {α : Type} (stackBase frameCount : Nat) (x : VmM W α) : VmM W α :=
  rescue x fun error => some do
    core (abortHostInvocation stackBase frameCount)
    throw error

/-- `execute_call_value`, outside of the run loops. -/
def callValueNow (argc : UInt8) : VmM W ExecOutcome := do
  E.finishStep (← core (E.executeCallValue argc)).stepped

/-- A host callable has been called directly: its result is the top of the stack. -/
def finishHostCallable (stackBase frameCount : Nat) : ExecOutcome → CoreM W (Option VmStatus)
  | .continue | .halted => do
      modify fun s => { s with
        stack := s.stack.tail.drop (s.stack.tail.length - stackBase)
        hostReturn := some (s.stack.headD .null) }
      return some .halted
  | .yielded => do
      abortHostInvocation stackBase frameCount
      throw (.invalidFrameState "direct host callable invocation yielded")
  | .waiting _ => do
      abortHostInvocation stackBase frameCount
      throw (.invalidFrameState "direct host callable invocation is waiting")

/-- The innermost frame returns to the host. -/
def returningToHost : List ExecutionFrame → List ExecutionFrame
  | frame :: frames => { frame with continuation := .returnToHost } :: frames
  | [] => []

def returnToHost : CoreM W Unit := modify fun s => { s with
  executionFrames := returningToHost s.executionFrames }

/-- What a host invocation requires of its callable and of the instance. -/
def checkInvocation (s : Instance W) (callable : Value) (args : List Value) : CoreM W Unit := do
  let callable ← lift (asCallable (some callable))
  require (callable.1 ∈ s.ownedCallables) (.invalidFrameState "callable does not belong to this vm")
  require (s.executionFrames = []) (.invalidFrameState "host invocation requires a halted VM")
  require (args.length ≤ 255) (.invalidFrameState "too many arguments")

def pushInvocation (callable : Value) (args : List Value) : CoreM W Unit := modify fun s => { s with
  stack := args.reverse ++ callable :: s.stack
  hostReturn := none }

/-- The callable has been called: a host function is done, a script function is to run. -/
def settleInvocation (stackBase frameCount : Nat) (outcome : ExecOutcome) :
    CoreM W (Option VmStatus) := do
  let s ← get
  if s.executionFrames.length = frameCount then finishHostCallable stackBase frameCount outcome
  else do
    returnToHost
    return none

/-- A host invocation up to the point where a script function starts to run. -/
def beginInvocation (callable : Value) (args : List Value) : VmM W (Option VmStatus) := do
  let s := (← get).inst
  core (checkInvocation s callable args)
  core (pushInvocation callable args)
  let outcome ← orAbort s.stack.length s.executionFrames.length
    (E.callValueNow (UInt8.ofNat args.length))
  core (settleInvocation s.stack.length s.executionFrames.length outcome)

def startCallable (rounds : Nat) (callable : Value) (args : List Value) :
    VmM W (Option VmStatus) := do
  let s := (← get).inst
  match ← E.beginInvocation callable args with
  | some status => return some status
  | none => orAbort s.stack.length s.executionFrames.length (E.runInternal rounds)

/-! ## Actions -/

/-- The embedder answers the operation that the machine waits for, or fails it. -/
def completeHostOp (opId : Nat) (result : Except String (List Value)) : CoreM W Unit := do
  let s ← get
  let waiting ← expect s.waitingHostOp (.hostError "vm is not waiting on any op")
  require (waiting = opId) (.hostError "vm waits on another op")
  modify fun s => { s with waitingHostOp := none }
  let values ← lift (result.mapError .hostError)
  modify fun s => { s with stack := values.reverse ++ s.stack }

inductive Action where
  | run (rounds : Nat)
  | startCallable (rounds : Nat) (callable : Value) (args : List Value)
  | completeHostOp (opId : Nat) (result : Except String (List Value))
  | setLocal (index : UInt8) (value : Value)
  | grant (grant : Grant)

def perform : Action → VmM W (Option VmStatus)
  | .run rounds => E.runInternal rounds
  | .startCallable rounds callable args => E.startCallable rounds callable args
  | .completeHostOp opId result => do
      core (completeHostOp opId result)
      return none
  | .setLocal index value => do
      core (storeLocal index value)
      return none
  | .grant grant => do
      modify fun st => { st with runCtx := grant.apply st.runCtx }
      return none

/-- The program's functions in their slots; a binding that does not fit is skipped. -/
def bindRootCallable (s : Instance W) (binding : RootCallableBinding) : Instance W :=
  match E.program.callablePrototypes[binding.prototypeId.toNat]? with
  | none => s
  | some prototype =>
    if binding.localSlot.toNat ≥ s.locals.length then s
    else { s with
      nextObject := s.nextObject + 1
      ownedCallables := s.ownedCallables ++ [s.nextObject]
      locals := s.locals.set binding.localSlot.toNat
        (.callable s.nextObject ⟨binding.prototypeId, prototype.kind, none⟩) }

/-- A new instance; `nextObject` is beyond the objects of the constants. -/
def newInstance (maxScriptCallDepth nextObject : Nat) (world : W) : Instance W :=
  let localCount :=
    if E.program.localCount ≤ maxFrameLocalCount then E.program.localCount else 0
  E.program.rootCallableBindings.foldl E.bindRootCallable
    { ip := 0
      stack := []
      locals := List.replicate localCount .null
      captureCells := fun _ => none
      executionFrames := [.root localCount]
      activeLocalBaseCache := 0
      activeOperandStackBaseCache := 0
      callDepth := 0
      maxScriptCallDepth
      hostReturn := none
      waitingHostOp := none
      ownedCallables := []
      nextObject
      cells := []
      environments := []
      world
      hostCalls := [] }

def newState (maxScriptCallDepth nextObject : Nat) (world : W) (readings : Nat → Nat) : State W :=
  ⟨E.newInstance maxScriptCallDepth nextObject world, .new readings, []⟩

/-- The results of a sequence of actions, each from the state that the one before left,
also by failing. -/
def session : List Action → State W → List (EStateM.Result VmError (State W) (Option VmStatus))
  | [], _ => []
  | action :: actions, st =>
    E.perform action st :: session actions (Wp.resultState (E.perform action st))

end Engine

end RustScript.Vm
