import RustScript.Bytecode.Program
import RustScript.Lib.LittleEndian
import RustScript.Lib.Reader

/-!
# Program validation

`validate_program` checks the callable tables, walks the code once from the
first instruction to the last, and then checks the collected jump targets and
the boundaries of the script functions.

The builtin catalog is generated; it enters as the parameter `BuiltinCatalog`.
-/

namespace RustScript.Vmbc

open ByteCodec Fallible

/-- What validation asks of a builtin: its nominal arity and the arities it accepts. -/
structure Builtin where
  arity : UInt8
  acceptsArity : UInt8 → Bool

/-- `BuiltinFunction::from_call_index`. -/
abbrev BuiltinCatalog := UInt16 → Option Builtin

inductive ValidationError where
  | truncatedOperand (offset : Nat) (opcode : UInt8) (expectedBytes : Nat)
  | invalidOpcode (offset : Nat) (opcode : UInt8)
  | invalidConstant (offset : Nat) (index : UInt32)
  | invalidCall (offset : Nat) (index : UInt16)
  | invalidCallArity (offset : Nat) (index : UInt16) (expected got : UInt8)
  | invalidCallScriptTarget (offset : Nat) (prototypeId : UInt32)
  | invalidCallScriptArity (offset : Nat) (prototypeId : UInt32) (expected got : UInt8)
  | invalidJumpTarget (offset : Nat) (target : UInt32)
  | invalidCallableMetadata (message : String)
  deriving DecidableEq, Repr

/-! ## Callable tables -/

/-- Regions follow each other within the code; returns the end of the last one. -/
def validateRegions (program : Program) : Nat → List FunctionRegion → Except ValidationError Nat
  | previousEnd, [] => .ok previousEnd
  | previousEnd, region :: regions => do
      let start := region.startIp.toNat
      let stop := region.endIp.toNat
      if start < previousEnd ∨ start ≥ stop ∨ stop > program.code.length then
        throw (.invalidCallableMetadata "function regions overlap or exceed bytecode bounds")
      if ∃ id ∈ region.prototypeId, id.toNat ≥ program.callablePrototypes.length then
        throw (.invalidCallableMetadata "function region references an invalid prototype")
      validateRegions program stop regions

/-- Every slot of the frame layout is inside the frame. -/
def frameLayoutValid (prototype : CallablePrototype) : Bool :=
  let targetsScript := match prototype.target with
    | .scriptFunction _ => true
    | .hostImport _ => false
  let slots :=
    prototype.parameterSlots ++ prototype.captureSourceSlots ++ prototype.captureSlots
  !((targetsScript && prototype.parameterSlots.length != prototype.arity.toNat) ||
    prototype.captureSourceSlots.length != prototype.captureSlots.length ||
    prototype.captureModes.length != prototype.captureSlots.length ||
    slots.any (fun slot => decide (slot.toNat ≥ prototype.frameLocalCount)) ||
    prototype.selfSlot.any fun slot => decide (slot.toNat ≥ prototype.frameLocalCount))

def validatePrototype (catalog : BuiltinCatalog) (program : Program)
    (prototype : CallablePrototype) : Except ValidationError Unit := do
  if !frameLayoutValid prototype then
    throw (.invalidCallableMetadata "callable frame layout is invalid")
  match prototype.target with
  | .scriptFunction id =>
    if id.toNat ≥ program.scriptFunctions.length then
      throw (.invalidCallableMetadata "callable references an invalid script function")
  | .hostImport id =>
    if id.toNat ≥ program.imports.length ∧ (catalog id).isNone then
      throw (.invalidCallableMetadata "callable references an invalid host import")

def validateBinding (program : Program) (binding : RootCallableBinding) :
    Except ValidationError Unit :=
  if binding.localSlot.toNat ≥ program.localCount ∨
      binding.prototypeId.toNat ≥ program.callablePrototypes.length then
    .error (.invalidCallableMetadata "root callable binding is invalid")
  else .ok ()

/-- Exported names are non-empty and distinct; `seen` holds the earlier ones. -/
def validateExports (program : Program) :
    List String → List ExportedCallable → Except ValidationError Unit
  | _, [] => .ok ()
  | seen, exported :: rest => do
      if exported.name = "" ∨ exported.localSlot.toNat ≥ program.localCount ∨
          exported.name ∈ seen then
        throw (.invalidCallableMetadata "exported callable metadata is invalid")
      validateExports program (exported.name :: seen) rest

def validateCallableMetadata (catalog : BuiltinCatalog) (program : Program) :
    Except ValidationError Unit := do
  let codeLen := program.code.length
  let previousEnd ← validateRegions program 0 program.functionRegions
  match program.functionRegions with
  | [] => pure ()
  | first :: _ =>
    if first.startIp ≠ 0 ∨ previousEnd ≠ codeLen then
      throw (.invalidCallableMetadata "function regions do not cover the complete bytecode")
  program.callablePrototypes.forM (validatePrototype catalog program)
  program.rootCallableBindings.forM (validateBinding program)
  validateExports program [] program.exportedCallables

/-! ## The walk over the code -/

/-- What the walk collects. -/
structure ProgramAnalysis where
  instructionStarts : List Nat := []
  jumpTargets : List (Nat × UInt32) := []
  maxLocalIndex : Option UInt8 := none

/-- The operand word of `width` bytes at the front. -/
def operand (width : Nat) (bytes : List UInt8) : Nat := ofLeBytes (bytes.take width)

def checkCall (catalog : BuiltinCatalog) (program : Program) (hostFnCount : Option UInt16)
    (start : Nat) (index : UInt16) (argc : UInt8) : Except ValidationError Unit :=
  match catalog index with
  | some builtin =>
    if builtin.acceptsArity argc then .ok ()
    else .error (.invalidCallArity start index builtin.arity argc)
  | none =>
    if program.imports.isEmpty then
      match hostFnCount with
      | some count => if index ≥ count then .error (.invalidCall start index) else .ok ()
      | none => .ok ()
    else
      match program.imports[index.toNat]? with
      | none => .error (.invalidCall start index)
      | some hostImport =>
        if argc ≠ hostImport.arity then
          .error (.invalidCallArity start index hostImport.arity argc)
        else .ok ()

def checkCallScript (program : Program) (start : Nat) (prototypeId : UInt32) (argc : UInt8) :
    Except ValidationError Unit :=
  match program.callablePrototypes[prototypeId.toNat]? with
  | none => .error (.invalidCallScriptTarget start prototypeId)
  | some prototype =>
    match prototype.target with
    | .hostImport _ => .error (.invalidCallScriptTarget start prototypeId)
    | .scriptFunction _ =>
      if argc ≠ prototype.arity then
        .error (.invalidCallScriptArity start prototypeId prototype.arity argc)
      else .ok ()

/-- One instruction whose operands are complete. -/
def checkInstruction (catalog : BuiltinCatalog) (program : Program)
    (hostFnCount : Option UInt16) (start : Nat) (opcode : OpCode) (operands : List UInt8)
    (analysis : ProgramAnalysis) : Except ValidationError ProgramAnalysis :=
  match opcode with
  | .ldc =>
    if operand 4 operands ≥ program.constants.length then
      .error (.invalidConstant start (UInt32.ofNat (operand 4 operands)))
    else .ok analysis
  | .br | .brfalse =>
    let target := UInt32.ofNat (operand 4 operands)
    .ok { analysis with jumpTargets := analysis.jumpTargets ++ [(start, target)] }
  | .ldloc | .stloc =>
    let index := UInt8.ofNat (operand 1 operands)
    let largest := match analysis.maxLocalIndex with
      | some previous => max previous index
      | none => index
    .ok { analysis with maxLocalIndex := some largest }
  | .call => do
      checkCall catalog program hostFnCount start (UInt16.ofNat (operand 2 operands))
        (UInt8.ofNat (operand 1 (operands.drop 2)))
      pure analysis
  | .callScript => do
      checkCallScript program start (UInt32.ofNat (operand 4 operands))
        (UInt8.ofNat (operand 1 (operands.drop 4)))
      pure analysis
  | _ => .ok analysis

/-- The walk from offset `ip`, where `rest` is what is left of the code; every step
consumes at least one byte, so `rest.length` steps suffice. -/
def analyzeCode (catalog : BuiltinCatalog) (program : Program) (hostFnCount : Option UInt16) :
    Nat → Nat → List UInt8 → ProgramAnalysis → Except ValidationError ProgramAnalysis
  | 0, _, _, analysis => .ok analysis
  | _ + 1, _, [], analysis => .ok analysis
  | fuel + 1, ip, byte :: rest, analysis =>
    match OpCode.tryFrom byte with
    | none => .error (.invalidOpcode ip byte)
    | some opcode =>
      if rest.length < opcode.operandLen then
        .error (.truncatedOperand ip byte opcode.operandLen)
      else do
        let analysis ← checkInstruction catalog program hostFnCount ip opcode rest
          { analysis with instructionStarts := analysis.instructionStarts ++ [ip] }
        analyzeCode catalog program hostFnCount fuel (ip + 1 + opcode.operandLen)
          (rest.drop opcode.operandLen) analysis

def regionIndexForIp (regions : List FunctionRegion) (ip : Nat) : Option Nat :=
  regions.findIdx? fun region =>
    decide (region.startIp.toNat ≤ ip) && decide (ip < region.endIp.toNat)

def checkJump (program : Program) (analysis : ProgramAnalysis) (jump : Nat × UInt32) :
    Except ValidationError Unit := do
  let target := jump.2.toNat
  if target ≥ program.code.length ∨ target ∉ analysis.instructionStarts then
    throw (.invalidJumpTarget jump.1 jump.2)
  if !program.functionRegions.isEmpty ∧ regionIndexForIp program.functionRegions jump.1 ≠
        regionIndexForIp program.functionRegions target then
    throw (.invalidJumpTarget jump.1 jump.2)

def checkScriptFunction (program : Program) (analysis : ProgramAnalysis)
    (function : ScriptFunction) : Except ValidationError Unit :=
  let entry := function.entryIp.toNat
  let stop := function.endIp.toNat
  if entry ∉ analysis.instructionStarts ∨ stop > program.code.length ∨
      (stop < program.code.length ∧ stop ∉ analysis.instructionStarts) then
    .error (.invalidCallableMetadata "script function boundary is not an instruction boundary")
  else .ok ()

def analyzeProgram (catalog : BuiltinCatalog) (program : Program)
    (hostFnCount : Option UInt16) : Except ValidationError ProgramAnalysis := do
  validateCallableMetadata catalog program
  let analysis ← analyzeCode catalog program hostFnCount program.code.length 0 program.code {}
  analysis.jumpTargets.forM (checkJump program analysis)
  program.scriptFunctions.forM (checkScriptFunction program analysis)
  pure analysis

def validateProgram (catalog : BuiltinCatalog) (program : Program) (hostFnCount : UInt16) :
    Except ValidationError Unit := do
  let _ ← analyzeProgram catalog program (some hostFnCount)

/-- A program that passes validation passes the walk over its code. -/
theorem validateProgram_code {catalog : BuiltinCatalog} {program : Program}
    {hostFnCount : UInt16} (h : validateProgram catalog program hostFnCount = .ok ()) :
    ∃ analysis, analyzeCode catalog program (some hostFnCount) program.code.length 0
      program.code {} = .ok analysis := by
  obtain ⟨_, hanalysis, _⟩ := bind_eq_ok.mp h
  obtain ⟨_, _, hafter⟩ := bind_eq_ok.mp hanalysis
  obtain ⟨analysis, hcode, _⟩ := bind_eq_ok.mp hafter
  exact ⟨analysis, hcode⟩

end RustScript.Vmbc
