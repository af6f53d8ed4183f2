import RustScript.Lib.Fallible
import RustScript.Vm.Value

/-!
# The trace IR

A recorded trace is a control-flow graph in SSA form.  Values pass between blocks
as block arguments only: the lowering keeps a fresh table of values for every
block, so an instruction, a terminator or an exit reads the values of its own
block.  An exit says how the frame of the interpreter is put together again when
the trace is left: the operand stack, the locals, and which of the locals have to
be written back.

`SsaTrace.verify` is the check a trace passes before it is lowered.  What it
establishes is collected in `Verified` (`verified_of_verify`).  Verification looks up
the values of an exit in one table of all values, and so does not see whether they are
defined where the trace is left; they are exactly if the block that defines them
dominates the one that is left (`exitsDefined_iff`).
-/

namespace RustScript.Jit

open Vm (Value)

/-! ## Identifiers and representations -/

inductive IdKind where
  | value
  | block
  | exit

/-- What an id refers to is part of its type. -/
structure SsaId (kind : IdKind) where
  raw : UInt32
  deriving DecidableEq

abbrev SsaValueId := SsaId .value
abbrev SsaBlockId := SsaId .block
abbrev SsaExitId := SsaId .exit

def SsaId.index {kind : IdKind} (id : SsaId kind) : Nat := id.raw.toNat

inductive SsaValueRepr where
  | tagged
  | i64
  | f64
  | bool
  | heapPtr (tag : ValueType)
  deriving DecidableEq

structure SsaValue where
  id : SsaValueId
  repr : SsaValueRepr
  deriving DecidableEq

structure SsaBlockParam where
  value : SsaValue
  label : String

/-! ## Instructions

The kinds of instructions fall into families by the number of values they read.
They are generic in what stands for a value: an identifier in a trace, the
content of a register when the instruction is executed. -/

inductive UnaryKind where
  | cloneTagged
  | valueIsType (tag : ValueType)
  | unboxInt
  | unboxFloat
  | unboxBool
  | unboxHeapPtr (tag : ValueType)
  | valueLen
  | stringLen
  | bytesLen
  | arrayLen
  | mapLen
  | intNeg
  | boolNot
  | floatNeg
  | stringLowerAscii
  | typeOf
  | toString
  | bytesFromArrayU8
  | bytesToUtf8Ascii
  | bytesToArrayU8
  | mapIterNext
  | mapIterTakeKey
  | mapIterTakeValue

/-- The instructions with an immediate second operand. -/
inductive ImmediateKind where
  | intAddImm (imm : Int64)
  | intSubImm (imm : Int64)
  | intMulImm (imm : Int64)
  | intDivImm (imm : Int64)
  | intModImm (imm : Int64)
  | intShlImm (amount : UInt32)
  | intShrImm (amount : UInt32)
  | intLshrImm (amount : UInt32)
  | intCmpLtImm (imm : Int64)
  | intCmpGtImm (imm : Int64)

inductive BinaryKind where
  | stringGet
  | bytesGet
  | bytesHas
  | stringContains
  | regexMatch
  | stringSplitLiteral
  | stringConcat
  | bytesConcat
  | arrayGet
  | arrayHas
  | arrayPush
  | mapGet
  | mapHas
  | intAdd
  | intSub
  | intMul
  | intDiv
  | intMod
  | intShl
  | intShr
  | intLshr
  | boolAnd
  | boolOr
  | floatAdd
  | floatSub
  | floatMul
  | floatDiv
  | floatMod
  | floatCmpEq
  | floatCmpLt
  | floatCmpGt
  | intCmpEq
  | valueCmpEq
  | intCmpLt
  | intCmpGt

inductive TernaryKind where
  | stringSlice
  | bytesSlice
  | regexReplace
  | stringReplaceLiteral
  | arraySet
  | mapSet

inductive SsaInstKind (α : Type) where
  | constant (value : Value)
  | materializeRootCallable (prototypeId : UInt32)
  | arrayNew
  | hostCall (hostImport : UInt16) (args : List α)
  | unary (kind : UnaryKind) (input : α)
  | immediate (kind : ImmediateKind) (lhs : α)
  | binary (kind : BinaryKind) (lhs rhs : α)
  | ternary (kind : TernaryKind) (first second third : α)

namespace SsaInstKind

variable {α : Type}

def inputs : SsaInstKind α → List α
  | constant _ | materializeRootCallable _ | arrayNew => []
  | hostCall _ args => args
  | unary _ input => [input]
  | immediate _ lhs => [lhs]
  | binary _ lhs rhs => [lhs, rhs]
  | ternary _ first second third => [first, second, third]

end SsaInstKind

structure SsaInst where
  ip : Nat
  output : Option SsaValue
  failureExit : Option SsaExitId
  kind : SsaInstKind SsaValueId

/-! ## Exits, terminators and blocks -/

/-- How a value of the interpreter is made from a value of the trace. -/
inductive SsaMaterialization where
  | value (value : SsaValueId)
  | boxInt (value : SsaValueId)
  | boxFloat (value : SsaValueId)
  | boxBool (value : SsaValueId)
  | boxHeapPtr (value : SsaValueId) (tag : ValueType)
  deriving DecidableEq

def SsaMaterialization.source : SsaMaterialization → SsaValueId
  | .value id | .boxInt id | .boxFloat id | .boxBool id | .boxHeapPtr id _ => id

structure VirtualFrameSnapshot where
  prototypeId : UInt32
  callIp : Nat
  returnIp : Nat
  resumeIp : Nat
  operandStack : List SsaMaterialization
  locals : List SsaMaterialization
  dirtyLocals : List Bool

structure SsaExit where
  id : SsaExitId
  exitIp : Nat
  stack : List SsaMaterialization
  locals : List SsaMaterialization
  dirtyLocals : List Bool
  virtualFrames : List VirtualFrameSnapshot

inductive SsaBranchTarget where
  | block (target : SsaBlockId) (args : List SsaValueId)
  | exit (exit : SsaExitId)

inductive SsaTerminator where
  | jump (target : SsaBlockId) (args : List SsaValueId)
  | branchBool (condition : SsaValueId) (ifTrue ifFalse : SsaBranchTarget)
  | exit (exit : SsaExitId)
  | return (exit : SsaExitId)
  | callValue (argc : UInt8) (callIp resumeIp : Nat) (exit : SsaExitId)
  | callScript (prototypeId : UInt32) (argc : UInt8) (callIp resumeIp : Nat) (exit : SsaExitId)

structure SsaBlock where
  id : SsaBlockId
  params : List SsaBlockParam
  insts : List SsaInst
  terminator : Option SsaTerminator

/-- The values a block defines. -/
def SsaBlock.values (block : SsaBlock) : List SsaValueId :=
  block.params.map (·.value.id) ++ block.insts.filterMap fun inst => inst.output.map (·.id)

structure SsaTrace where
  rootIp : Nat
  entryStackDepth : Nat
  entry : SsaBlockId
  blocks : List SsaBlock
  exits : List SsaExit

def SsaTrace.values (trace : SsaTrace) : List SsaValueId :=
  trace.blocks.flatMap SsaBlock.values

/-! ## Verification -/

inductive SsaVerifyError where
  | duplicateBlock (block : SsaBlockId)
  | duplicateValue (value : SsaValueId)
  | missingTerminator (block : SsaBlockId)
  | unknownEntry (block : SsaBlockId)
  | entryStackDepthMismatch (depth params : Nat)
  | useBeforeDef (block : SsaBlockId) (value : SsaValueId)
  | nonBoolBranchCondition (value : SsaValueId)
  | unknownExit (exit : SsaExitId)
  | unknownBlockTarget (block : SsaBlockId)
  | jumpArityMismatch (target : SsaBlockId) (expected got : Nat)
  | jumpTypeMismatch (target : SsaBlockId) (index : Nat) (expected got : SsaValueRepr)
  | invalidMaterialization (value : SsaValueId) (expected actual : SsaValueRepr)
  | dirtyLocalLengthMismatch (exit : SsaExitId) (locals dirtyLocals : Nat)
  | virtualFrameDirtyLocalLengthMismatch (exit : SsaExitId) (frame locals dirtyLocals : Nat)
  | invalidVirtualFrameContinuation (exit : SsaExitId) (frame callIp returnIp : Nat)
  | invalidVirtualFrameOrder (exit : SsaExitId) (frame : Nat)
  | unsupportedVirtualFrameOwnership (exit : SsaExitId) (frame : Nat)
  deriving DecidableEq

/-- The representations of the values in scope. -/
abbrev ReprMap := List (SsaValueId × SsaValueRepr)

def verifyBlockIds (seen : List SsaBlockId) : List SsaBlock → Except SsaVerifyError Unit
  | [] => .ok ()
  | block :: rest =>
    if block.id ∈ seen then .error (.duplicateBlock block.id)
    else if block.terminator.isNone then .error (.missingTerminator block.id)
    else verifyBlockIds (block.id :: seen) rest

/-- A new value: into the table of all values and into the scope of its block. -/
def declareValue (tables : ReprMap × ReprMap) (value : SsaValue) :
    Except SsaVerifyError (ReprMap × ReprMap) :=
  if (tables.1.lookup value.id).isSome then .error (.duplicateValue value.id)
  else .ok ((value.id, value.repr) :: tables.1, (value.id, value.repr) :: tables.2)

def verifyExitId (exitIds : List SsaExitId) (exit : SsaExitId) : Except SsaVerifyError Unit :=
  if exit ∈ exitIds then .ok () else .error (.unknownExit exit)

def verifyInput (block : SsaBlockId) (scope : ReprMap) (input : SsaValueId) :
    Except SsaVerifyError Unit :=
  if (scope.lookup input).isSome then .ok () else .error (.useBeforeDef block input)

def verifyInst (block : SsaBlockId) (exitIds : List SsaExitId) (tables : ReprMap × ReprMap)
    (inst : SsaInst) : Except SsaVerifyError (ReprMap × ReprMap) := do
  inst.failureExit.toList.forM (verifyExitId exitIds)
  inst.kind.inputs.forM (verifyInput block tables.2)
  inst.output.toList.foldlM declareValue tables

def verifyJumpArgs (target : SsaBlockId) (scope : ReprMap) (index : Nat) :
    List SsaValueId → List SsaValueRepr → Except SsaVerifyError Unit
  | arg :: args, expected :: reprs =>
    match scope.lookup arg with
    | none => .error (.useBeforeDef target arg)
    | some actual =>
      if actual ≠ expected then .error (.jumpTypeMismatch target index expected actual)
      else verifyJumpArgs target scope (index + 1) args reprs
  | _, _ => .ok ()

def verifyJumpTarget (blocks : List SsaBlock) (scope : ReprMap) (target : SsaBlockId)
    (args : List SsaValueId) : Except SsaVerifyError Unit :=
  match blocks.find? (·.id = target) with
  | none => .error (.unknownBlockTarget target)
  | some block =>
    if block.params.length ≠ args.length then
      .error (.jumpArityMismatch target block.params.length args.length)
    else verifyJumpArgs target scope 0 args (block.params.map (·.value.repr))

def verifyBranchTarget (blocks : List SsaBlock) (exitIds : List SsaExitId) (scope : ReprMap) :
    SsaBranchTarget → Except SsaVerifyError Unit
  | .block target args => verifyJumpTarget blocks scope target args
  | .exit exit => verifyExitId exitIds exit

def verifyTerminator (blocks : List SsaBlock) (exitIds : List SsaExitId) (scope : ReprMap) :
    SsaTerminator → Except SsaVerifyError Unit
  | .jump target args => verifyJumpTarget blocks scope target args
  | .branchBool condition ifTrue ifFalse =>
    if scope.lookup condition ≠ some .bool then .error (.nonBoolBranchCondition condition)
    else do
      verifyBranchTarget blocks exitIds scope ifTrue
      verifyBranchTarget blocks exitIds scope ifFalse
  | .exit exit | .return exit | .callValue _ _ _ exit | .callScript _ _ _ _ exit =>
    verifyExitId exitIds exit

def verifyBlock (blocks : List SsaBlock) (exitIds : List SsaExitId) (reprs : ReprMap)
    (block : SsaBlock) : Except SsaVerifyError ReprMap := do
  let tables ← (block.params.map (·.value)).foldlM declareValue (reprs, [])
  let tables ← block.insts.foldlM (verifyInst block.id exitIds) tables
  block.terminator.toList.forM (verifyTerminator blocks exitIds tables.2)
  return tables.1

/-- The block named for a value that no block defines. -/
def noBlock : SsaBlockId := ⟨0xFFFFFFFF⟩

def SsaMaterialization.expected : SsaMaterialization → SsaValueRepr
  | .value _ => .tagged
  | .boxInt _ => .i64
  | .boxFloat _ => .f64
  | .boxBool _ => .bool
  | .boxHeapPtr _ tag => .heapPtr tag

def verifyMaterialization (reprs : ReprMap) (materialization : SsaMaterialization) :
    Except SsaVerifyError Unit :=
  match reprs.lookup materialization.source with
  | some actual =>
    if actual = materialization.expected then .ok ()
    else .error (.invalidMaterialization materialization.source materialization.expected actual)
  | none => .error (.useBeforeDef noBlock materialization.source)

def verifyFrameMaterialization (reprs : ReprMap) (exit : SsaExitId) (index : Nat)
    (materialization : SsaMaterialization) : Except SsaVerifyError Unit :=
  match materialization with
  | .boxHeapPtr _ _ => .error (.unsupportedVirtualFrameOwnership exit index)
  | _ => verifyMaterialization reprs materialization

def verifyVirtualFrames (reprs : ReprMap) (exit : SsaExitId) (index : Nat)
    (outerResumeIp : Option Nat) : List VirtualFrameSnapshot → Except SsaVerifyError Unit
  | [] => .ok ()
  | frame :: frames =>
    if frame.dirtyLocals.length ≠ frame.locals.length then
      .error (.virtualFrameDirtyLocalLengthMismatch exit index frame.locals.length
        frame.dirtyLocals.length)
    else if frame.returnIp ≤ frame.callIp then
      .error (.invalidVirtualFrameContinuation exit index frame.callIp frame.returnIp)
    else if outerResumeIp.any (· ≠ frame.callIp) then
      .error (.invalidVirtualFrameOrder exit index)
    else do
      (frame.operandStack ++ frame.locals).forM (verifyFrameMaterialization reprs exit index)
      verifyVirtualFrames reprs exit (index + 1) (some frame.resumeIp) frames

def verifyExit (reprs : ReprMap) (exit : SsaExit) : Except SsaVerifyError Unit :=
  if exit.dirtyLocals.length ≠ exit.locals.length then
    .error (.dirtyLocalLengthMismatch exit.id exit.locals.length exit.dirtyLocals.length)
  else do
    (exit.stack ++ exit.locals).forM (verifyMaterialization reprs)
    verifyVirtualFrames reprs exit.id 0 none exit.virtualFrames

def verifyEntry (trace : SsaTrace) : Except SsaVerifyError Unit :=
  match trace.blocks[trace.entry.index]? with
  | none => .error (.unknownEntry trace.entry)
  | some entry =>
    if entry.id ≠ trace.entry then .error (.unknownEntry trace.entry)
    else if entry.params.length < trace.entryStackDepth then
      .error (.entryStackDepthMismatch trace.entryStackDepth entry.params.length)
    else .ok ()

def SsaTrace.verify (trace : SsaTrace) : Except SsaVerifyError Unit := do
  verifyBlockIds [] trace.blocks
  verifyEntry trace
  let reprs ← trace.blocks.foldlM (verifyBlock trace.blocks (trace.exits.map (·.id))) []
  trace.exits.forM (verifyExit reprs)

/-! ## What verification establishes -/

def SsaBranchTarget.targets : SsaBranchTarget → List SsaBlockId
  | .block target _ => [target]
  | .exit _ => []

/-- The blocks a terminator can continue with. -/
def SsaTerminator.targets : SsaTerminator → List SsaBlockId
  | .jump target _ => [target]
  | .branchBool _ ifTrue ifFalse => ifTrue.targets ++ ifFalse.targets
  | _ => []

def SsaTrace.blockIds (trace : SsaTrace) : List SsaBlockId := trace.blocks.map (·.id)

/-- The values that an exit writes back. -/
def SsaExit.sources (exit : SsaExit) : List SsaValueId :=
  (exit.stack ++ exit.locals ++
    exit.virtualFrames.flatMap fun frame => frame.operandStack ++ frame.locals).map (·.source)

structure Verified (trace : SsaTrace) : Prop where
  entry : trace.entry ∈ trace.blockIds
  values : trace.values.Nodup
  sources : ∀ exit ∈ trace.exits, ∀ value ∈ exit.sources, value ∈ trace.values

open Fallible List

variable {blocks : List SsaBlock} {exitIds : List SsaExitId} {tables tables' : ReprMap × ReprMap}
  {block : SsaBlock} {trace : SsaTrace}

theorem verifyEntry_mem (h : verifyEntry trace = .ok ()) :
    trace.entry ∈ trace.blockIds := by
  simp only [verifyEntry] at h
  split at h
  · cases h
  · next entry found =>
      split at h
      · cases h
      · next same => exact mem_map.mpr ⟨entry, mem_of_getElem? found, not_not.mp same⟩

/-- The table of all values lists the values declared so far, each once. -/
def Lists (reprs : ReprMap) (values : List SsaValueId) : Prop :=
  reprs.map (·.1) = values.reverse ∧ values.Nodup

variable {reprs : ReprMap} {values : List SsaValueId}

theorem Lists.mem_iff (lists : Lists reprs values) {id : SsaValueId} :
    (reprs.lookup id).isSome ↔ id ∈ values := by
  rw [lookup_isSome_iff, ← mem_reverse, ← lists.1, mem_map]
  exact exists_congr fun entry => and_congr_right fun _ => beq_iff_eq.trans eq_comm

theorem declareValue_lists {value : SsaValue} (lists : Lists tables.1 values)
    (h : declareValue tables value = .ok tables') : Lists tables'.1 (values ++ [value.id]) := by
  simp only [declareValue] at h
  split at h
  · cases h
  · next fresh =>
      cases h
      have unlisted : value.id ∉ values := fun mem => fresh (lists.mem_iff.mpr mem)
      refine ⟨?_, nodup_append.mpr ⟨lists.2, pairwise_singleton _ _, ?_⟩⟩
      · rw [map_cons, reverse_append, lists.1]
        rfl
      · intro a inValues b isNew
        cases mem_singleton.mp isNew
        exact fun same => unlisted (same ▸ inValues)

theorem declareAll_lists {declared : List SsaValue} (lists : Lists tables.1 values)
    (h : declared.foldlM declareValue tables = .ok tables') :
    Lists tables'.1 (values ++ declared.map (·.id)) := by
  let Holds (consumed : List SsaValue) (tables : ReprMap × ReprMap) : Prop :=
    Lists tables.1 (values ++ consumed.map (·.id))
  have start : Holds [] tables := by simpa only [Holds, map_nil, append_nil] using lists
  refine foldlM_invariant (I := Holds)
    (fun {consumed value tables tables'} holds step => ?_) start h
  have next := declareValue_lists holds step
  simpa only [Holds, map_append, map_cons, map_nil, append_assoc] using next

theorem verifyInst_lists {block : SsaBlockId} {inst : SsaInst} (lists : Lists tables.1 values)
    (h : verifyInst block exitIds tables inst = .ok tables') :
    Lists tables'.1 (values ++ inst.output.toList.map (·.id)) := by
  simp only [verifyInst, bind_eq_ok] at h
  obtain ⟨⟨⟩, _, ⟨⟩, _, declared⟩ := h
  exact declareAll_lists lists declared

theorem verifyBlock_lists {reprs' : ReprMap} (lists : Lists reprs values)
    (h : verifyBlock blocks exitIds reprs block = .ok reprs') :
    Lists reprs' (values ++ block.values) := by
  simp only [verifyBlock, bind_eq_ok, pure_eq_ok] at h
  obtain ⟨tables, params, tables', insts, ⟨⟩, _, rfl⟩ := h
  let Holds (consumed : List SsaInst) (tables : ReprMap × ReprMap) : Prop :=
    Lists tables.1 (values ++ block.params.map (·.value.id) ++
      consumed.filterMap fun inst => inst.output.map (·.id))
  have start : Holds [] tables := by
    have declared := declareAll_lists lists params
    simp only [map_map, Function.comp_def] at declared
    simpa only [Holds, filterMap_nil, append_nil] using declared
  have done : Holds ([] ++ block.insts) tables' := by
    refine foldlM_invariant (I := Holds)
      (fun {consumed inst tables tables'} holds step => ?_) start insts
    have next := verifyInst_lists holds step
    rw [append_assoc] at next
    have outputs : inst.output.toList.map (·.id) =
        [inst].filterMap fun inst => inst.output.map (·.id) := by
      rw [filterMap_cons, filterMap_nil]
      cases inst.output <;> rfl
    rw [outputs, ← filterMap_append] at next
    exact next
  simpa only [Holds, SsaBlock.values, nil_append, append_assoc] using done

theorem verifyMaterialization_mem {materialization : SsaMaterialization}
    (lists : Lists reprs values) (h : verifyMaterialization reprs materialization = .ok ()) :
    materialization.source ∈ values := by
  simp only [verifyMaterialization] at h
  split at h
  · next found => exact lists.mem_iff.mp (Option.isSome_of_eq_some found)
  · cases h

theorem verifyVirtualFrames_mem {exit : SsaExitId} {index : Nat} {outerResumeIp : Option Nat}
    {frames : List VirtualFrameSnapshot} (lists : Lists reprs values)
    (h : verifyVirtualFrames reprs exit index outerResumeIp frames = .ok ()) :
    ∀ frame ∈ frames, ∀ materialization ∈ frame.operandStack ++ frame.locals,
      materialization.source ∈ values := by
  induction frames generalizing index outerResumeIp with
  | nil => simp
  | cons first rest ih =>
    simp only [verifyVirtualFrames] at h
    repeat' split at h
    · cases h
    · cases h
    · cases h
    · obtain ⟨⟨⟩, checked, h⟩ := bind_eq_ok.mp h
      rw [forall_mem_cons]
      refine ⟨fun materialization used => ?_, ih h⟩
      have known := forM_eq_ok.mp checked materialization used
      cases materialization with
      | boxHeapPtr => cases known
      | _ => exact verifyMaterialization_mem lists known

/-- **A trace that passes verification declares what its exits write back.** -/
theorem verified_of_verify (h : trace.verify = .ok ()) : Verified trace := by
  simp only [SsaTrace.verify, bind_eq_ok] at h
  obtain ⟨⟨⟩, ids, ⟨⟩, entry, reprs, blocks, exits⟩ := h
  let Holds (consumed : List SsaBlock) (reprs : ReprMap) : Prop :=
    Lists reprs (consumed.flatMap SsaBlock.values)
  have done : Holds ([] ++ trace.blocks) reprs := by
    refine foldlM_invariant (I := Holds) (fun {consumed block reprs reprs'} holds step => ?_)
      ⟨rfl, nodup_nil⟩ blocks
    have next := verifyBlock_lists holds step
    simpa only [Holds, flatMap_append, flatMap_cons, flatMap_nil, append_nil] using next
  refine ⟨verifyEntry_mem entry, done.2, ?_⟩
  intro exit mem value source
  have checked := forM_eq_ok.mp exits exit mem
  simp only [verifyExit] at checked
  split at checked
  · cases checked
  · obtain ⟨⟨⟩, materializations, frames⟩ := bind_eq_ok.mp checked
    obtain ⟨materialization, used, rfl⟩ := mem_map.mp source
    rcases mem_append.mp used with inExit | inFrames
    · exact verifyMaterialization_mem done (forM_eq_ok.mp materializations materialization inExit)
    · obtain ⟨frame, inside, used⟩ := mem_flatMap.mp inFrames
      exact verifyVirtualFrames_mem done frames frame inside materialization used

/-! ## Values at exits -/

def SsaBranchTarget.exits : SsaBranchTarget → List SsaExitId
  | .block _ _ => []
  | .exit id => [id]

def SsaTerminator.exits : SsaTerminator → List SsaExitId
  | .jump _ _ => []
  | .branchBool _ ifTrue ifFalse => ifTrue.exits ++ ifFalse.exits
  | .exit id | .return id | .callValue _ _ _ id | .callScript _ _ _ _ id => [id]

/-- A block can be left by an exit, and has defined `own` by then. -/
inductive SsaBlock.Leaves (block : SsaBlock) : (own : List SsaValueId) → SsaExitId → Prop
  | failure {before after : List SsaInst} {inst : SsaInst} {exit : SsaExitId} :
      block.insts = before ++ inst :: after → inst.failureExit = some exit →
      block.Leaves ({ block with insts := before }).values exit
  | terminator {terminator : SsaTerminator} {exit : SsaExitId} :
      block.terminator = some terminator → exit ∈ terminator.exits →
      block.Leaves block.values exit

variable (trace : SsaTrace)

def SsaTrace.Edge (block next : SsaBlock) : Prop :=
  ∃ terminator, block.terminator = some terminator ∧ next.id ∈ terminator.targets ∧
    next ∈ trace.blocks

/-- A path from the entry to a block, with the values that are defined on it. -/
inductive SsaTrace.Path : (defined : List SsaValueId) → SsaBlock → Prop
  | entry {block : SsaBlock} : block ∈ trace.blocks → block.id = trace.entry → Path [] block
  | step {defined : List SsaValueId} {block next : SsaBlock} : Path defined block →
      trace.Edge block next → Path (defined ++ block.values) next

def SsaTrace.ExitsDefined : Prop :=
  ∀ defined block own, ∀ exit ∈ trace.exits, trace.Path defined block →
    block.Leaves own exit.id → ∀ value ∈ exit.sources, value ∈ defined ∨ value ∈ own

/-- A block is reached from the entry when the jumps out of another block are cut. -/
inductive SsaTrace.ReachedWithout (definer : SsaBlock) : SsaBlock → Prop
  | entry {block : SsaBlock} : block ∈ trace.blocks → block.id = trace.entry →
      ReachedWithout definer block
  | step {block next : SsaBlock} : ReachedWithout definer block → block ≠ definer →
      trace.Edge block next → ReachedWithout definer next

/-- No path from the entry to a block goes round the definer. -/
def SsaTrace.Dominates (definer block : SsaBlock) : Prop := ¬ trace.ReachedWithout definer block

/-- What an exit writes back is defined in its block before it is left, or in a block that
dominates it. -/
def SsaTrace.DefinersDominate : Prop :=
  ∀ block ∈ trace.blocks, ∀ own, ∀ exit ∈ trace.exits, block.Leaves own exit.id →
    ∀ value ∈ exit.sources, value ∈ own ∨
      ∃ definer ∈ trace.blocks, value ∈ definer.values ∧ trace.Dominates definer block

variable {trace} {defined : List SsaValueId} {definer : SsaBlock} {value : SsaValueId}

theorem SsaTrace.Path.mem (path : trace.Path defined block) : block ∈ trace.blocks := by
  cases path with
  | entry mem _ => exact mem
  | step _ edge => exact edge.choose_spec.2.2

/-- A path has run the definer, or it goes round it. -/
theorem SsaTrace.Path.defined_or_reached (path : trace.Path defined block)
    (defines : value ∈ definer.values) :
    value ∈ defined ∨ trace.ReachedWithout definer block := by
  induction path with
  | entry mem isEntry => exact .inr (.entry mem isEntry)
  | @step _ block _ _ edge ih =>
    rw [mem_append]
    rcases ih with before | reached
    · exact .inl (.inl before)
    · by_cases same : block = definer
      · exact .inl (.inr (same ▸ defines))
      · exact .inr (reached.step same edge)

/-- In a verified trace a value is defined in one block. -/
theorem Verified.definer_unique (verified : Verified trace) (mem : block ∈ trace.blocks)
    (definerMem : definer ∈ trace.blocks) (here : value ∈ block.values)
    (defines : value ∈ definer.values) : block = definer := by
  have apart := (nodup_flatMap.mp verified.values).2
  have symmetric : Std.Symm (Function.onFun List.Disjoint SsaBlock.values) :=
    ⟨fun _ _ disjoint => disjoint.symm⟩
  by_contra differ
  exact apart.forall mem definerMem differ here defines

/-- A way round the only definer is a path on which the value is not defined. -/
theorem SsaTrace.ReachedWithout.path (verified : Verified trace)
    (definerMem : definer ∈ trace.blocks) (defines : value ∈ definer.values)
    (reached : trace.ReachedWithout definer block) :
    ∃ defined, trace.Path defined block ∧ value ∉ defined := by
  induction reached with
  | entry mem isEntry => exact ⟨[], .entry mem isEntry, not_mem_nil⟩
  | @step block _ _ other edge ih =>
    obtain ⟨defined, path, undefined⟩ := ih
    refine ⟨_, path.step edge, ?_⟩
    rw [mem_append]
    rintro (before | here)
    · exact undefined before
    · exact other (verified.definer_unique path.mem definerMem here defines)

/-- **The exits of a verified trace write back defined values exactly if definitions
dominate exits.** -/
theorem exitsDefined_iff (accepted : trace.verify = .ok ()) :
    trace.ExitsDefined ↔ trace.DefinersDominate := by
  have verified := verified_of_verify accepted
  constructor
  · intro exitsDefined block mem own exit exitMem leaves value used
    by_cases here : value ∈ own
    · exact .inl here
    · obtain ⟨definer, definerMem, defines⟩ :=
        mem_flatMap.mp (verified.sources exit exitMem value used)
      refine .inr ⟨definer, definerMem, defines, fun reached => ?_⟩
      obtain ⟨defined, path, undefined⟩ := reached.path verified definerMem defines
      exact (exitsDefined defined block own exit exitMem path leaves value used).elim
        undefined here
  · intro dominate defined block own exit exitMem path leaves value used
    rcases dominate block path.mem own exit exitMem leaves value used with
      here | ⟨definer, -, defines, dominates⟩
    · exact .inr here
    · exact .inl ((path.defined_or_reached defines).resolve_right dominates)

/-- A block with a parameter, and a jump to the next one. -/
def passingBlock : SsaBlock := ⟨⟨0⟩, [⟨⟨⟨0⟩, .tagged⟩, "value"⟩], [], some (.jump ⟨1⟩ [])⟩

/-- The exit of the second block writes back the parameter of the first. -/
def passedExit : SsaTrace where
  rootIp := 0
  entryStackDepth := 0
  entry := ⟨0⟩
  blocks := [passingBlock, ⟨⟨1⟩, [], [], some (.exit ⟨0⟩)⟩]
  exits := [⟨⟨0⟩, 0, [.value ⟨0⟩], [], [], []⟩]

theorem passedExit_reached (reached : passedExit.ReachedWithout passingBlock block) :
    block = passingBlock := by
  induction reached with
  | entry mem isEntry =>
    rcases mem_pair.mp mem with rfl | rfl
    · rfl
    · cases isEntry
  | step _ other _ ih => exact absurd ih other

theorem passedExit_defined : passedExit.verify = .ok () ∧ passedExit.ExitsDefined := by
  refine ⟨rfl, (exitsDefined_iff rfl).mpr ?_⟩
  intro block mem own exit exitMem leaves value used
  cases mem_singleton.mp exitMem
  cases mem_singleton.mp used
  rcases mem_pair.mp mem with rfl | rfl
  · cases leaves with
    | failure split => simp [passingBlock] at split
    | terminator found exits =>
      cases found
      cases exits
  · refine .inr ⟨passingBlock, mem_cons_self, mem_cons_self, fun reached => ?_⟩
    cases passedExit_reached reached

/-- The exit of the entry block writes back a parameter of a block that is never entered. -/
def strayExit : SsaTrace where
  rootIp := 0
  entryStackDepth := 0
  entry := ⟨0⟩
  blocks := [⟨⟨0⟩, [], [], some (.exit ⟨0⟩)⟩,
    ⟨⟨1⟩, [⟨⟨⟨0⟩, .tagged⟩, "value"⟩], [], some (.exit ⟨0⟩)⟩]
  exits := [⟨⟨0⟩, 0, [.value ⟨0⟩], [], [], []⟩]

theorem verify_accepts_strayExit : strayExit.verify = .ok () ∧ ¬ strayExit.ExitsDefined := by
  refine ⟨rfl, fun defined => ?_⟩
  have path : strayExit.Path [] ⟨⟨0⟩, [], [], some (.exit ⟨0⟩)⟩ := .entry (.head _) rfl
  have left : SsaBlock.Leaves ⟨⟨0⟩, [], [], some (.exit ⟨0⟩)⟩ [] ⟨0⟩ := .terminator rfl (.head _)
  exact (defined _ _ _ _ (.head _) path left ⟨0⟩ (.head _)).elim nofun nofun

end RustScript.Jit
