import RustScript.Vmbc.Artifact
import RustScript.Vmbc.Validate

/-!
# The embedded decoder

`pd-vm-nostd` has a decoder of its own.  It keeps the parts of an artifact that
its interpreter needs and skips the rest: type map, debug information, schemas
and struct declarations are walked over but not built.  A map constant is the
list of its entries as they are spelled.

Its cursor has one budget, the aggregate items.
-/

namespace RustScript.Nostd

open ByteCodec

inductive WireError where
  | unexpectedEof
  | invalidMagic (found : List UInt8)
  | unsupportedVersion (version : UInt16)
  | unsupportedFlags (flags : UInt16)
  | invalidConstantTag (tag : UInt8)
  | invalidBool (value : UInt8)
  | invalidTypeMapFlag (value : UInt8)
  | invalidDebugFlag (value : UInt8)
  | invalidValueType (value : UInt8)
  | invalidResourceKey
  | invalidCaptureBindingMode (value : UInt8)
  | invalidCallScriptTarget (prototypeId : UInt32)
  | invalidCallScriptArity (prototypeId : UInt32) (expected got : UInt8)
  | truncatedOperand (opcode : UInt8) (expectedBytes : Nat)
  | invalidUtf8
  | lengthTooLarge (field : String) (len : Nat)
  | schemaTooDeep
  | trailingBytes
  deriving DecidableEq, Repr

def maxWirePayloadBytes : Nat := 64 * 1024 * 1024
def maxWireBlobBytes : Nat := 16 * 1024 * 1024
def maxWireCount : Nat := 1000000
def maxWireAggregateItems : Nat := 1000000
def maxResourceKeyLen : Nat := 128
def maxSchemaDepth : Nat := 64
def maxConstantDepth : Nat := 64

/-! ## The cursor -/

abbrev WireReader := Reader WireError Nat

def readU8 : WireReader UInt8 := readByte .unexpectedEof

def readExact (len : Nat) : WireReader (List UInt8) := readBytes .unexpectedEof len

def readBool : WireReader Bool := Format.readEnum .unexpectedEof .invalidBool Vmbc.boolOfByte

def readU16 : WireReader UInt16 := do
  let bytes ← readExact 2
  pure (UInt16.ofNat (ofLeBytes bytes))

def readU32 : WireReader UInt32 := do
  let bytes ← readExact 4
  pure (UInt32.ofNat (ofLeBytes bytes))

def readI64 : WireReader Int64 := do
  let bytes ← readExact 8
  pure (UInt64.ofNat (ofLeBytes bytes)).toInt64

def readF64 : WireReader UInt64 := do
  let bytes ← readExact 8
  pure (UInt64.ofNat (ofLeBytes bytes))

def readBlob (field : String) : WireReader (List UInt8) := do
  let length ← readU32
  ensure (length.toNat ≤ maxWireBlobBytes) (.lengthTooLarge field length.toNat)
  readExact length.toNat

def decodeUtf8 (bytes : List UInt8) : WireReader String :=
  match ofUtf8 bytes with
  | some text => pure text
  | none => throw .invalidUtf8

def readString : WireReader String := do
  let bytes ← readBlob "string"
  decodeUtf8 bytes

def skipString : WireReader Unit := do
  let _ ← readBlob "string"

def debitCount (field : String) (count : Nat) : WireReader Unit := do
  ensure (count ≤ maxWireCount) (.lengthTooLarge field count)
  spend (.lengthTooLarge field count) fun budget =>
    if count ≤ budget then some (budget - count) else none

def validateCountWithOverhead (field : String) (count minItemBytes fixedBytes : Nat) :
    WireReader Unit := do
  ensure (count ≤ maxWireCount) (.lengthTooLarge field count)
  demand (.lengthTooLarge field count) (count * minItemBytes + fixedBytes)

def readCountWithOverhead (field : String) (minItemBytes fixedBytes : Nat) : WireReader Nat := do
  let count ← readU32
  validateCountWithOverhead field count.toNat minItemBytes fixedBytes
  debitCount field count.toNat
  pure count.toNat

def readCount (field : String) (minItemBytes : Nat) : WireReader Nat :=
  readCountWithOverhead field minItemBytes 0

def readLimitedCount (field : String) : WireReader Nat := do
  let count ← readU32
  ensure (count.toNat ≤ maxFrameLocalCount) (.lengthTooLarge field count.toNat)
  debitCount field count.toNat
  pure count.toNat

/-- A count and that many items. -/
def readVec {α : Type} (field : String) (minItemBytes : Nat) (item : WireReader α) :
    WireReader (List α) := do
  let count ← readCount field minItemBytes
  replicateM count item

/-- Skip a number of items. -/
def skipMany (count : Nat) (item : WireReader Unit) : WireReader Unit := do
  let _ ← replicateM count item

/-- A count, and skip that many items. -/
def skipVec (field : String) (minItemBytes : Nat) (item : WireReader Unit) : WireReader Unit := do
  let count ← readCount field minItemBytes
  skipMany count item

def readValueType : WireReader ValueType :=
  Format.readEnum .unexpectedEof .invalidValueType Vmbc.valueTypeOfByte

/-! ## Constants -/

/-- What `read_constant` reads after a tag; a map keeps every spelled entry. -/
def readConstantPayload (nested : WireReader Value) (tag : UInt8) : WireReader Value :=
  match tag with
  | 0 => do
      let value ← readI64
      pure (.int value)
  | 1 => do
      let value ← readBool
      pure (.bool value)
  | 2 => do
      let text ← readString
      pure (.string text)
  | 3 => do
      let bits ← readF64
      pure (.float bits)
  | 4 => pure .null
  | 5 => do
      let bytes ← readBlob "constant bytes"
      pure (.bytes bytes)
  | 6 => do
      let count ← readCount "constant array" 1
      let values ← replicateM count nested
      pure (.array values)
  | 7 => do
      let count ← readCount "constant map" 2
      let entries ← replicateM count do
        let key ← nested
        let value ← nested
        pure (key, value)
      pure (.map entries)
  | tag => throw (.invalidConstantTag tag)

/-- `read_constant`, with the nesting levels that are left. -/
def readConstant : Nat → WireReader Value
  | 0 => throw (.lengthTooLarge "constant nesting depth" maxConstantDepth)
  | levels + 1 => do
      let tag ← readU8
      readConstantPayload (readConstant levels) tag

/-! ## Skipped sections -/

def isKeyByte (byte : UInt8) : Bool :=
  (97 ≤ byte && byte ≤ 122) || (48 ≤ byte && byte ≤ 57) || byte == 95 || byte == 45 || byte == 46

/-- The walk of `skip_resource_key`: allowed bytes, and no empty segment before a dot.
Returns where the last segment starts. -/
def keySegments : Nat → Nat → List UInt8 → Except WireError Nat
  | _, segmentStart, [] => .ok segmentStart
  | index, segmentStart, byte :: rest =>
    if !isKeyByte byte then .error .invalidResourceKey
    else if byte = 46 then
      if index = segmentStart then .error .invalidResourceKey
      else keySegments (index + 1) (index + 1) rest
    else keySegments (index + 1) segmentStart rest

def skipResourceKey : WireReader Unit := do
  let bytes ← readBlob "schema resource key"
  ensure (¬ (bytes = [] ∨ bytes.length > maxResourceKeyLen)) .invalidResourceKey
  let _ ← decodeUtf8 bytes
  let segmentStart ← Format.liftResult (keySegments 0 0 bytes)
  ensure (segmentStart ≠ bytes.length) .invalidResourceKey

/-- What `skip_schema` skips after a tag; `nested` skips one level deeper. -/
def skipSchemaPayload (nested : WireReader Unit) (tag : UInt8) : WireReader Unit :=
  match tag with
  | 0 | 1 | 2 | 3 | 4 | 5 | 6 | 7 => pure ()
  | 8 => skipString
  | 9 => do
      skipString
      skipVec "schema type args" 1 nested
  | 10 | 13 | 16 => nested
  | 11 => skipVec "schema tuple items" 1 nested
  | 12 => do
      let count ← readCountWithOverhead "schema tuple prefix" 1 1
      skipMany count nested
      nested
  | 14 => skipVec "schema object fields" 5 do
      skipString
      nested
  | 15 => do
      let count ← readCountWithOverhead "schema callable params" 1 1
      skipMany count nested
      nested
  | 17 => skipResourceKey
  | value => throw (.invalidValueType value)

/-- `skip_schema`, with the nesting levels that are left. -/
def skipSchema : Nat → WireReader Unit
  | 0 => throw .schemaTooDeep
  | levels + 1 => do
      debitCount "schema nodes" 1
      let tag ← readU8
      skipSchemaPayload (skipSchema levels) tag

/-- What `skip_host_schema` skips after a tag. -/
def skipHostSchemaPayload (nested : WireReader Unit) (tag : UInt8) : WireReader Unit :=
  match tag with
  | 0 | 1 | 2 | 3 | 4 | 5 | 6 | 7 => pure ()
  | 8 | 9 | 10 => nested
  | 11 => do
      let count ← readCountWithOverhead "host callable parameters" 1 1
      skipMany count nested
      nested
  | 12 => skipString
  | 13 => do
      skipString
      let count ← readCountWithOverhead "host named struct fields" 1 1
      skipMany count do
        skipString
        nested
  | value => throw (.invalidValueType value)

/-- `skip_host_schema`, with the nesting levels that are left. -/
def skipHostSchema : Nat → WireReader Unit
  | 0 => throw .schemaTooDeep
  | levels + 1 => do
      let tag ← readU8
      skipHostSchemaPayload (skipHostSchema levels) tag

def skipPassing : WireReader Unit := do
  let value ← readU8
  ensure (value ≤ 3) (.invalidValueType value)

def skipHostImportSchema : WireReader Unit := do
  skipString
  skipVec "host import schema parameters" 6 do
    skipString
    skipHostSchema maxSchemaDepth
    skipPassing
  skipHostSchema maxSchemaDepth
  let _ ← readExact 8

/-- A flagged part: `0` for absent, `1` for present. -/
def skipOptional (bad : UInt8 → WireError) (part : WireReader Unit) : WireReader Unit := do
  let _ ← Format.readOptional .unexpectedEof bad part

def skipOptionalSchema : WireReader Unit := skipOptional .invalidBool (skipSchema maxSchemaDepth)

def skipBoolVector (expected : Nat) : WireReader Unit := do
  let count ← readU32
  ensure (count.toNat = expected) .trailingBytes
  validateCountWithOverhead "type map boolean vector" count.toNat 1 0
  debitCount "type map boolean vector" count.toNat
  let _ ← replicateM count.toNat readBool

/-- The type map is skipped, apart from its number of locals. -/
def skipTypeMap : WireReader (Option Nat) :=
  Format.readOptional .unexpectedEof .invalidTypeMapFlag do
    let _ ← readBool
    let localCount ← readCountWithOverhead "type map locals" 4 12
    ensure (localCount ≤ maxFrameLocalCount) (.lengthTooLarge "type map locals" localCount)
    let _ ← replicateM localCount readValueType
    skipMany localCount skipOptionalSchema
    skipBoolVector localCount
    skipBoolVector localCount
    skipVec "type map operands" 6 do
      let _ ← readU32
      let _ ← readValueType
      let _ ← readValueType
    pure localCount

def skipOptionalU32 : WireReader Unit := skipOptional .invalidDebugFlag do
  let _ ← readU32

def skipDebugInfo : WireReader Unit :=
  skipOptional .invalidDebugFlag do
    skipOptional .invalidDebugFlag skipString
    let lineCount ← readCount "debug lines" 8
    let _ ← readExact (lineCount * 8)
    skipVec "debug functions" 8 do
      skipString
      skipVec "debug function args" 5 do
        skipString
        let _ ← readU8
    skipVec "debug locals" 7 do
      skipString
      let _ ← readU8
      skipOptionalU32
      skipOptionalU32

def skipTypeParams : WireReader Unit := do
  let count ← readCount "named struct type params" 1
  let _ ← Format.readDistinct id (.invalidValueType 0) readString count []

/-- Skip that many more struct declarations; `seen` holds the earlier names. -/
def skipNamedStructDeclsLoop : Nat → List String → WireReader Unit
  | 0, _ => pure ()
  | count + 1, seen => do
      let name ← readString
      ensure (name ∉ seen) (.invalidValueType 0)
      skipTypeParams
      skipSchema maxSchemaDepth
      skipNamedStructDeclsLoop count (seen ++ [name])

def skipNamedStructDecls : WireReader Unit := do
  let count ← readCount "named struct decls" 1
  skipNamedStructDeclsLoop count []

/-! ## Callable metadata -/

/-- A callable of the embedded program, which keeps no schema. -/
structure CallablePrototype where
  kind : CallableKind
  target : CallableTarget
  arity : UInt8
  frameLocalCount : Nat
  parameterSlots : List UInt16
  captureSourceSlots : List UInt16
  captureSlots : List UInt16
  captureModes : List CaptureBindingMode
  selfSlot : Option UInt16
  deriving DecidableEq, Repr

structure CallableMetadata where
  scriptFunctions : List ScriptFunction
  callablePrototypes : List CallablePrototype
  functionRegions : List FunctionRegion
  rootCallableBindings : List RootCallableBinding
  exportedCallables : List ExportedCallable

def readCallableTarget : WireReader CallableTarget := do
  let tag ← readU8
  let id ← readU32
  match tag with
  | 0 => pure (.scriptFunction id)
  | 1 => do
      ensure (id.toNat < 2 ^ 16) (.lengthTooLarge "host callable target" id.toNat)
      pure (.hostImport id.toUInt16)
  | value => throw (.invalidValueType value)

def readCallablePrototype : WireReader CallablePrototype := do
  let kind ← Format.readEnum .unexpectedEof .invalidValueType Vmbc.callableKindOfByte
  let target ← readCallableTarget
  let arity ← readU8
  let frameLocalCount ← readLimitedCount "callable frame locals"
  let parameterSlots ← readVec "callable parameters" 2 readU16
  let captureSourceSlots ← readVec "callable capture sources" 2 readU16
  let captureSlots ← readVec "callable captures" 2 readU16
  let captureModes ← readVec "callable capture modes" 1
    (Format.readEnum .unexpectedEof .invalidCaptureBindingMode Vmbc.captureModeOfByte)
  let selfSlot ← Format.readOptional .unexpectedEof .invalidBool readU16
  skipOptionalSchema
  pure { kind, target, arity, frameLocalCount, parameterSlots, captureSourceSlots, captureSlots,
         captureModes, selfSlot }

def readScriptFunction : WireReader ScriptFunction := do
  let entryIp ← readU32
  let endIp ← readU32
  pure { entryIp, endIp }

def readFunctionRegion : WireReader FunctionRegion := do
  let startIp ← readU32
  let endIp ← readU32
  let prototypeId ← Format.readOptional .unexpectedEof .invalidBool readU32
  pure { startIp, endIp, prototypeId }

def readRootCallableBinding : WireReader RootCallableBinding := do
  let localSlot ← readU16
  let prototypeId ← readU32
  pure { localSlot, prototypeId }

def readExportedCallable : WireReader ExportedCallable := do
  let name ← readString
  let localSlot ← readU16
  pure { name, localSlot }

def readCallableMetadata : WireReader CallableMetadata := do
  let scriptFunctions ← readVec "script functions" 8 readScriptFunction
  let callablePrototypes ← readVec "callable prototypes" 29 readCallablePrototype
  let functionRegions ← readVec "function regions" 9 readFunctionRegion
  let rootCallableBindings ← readVec "root callable bindings" 6 readRootCallableBinding
  let exportedCallables ← readVec "exported callables" 6 readExportedCallable
  pure { scriptFunctions, callablePrototypes, functionRegions, rootCallableBindings,
         exportedCallables }

/-! ## Script calls -/

def checkCallScript (prototypes : List CallablePrototype) (prototypeId : UInt32) (argc : UInt8) :
    Except WireError Unit :=
  match prototypes[prototypeId.toNat]? with
  | none => .error (.invalidCallScriptTarget prototypeId)
  | some prototype =>
    match prototype.target with
    | .hostImport _ => .error (.invalidCallScriptTarget prototypeId)
    | .scriptFunction _ =>
      if argc ≠ prototype.arity then
        .error (.invalidCallScriptArity prototypeId prototype.arity argc)
      else .ok ()

/-- The walk of `validate_call_script_operands` over what is left of the code.  A byte
that is no opcode is skipped. -/
def walkCallScripts (prototypes : List CallablePrototype) : Nat → List UInt8 → Except WireError Unit
  | 0, _ => .ok ()
  | _ + 1, [] => .ok ()
  | fuel + 1, byte :: rest =>
    match OpCode.tryFrom byte with
    | none => walkCallScripts prototypes fuel rest
    | some opcode =>
      if rest.length < opcode.operandLen then
        .error (.truncatedOperand byte opcode.operandLen)
      else do
        if opcode = .callScript then
          checkCallScript prototypes (UInt32.ofNat (Vmbc.operand 4 rest))
            (UInt8.ofNat (Vmbc.operand 1 (rest.drop 4)))
        walkCallScripts prototypes fuel (rest.drop opcode.operandLen)

/-- Every step consumes at least one byte, so `code.length` steps suffice. -/
def validateCallScriptOperands (code : List UInt8) (prototypes : List CallablePrototype) :
    Except WireError Unit :=
  walkCallScripts prototypes code.length code

/-! ## The decoder -/

structure Program where
  constants : List Value
  code : List UInt8
  localCount : Nat
  imports : List HostImport
  scriptFunctions : List ScriptFunction
  callablePrototypes : List CallablePrototype
  functionRegions : List FunctionRegion
  rootCallableBindings : List RootCallableBinding
  exportedCallables : List ExportedCallable

/-- The magic bytes, the version and the flags. -/
def readHeader : WireReader UInt16 := do
  let magic ← readExact 4
  ensure (magic = Vmbc.vmbcMagic) (.invalidMagic magic)
  let version ← readU16
  ensure (version = Vmbc.versionV11 ∨ version = Vmbc.versionV12 ∨ version = Vmbc.versionV13)
    (.unsupportedVersion version)
  let flags ← readU16
  ensure (flags = 0) (.unsupportedFlags flags)
  pure version

def readImport (hasHostImportSchemas : Bool) : WireReader HostImport := do
  let name ← readString
  let arity ← readU8
  let returnType ← readValueType
  if hasHostImportSchemas then skipOptional .invalidBool skipHostImportSchema
  pure { name, arity, returnType }

/-- What the embedded decoder keeps of an artifact. -/
structure Artifact where
  constants : List Value
  code : List UInt8
  imports : List HostImport
  encodedLocalCount : Option Nat
  callables : CallableMetadata

/-- Everything after the header. -/
def readArtifact (version : UInt16) : WireReader Artifact := do
  let hasHostImportSchemas := decide (version ≠ Vmbc.versionV11)
  let constants ← readVec "constants" 1 (readConstant maxConstantDepth)
  let code ← readBlob "code"
  ensure (¬ (version = Vmbc.versionV11 ∧ OpCode.callScript.toByte ∈ code))
    (.unsupportedVersion Vmbc.versionV11)
  let imports ← readVec "imports" (if hasHostImportSchemas then 7 else 6)
    (readImport hasHostImportSchemas)
  let encodedLocalCount ← skipTypeMap
  skipDebugInfo
  let callables ← readCallableMetadata
  (if version ≥ Vmbc.versionV13 then skipNamedStructDecls else pure ())
  pure { constants, code, imports, encodedLocalCount, callables }

/-- The largest slot of a table, plus one. -/
def slotBound (slots : List UInt16) : Nat := (slots.map fun slot => slot.toNat + 1).foldl max 0

/-- `Program::new`, `with_local_count` and `with_callable_metadata`. -/
def Artifact.program (artifact : Artifact) : Program where
  constants := artifact.constants
  code := artifact.code
  localCount :=
    max (max (max (inferLocalCountFromCode artifact.code) (artifact.encodedLocalCount.getD 0))
      (slotBound (artifact.callables.rootCallableBindings.map RootCallableBinding.localSlot)))
      (slotBound (artifact.callables.exportedCallables.map ExportedCallable.localSlot))
  imports := artifact.imports
  scriptFunctions := artifact.callables.scriptFunctions
  callablePrototypes := artifact.callables.callablePrototypes
  functionRegions := artifact.callables.functionRegions
  rootCallableBindings := artifact.callables.rootCallableBindings
  exportedCallables := artifact.callables.exportedCallables

def decodeProgram (bytes : List UInt8) : Except WireError Program := do
  if bytes.length > maxWirePayloadBytes then
    throw (.lengthTooLarge "payload" bytes.length)
  let (version, cursor) ← readHeader ⟨bytes, maxWireAggregateItems⟩
  let (artifact, cursor) ← readArtifact version cursor
  if !cursor.rest.isEmpty then throw .trailingBytes
  validateCallScriptOperands artifact.code artifact.callables.callablePrototypes
  pure artifact.program

end RustScript.Nostd
