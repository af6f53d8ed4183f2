import RustScript.Vmbc.Constant
import RustScript.Vmbc.HostSchema
import RustScript.Vmbc.TypeMap

/-!
# Whole artifacts

`encodeProgram` and `decodeProgram`.  The encoder always writes version 13; the
decoder also reads the two versions before it, which lack the struct
declarations and, in version 11, the schemas of the imports.

`artifactFormat` is the body of a version 13 artifact as one lawful format.  A
program and its artifact differ in two places: the artifact pairs every import
with its optional schema, and it does not store the number of locals.
-/

namespace RustScript.Vmbc

open ByteCodec Format

/-- `VMBC`. -/
def vmbcMagic : List UInt8 := [86, 77, 66, 67]

def versionV11 : UInt16 := 11
def versionV12 : UInt16 := 12
def versionV13 : UInt16 := 13

/-- The sections of an artifact, with every import next to its schema. -/
structure Artifact where
  constants : List Value
  code : List UInt8
  imports : List (HostImport × Option HostImportSchema)
  typeMap : Option TypeMap
  debug : Option DebugInfo
  callables : CallableMetadata
  namedStructDecls : List (String × StructDecl)

/-! ## The encoder -/

def validateOptionalSchemas (schemas : List (Option HostImportSchema)) : Except WireError Unit :=
  (validateOptionalHostImportSchemas schemas).mapError .invalidHostSchemaComplexity

def writeImport (entry : HostImport × Option HostImportSchema) : Output :=
  appendBytes (writeString "import name" entry.1.name)
    (appendBytes (.ok [entry.1.arity])
      (appendBytes (.ok [valueTypeToByte entry.1.returnType])
        (writeOptional writeHostImportSchema entry.2)))

/-- The schema of every import: an empty list of schemas counts as all absent. -/
def importSchemas (program : Program) : List (Option HostImportSchema) :=
  if program.hostImportSchemas.isEmpty then List.replicate program.imports.length none
  else program.hostImportSchemas

def writeImports (program : Program) : Output := do
  let count ← writeU32Count "imports" program.imports.length
  if !program.hostImportSchemas.isEmpty then
    if program.hostImportSchemas.length ≠ program.imports.length then
      throw .hostSchemaImportMismatch
    validateOptionalSchemas program.hostImportSchemas
  let entries ← writeAll writeImport (program.imports.zip (importSchemas program))
  pure (count ++ entries)

/-- The callable tables of a program. -/
def callablesOf (program : Program) : CallableMetadata where
  scriptFunctions := program.scriptFunctions
  callablePrototypes := program.callablePrototypes
  functionRegions := program.functionRegions
  rootCallableBindings := program.rootCallableBindings
  exportedCallables := program.exportedCallables

def encodeProgram (program : Program) : Output :=
  appendBytes (.ok (vmbcMagic ++ leBytes 2 versionV13.toNat ++ leBytes 2 0))
    (appendBytes (writeVec "constants" (writeConstant maxConstantDepth) program.constants)
      (appendBytes (writeBlob "code" program.code)
        (appendBytes (writeImports program)
          (appendBytes (writeTypeMap program.typeMap)
            (appendBytes (writeDebugInfo program.debug)
              (appendBytes (writeCallableMetadata (callablesOf program))
                (writeNamedStructDecls program.namedStructDecls)))))))

/-! ## The decoder -/

/-- The magic bytes, the version and the flags. -/
def readHeader : WireReader UInt16 := do
  let magic ← readExact 4
  ensure (magic = vmbcMagic) (.invalidMagic magic)
  let version ← readU16
  ensure (version = versionV11 ∨ version = versionV12 ∨ version = versionV13)
    (.unsupportedVersion version)
  let flags ← readU16
  ensure (flags = 0) (.unsupportedFlags flags)
  pure version

/-- The schema of an import names it and has its arity. -/
def SchemaMatches (hostImport : HostImport) (schema : Option HostImportSchema) : Prop :=
  ∀ s ∈ schema, s.name = hostImport.name ∧ s.arity = hostImport.arity.toNat

instance (hostImport : HostImport) (schema : Option HostImportSchema) :
    Decidable (SchemaMatches hostImport schema) := by
  unfold SchemaMatches
  infer_instance

/-- An import of version 11, which has no schema. -/
def readImportV11 : WireReader (HostImport × Option HostImportSchema) := do
  let name ← readString
  let arity ← readU8
  let returnType ← readValueType
  pure ({ name, arity, returnType }, none)

/-- An import of version 12 or 13. -/
def readImport : WireReader (HostImport × Option HostImportSchema) := do
  let name ← readBoundedString "host import name" maxHostFunctionNameLen
  let arity ← readU8
  let returnType ← readValueType
  let schema ← readOptional .unexpectedEof .invalidBool readHostImportSchema
  ensure (SchemaMatches { name, arity, returnType } schema) .hostSchemaImportMismatch
  pure ({ name, arity, returnType }, schema)

/-- The imports of version 12 or 13, validated together. -/
def readImports : WireReader (List (HostImport × Option HostImportSchema)) := do
  let imports ← readVec "imports" 7 readImport
  liftResult (validateOptionalSchemas (imports.map Prod.snd))
  pure imports

/-- Everything after the header. -/
def readArtifact (version : UInt16) : WireReader Artifact := do
  let constants ← readVec "constants" 1 (readConstant maxConstantDepth)
  let code ← readBlob "code"
  -- `CallScript` was added in version 12.
  ensure (¬ (version = versionV11 ∧ OpCode.callScript.toByte ∈ code))
    (.unsupportedVersion versionV11)
  let imports ← (if version = versionV11 then readVec "imports" 6 readImportV11 else readImports)
  let typeMap ← readTypeMap
  let debug ← readDebugInfo
  let callables ← readCallableMetadata
  let namedStructDecls ← (if version = versionV13 then readNamedStructDecls else pure [])
  pure { constants, code, imports, typeMap, debug, callables, namedStructDecls }

/-- The number of locals that the decoder finds in code, type map and callables. -/
def recountLocals (program : Program) : Nat :=
  let typeMapLocals := (program.typeMap.map fun typeMap => typeMap.localTypes.length).getD 0
  let callableSlots :=
    program.rootCallableBindings.map RootCallableBinding.localSlot ++
      program.exportedCallables.map ExportedCallable.localSlot
  let callableLocals := (callableSlots.map fun slot => slot.toNat + 1).foldl max 0
  max (max (inferLocalCountFromCode program.code) typeMapLocals) callableLocals

/-- The program of an artifact, apart from its number of locals. -/
def Artifact.fields (version : UInt16) (artifact : Artifact) : Program where
  constants := artifact.constants
  code := artifact.code
  imports := artifact.imports.map Prod.fst
  hostImportSchemas := if version = versionV11 then [] else artifact.imports.map Prod.snd
  namedStructDecls := artifact.namedStructDecls
  debug := artifact.debug
  typeMap := artifact.typeMap
  scriptFunctions := artifact.callables.scriptFunctions
  callablePrototypes := artifact.callables.callablePrototypes
  functionRegions := artifact.callables.functionRegions
  rootCallableBindings := artifact.callables.rootCallableBindings
  exportedCallables := artifact.callables.exportedCallables

def Artifact.program (version : UInt16) (artifact : Artifact) : Program :=
  { artifact.fields version with localCount := recountLocals (artifact.fields version) }

def decodeProgram (bytes : List UInt8) : Except WireError Program := do
  if bytes.length > maxWirePayloadBytes then
    throw (.lengthTooLarge "payload" bytes.length)
  let (version, cursor) ← readHeader ⟨bytes, Budget.initial⟩
  let (artifact, cursor) ← readArtifact version cursor
  if !cursor.rest.isEmpty then throw .trailingBytes
  pure (artifact.program version)

/-! ## The codec law -/

def importFormat : WireFormat (HostImport × Option HostImportSchema) :=
  .field (boundedStringFormat "import name" "host import name" maxHostFunctionNameLen)
    (fun entry => entry.1.name) fun name =>
  .field u8Format (fun entry => entry.1.arity) fun arity =>
  .field valueTypeFormat (fun entry => entry.1.returnType) fun returnType =>
  .field (.optional .unexpectedEof .invalidBool hostImportSchemaFormat) Prod.snd fun schema =>
  .check (SchemaMatches { name, arity, returnType } schema) .hostSchemaImportMismatch <|
  .last .unit (fun _ => ()) fun _ => ({ name, arity, returnType }, schema)

def importsFormat : WireFormat (List (HostImport × Option HostImportSchema)) :=
  .validated (vecFormat "imports" "imports" 7 importFormat) fun imports =>
    validateOptionalSchemas (imports.map Prod.snd)

/-- The body of a version 13 artifact. -/
def artifactFormat : WireFormat Artifact :=
  .field (vecFormat "constants" "constants" 1 (constantFormat maxConstantDepth))
    Artifact.constants fun constants =>
  .field (blobFormat "code" "code") Artifact.code fun code =>
  .field importsFormat Artifact.imports fun imports =>
  .field typeMapFormat Artifact.typeMap fun typeMap =>
  .field debugInfoFormat Artifact.debug fun debug =>
  .field callableMetadataFormat Artifact.callables fun callables =>
  .last namedStructDeclsFormat Artifact.namedStructDecls fun namedStructDecls =>
    { constants, code, imports, typeMap, debug, callables, namedStructDecls }

theorem importFormat_read : importFormat.read = readImport := by
  rw [readImport, ← hostImportSchemaFormat_read]
  rfl

theorem importsFormat_read : importsFormat.read = readImports := by
  rw [readImports, ← importFormat_read]
  rfl

theorem artifactFormat_read : artifactFormat.read = readArtifact versionV13 := by
  have legacy : ∀ code : List UInt8,
      ensure (¬ (versionV13 = versionV11 ∧ OpCode.callScript.toByte ∈ code))
        (.unsupportedVersion versionV11) = (pure ⟨⟩ : WireReader PUnit) := by
    intro code
    exact if_pos fun h => absurd h.1 (by decide)
  have v11 : versionV13 ≠ versionV11 := by decide
  simp only [readArtifact, ← importsFormat_read,
    ← typeMapFormat_read, ← callableMetadataFormat_read, ← namedStructDeclsFormat_read]
  rfl

theorem importFormat_lawful : importFormat.Lawful := by
  refine field_lawful boundedStringFormat_lawful (fun name => ?_) ?_
  refine field_lawful u8Format_lawful (fun arity => ?_) ?_
  refine field_lawful valueTypeFormat_lawful (fun returnType => ?_) ?_
  refine field_lawful (optional_lawful hostImportSchemaFormat_lawful) (fun schema => ?_)
    fun _ _ hx => ⟨hx.2 ▸ rfl, optional_tail_le fun _ => Nat.zero_le _⟩
  exact check_lawful (last_lawful unit_lawful fun _ => rfl)
  all_goals
    intro _ _ hx
    repeat replace hx := hx.2
    exact ⟨hx ▸ rfl, Nat.zero_le _⟩

theorem importsFormat_lawful : importsFormat.Lawful := by
  refine validated_lawful (vecFormat_lawful importFormat_lawful (fun entry => ?_)
    fun _ => Nat.le_refl _)
  have size : importFormat.size entry = 4 + (utf8 entry.1.name).length + (1 + (1 +
      (1 + (entry.2.map hostImportSchemaFormat.size).getD 0 + 0))) := rfl
  omega

/-- **Artifacts round-trip within the reader's limits, and what is accepted can be
written again.** -/
theorem artifactFormat_lawful : artifactFormat.Lawful := by
  refine field_lawful (vecFormat_lawful constantFormat_lawful constantSize_pos
    fun _ => Nat.le_refl _) (fun constants => ?_) ?_
  refine field_lawful (blobFormat_lawful _ _) (fun code => ?_) ?_
  refine field_lawful importsFormat_lawful (fun imports => ?_) ?_
  refine field_lawful typeMapFormat_lawful (fun typeMap => ?_)
    fun _ _ hx => ⟨hx.2.2.2 ▸ rfl, optional_tail_le fun _ => Nat.zero_le _⟩
  refine field_lawful debugInfoFormat_lawful (fun debug => ?_)
    fun _ _ hx => ⟨hx.2.2 ▸ rfl, optional_tail_le fun _ => Nat.zero_le _⟩
  refine field_lawful callableMetadataFormat_lawful (fun callables => ?_) ?_
  exact last_lawful namedStructDeclsFormat_lawful fun _ => rfl
  all_goals
    intro _ _ hx
    repeat replace hx := hx.2
    exact ⟨hx ▸ rfl, Nat.zero_le _⟩

end RustScript.Vmbc
