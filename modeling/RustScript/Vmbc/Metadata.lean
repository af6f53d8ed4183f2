import RustScript.Vmbc.Schema

/-!
# Debug information and callable metadata on the wire

Both sections are records of counted sequences.  Each reader is the source's loop
"read a count, read that many items", and each record is a lawful format
(`debugInfoFormat_lawful`, `callableMetadataFormat_lawful`).
-/

namespace RustScript.Vmbc

open ByteCodec Format CallablePrototype

/-- A count and that many items. -/
def readVec {α : Type} (field : String) (minItemBytes : Nat) (item : WireReader α) :
    WireReader (List α) := do
  let count ← readCount field minItemBytes
  replicateM count item

def writeVec {α : Type} (field : String) (item : α → Output) (items : List α) : Output :=
  appendBytes (writeU32Count field items.length) (writeAll item items)

/-- A counted sequence; writer and reader may name the field differently. -/
def vecFormat {α : Type} (field readField : String) (minItemBytes : Nat) (F : WireFormat α) :
    WireFormat (List α) :=
  .counted (countFormat field readField minItemBytes 0) F 0

theorem vecFormat_lawful {α : Type} {field readField : String} {minItemBytes : Nat}
    {F : WireFormat α} (hF : F.Lawful) (hmin : ∀ x, minItemBytes ≤ F.size x)
    (ht : ∀ x, F.tail x ≤ 0) : (vecFormat field readField minItemBytes F).Lawful :=
  counted_lawful field _ hF hmin (Nat.le_refl _) ht

/-! ## Debug information -/

def writeOptionalU32 (value : Option UInt32) : Output :=
  writeOptional (fun v => .ok (leBytes 4 v.toNat)) value

def readOptionalU32 : WireReader (Option UInt32) :=
  readOptional .unexpectedEof .invalidDebugFlag readU32

def writeLineInfo (line : LineInfo) : Output :=
  appendBytes (.ok (leBytes 4 line.offset.toNat)) (.ok (leBytes 4 line.line.toNat))

def readLineInfo : WireReader LineInfo := do
  let offset ← readU32
  let line ← readU32
  pure { offset, line }

def writeArgInfo (arg : ArgInfo) : Output :=
  appendBytes (writeString "debug arg name" arg.name) (.ok [arg.position])

def readArgInfo : WireReader ArgInfo := do
  let name ← readString
  let position ← readU8
  pure { name, position }

def writeDebugFunction (function : DebugFunction) : Output :=
  appendBytes (writeString "debug function name" function.name)
    (writeVec "debug function args" writeArgInfo function.args)

def readDebugFunction : WireReader DebugFunction := do
  let name ← readString
  let args ← readVec "debug function args" 5 readArgInfo
  pure { name, args }

def writeLocalInfo (info : LocalInfo) : Output :=
  appendBytes (writeString "debug local name" info.name)
    (appendBytes (.ok [info.index])
      (appendBytes (writeOptionalU32 info.declaredLine) (writeOptionalU32 info.lastLine)))

def readLocalInfo : WireReader LocalInfo := do
  let name ← readString
  let index ← readU8
  let declaredLine ← readOptionalU32
  let lastLine ← readOptionalU32
  pure { name, index, declaredLine, lastLine }

def writeDebugInfo (debug : Option DebugInfo) : Output :=
  writeOptional (fun debug =>
    appendBytes (writeOptional (writeString "debug source") debug.source)
      (appendBytes (writeVec "debug lines" writeLineInfo debug.lines)
        (appendBytes (writeVec "debug functions" writeDebugFunction debug.functions)
          (writeVec "debug locals" writeLocalInfo debug.locals)))) debug

def readDebugInfo : WireReader (Option DebugInfo) :=
  readOptional .unexpectedEof .invalidDebugFlag do
    let source ← readOptional .unexpectedEof .invalidDebugFlag readString
    let lines ← readVec "debug lines" 8 readLineInfo
    let functions ← readVec "debug functions" 8 readDebugFunction
    let locals ← readVec "debug locals" 7 readLocalInfo
    pure { source, lines, functions, locals }

def optionalU32Format : WireFormat (Option UInt32) :=
  .optional .unexpectedEof .invalidDebugFlag u32Format

def lineInfoFormat : WireFormat LineInfo :=
  .field u32Format LineInfo.offset fun offset =>
    .last u32Format LineInfo.line fun line => { offset, line }

def argInfoFormat : WireFormat ArgInfo :=
  .field (stringFormat "debug arg name" "string") ArgInfo.name fun name =>
    .last u8Format ArgInfo.position fun position => { name, position }

def debugFunctionFormat : WireFormat DebugFunction :=
  .field (stringFormat "debug function name" "string") DebugFunction.name fun name =>
    .last (vecFormat "debug function args" "debug function args" 5 argInfoFormat)
      DebugFunction.args fun args => { name, args }

def localInfoFormat : WireFormat LocalInfo :=
  .field (stringFormat "debug local name" "string") LocalInfo.name fun name =>
    .field u8Format LocalInfo.index fun index =>
      .field optionalU32Format LocalInfo.declaredLine fun declaredLine =>
        .last optionalU32Format LocalInfo.lastLine fun lastLine =>
          { name, index, declaredLine, lastLine }

def debugInfoFormat : WireFormat (Option DebugInfo) :=
  .optional .unexpectedEof .invalidDebugFlag <|
    .field (.optional .unexpectedEof .invalidDebugFlag (stringFormat "debug source" "string"))
      DebugInfo.source fun source =>
      .field (vecFormat "debug lines" "debug lines" 8 lineInfoFormat) DebugInfo.lines fun lines =>
        .field (vecFormat "debug functions" "debug functions" 8 debugFunctionFormat)
          DebugInfo.functions fun functions =>
          .last (vecFormat "debug locals" "debug locals" 7 localInfoFormat) DebugInfo.locals
            fun locals => { source, lines, functions, locals }

theorem lineInfoFormat_lawful : lineInfoFormat.Lawful :=
  field_lawful u32Format_lawful (fun _ => last_lawful u32Format_lawful fun _ => rfl)
    fun _ _ hx => ⟨hx.2 ▸ rfl, Nat.zero_le _⟩

theorem argInfoFormat_lawful : argInfoFormat.Lawful :=
  field_lawful stringFormat_lawful (fun _ => last_lawful u8Format_lawful fun _ => rfl)
    fun _ _ hx => ⟨hx.2 ▸ rfl, Nat.zero_le _⟩

theorem debugFunctionFormat_lawful : debugFunctionFormat.Lawful := by
  refine field_lawful stringFormat_lawful
    (fun _ => last_lawful (vecFormat_lawful argInfoFormat_lawful (fun arg => ?_)
      fun _ => Nat.le_refl _) fun _ => rfl)
    fun _ _ hx => ⟨hx.2 ▸ rfl, Nat.zero_le _⟩
  have size : argInfoFormat.size arg = 4 + (utf8 arg.name).length + 1 := rfl
  omega

theorem optionalU32Format_lawful : optionalU32Format.Lawful :=
  optional_lawful u32Format_lawful

theorem localInfoFormat_lawful : localInfoFormat.Lawful := by
  refine field_lawful stringFormat_lawful (fun name => ?_) ?_
  refine field_lawful u8Format_lawful (fun index => ?_) ?_
  refine field_lawful optionalU32Format_lawful (fun declaredLine => ?_)
    fun _ _ hx => ⟨hx.2 ▸ rfl, optional_tail_le fun _ => Nat.zero_le _⟩
  exact last_lawful optionalU32Format_lawful fun _ => rfl
  all_goals
    intro _ _ hx
    repeat replace hx := hx.2
    exact ⟨hx ▸ rfl, Nat.zero_le _⟩

theorem debugInfoFormat_lawful : debugInfoFormat.Lawful := by
  refine optional_lawful ?_
  refine field_lawful (optional_lawful stringFormat_lawful) (fun source => ?_)
    fun _ _ hx => ⟨hx.2.2.2 ▸ rfl, optional_tail_le fun _ => Nat.zero_le _⟩
  refine field_lawful (vecFormat_lawful lineInfoFormat_lawful (fun _ => Nat.le_refl _)
    fun _ => Nat.le_refl _) (fun lines => ?_) fun _ _ hx => ⟨hx.2.2 ▸ rfl, Nat.zero_le _⟩
  refine field_lawful (vecFormat_lawful debugFunctionFormat_lawful (fun f => ?_)
    fun _ => Nat.le_refl _) (fun functions => ?_) fun _ _ hx => ⟨hx.2 ▸ rfl, Nat.zero_le _⟩
  · have size : debugFunctionFormat.size f =
        4 + (utf8 f.name).length + (4 + (f.args.map argInfoFormat.size).sum) := rfl
    omega
  refine last_lawful (vecFormat_lawful localInfoFormat_lawful (fun info => ?_)
    fun _ => optional_tail_le fun _ => Nat.le_refl 0) fun _ => rfl
  have size : localInfoFormat.size info = 4 + (utf8 info.name).length + (1 +
      (1 + (info.declaredLine.map u32Format.size).getD 0 +
        (1 + (info.lastLine.map u32Format.size).getD 0))) := rfl
  omega

/-! ## Callable metadata -/

/-- The tables of callables of a program. -/
structure CallableMetadata where
  scriptFunctions : List ScriptFunction
  callablePrototypes : List CallablePrototype
  functionRegions : List FunctionRegion
  rootCallableBindings : List RootCallableBinding
  exportedCallables : List ExportedCallable

def callableKindToByte : CallableKind → UInt8
  | .functionItem => 0
  | .closure => 1
  | .hostFunction => 2

def callableKindOfByte : UInt8 → Option CallableKind
  | 0 => some .functionItem
  | 1 => some .closure
  | 2 => some .hostFunction
  | _ => none

def captureModeToByte : CaptureBindingMode → UInt8
  | .copy => 0
  | .borrow => 1
  | .borrowMut => 2
  | .move => 3

def captureModeOfByte : UInt8 → Option CaptureBindingMode
  | 0 => some .copy
  | 1 => some .borrow
  | 2 => some .borrowMut
  | 3 => some .move
  | _ => none

/-- The tag and the identifier of a callable target. -/
def targetParts : CallableTarget → UInt8 × UInt32
  | .scriptFunction id => (0, id)
  | .hostImport id => (1, id.toUInt32)

def targetOfParts : UInt8 × UInt32 → Except WireError CallableTarget
  | (0, id) => .ok (.scriptFunction id)
  | (1, id) =>
    if id.toNat < 2 ^ 16 then .ok (.hostImport id.toUInt16) else .error (.invalidValueType 1)
  | (other, _) => .error (.invalidValueType other)

def writeCallableTarget (target : CallableTarget) : Output :=
  appendBytes (.ok [(targetParts target).1]) (.ok (leBytes 4 (targetParts target).2.toNat))

def readCallableTarget : WireReader CallableTarget := do
  let tag ← readU8
  let id ← readU32
  liftResult (targetOfParts (tag, id))

def writeU16List (field : String) (values : List UInt16) : Output :=
  writeVec field (fun value => .ok (leBytes 2 value.toNat)) values

def readU16List : WireReader (List UInt16) := readVec "callable slot list" 2 readU16

def writeOptionalSchema (schema : Option TypeSchema) : Output :=
  writeOptional writeSchema schema

def readOptionalSchema : WireReader (Option TypeSchema) :=
  readOptional .unexpectedEof .invalidBool (readSchema maxSchemaDepth)

def writeCallablePrototype (prototype : CallablePrototype) : Output :=
  appendBytes (.ok [callableKindToByte prototype.kind])
    (appendBytes (writeCallableTarget prototype.target)
      (appendBytes (.ok [prototype.arity])
        (appendBytes (writeU32Count "callable frame locals" prototype.frameLocalCount)
          (appendBytes (writeU16List "callable parameters" prototype.parameterSlots)
            (appendBytes (writeU16List "callable capture sources" prototype.captureSourceSlots)
              (appendBytes (writeU16List "callable captures" prototype.captureSlots)
                (appendBytes (writeVec "callable capture modes"
                    (fun mode => .ok [captureModeToByte mode]) prototype.captureModes)
                  (appendBytes (writeOptional (fun slot => .ok (leBytes 2 slot.toNat))
                      prototype.selfSlot)
                    (writeOptionalSchema prototype.schema)))))))))

def readCallablePrototype : WireReader CallablePrototype := do
  let kind ← readEnum .unexpectedEof .invalidValueType callableKindOfByte
  let target ← readCallableTarget
  let arity ← readU8
  let frameLocalCount ← readLimitedCount "callable frame locals"
  let parameterSlots ← readU16List
  let captureSourceSlots ← readU16List
  let captureSlots ← readU16List
  let captureModes ← readVec "callable capture modes" 1
    (readEnum .unexpectedEof .invalidCaptureBindingMode captureModeOfByte)
  let selfSlot ← readOptional .unexpectedEof .invalidBool readU16
  let schema ← readOptionalSchema
  pure { kind, target, arity, frameLocalCount, parameterSlots, captureSourceSlots, captureSlots,
         captureModes, selfSlot, schema }

def writeScriptFunction (function : ScriptFunction) : Output :=
  appendBytes (.ok (leBytes 4 function.entryIp.toNat)) (.ok (leBytes 4 function.endIp.toNat))

def readScriptFunction : WireReader ScriptFunction := do
  let entryIp ← readU32
  let endIp ← readU32
  pure { entryIp, endIp }

def writeFunctionRegion (region : FunctionRegion) : Output :=
  appendBytes (.ok (leBytes 4 region.startIp.toNat))
    (appendBytes (.ok (leBytes 4 region.endIp.toNat))
      (writeOptional (fun id => .ok (leBytes 4 id.toNat)) region.prototypeId))

def readFunctionRegion : WireReader FunctionRegion := do
  let startIp ← readU32
  let endIp ← readU32
  let prototypeId ← readOptional .unexpectedEof .invalidBool readU32
  pure { startIp, endIp, prototypeId }

def writeRootCallableBinding (binding : RootCallableBinding) : Output :=
  appendBytes (.ok (leBytes 2 binding.localSlot.toNat)) (.ok (leBytes 4 binding.prototypeId.toNat))

def readRootCallableBinding : WireReader RootCallableBinding := do
  let localSlot ← readU16
  let prototypeId ← readU32
  pure { localSlot, prototypeId }

def writeExportedCallable (exported : ExportedCallable) : Output :=
  appendBytes (writeString "exported callable name" exported.name)
    (.ok (leBytes 2 exported.localSlot.toNat))

def readExportedCallable : WireReader ExportedCallable := do
  let name ← readString
  let localSlot ← readU16
  pure { name, localSlot }

def writeCallableMetadata (tables : CallableMetadata) : Output :=
  appendBytes (writeVec "script functions" writeScriptFunction tables.scriptFunctions)
    (appendBytes (writeVec "callable prototypes" writeCallablePrototype tables.callablePrototypes)
      (appendBytes (writeVec "function regions" writeFunctionRegion tables.functionRegions)
        (appendBytes (writeVec "root callable bindings" writeRootCallableBinding
            tables.rootCallableBindings)
          (writeVec "exported callables" writeExportedCallable tables.exportedCallables))))

def readCallableMetadata : WireReader CallableMetadata := do
  let scriptFunctions ← readVec "script functions" 8 readScriptFunction
  let callablePrototypes ← readVec "callable prototypes" 29 readCallablePrototype
  let functionRegions ← readVec "function regions" 9 readFunctionRegion
  let rootCallableBindings ← readVec "root callable bindings" 6 readRootCallableBinding
  let exportedCallables ← readVec "exported callables" 6 readExportedCallable
  pure { scriptFunctions, callablePrototypes, functionRegions, rootCallableBindings,
         exportedCallables }

/-! ### Formats -/

def callableTargetFormat : WireFormat CallableTarget :=
  .parsed (.field u8Format Prod.fst fun tag => .last u32Format Prod.snd fun id => (tag, id))
    targetParts targetOfParts

def u16ListFormat (field : String) : WireFormat (List UInt16) :=
  vecFormat field "callable slot list" 2 u16Format

def optionalSchemaFormat : WireFormat (Option TypeSchema) :=
  .optional .unexpectedEof .invalidBool (schemaFormat maxSchemaDepth)

def captureModesFormat : WireFormat (List CaptureBindingMode) :=
  vecFormat "callable capture modes" "callable capture modes" 1
    (.enum .unexpectedEof .invalidCaptureBindingMode captureModeOfByte captureModeToByte)

def callablePrototypeFormat : WireFormat CallablePrototype :=
  .field (.enum .unexpectedEof .invalidValueType callableKindOfByte callableKindToByte)
    kind fun kind =>
  .field callableTargetFormat target fun target =>
  .field u8Format arity fun arity =>
  .field (limitedCountFormat "callable frame locals") frameLocalCount fun frameLocalCount =>
  .field (u16ListFormat "callable parameters") parameterSlots fun parameterSlots =>
  .field (u16ListFormat "callable capture sources") captureSourceSlots fun captureSourceSlots =>
  .field (u16ListFormat "callable captures") captureSlots fun captureSlots =>
  .field captureModesFormat captureModes fun captureModes =>
  .field (.optional .unexpectedEof .invalidBool u16Format) selfSlot fun selfSlot =>
  .last optionalSchemaFormat schema fun schema =>
    { kind, target, arity, frameLocalCount, parameterSlots, captureSourceSlots, captureSlots,
      captureModes, selfSlot, schema }

def scriptFunctionFormat : WireFormat ScriptFunction :=
  .field u32Format ScriptFunction.entryIp fun entryIp =>
    .last u32Format ScriptFunction.endIp fun endIp => { entryIp, endIp }

def functionRegionFormat : WireFormat FunctionRegion :=
  .field u32Format FunctionRegion.startIp fun startIp =>
    .field u32Format FunctionRegion.endIp fun endIp =>
      .last (.optional .unexpectedEof .invalidBool u32Format) FunctionRegion.prototypeId
        fun prototypeId => { startIp, endIp, prototypeId }

def rootCallableBindingFormat : WireFormat RootCallableBinding :=
  .field u16Format RootCallableBinding.localSlot fun localSlot =>
    .last u32Format RootCallableBinding.prototypeId fun prototypeId => { localSlot, prototypeId }

def exportedCallableFormat : WireFormat ExportedCallable :=
  .field (stringFormat "exported callable name" "string") ExportedCallable.name fun name =>
    .last u16Format ExportedCallable.localSlot fun localSlot => { name, localSlot }

def callableMetadataFormat : WireFormat CallableMetadata :=
  .field (vecFormat "script functions" "script functions" 8 scriptFunctionFormat)
    CallableMetadata.scriptFunctions fun scriptFunctions =>
  .field (vecFormat "callable prototypes" "callable prototypes" 29 callablePrototypeFormat)
    CallableMetadata.callablePrototypes fun callablePrototypes =>
  .field (vecFormat "function regions" "function regions" 9 functionRegionFormat)
    CallableMetadata.functionRegions fun functionRegions =>
  .field (vecFormat "root callable bindings" "root callable bindings" 6
    rootCallableBindingFormat) CallableMetadata.rootCallableBindings fun rootCallableBindings =>
  .last (vecFormat "exported callables" "exported callables" 6 exportedCallableFormat)
    CallableMetadata.exportedCallables fun exportedCallables =>
      { scriptFunctions, callablePrototypes, functionRegions, rootCallableBindings,
        exportedCallables }

theorem callableTargetFormat_read : callableTargetFormat.read = readCallableTarget := by
  simp only [callableTargetFormat, field, last, parsed, bind_assoc]
  rfl

theorem callablePrototypeFormat_read : callablePrototypeFormat.read = readCallablePrototype := by
  rw [readCallablePrototype, ← callableTargetFormat_read]
  rfl

theorem callableMetadataFormat_read : callableMetadataFormat.read = readCallableMetadata := by
  rw [readCallableMetadata, ← callablePrototypeFormat_read]
  rfl

/-! ### Laws -/

theorem callableTargetFormat_lawful : callableTargetFormat.Lawful := by
  refine parsed_lawful ?_ (fun target => ?_) fun parts target h => ?_
  · exact field_lawful u8Format_lawful (fun _ => last_lawful u32Format_lawful fun _ => rfl)
      fun _ _ hx => ⟨hx.2 ▸ rfl, Nat.zero_le _⟩
  · cases target with
    | scriptFunction id => rfl
    | hostImport id =>
      have small : id.toNat < 65536 := id.toNat_lt
      simp [targetParts, targetOfParts, small]
  · unfold targetOfParts at h
    split at h
    · cases h
      rfl
    · split at h
      · rename_i id small
        cases h
        refine Prod.ext rfl (UInt32.toNat_inj.mp ?_)
        rw [targetParts, UInt16.toNat_toUInt32, UInt32.toNat_toUInt16, Nat.mod_eq_of_lt small]
      · cases h
    · cases h

theorem u16ListFormat_lawful {field : String} : (u16ListFormat field).Lawful :=
  vecFormat_lawful u16Format_lawful (fun _ => Nat.le_refl _) fun _ => Nat.le_refl _

theorem captureModesFormat_lawful : captureModesFormat.Lawful :=
  vecFormat_lawful (enum_lawful fun a => by cases a <;> rfl) (fun _ => Nat.le_refl _)
    fun _ => Nat.le_refl _

theorem optionalSchemaFormat_lawful : optionalSchemaFormat.Lawful :=
  optional_lawful schemaFormat_lawful

theorem callablePrototypeFormat_lawful : callablePrototypeFormat.Lawful := by
  refine field_lawful (enum_lawful fun a => by cases a <;> rfl) (fun kind => ?_) ?_
  refine field_lawful callableTargetFormat_lawful (fun target => ?_) ?_
  refine field_lawful u8Format_lawful (fun arity => ?_) ?_
  refine field_lawful limitedCountFormat_lawful (fun frameLocalCount => ?_) ?_
  refine field_lawful u16ListFormat_lawful (fun parameterSlots => ?_) ?_
  refine field_lawful u16ListFormat_lawful (fun captureSourceSlots => ?_) ?_
  refine field_lawful u16ListFormat_lawful (fun captureSlots => ?_) ?_
  refine field_lawful captureModesFormat_lawful (fun captureModes => ?_) ?_
  refine field_lawful (optional_lawful u16Format_lawful) (fun selfSlot => ?_)
    fun _ _ hx => ⟨hx.2 ▸ rfl, optional_tail_le fun _ => Nat.zero_le _⟩
  exact last_lawful optionalSchemaFormat_lawful fun _ => rfl
  all_goals
    intro _ _ hx
    repeat replace hx := hx.2
    exact ⟨hx ▸ rfl, Nat.zero_le _⟩

theorem callablePrototypeFormat_size (p : CallablePrototype) :
    29 ≤ callablePrototypeFormat.size p := by
  have size : callablePrototypeFormat.size p = 1 + (1 + 4 + (1 + (4 +
      (4 + (p.parameterSlots.map u16Format.size).sum +
      (4 + (p.captureSourceSlots.map u16Format.size).sum +
      (4 + (p.captureSlots.map u16Format.size).sum +
      (captureModesFormat.size p.captureModes +
      (1 + (p.selfSlot.map u16Format.size).getD 0 +
      (1 + (p.schema.map schemaSize).getD 0))))))))) := rfl
  have modes : captureModesFormat.size p.captureModes =
      4 + (p.captureModes.map fun _ => 1).sum := rfl
  omega

theorem scriptFunctionFormat_lawful : scriptFunctionFormat.Lawful :=
  field_lawful u32Format_lawful (fun _ => last_lawful u32Format_lawful fun _ => rfl)
    fun _ _ hx => ⟨hx.2 ▸ rfl, Nat.zero_le _⟩

theorem functionRegionFormat_lawful : functionRegionFormat.Lawful := by
  refine field_lawful u32Format_lawful (fun startIp => ?_)
    fun _ _ hx => ⟨hx.2.2 ▸ rfl, Nat.zero_le _⟩
  refine field_lawful u32Format_lawful (fun endIp => ?_) fun _ _ hx => ⟨hx.2 ▸ rfl, Nat.zero_le _⟩
  exact last_lawful (optional_lawful u32Format_lawful) fun _ => rfl

theorem rootCallableBindingFormat_lawful : rootCallableBindingFormat.Lawful :=
  field_lawful u16Format_lawful (fun _ => last_lawful u32Format_lawful fun _ => rfl)
    fun _ _ hx => ⟨hx.2 ▸ rfl, Nat.zero_le _⟩

theorem exportedCallableFormat_lawful : exportedCallableFormat.Lawful :=
  field_lawful stringFormat_lawful (fun _ => last_lawful u16Format_lawful fun _ => rfl)
    fun _ _ hx => ⟨hx.2 ▸ rfl, Nat.zero_le _⟩

theorem callableMetadataFormat_lawful : callableMetadataFormat.Lawful := by
  refine field_lawful (vecFormat_lawful scriptFunctionFormat_lawful (fun _ => Nat.le_refl 8)
    fun _ => Nat.le_refl _) (fun scriptFunctions => ?_) ?_
  refine field_lawful (vecFormat_lawful callablePrototypeFormat_lawful
    callablePrototypeFormat_size fun _ => optional_tail_le fun _ => Nat.le_refl 0)
    (fun callablePrototypes => ?_) ?_
  refine field_lawful (vecFormat_lawful functionRegionFormat_lawful (fun region => ?_)
    fun _ => optional_tail_le fun _ => Nat.le_refl 0) (fun functionRegions => ?_) ?_
  · have size : functionRegionFormat.size region =
        4 + (4 + (1 + (region.prototypeId.map u32Format.size).getD 0)) := rfl
    omega
  refine field_lawful (vecFormat_lawful rootCallableBindingFormat_lawful
    (fun _ => Nat.le_refl 6) fun _ => Nat.le_refl _) (fun rootCallableBindings => ?_) ?_
  refine last_lawful (vecFormat_lawful exportedCallableFormat_lawful (fun exported => ?_)
    fun _ => Nat.le_refl _) fun _ => rfl
  · have size : exportedCallableFormat.size exported = 4 + (utf8 exported.name).length + 2 := rfl
    omega
  all_goals
    intro _ _ hx
    repeat replace hx := hx.2
    exact ⟨hx ▸ rfl, Nat.zero_le _⟩

end RustScript.Vmbc
