import RustScript.Vmbc.RoundTrip

/-!
# What the decoder refuses

The limits that only the decoder enforces, spelled out over programs: ceilings on
blobs, counts, names, frame sizes and nesting, the agreement of imports and type
maps with their parts, and the aggregate budget and payload size.
`decodeProgram_accepts_iff` says that an encoded program is accepted exactly
within `DecoderLimits`; `deepSchemaProgram` is an encodable program outside them.
-/

namespace RustScript.Vmbc

open ByteCodec Budget List

/-- A text of at most the blob ceiling. -/
def TextLimit (text : String) : Prop := (utf8 text).length ≤ maxWireBlobBytes

/-- A list of at most the count ceiling, each of whose items is within its own limit. -/
def ListLimit {α : Type} (limit : α → Prop) (items : List α) : Prop :=
  items.length ≤ maxWireCount ∧ ∀ x ∈ items, limit x

/-! ## Sections -/

structure HostImportSchemaLimits (schema : HostImportSchema) : Prop where
  name : NameLimits schema.name maxHostFunctionNameLen
  paramCount : schema.params.length ≤ maxWireCount ∧ schema.params.length ≤ maxHostCatalogParameters
  params : ∀ param ∈ schema.params,
    NameLimits param.name maxHostParameterNameLen ∧ HostSchemaLimits param.schema
  returnType : HostSchemaLimits schema.returnType

structure ImportLimits (entry : HostImport × Option HostImportSchema) : Prop where
  name : NameLimits entry.1.name maxHostFunctionNameLen
  schema : ∀ schema ∈ entry.2, HostImportSchemaLimits schema
  schemaMatches : SchemaMatches entry.1 entry.2

/-- The boolean vectors of a type map have to be as long as its types. -/
structure TypeMapLimits (typeMap : TypeMap) : Prop where
  locals : typeMap.localTypes.length ≤ maxFrameLocalCount
  schemas : ∀ schema ∈ typeMap.localSchemas, ∀ s ∈ schema, SchemaLimits maxSchemaDepth s
  callables : typeMap.callableSlots.length = typeMap.localTypes.length
  optionals : typeMap.optionalSlots.length = typeMap.localTypes.length
  operands : typeMap.operandTypes.length ≤ maxWireCount

structure DebugLimits (debug : DebugInfo) : Prop where
  source : ∀ text ∈ debug.source, TextLimit text
  lines : debug.lines.length ≤ maxWireCount
  functions : ListLimit (fun function : DebugFunction =>
    TextLimit function.name ∧ ListLimit (fun arg : ArgInfo => TextLimit arg.name) function.args)
    debug.functions
  locals : ListLimit (fun info : LocalInfo => TextLimit info.name) debug.locals

structure PrototypeLimits (prototype : CallablePrototype) : Prop where
  frameLocals : prototype.frameLocalCount ≤ maxFrameLocalCount
  parameters : prototype.parameterSlots.length ≤ maxWireCount
  captureSources : prototype.captureSourceSlots.length ≤ maxWireCount
  captures : prototype.captureSlots.length ≤ maxWireCount
  captureModes : prototype.captureModes.length ≤ maxWireCount
  schema : ∀ schema ∈ prototype.schema, SchemaLimits maxSchemaDepth schema

structure StructLimits (decl : String × StructDecl) : Prop where
  name : TextLimit decl.1
  typeParams : ListLimit TextLimit decl.2.typeParams
  distinctParams : decl.2.typeParams.Nodup
  body : SchemaLimits maxSchemaDepth decl.2.bodySchema

/-! ## Cost and size of a program -/

/-- What the decoder debits for an import schema. -/
def hostImportSchemaCost (schema : HostImportSchema) : Budget :=
  ofItems schema.params.length + ofParameters schema.params.length +
    (schema.params.map fun param => hostSchemaCost param.schema).sum +
    hostSchemaCost schema.returnType

def typeMapCost (typeMap : TypeMap) : Budget :=
  ofItems (typeMap.localTypes.length + typeMap.callableSlots.length +
      typeMap.optionalSlots.length + typeMap.operandTypes.length) +
    (typeMap.localSchemas.map fun schema => (schema.map schemaCost).getD 0).sum

def debugCost (debug : DebugInfo) : Budget :=
  ofItems (debug.lines.length + debug.functions.length +
    (debug.functions.map fun function => function.args.length).sum + debug.locals.length)

def prototypeCost (prototype : CallablePrototype) : Budget :=
  ofItems (prototype.frameLocalCount + prototype.parameterSlots.length +
      prototype.captureSourceSlots.length + prototype.captureSlots.length +
      prototype.captureModes.length) +
    (prototype.schema.map schemaCost).getD 0

def structCost (decl : String × StructDecl) : Budget :=
  ofItems decl.2.typeParams.length + schemaCost decl.2.bodySchema

/-- What the decoder debits for a program: an aggregate item for every counted element,
every schema node and every frame local, and the host schema counters. -/
def programCost (program : Program) : Budget :=
  ofItems (program.constants.length + program.imports.length +
      program.scriptFunctions.length + program.callablePrototypes.length +
      program.functionRegions.length + program.rootCallableBindings.length +
      program.exportedCallables.length + program.namedStructDecls.length) +
    ((program.constants.map constantCost).sum +
    ((importSchemas program).map fun schema => (schema.map hostImportSchemaCost).getD 0).sum +
    (program.typeMap.map typeMapCost).getD 0 + (program.debug.map debugCost).getD 0 +
    (program.callablePrototypes.map prototypeCost).sum +
    (program.namedStructDecls.map structCost).sum)

/-- The number of bytes of the header and the sections of a program. -/
def wireSize (program : Program) : Nat :=
  headerBytes.length + artifactFormat.size (artifactOf program)

/-- **The decoder's limits on a program.** -/
structure DecoderLimits (program : Program) : Prop where
  constants : ListLimit ConstantLimits program.constants
  code : program.code.length ≤ maxWireBlobBytes
  imports : ListLimit ImportLimits (program.imports.zip (importSchemas program))
  typeMap : ∀ typeMap ∈ program.typeMap, TypeMapLimits typeMap
  debug : ∀ debug ∈ program.debug, DebugLimits debug
  scriptFunctions : program.scriptFunctions.length ≤ maxWireCount
  callablePrototypes : ListLimit PrototypeLimits program.callablePrototypes
  functionRegions : program.functionRegions.length ≤ maxWireCount
  rootCallableBindings : program.rootCallableBindings.length ≤ maxWireCount
  exportedCallables : ListLimit (fun exported : ExportedCallable => TextLimit exported.name)
    program.exportedCallables
  namedStructDecls : ListLimit StructLimits program.namedStructDecls
  budget : (programCost program).Fits initial
  payload : wireSize program ≤ maxWirePayloadBytes

/-! ## The limits are those of the format -/

variable {α : Type} {items : List α} {program : Program}

/-- Items that are free on their own cost their number. -/
theorem cost_of_free (F : WireFormat α) (h : ∀ x, F.cost x = 0) :
    ofItems items.length + (items.map F.cost).sum = ofItems items.length := by
  have free : items.map F.cost = items.map fun _ => 0 := map_congr_left fun x _ => h x
  rw [free, map_const', sum_replicate, nsmul_zero, add_zero]

theorem ofItems_sum (counts : List Nat) : (counts.map ofItems).sum = ofItems counts.sum := by
  induction counts with
  | nil => rfl
  | cons count counts ih => rw [map_cons, sum_cons, sum_cons, ih]; rfl

theorem hostImportSchemaFormat_cost (schema : HostImportSchema) :
    hostImportSchemaFormat.cost schema = hostImportSchemaCost schema := by
  have params : hostImportParamFormat.cost = fun param => hostSchemaCost param.schema := by
    funext param
    change 0 + (hostSchemaCost param.schema + 0) = _
    rw [zero_add, add_zero]
  change 0 + (ofItems schema.params.length + ofParameters schema.params.length +
    (schema.params.map hostImportParamFormat.cost).sum + (hostSchemaCost schema.returnType + 0)) = _
  rw [params, zero_add, add_zero]
  rfl

theorem importFormat_cost {entry : HostImport × Option HostImportSchema} :
    importFormat.cost entry = (entry.2.map hostImportSchemaCost).getD 0 := by
  have schema : hostImportSchemaFormat.cost = hostImportSchemaCost :=
    funext hostImportSchemaFormat_cost
  change 0 + (0 + (0 + ((entry.2.map hostImportSchemaFormat.cost).getD 0 + 0))) = _
  rw [schema, zero_add, zero_add, zero_add, add_zero]

theorem typeMapBodyFormat_cost (typeMap : TypeMap) :
    typeMapBodyFormat.cost typeMap = typeMapCost typeMap := by
  change 0 + (ofItems typeMap.localTypes.length +
    ((typeMap.localTypes.map valueTypeFormat.cost).sum +
    ((typeMap.localSchemas.map fun schema => (schema.map schemaCost).getD 0).sum +
    (ofItems typeMap.callableSlots.length + (typeMap.callableSlots.map boolFormat.cost).sum +
    (ofItems typeMap.optionalSlots.length + (typeMap.optionalSlots.map boolFormat.cost).sum +
    (ofItems typeMap.operandTypes.length +
      (typeMap.operandTypes.map operandEntryFormat.cost).sum)))))) = _
  rw [cost_of_free _ fun _ => rfl, cost_of_free _ fun _ => rfl,
    cost_of_free _ fun _ => rfl, ← add_assoc (ofItems typeMap.localTypes.length),
    cost_of_free _ fun _ => rfl, typeMapCost, ofItems_add, ofItems_add, ofItems_add]
  abel

theorem debugInfoFormat_cost (debug : Option DebugInfo) :
    debugInfoFormat.cost debug = (debug.map debugCost).getD 0 := by
  cases debug with
  | none => rfl
  | some debug =>
    have source : (debug.source.map (stringFormat "debug source" "string").cost).getD 0 = 0 := by
      cases debug.source <;> rfl
    have free : ∀ info, localInfoFormat.cost info = 0 := by
      intro info
      change (0 : Budget) + (0 + ((info.declaredLine.map fun _ => 0).getD 0 +
        (info.lastLine.map fun _ => 0).getD 0)) = 0
      cases info.declaredLine <;> cases info.lastLine <;> rfl
    have args : debugFunctionFormat.cost = ofItems ∘ fun f => f.args.length := by
      funext f
      change 0 + (ofItems f.args.length + (f.args.map argInfoFormat.cost).sum) = _
      rw [cost_of_free _ fun _ => rfl, zero_add]
      rfl
    change (debug.source.map (stringFormat "debug source" "string").cost).getD 0 +
      (ofItems debug.lines.length + (debug.lines.map lineInfoFormat.cost).sum +
      (ofItems debug.functions.length + (debug.functions.map debugFunctionFormat.cost).sum +
      (ofItems debug.locals.length + (debug.locals.map localInfoFormat.cost).sum))) =
        debugCost debug
    rw [source, cost_of_free _ fun _ => rfl, cost_of_free _ free, args,
      ← map_map, ofItems_sum, debugCost, ofItems_add, ofItems_add, ofItems_add]
    abel

theorem callablePrototypeFormat_cost (prototype : CallablePrototype) :
    callablePrototypeFormat.cost prototype = prototypeCost prototype := by
  have slots : ∀ field values, (u16ListFormat field).cost values = ofItems values.length :=
    fun field values => cost_of_free _ fun _ => rfl
  have modes : captureModesFormat.cost prototype.captureModes =
      ofItems prototype.captureModes.length :=
    cost_of_free _ fun _ => rfl
  have selfSlot : (prototype.selfSlot.map u16Format.cost).getD 0 = 0 := by
    cases prototype.selfSlot <;> rfl
  change 0 + (0 + 0 + (0 + (ofItems prototype.frameLocalCount +
    ((u16ListFormat _).cost prototype.parameterSlots +
    ((u16ListFormat _).cost prototype.captureSourceSlots +
    ((u16ListFormat _).cost prototype.captureSlots +
    (captureModesFormat.cost prototype.captureModes +
    ((prototype.selfSlot.map u16Format.cost).getD 0 +
      (prototype.schema.map schemaCost).getD 0)))))))) = _
  rw [slots, slots, slots, modes, selfSlot, prototypeCost, ofItems_add,
    ofItems_add, ofItems_add, ofItems_add]
  abel

theorem namedStructDeclFormat_cost (decl : String × StructDecl) :
    namedStructDeclFormat.cost decl = structCost decl := by
  have params : typeParamsFormat.cost decl.2.typeParams = ofItems decl.2.typeParams.length :=
    cost_of_free _ fun _ => rfl
  change 0 + (typeParamsFormat.cost decl.2.typeParams + schemaCost decl.2.bodySchema) = _
  rw [params, zero_add]
  rfl

theorem artifactFormat_cost (h : SchemasFit program) :
    artifactFormat.cost (artifactOf program) = programCost program := by
  have imports : (artifactOf program).imports.map importFormat.cost =
      (importSchemas program).map fun schema => (schema.map hostImportSchemaCost).getD 0 := by
    rw [← zip_importSchemas_snd h, map_map]
    exact map_congr_left fun entry _ => importFormat_cost
  have count : (artifactOf program).imports.length = program.imports.length := by
    rw [← zip_importSchemas_fst h, length_map]
  have typeMap : typeMapFormat.cost program.typeMap = (program.typeMap.map typeMapCost).getD 0 := by
    change (program.typeMap.map typeMapBodyFormat.cost).getD 0 = _
    rw [funext typeMapBodyFormat_cost]
  have regions : ∀ region, functionRegionFormat.cost region = 0 := by
    intro region
    change (0 : Budget) + (0 + (region.prototypeId.map fun _ => 0).getD 0) = 0
    cases region.prototypeId <;> rfl
  change ofItems program.constants.length + (program.constants.map constantCost).sum +
    (0 + (ofItems (artifactOf program).imports.length +
      ((artifactOf program).imports.map importFormat.cost).sum +
    (typeMapFormat.cost program.typeMap + (debugInfoFormat.cost program.debug +
    (ofItems program.scriptFunctions.length +
        (program.scriptFunctions.map scriptFunctionFormat.cost).sum +
      (ofItems program.callablePrototypes.length +
        (program.callablePrototypes.map callablePrototypeFormat.cost).sum +
      (ofItems program.functionRegions.length +
        (program.functionRegions.map functionRegionFormat.cost).sum +
      (ofItems program.rootCallableBindings.length +
        (program.rootCallableBindings.map rootCallableBindingFormat.cost).sum +
      (ofItems program.exportedCallables.length +
        (program.exportedCallables.map exportedCallableFormat.cost).sum)))) +
    (ofItems program.namedStructDecls.length +
      (program.namedStructDecls.map namedStructDeclFormat.cost).sum)))))) = _
  rw [imports, count, typeMap, debugInfoFormat_cost, cost_of_free _ fun _ => rfl,
    cost_of_free _ regions, cost_of_free rootCallableBindingFormat fun _ => rfl,
    cost_of_free exportedCallableFormat fun _ => rfl, funext callablePrototypeFormat_cost,
    funext namedStructDeclFormat_cost, programCost]
  simp only [ofItems_add]
  abel

theorem listLimit_congr {P Q : α → Prop} (h : ∀ x, P x ↔ Q x) :
    ListLimit P items ↔ ListLimit Q items := by
  rw [funext fun x => propext (h x)]

theorem hostImportSchemaFormat_limits {schema : HostImportSchema} :
    hostImportSchemaFormat.limits schema ↔ HostImportSchemaLimits schema :=
  ⟨fun ⟨name, ⟨count, params⟩, result, _⟩ =>
    ⟨name, count, fun param hp => ⟨(params param hp).1, (params param hp).2.1⟩, result⟩,
   fun ⟨name, count, params, result⟩ =>
    ⟨name, ⟨count, fun param hp => ⟨(params param hp).1, (params param hp).2, trivial⟩⟩, result,
      trivial⟩⟩

theorem importFormat_limits (entry : HostImport × Option HostImportSchema) :
    importFormat.limits entry ↔ ImportLimits entry :=
  ⟨fun ⟨name, _, _, schema, hmatches, _⟩ =>
    ⟨name, fun s hs => hostImportSchemaFormat_limits.mp (schema s hs), hmatches⟩,
   fun ⟨name, schema, hmatches⟩ => ⟨name, trivial, trivial,
    fun s hs => hostImportSchemaFormat_limits.mpr (schema s hs), hmatches, trivial⟩⟩

theorem typeMapBodyFormat_limits {typeMap : TypeMap} :
    typeMapBodyFormat.limits typeMap ↔ TypeMapLimits typeMap := by
  constructor
  · rintro ⟨_, locals, _, schemas, ⟨⟨callables, _⟩, _⟩, ⟨⟨optionals, _⟩, _⟩, operands, _⟩
    exact ⟨locals, schemas, callables, optionals, operands⟩
  · rintro ⟨locals, schemas, callables, optionals, operands⟩
    have count : typeMap.localTypes.length ≤ maxWireCount :=
      Nat.le_trans locals (by decide)
    exact ⟨trivial, locals, fun _ _ => trivial, schemas,
      ⟨⟨callables, callables ▸ count⟩, fun _ _ => trivial⟩,
      ⟨⟨optionals, optionals ▸ count⟩, fun _ _ => trivial⟩,
      operands, fun _ _ => ⟨trivial, trivial, trivial⟩⟩

theorem debugInfoFormat_limits {debug : Option DebugInfo} :
    debugInfoFormat.limits debug ↔ ∀ d ∈ debug, DebugLimits d := by
  have functions : ∀ f : DebugFunction, debugFunctionFormat.limits f ↔ TextLimit f.name ∧
      ListLimit (fun arg : ArgInfo => TextLimit arg.name) f.args := fun f =>
    and_congr Iff.rfl (listLimit_congr (fun _ => and_iff_left trivial))
  have locals : ∀ info : LocalInfo, localInfoFormat.limits info ↔ TextLimit info.name :=
    fun _ => ⟨fun h => h.1, fun h => ⟨h, trivial, fun _ _ => trivial, fun _ _ => trivial⟩⟩
  refine forall_congr' fun d => forall_congr' fun _ => ?_
  constructor
  · rintro ⟨source, ⟨lines, _⟩, hfunctions, hlocals⟩
    exact ⟨source, lines, (listLimit_congr functions).mp hfunctions,
      (listLimit_congr locals).mp hlocals⟩
  · rintro ⟨source, lines, hfunctions, hlocals⟩
    exact ⟨source, ⟨lines, fun _ _ => ⟨trivial, trivial⟩⟩,
      (listLimit_congr functions).mpr hfunctions, (listLimit_congr locals).mpr hlocals⟩

theorem callablePrototypeFormat_limits (prototype : CallablePrototype) :
    callablePrototypeFormat.limits prototype ↔ PrototypeLimits prototype := by
  constructor
  · rintro ⟨_, _, _, frame, ⟨params, _⟩, ⟨sources, _⟩, ⟨captures, _⟩, ⟨modes, _⟩, _, schema⟩
    exact ⟨frame, params, sources, captures, modes, schema⟩
  · rintro ⟨frame, params, sources, captures, modes, schema⟩
    exact ⟨trivial, ⟨trivial, trivial⟩, trivial, frame, ⟨params, fun _ _ => trivial⟩,
      ⟨sources, fun _ _ => trivial⟩, ⟨captures, fun _ _ => trivial⟩,
      ⟨modes, fun _ _ => trivial⟩, fun _ _ => trivial, schema⟩

theorem namedStructDeclFormat_limits (decl : String × StructDecl) :
    namedStructDeclFormat.limits decl ↔ StructLimits decl := by
  have keys : decl.2.typeParams.map id = decl.2.typeParams := map_id _
  constructor
  · rintro ⟨name, ⟨params, distinct⟩, body⟩
    exact ⟨name, params, keys ▸ distinct, body⟩
  · rintro ⟨name, params, distinct, body⟩
    exact ⟨name, ⟨params, keys.symm ▸ distinct⟩, body⟩

/-- **The limits of the format of a program's artifact, spelled out.** -/
theorem withinLimits_iff (hfit : SchemasFit program)
    (hnames : SortedAssoc.SortedKeys program.namedStructDecls) :
    WithinLimits (artifactOf program) ↔ DecoderLimits program := by
  rw [WithinLimits, artifactFormat_cost hfit]
  have names : (program.namedStructDecls.map Prod.fst).Nodup :=
    pairwise_map.mpr (hnames.imp fun h => ne_of_lt h)
  constructor
  · rintro ⟨⟨constants, code, imports, typeMap, debug, ⟨⟨functions, _⟩, prototypes, ⟨regions, _⟩,
      ⟨bindings, _⟩, exported⟩, structs, _⟩, budget, payload⟩
    exact ⟨constants, code, (listLimit_congr importFormat_limits).mp imports,
      fun t ht => typeMapBodyFormat_limits.mp (typeMap t ht),
      debugInfoFormat_limits.mp debug, functions,
      (listLimit_congr callablePrototypeFormat_limits).mp prototypes, regions, bindings,
      (listLimit_congr (fun _ => and_iff_left trivial)).mp exported,
      (listLimit_congr namedStructDeclFormat_limits).mp structs, budget, payload⟩
  · rintro ⟨constants, code, imports, typeMap, debug, functions, prototypes, regions, bindings,
      exported, structs, budget, payload⟩
    exact ⟨⟨constants, code, (listLimit_congr importFormat_limits).mpr imports,
      fun t ht => typeMapBodyFormat_limits.mpr (typeMap t ht),
      debugInfoFormat_limits.mpr debug,
      ⟨⟨functions, fun _ _ => ⟨trivial, trivial⟩⟩,
        (listLimit_congr callablePrototypeFormat_limits).mpr prototypes,
        ⟨regions, fun _ _ => ⟨trivial, trivial, fun _ _ => trivial⟩⟩,
        ⟨bindings, fun _ _ => ⟨trivial, trivial⟩⟩,
        (listLimit_congr (fun _ => and_iff_left trivial)).mpr exported⟩,
      (listLimit_congr namedStructDeclFormat_limits).mpr structs, names⟩, budget, payload⟩

/-- **An encoded program is accepted exactly within the decoder's limits.** -/
theorem decodeProgram_accepts_iff {program : Program} {bytes : List UInt8}
    (hwf : program.WellFormed)
    (hlen : ∀ t ∈ program.typeMap, t.localSchemas.length = t.localTypes.length)
    (henc : encodeProgram program = .ok bytes) :
    (∃ other, decodeProgram bytes = .ok other) ↔ DecoderLimits program := by
  rw [← withinLimits_iff (encodeProgram_ok.mp henc).1 hwf.structNames]
  have outcome : ∀ other, decodeProgram bytes = .ok other ↔
      WithinLimits (artifactOf program) ∧ other = decoded program :=
    fun _ => decodeProgram_encoded (artifactFormat_valid hwf hlen) henc
  constructor
  · rintro ⟨other, hdec⟩
    exact ((outcome other).mp hdec).1
  · intro within
    exact ⟨decoded program, (outcome _).mpr ⟨within, rfl⟩⟩

theorem decodeProgram_accepts_iff_sample : encodeProgram sampleProgram = .ok sampleBytes ∧
      ((∃ other, decodeProgram sampleBytes = .ok other) ↔ DecoderLimits sampleProgram) :=
  ⟨sampleProgram_encodes, decodeProgram_accepts_iff sampleProgram_wellFormed
    (by simp [sampleProgram]) sampleProgram_encodes⟩

/-- `Int` under a number of `Optional`s. -/
def nestedOptional : Nat → TypeSchema
  | 0 => .int
  | depth + 1 => .optional (nestedOptional depth)

/-- A prototype whose schema nests one level deeper than the decoder reads. -/
def deepSchemaProgram : Program where
  callablePrototypes := [{
    kind := .functionItem
    target := .scriptFunction 0
    arity := 0
    frameLocalCount := 0
    parameterSlots := []
    captureSourceSlots := []
    captureSlots := []
    captureModes := []
    selfSlot := none
    schema := some (nestedOptional 64) }]

theorem deepSchema_refused :
    deepSchemaProgram.WellFormed ∧ ∃ bytes, encodeProgram deepSchemaProgram = .ok bytes ∧
      ¬ ∃ other, decodeProgram bytes = .ok other := by
  have wellFormed : ∀ depth, (nestedOptional depth).WellFormed := by
    intro depth
    induction depth with
    | zero => trivial
    | succ depth ih => exact ih
  have refused : (encodeProgram deepSchemaProgram >>= decodeProgram).isOk = false ∧
      (encodeProgram deepSchemaProgram).isOk = true := by decide +kernel
  refine ⟨⟨by simp [deepSchemaProgram], by simp [deepSchemaProgram], ?_, List.Pairwise.nil,
    by simp [deepSchemaProgram]⟩, ?_⟩
  · simp [deepSchemaProgram, OptionalWellFormed, wellFormed]
  · cases henc : encodeProgram deepSchemaProgram with
    | error e => rw [henc] at refused; cases refused.2
    | ok bytes =>
      refine ⟨bytes, rfl, ?_⟩
      rintro ⟨other, hdec⟩
      have accepted : (encodeProgram deepSchemaProgram >>= decodeProgram) = .ok other := by
        rw [henc]
        exact hdec
      rw [accepted] at refused
      cases refused.1

end RustScript.Vmbc
