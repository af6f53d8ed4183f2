import RustScript.Vmbc.Artifact
import RustScript.Vmbc.Reordered

/-!
# Encoding and decoding programs

The two directions between programs and version 13 artifacts.  On the bytes of
an encoded program the decoder succeeds exactly within its limits, and then
returns the program with its locals recounted (`decodeProgram_encoded`); and
whatever version 13 artifact the decoder accepts, its program can be encoded
again (`encodeProgram_decoded`).
-/

namespace RustScript.Vmbc

open ByteCodec Artifact Budget List Fallible Value

/-! ## The artifact of a program -/

def artifactOf (program : Program) : Artifact where
  constants := program.constants
  code := program.code
  imports := program.imports.zip (importSchemas program)
  typeMap := program.typeMap
  debug := program.debug
  callables := callablesOf program
  namedStructDecls := program.namedStructDecls

/-- The schemas are absent altogether or given for every import. -/
def SchemasFit (program : Program) : Prop :=
  program.hostImportSchemas = [] ∨ program.hostImportSchemas.length = program.imports.length

variable {program : Program}

theorem importSchemas_length (h : SchemasFit program) :
    (importSchemas program).length = program.imports.length := by
  unfold importSchemas
  cases h with
  | inl none => simp [none]
  | inr fit =>
    by_cases absent : program.hostImportSchemas.isEmpty
    · simp [absent]
    · rw [if_neg absent, fit]

theorem zip_importSchemas_fst (h : SchemasFit program) :
    (artifactOf program).imports.map Prod.fst = program.imports :=
  map_fst_zip (importSchemas_length h).ge

theorem zip_importSchemas_snd (h : SchemasFit program) :
    (artifactOf program).imports.map Prod.snd = importSchemas program :=
  map_snd_zip (importSchemas_length h).le

/-- Absent schemas pass the validation of all schemas. -/
theorem validateOptionalSchemas_replicate (n : Nat) :
    validateOptionalSchemas (replicate n none) = .ok () := by
  have absent : (replicate n (none : Option HostImportSchema)).filterMap id = [] := by simp
  rw [validateOptionalSchemas, validateOptionalHostImportSchemas, absent]
  rfl

theorem appendBytes_nil (x : Output) : appendBytes x (.ok []) = x := by
  cases x with
  | error e => rfl
  | ok bs => exact congrArg _ (append_nil bs)

theorem importFormat_write : importFormat.write = writeImport := by
  funext entry
  change appendBytes _ (appendBytes _ (appendBytes _ (appendBytes
    (Format.writeOptional writeHostImportSchema entry.2) (.ok [])))) = _
  rw [appendBytes_nil]
  rfl

variable {bs : List UInt8} {P : Prop} {budget : Budget} {artifact : Artifact} {c' : Cursor Budget}

theorem writeImports_ok : writeImports program = .ok bs ↔
      SchemasFit program ∧ importsFormat.write (artifactOf program).imports = .ok bs := by
  have validated : importsFormat.write (artifactOf program).imports = .ok bs ↔
      ∃ u, validateOptionalSchemas ((artifactOf program).imports.map Prod.snd) = .ok u ∧
        appendBytes (writeU32Count "imports" (artifactOf program).imports.length)
          (writeAll writeImport (artifactOf program).imports) = .ok bs := by
    rw [← importFormat_write]
    exact bind_eq_ok
  rw [validated]
  by_cases absent : program.hostImportSchemas = []
  · have fit : SchemasFit program := Or.inl absent
    have schemas : importSchemas program = replicate program.imports.length none := by
      simp [importSchemas, absent]
    have len : (artifactOf program).imports.length = program.imports.length := by
      rw [← zip_importSchemas_fst fit, length_map]
    rw [zip_importSchemas_snd fit, schemas, validateOptionalSchemas_replicate, len]
    simp [writeImports, absent, appendBytes, artifactOf, fit]
  · by_cases len : program.hostImportSchemas.length = program.imports.length
    · have fit : SchemasFit program := Or.inr len
      have schemas : importSchemas program = program.hostImportSchemas := by
        simp [importSchemas, absent]
      have count : (artifactOf program).imports.length = program.imports.length := by
        rw [← zip_importSchemas_fst fit, length_map]
      rw [zip_importSchemas_snd fit, schemas, count]
      -- The source writes the count before it validates; only the error that is
      -- reported depends on the order.
      cases h : writeU32Count "imports" program.imports.length with
      | error e => simp [writeImports, h, appendBytes, bind, Except.bind]
      | ok a =>
        cases h' : validateOptionalSchemas program.hostImportSchemas with
        | error e => simp [writeImports, h, h', absent, len, bind, Except.bind]
        | ok u => simp [writeImports, h, h', len, fit, appendBytes, artifactOf, bind, Except.bind]
    · have unfit : ¬ SchemasFit program := by simp [SchemasFit, absent, len]
      simp only [unfit]
      cases h : writeU32Count "imports" program.imports.length with
      | error e => simp [writeImports, h, bind, Except.bind]
      | ok a => simp [writeImports, h, absent, len, bind, Except.bind]

/-- Magic, version and flags of an encoded program. -/
def headerBytes : List UInt8 := vmbcMagic ++ leBytes 2 versionV13.toNat ++ leBytes 2 0

theorem appendBytes_left {x x' : Output} (h : ∀ bs, x = .ok bs ↔ P ∧ x' = .ok bs)
    (y : Output) (bs : List UInt8) :
    appendBytes x y = .ok bs ↔ P ∧ appendBytes x' y = .ok bs := by
  simp [appendBytes_ok, h, and_assoc]

theorem appendBytes_right {y y' : Output} (h : ∀ bs, y = .ok bs ↔ P ∧ y' = .ok bs)
    (x : Output) (bs : List UInt8) :
    appendBytes x y = .ok bs ↔ P ∧ appendBytes x y' = .ok bs := by
  simp only [appendBytes_ok]
  grind

theorem encodeProgram_ok : encodeProgram program = .ok bs ↔ SchemasFit program ∧
      ∃ body, artifactFormat.write (artifactOf program) = .ok body ∧ bs = headerBytes ++ body := by
  have whole : encodeProgram program = .ok bs ↔ SchemasFit program ∧
      appendBytes (.ok headerBytes) (artifactFormat.write (artifactOf program)) = .ok bs :=
    appendBytes_right (appendBytes_right (appendBytes_right
      (appendBytes_left (fun _ => writeImports_ok) _) _) _) _ bs
  simp [whole, appendBytes_ok]

/-! ## Validity -/

theorem hostImportSchemaFormat_valid {schema : HostImportSchema} :
    hostImportSchemaFormat.valid schema :=
  ⟨trivial, ⟨trivial, fun _ _ => ⟨trivial, trivial, trivial, rfl⟩⟩, trivial, trivial, rfl⟩

theorem importFormat_valid {entry : HostImport × Option HostImportSchema} :
    importFormat.valid entry :=
  ⟨trivial, trivial, trivial, fun _ _ => hostImportSchemaFormat_valid, trivial, rfl⟩

theorem debugInfoFormat_valid {debug : Option DebugInfo} : debugInfoFormat.valid debug :=
  fun _ _ => ⟨fun _ _ => trivial, ⟨trivial, fun _ _ => ⟨trivial, trivial, rfl⟩⟩,
    ⟨trivial, fun _ _ => ⟨trivial, ⟨trivial, fun _ _ => ⟨trivial, trivial, rfl⟩⟩, rfl⟩⟩,
    ⟨trivial, fun _ _ => ⟨trivial, trivial, fun _ _ => trivial, fun _ _ => trivial, rfl⟩⟩, rfl⟩

theorem callablePrototypeFormat_valid {prototype : CallablePrototype}
    (h : OptionalWellFormed prototype.schema) : callablePrototypeFormat.valid prototype :=
  ⟨trivial, ⟨trivial, trivial, rfl⟩, trivial, trivial, ⟨trivial, fun _ _ => trivial⟩,
    ⟨trivial, fun _ _ => trivial⟩, ⟨trivial, fun _ _ => trivial⟩, ⟨trivial, fun _ _ => trivial⟩,
    fun _ _ => trivial, h, rfl⟩

theorem callableMetadataFormat_valid {tables : CallableMetadata}
    (h : ∀ p ∈ tables.callablePrototypes, OptionalWellFormed p.schema) :
    callableMetadataFormat.valid tables :=
  ⟨⟨trivial, fun _ _ => ⟨trivial, trivial, rfl⟩⟩,
    ⟨trivial, fun p hp => callablePrototypeFormat_valid (h p hp)⟩,
    ⟨trivial, fun _ _ => ⟨trivial, trivial, fun _ _ => trivial, rfl⟩⟩,
    ⟨trivial, fun _ _ => ⟨trivial, trivial, rfl⟩⟩, ⟨trivial, fun _ _ => ⟨trivial, trivial, rfl⟩⟩,
    rfl⟩

theorem typeMapBodyFormat_valid {typeMap : TypeMap} (h : typeMap.WellFormed)
    (hlen : typeMap.localSchemas.length = typeMap.localTypes.length) :
    typeMapBodyFormat.valid typeMap :=
  ⟨trivial, trivial, ⟨rfl, fun _ _ => trivial⟩, ⟨hlen, h.schemas⟩, ⟨trivial, fun _ _ => trivial⟩,
    ⟨trivial, fun _ _ => trivial⟩,
    ⟨h.operands, trivial, fun _ _ => ⟨trivial, trivial, trivial, rfl⟩⟩, rfl⟩

theorem artifactFormat_valid (h : program.WellFormed)
    (hlen : ∀ t ∈ program.typeMap, t.localSchemas.length = t.localTypes.length) :
    artifactFormat.valid (artifactOf program) :=
  ⟨⟨trivial, h.constants⟩, trivial, ⟨trivial, fun _ _ => importFormat_valid⟩,
    fun t ht => typeMapBodyFormat_valid (h.typeMap t ht) (hlen t ht),
    debugInfoFormat_valid, callableMetadataFormat_valid h.prototypes,
    ⟨h.structNames, trivial, fun d hd =>
      ⟨trivial, ⟨trivial, fun _ _ => trivial⟩, h.structBodies d hd, rfl⟩⟩, rfl⟩

/-! ## Decoding -/

variable {bytes : List UInt8}

theorem decodeProgram_ok : decodeProgram bytes = .ok program ↔ bytes.length ≤ maxWirePayloadBytes ∧
      ∃ version c artifact c', readHeader ⟨bytes, initial⟩ = .ok (version, c) ∧
        readArtifact version c = .ok (artifact, c') ∧ c'.rest = [] ∧
        program = artifact.program version := by
  unfold decodeProgram
  by_cases large : bytes.length > maxWirePayloadBytes
  · simp [large, bind, Except.bind]
  · simp only [if_neg large, Nat.not_lt.mp large]
    cases hheader : readHeader ⟨bytes, initial⟩ with
    | error e => simp [bind, Except.bind]
    | ok header =>
      obtain ⟨version, c⟩ := header
      cases hbody : readArtifact version c with
      | error e => simp [hbody, bind, Except.bind]
      | ok body =>
        obtain ⟨artifact, c'⟩ := body
        cases hrest : c'.rest with
        | nil => simp [hbody, hrest, bind, Except.bind, pure, Except.pure, eq_comm]
        | cons b bs => simp [hbody, hrest, bind, Except.bind]

/-- The program that decoding an encoded program gives: every import has its schema and
the locals are recounted. -/
def decoded (program : Program) : Program :=
  { program with
    hostImportSchemas := importSchemas program
    localCount := recountLocals program }

theorem artifactOf_program (h : SchemasFit program) :
    (artifactOf program).program versionV13 = decoded program := by
  have fields : (artifactOf program).fields versionV13 =
      { program with hostImportSchemas := importSchemas program, localCount := 0 } := by
    rw [fields, zip_importSchemas_fst h, zip_importSchemas_snd h,
      if_neg (by decide : versionV13 ≠ versionV11)]
    rfl
  rw [Artifact.program, fields]
  rfl

/-- What the reader demands of an artifact: the limits of its sections, the budget of the
cursor and the ceiling on the payload. -/
def WithinLimits (artifact : Artifact) : Prop :=
  artifactFormat.limits artifact ∧ (artifactFormat.cost artifact).Fits Budget.initial ∧
    headerBytes.length + artifactFormat.size artifact ≤ maxWirePayloadBytes

/-- **On the bytes of an encoded program the decoder succeeds exactly within its limits.** -/
theorem decodeProgram_encoded {decodedProgram : Program}
    (hvalid : artifactFormat.valid (artifactOf program)) (h : encodeProgram program = .ok bytes) :
    decodeProgram bytes = .ok decodedProgram ↔
      WithinLimits (artifactOf program) ∧ decodedProgram = decoded program := by
  obtain ⟨fit, body, hbody, rfl⟩ := encodeProgram_ok.mp h
  have reading := artifactFormat_lawful.decodes hvalid hbody
  have size := artifactFormat_lawful.length hvalid hbody
  rw [artifactFormat_read] at reading
  rw [decodeProgram_ok, length_append, size, ← artifactOf_program fit]
  constructor
  · rintro ⟨payload, version, c, artifact, c', hheader, hartifact, hend, rfl⟩
    cases hheader
    obtain ⟨limits, rfl, rest, hbudget, -⟩ := reading.only [] initial artifact c'
      (by rw [append_nil]; exact hartifact)
    exact ⟨⟨limits, fits_iff.mpr ⟨rest, hbudget⟩, payload⟩, rfl⟩
  · rintro ⟨⟨limits, fits, payload⟩, rfl⟩
    obtain ⟨rest, hbudget⟩ := fits_iff.mp fits
    have success := reading.reads limits [] rest (Nat.le_refl _)
    rw [append_nil, ← hbudget] at success
    exact ⟨payload, versionV13, _, artifactOf program, _, rfl, success, rfl, rfl⟩

/-! ## Decode after encode -/

/-- The four per-local vectors have one length. -/
structure TypeMapAligned (typeMap : TypeMap) : Prop where
  schemas : typeMap.localSchemas.length = typeMap.localTypes.length
  callables : typeMap.callableSlots.length = typeMap.localTypes.length
  optionals : typeMap.optionalSlots.length = typeMap.localTypes.length

/-- The two programs agree on everything but the number of locals: constants up to the
order of map entries, import schemas with an empty list counting as all absent. -/
structure Agrees (program other : Program) : Prop where
  constants : Value.AllSame program.constants other.constants
  code : other.code = program.code
  imports : other.imports = program.imports
  schemas : importSchemas other = importSchemas program
  typeMap : other.typeMap = program.typeMap
  debug : other.debug = program.debug
  scriptFunctions : other.scriptFunctions = program.scriptFunctions
  callablePrototypes : other.callablePrototypes = program.callablePrototypes
  functionRegions : other.functionRegions = program.functionRegions
  rootCallableBindings : other.rootCallableBindings = program.rootCallableBindings
  exportedCallables : other.exportedCallables = program.exportedCallables
  namedStructDecls : other.namedStructDecls = program.namedStructDecls

theorem importSchemas_decoded {program : Program} :
    importSchemas (decoded program) = importSchemas program := by
  change (if (importSchemas program).isEmpty then replicate program.imports.length none
    else importSchemas program) = importSchemas program
  unfold importSchemas
  cases program.hostImportSchemas with
  | nil => exact ite_self _
  | cons schema schemas => rfl

theorem decoded_agrees (program : Program) (localCount : Nat) :
    Agrees program { decoded program with localCount } :=
  ⟨AllSame.refl _, rfl, rfl, importSchemas_decoded, rfl, rfl, rfl, rfl, rfl, rfl, rfl, rfl⟩

/-- **Decoding undoes encoding**: only the number of locals is computed anew. -/
theorem decodeProgram_encodeProgram {program other : Program} {bytes : List UInt8}
    (hwf : program.WellFormed) (haligned : ∀ t ∈ program.typeMap, TypeMapAligned t)
    (henc : encodeProgram program = .ok bytes) (hdec : decodeProgram bytes = .ok other) :
    Agrees program other ∧ other.localCount = recountLocals other := by
  have valid := artifactFormat_valid hwf fun t ht => (haligned t ht).schemas
  obtain ⟨_, rfl⟩ := (decodeProgram_encoded valid henc).mp hdec
  exact ⟨decoded_agrees _ _, rfl⟩

/-- A small program: a map constant, one instruction and one export slot. -/
def sampleProgram : Program where
  constants := [.map [(.int 1, .bool true), (.null, .float 0)]]
  code := [OpCode.ret.toByte]
  rootCallableBindings := [⟨3, 0⟩]
  localCount := 9

/-- The bytes of the small program. -/
def sampleBytes : List UInt8 :=
  headerBytes ++ [1, 0, 0, 0, 7, 2, 0, 0, 0, 0, 1, 0, 0, 0, 0, 0, 0, 0, 1, 1, 4, 3, 0, 0, 0, 0, 0,
    0, 0, 0, 1, 0, 0, 0, 1, 0, 0, 0, 0, 0, 0, 0, 0, 0, 0, 0, 0, 0, 0, 0, 0, 0, 0, 1, 0, 0, 0, 3, 0,
    0, 0, 0, 0, 0, 0, 0, 0, 0, 0, 0, 0]

theorem sampleProgram_wellFormed : sampleProgram.WellFormed where
  constants := by
    simp [sampleProgram, WellFormed, EntriesWellFormed, AssocMap.KeysDistinct, mapKeyEq]
  typeMap := by simp [sampleProgram]
  prototypes := by simp [sampleProgram]
  structNames := List.Pairwise.nil
  structBodies := by simp [sampleProgram]

theorem sampleProgram_encodes : encodeProgram sampleProgram = .ok sampleBytes := by
  decide +kernel

theorem decodeProgram_encodeProgram_sample :
    ∃ other, encodeProgram sampleProgram = .ok sampleBytes ∧
      decodeProgram sampleBytes = .ok other ∧ Agrees sampleProgram other ∧
      other.localCount = recountLocals other := by
  have accepted : (decodeProgram sampleBytes).isOk = true := by decide +kernel
  cases hdec : decodeProgram sampleBytes with
  | error e => rw [hdec] at accepted; cases accepted
  | ok other =>
    exact ⟨other, sampleProgram_encodes, rfl, decodeProgram_encodeProgram
      sampleProgram_wellFormed (by simp [sampleProgram]) sampleProgram_encodes hdec⟩

/-! ## Encode after decode -/

/-- The same program, with the entries of its map constants in another order. -/
structure Reordered (program other : Program) : Prop where
  constants : Value.AllSame program.constants other.constants
  rest : other = { program with constants := other.constants }

/-- What the codec asks of an artifact does not depend on the order of map entries. -/
theorem writable_reordered {constants : List Value} (h : AllSame artifact.constants constants)
    (hv : artifactFormat.valid artifact) (hl : WithinLimits artifact)
    (hw : ∃ bs, artifactFormat.write artifact = .ok bs) :
    artifactFormat.valid { artifact with constants } ∧ WithinLimits { artifact with constants } ∧
      ∃ bs, artifactFormat.write { artifact with constants } = .ok bs := by
  have parts := allSame_interchangeable h
  have costs : constants.map constantCost = artifact.constants.map constantCost :=
    map_eq_of_forall₂ (parts.imp fun _ _ hs => hs.cost)
  have sizes : constants.map constantSize = artifact.constants.map constantSize :=
    map_eq_of_forall₂ (parts.imp fun _ _ hs => hs.size)
  have cost : artifactFormat.cost { artifact with constants } = artifactFormat.cost artifact := by
    change ofItems constants.length + (constants.map constantCost).sum + _ =
      ofItems artifact.constants.length + (artifact.constants.map constantCost).sum + _
    rw [costs, ← parts.length_eq]
    rfl
  have size : artifactFormat.size { artifact with constants } = artifactFormat.size artifact := by
    change 4 + (constants.map constantSize).sum + _ =
      4 + (artifact.constants.map constantSize).sum + _
    rw [sizes]
    rfl
  obtain ⟨⟨_, wellFormed⟩, code, imports, typeMap, debug, callables, structs, _⟩ := hv
  obtain ⟨⟨⟨count, limits⟩, restLimits⟩, fits, payload⟩ := hl
  refine ⟨⟨⟨trivial, forall_mem_of_forall₂ (parts.imp fun _ _ hs => hs.wellFormed) wellFormed⟩,
    code, imports, typeMap, debug, callables, structs, rfl⟩, ⟨⟨⟨?_, ?_⟩, restLimits⟩, ?_, ?_⟩, ?_⟩
  · exact parts.length_eq ▸ count
  · exact forall_mem_of_forall₂ (parts.imp fun _ _ hs => hs.limits) limits
  · rw [cost]
    exact fits
  · rw [size]
    exact payload
  · have hw := appendBytes_isOk.mp hw
    exact appendBytes_isOk.mpr ⟨writeVec_isOk parts.length_eq.symm
      (forall_mem_of_forall₂ (parts.imp fun _ _ hs => hs.writable maxConstantDepth)) hw.1, hw.2⟩

/-- The program of an artifact has that artifact. -/
theorem artifactOf_artifactProgram (artifact : Artifact) :
    artifactOf (artifact.program versionV13) = artifact := by
  have imports : (artifact.imports.map Prod.fst).zip (artifact.imports.map Prod.snd) =
      artifact.imports := by
    induction artifact.imports with
    | nil => rfl
    | cons entry imports ih => rw [map_cons, map_cons, zip_cons_cons, ih]
  have schemas : importSchemas (artifact.program versionV13) = artifact.imports.map Prod.snd := by
    change (if (artifact.imports.map Prod.snd).isEmpty then
      replicate (artifact.imports.map Prod.fst).length none
      else artifact.imports.map Prod.snd) = _
    cases artifact.imports with
    | nil | cons entry imports => rfl
  rw [artifactOf, schemas]
  change mk _ _ ((artifact.imports.map Prod.fst).zip (artifact.imports.map Prod.snd))
    _ _ _ _ = artifact
  rw [imports]
  rfl

/-- The version field of an artifact. -/
def wireVersion (bytes : List UInt8) : Nat := ofLeBytes ((bytes.drop 4).take 2)

variable {c : Cursor Budget}

theorem readExact_ok {len : Nat} (h : readExact len c = .ok (bytes, c')) :
    bytes = c.rest.take len ∧ c' = ⟨c.rest.drop len, c.budget⟩ ∧ len ≤ c.rest.length := by
  simp only [readExact, readBytes] at h
  split at h
  · cases h
  · rename_i room
    cases h
    exact ⟨rfl, rfl, Nat.not_lt.mp room⟩

theorem readU16_ok {word : UInt16} (h : readU16 c = .ok (word, c')) :
    word = UInt16.ofNat (ofLeBytes (c.rest.take 2)) ∧ c' = ⟨c.rest.drop 2, c.budget⟩ ∧
      2 ≤ c.rest.length := by
  obtain ⟨bytes, d, hbytes, hpure⟩ := Reader.bind_ok.mp h
  obtain ⟨rfl, rfl⟩ := Reader.pure_ok.mp hpure
  obtain ⟨rfl, rest⟩ := readExact_ok hbytes
  exact ⟨rfl, rest⟩

/-- The header takes eight bytes and debits nothing. -/
theorem readHeader_ok {version : UInt16} (h : readHeader ⟨bytes, budget⟩ = .ok (version, c)) :
    version = UInt16.ofNat (wireVersion bytes) ∧ c = ⟨bytes.drop 8, budget⟩ ∧
      headerBytes.length + c.rest.length = bytes.length := by
  unfold readHeader at h
  simp only [Reader.bind_ok, ensure_ok] at h
  obtain ⟨magic, c₁, hmagic, _, _, ⟨_, rfl⟩, v, c₂, hv, _, _, ⟨_, rfl⟩, flags, c₃, hflags, _, _,
    ⟨_, rfl⟩, rfl, rfl⟩ := h
  obtain ⟨_, rfl, room⟩ := readExact_ok hmagic
  obtain ⟨rfl, rfl, room'⟩ := readU16_ok hv
  obtain ⟨_, rfl, room''⟩ := readU16_ok hflags
  have eight : headerBytes.length = 8 := rfl
  refine ⟨rfl, by simp, ?_⟩
  simp only [length_drop] at room' room'' ⊢
  omega

/-- A program that came out of the decoder decodes to itself. -/
theorem decoded_of_artifact
    (h : Reordered (artifact.program versionV13) program) : decoded program = program := by
  have schemas : importSchemas program = program.hostImportSchemas := by
    rw [h.rest]
    change (if (artifact.imports.map Prod.snd).isEmpty then
      replicate (artifact.imports.map Prod.fst).length none
      else artifact.imports.map Prod.snd) = artifact.imports.map Prod.snd
    cases artifact.imports with
    | nil | cons entry imports => rfl
  have locals : recountLocals program = program.localCount := by
    rw [h.rest]
    rfl
  rw [decoded, schemas, locals]

/-- **Decoding is canonicalising**: what a version 13 artifact decodes to can be encoded
again, in whatever order its maps list their entries, and decodes to itself. -/
theorem decodeProgram_canonical {bytes : List UInt8} {program other : Program}
    (hversion : wireVersion bytes = 13) (hdec : decodeProgram bytes = .ok program)
    (hother : Reordered program other) :
    ∃ bytes' program', encodeProgram other = .ok bytes' ∧
      decodeProgram bytes' = .ok program' ∧ Reordered program program' := by
  obtain ⟨payload, version, c, artifact, c', hheader, hartifact, hend, rfl⟩ :=
    decodeProgram_ok.mp hdec
  obtain ⟨hv, rfl, hlength⟩ := readHeader_ok hheader
  have v13 : version = versionV13 := by
    rw [hv, hversion]
    rfl
  subst v13
  rw [← artifactFormat_read] at hartifact
  obtain ⟨k, n, hk, hn, ⟨valid, limits, writable⟩, ⟨slack, rfl⟩, hsize⟩ :=
    artifactFormat_lawful.accepts _ artifact c' hartifact
  have within : WithinLimits artifact := by
    refine ⟨limits, fits_iff.mpr ⟨slack + c'.budget, ?_⟩, ?_⟩
    · rw [← add_assoc]
      exact hk
    · omega
  have restored : artifactOf other = { artifact with constants := other.constants } := by
    have fields := congrArg (fun a : Artifact => { a with constants := other.constants })
      (artifactOf_artifactProgram artifact)
    rw [hother.rest]
    exact fields
  have fit : SchemasFit other := by
    rw [hother.rest]
    exact Or.inr (by simp [program, fields, versionV13, versionV11])
  obtain ⟨valid', within', bs, hbs⟩ := writable_reordered hother.constants valid within writable
  rw [← restored] at valid' within' hbs
  have encoded : encodeProgram other = .ok (headerBytes ++ bs) :=
    encodeProgram_ok.mpr ⟨fit, bs, hbs, rfl⟩
  refine ⟨_, decoded other, encoded, (decodeProgram_encoded valid' encoded).mpr ⟨within', rfl⟩, ?_⟩
  rw [decoded_of_artifact hother]
  exact hother

/-- An artifact whose map constant spells the key `1` twice. -/
def repeatedKeyBytes : List UInt8 :=
  headerBytes ++ [1, 0, 0, 0, 7, 2, 0, 0, 0, 0, 1, 0, 0, 0, 0, 0, 0, 0, 1, 1, 0, 1, 0, 0, 0, 0, 0,
    0, 0, 1, 0, 0, 0, 0, 0, 0, 0, 0, 0, 0, 0, 0, 0, 0, 0, 0, 0, 0, 0, 0, 0, 0, 0, 0, 0, 0, 0, 0,
    0, 0, 0, 0, 0, 0, 0]

theorem decodeProgram_canonical_repeatedKey :
    ∃ program bytes' program', decodeProgram repeatedKeyBytes = .ok program ∧
      encodeProgram program = .ok bytes' ∧ decodeProgram bytes' = .ok program' ∧
      Reordered program program' := by
  have accepted : (decodeProgram repeatedKeyBytes).isOk = true := by decide +kernel
  cases hdec : decodeProgram repeatedKeyBytes with
  | error e => rw [hdec] at accepted; cases accepted
  | ok program =>
    obtain ⟨bytes', program', h⟩ := decodeProgram_canonical (by decide) hdec
      ⟨AllSame.refl _, rfl⟩
    exact ⟨program, bytes', program', rfl, h⟩

end RustScript.Vmbc
