import RustScript.Vmbc.Limits

/-!
# Ahead-of-time artifacts

A compiled program is saved as one byte string: a header that names the format, the machine
and the layout of the virtual machine, the cache key of the program, the program in its own
wire format, the instruction pointers at which native execution may resume, and the code.
Each part is written by one function and read by another, and what was written is read back
(`decodeArtifact_encodeArtifact`).

The embedded decoder recounts the locals and gives every import a schema, and the cache key of
its result has to be the stored one.  It is, because the number of locals is stored apart and
absent schemas do not enter the key (`computeProgramCacheKey_restored`).  The machine and the
hash function are parameters.
-/

namespace RustScript.Aot

open ByteCodec Format Vmbc

inductive AotArtifactError where
  | wire (error : WireError)
  | unexpectedEof
  | invalidMagic (found : List UInt8)
  | unsupportedVersion (version : Nat)
  | unsupportedAbiVersion (version : Nat)
  | unsupportedFlags (flags : Nat)
  | invalidUtf8
  | trailingBytes
  | lengthTooLarge (field : String) (value : Nat)
  | incompatibleProgramHash (expected : Option UInt64) (found : UInt64)
  | embeddedProgramHashMismatch (stored computed : UInt64)
  | incompatibleRuntime (field expected found : String)

abbrev AotOutput := Except AotArtifactError (List UInt8)
abbrev AotReader := Reader AotArtifactError Unit

/-! ## Words and texts -/

def readExact (len : Nat) : AotReader (List UInt8) := readBytes .unexpectedEof len

/-- An unsigned integer of the given width. -/
def readUint (width : Nat) : AotReader Nat := do
  let bytes ← readExact width
  pure (ofLeBytes bytes)

def writeU32 (field : String) (value : Nat) : AotOutput :=
  if value < 256 ^ 4 then .ok (leBytes 4 value) else .error (.lengthTooLarge field value)

/-- Bytes behind their number. -/
def writeSized (field : String) (bytes : List UInt8) : AotOutput :=
  appendBytes (writeU32 field bytes.length) (.ok bytes)

def readSized : AotReader (List UInt8) := readUint 4 >>= readExact

def writeString (field value : String) : AotOutput := writeSized field (utf8 value)

def readString : AotReader String := do
  let bytes ← readSized
  liftResult ((ofUtf8 bytes).elim (.error .invalidUtf8) .ok)

theorem readExact_back (bytes : List UInt8) :
    ReadsBack (readExact bytes.length) (.ok bytes) bytes :=
  .readBytes _ bytes

theorem readUint_back {width n : Nat} (h : n < 256 ^ width) :
    ReadsBack (readUint width) (.ok (leBytes width n)) n := by
  have back : ReadsBack (readExact width) (.ok (leBytes width n)) (leBytes width n) := by
    simpa using readExact_back (leBytes width n)
  refine back.last ?_
  rw [ofLeBytes_leBytes_of_lt h]
  exact .pure n

theorem writeU32_back (field : String) (n : Nat) : ReadsBack (readUint 4) (writeU32 field n) n := by
  unfold writeU32
  split
  case isTrue h => exact readUint_back h
  case isFalse => exact .error _

theorem writeSized_back (field : String) (bytes : List UInt8) :
    ReadsBack readSized (writeSized field bytes) bytes :=
  (writeU32_back field _).bind (readExact_back bytes)

theorem writeString_back {field value : String} :
    ReadsBack readString (writeString field value) value := by
  refine (writeSized_back field _).last ?_
  rw [ofUtf8_utf8]
  exact .pure value

/-! ## The format -/

structure CompiledProgram where
  code : List UInt8
  resumeIps : List Nat
  interpreterBoundaryOnly : Bool

def magic : List UInt8 := [80, 65, 84, 0]
def version : Nat := 8
def abiVersion : Nat := 8
def flagInterpreterBoundaryOnly : Nat := 1
def supportedFlags : Nat := flagInterpreterBoundaryOnly

def writeFormat (aot : CompiledProgram) : AotOutput :=
  appendBytes (.ok magic) <|
  appendBytes (.ok (leBytes 2 version)) <|
  appendBytes (.ok (leBytes 2 abiVersion)) <|
  .ok (leBytes 2 (if aot.interpreterBoundaryOnly then flagInterpreterBoundaryOnly else 0))

/-- The format has to be this one; the flags say where the code came from. -/
def readFormat : AotReader Bool := do
  let found ← readExact 4
  ensure (found = magic) (.invalidMagic found)
  let foundVersion ← readUint 2
  ensure (foundVersion = version) (.unsupportedVersion foundVersion)
  let foundAbi ← readUint 2
  ensure (foundAbi = abiVersion) (.unsupportedAbiVersion foundAbi)
  let flags ← readUint 2
  ensure (flags &&& (0xFFFF ^^^ supportedFlags) = 0) (.unsupportedFlags flags)
  pure (flags &&& flagInterpreterBoundaryOnly != 0)

theorem writeFormat_back (aot : CompiledProgram) :
    ReadsBack readFormat (writeFormat aot) aot.interpreterBoundaryOnly := by
  refine (readExact_back magic).bind (.ensure rfl ?_)
  refine (readUint_back (by decide)).bind (.ensure rfl ?_)
  refine (readUint_back (by decide)).bind (.ensure rfl ?_)
  cases aot.interpreterBoundaryOnly with
  | false => exact (readUint_back (by decide)).last (.ensure rfl (.pure false))
  | true => exact (readUint_back (by decide)).last (.ensure rfl (.pure true))

/-! ## The machine -/

/-- What an artifact records of the machine it was compiled on. -/
structure Runtime where
  pointerWidth : UInt8
  arch : String
  os : String
  backend : String
  vmIpOffset : Nat
  nativeHelperOffset : Nat
  interruptHelperOffset : Nat

def validateRuntimeField (field expected found : String) : AotReader PUnit :=
  ensure (expected = found) (.incompatibleRuntime field expected found)

def writeRuntime (runtime : Runtime) : AotOutput :=
  appendBytes (.ok (leBytes 1 runtime.pointerWidth.toNat)) <|
  appendBytes (writeString "arch" runtime.arch) <|
  appendBytes (writeString "os" runtime.os) <|
  appendBytes (writeString "backend" runtime.backend) <|
  appendBytes (writeU32 "vm ip offset" runtime.vmIpOffset) <|
  appendBytes (writeU32 "native helper offset" runtime.nativeHelperOffset) <|
  writeU32 "interrupt helper offset" runtime.interruptHelperOffset

/-- The machine of the artifact has to be this one. -/
def readRuntime (runtime : Runtime) : AotReader PUnit := do
  let width ← readUint 1
  validateRuntimeField "pointer width" (toString runtime.pointerWidth.toNat) (toString width)
  let arch ← readString
  validateRuntimeField "arch" runtime.arch arch
  let os ← readString
  validateRuntimeField "os" runtime.os os
  let backend ← readString
  validateRuntimeField "backend" runtime.backend backend
  let ip ← readUint 4
  validateRuntimeField "vm ip offset" (toString runtime.vmIpOffset) (toString ip)
  let helper ← readUint 4
  validateRuntimeField "native helper offset" (toString runtime.nativeHelperOffset)
    (toString helper)
  let interrupt ← readUint 4
  validateRuntimeField "interrupt helper offset" (toString runtime.interruptHelperOffset)
    (toString interrupt)
  pure ⟨⟩

theorem writeRuntime_back (runtime : Runtime) :
    ReadsBack (readRuntime runtime) (writeRuntime runtime) ⟨⟩ := by
  refine (readUint_back runtime.pointerWidth.toNat_lt).bind (.ensure rfl ?_)
  refine writeString_back.bind (.ensure rfl ?_)
  refine writeString_back.bind (.ensure rfl ?_)
  refine writeString_back.bind (.ensure rfl ?_)
  refine (writeU32_back _ _).bind (.ensure rfl ?_)
  refine (writeU32_back _ _).bind (.ensure rfl ?_)
  exact (writeU32_back _ _).last (.ensure rfl (.pure PUnit.unit))

/-! ## The program -/

/-- The identity of a program: a hash of its fields, but for the debug information and, when
there is none among them, the import schemas. -/
def computeProgramCacheKey (hash : Program → UInt64) (program : Program) : UInt64 :=
  hash { program with
    debug := none
    hostImportSchemas :=
      if program.hostImportSchemas.any Option.isSome then program.hostImportSchemas else [] }

def writeProgram (program : Program) (programHash : UInt64) : AotOutput :=
  appendBytes (.ok (leBytes 8 programHash.toNat)) <|
  appendBytes (writeU32 "program local count" program.localCount) <|
  (encodeProgram program).mapError .wire >>= writeSized "embedded program length"

/-- The program, whose key has to be the stored one and the one that is asked for. -/
def readProgram (hash : Program → UInt64) (expected : Option UInt64) : AotReader Program := do
  let word ← readUint 8
  let localCount ← readUint 4
  let payload ← readSized
  let recounted ← liftResult ((decodeProgram payload).mapError .wire)
  let computed := computeProgramCacheKey hash { recounted with localCount }
  ensure (computed = .ofNat word) (.embeddedProgramHashMismatch (.ofNat word) computed)
  ensure (∀ key ∈ expected, UInt64.ofNat word = key)
    (.incompatibleProgramHash expected (.ofNat word))
  pure { recounted with localCount }

/-- The program that is read back, with the stored number of locals. -/
def restored (program : Program) : Program :=
  { decoded program with localCount := program.localCount }

theorem computeProgramCacheKey_restored {hash : Program → UInt64} {program : Program} :
    computeProgramCacheKey hash (restored program) = computeProgramCacheKey hash program := by
  unfold computeProgramCacheKey restored decoded importSchemas
  by_cases absent : program.hostImportSchemas.isEmpty
  · have none : program.hostImportSchemas = [] := List.isEmpty_iff.mp absent
    simp [none]
  · simp only [if_neg absent]

variable {hash : Program → UInt64} {program : Program} {expected : Option UInt64}

theorem writeProgram_back (hwf : program.WellFormed)
    (hlen : ∀ t ∈ program.typeMap, t.localSchemas.length = t.localTypes.length)
    (limits : DecoderLimits program)
    (asked : ∀ key ∈ expected, computeProgramCacheKey hash program = key) :
    ReadsBack (readProgram hash expected)
      (writeProgram program (computeProgramCacheKey hash program)) (restored program) := by
  refine (readUint_back (UInt64.toNat_lt _)).bind ((writeU32_back _ _).bind ?_)
  cases henc : encodeProgram program with
  | error e => exact .error _
  | ok payload =>
    have within := (withinLimits_iff (encodeProgram_ok.mp henc).1 hwf.structNames).mpr limits
    have hdec := (decodeProgram_encoded (artifactFormat_valid hwf hlen) henc).mpr ⟨within, rfl⟩
    refine (writeSized_back _ _).last ?_
    rw [hdec]
    refine .ensure ?_ (.ensure ?_ (.pure _))
    · rw [UInt64.ofNat_toNat]
      exact computeProgramCacheKey_restored
    · rw [UInt64.ofNat_toNat]
      exact asked

/-! ## The artifact -/

structure DecodedArtifact extends CompiledProgram where
  program : Program

def encodeArtifact (runtime : Runtime) (program : Program) (aot : CompiledProgram)
    (programHash : UInt64) : AotOutput :=
  appendBytes (writeFormat aot) <|
  appendBytes (writeRuntime runtime) <|
  appendBytes (writeProgram program programHash) <|
  appendBytes (writeU32 "resume ip count" aot.resumeIps.length) <|
  appendBytes (writeAll (writeU32 "resume ip") aot.resumeIps) <|
  writeSized "native code length" aot.code

def readArtifact (runtime : Runtime) (hash : Program → UInt64) (expected : Option UInt64) :
    AotReader DecodedArtifact := do
  let interpreterBoundaryOnly ← readFormat
  readRuntime runtime
  let program ← readProgram hash expected
  let resumeCount ← readUint 4
  let resumeIps ← replicateM resumeCount (readUint 4)
  let code ← readSized
  pure { program, code, resumeIps, interpreterBoundaryOnly }

def decodeArtifact (runtime : Runtime) (hash : Program → UInt64) (bytes : List UInt8)
    (expected : Option UInt64) : Except AotArtifactError DecodedArtifact := do
  let (artifact, cursor) ← readArtifact runtime hash expected ⟨bytes, ()⟩
  if cursor.rest ≠ [] then throw .trailingBytes
  return artifact

variable {runtime : Runtime} {aot : CompiledProgram} {bytes : List UInt8}

/-- **An artifact is read back**: the program, its number of locals, the code and the resume
table, whether the loader asks for the key of the program or for none. -/
theorem decodeArtifact_encodeArtifact (hwf : program.WellFormed)
    (hlen : ∀ t ∈ program.typeMap, t.localSchemas.length = t.localTypes.length)
    (limits : DecoderLimits program)
    (henc : encodeArtifact runtime program aot (computeProgramCacheKey hash program) = .ok bytes)
    (asked : ∀ key ∈ expected, computeProgramCacheKey hash program = key) :
    ∃ artifact, decodeArtifact runtime hash bytes expected = .ok artifact ∧
      Agrees program artifact.program ∧ artifact.program.localCount = program.localCount ∧
      artifact.toCompiledProgram = aot := by
  have back : ReadsBack (readArtifact runtime hash expected)
      (encodeArtifact runtime program aot (computeProgramCacheKey hash program))
      ⟨aot, restored program⟩ := by
    refine (writeFormat_back aot).bind ((writeRuntime_back runtime).bind ?_)
    refine (writeProgram_back hwf hlen limits asked).bind ((writeU32_back _ _).bind ?_)
    refine (ReadsBack.all (writeU32_back _) aot.resumeIps).bind ?_
    exact (writeSized_back _ aot.code).last (.pure _)
  have read := back bytes henc []
  rw [List.append_nil] at read
  refine ⟨⟨aot, restored program⟩, ?_, decoded_agrees program _, rfl, rfl⟩
  unfold decodeArtifact
  rw [read]
  rfl

/-! A machine, a body and a hash for the small program. -/

def sampleRuntime : Runtime := ⟨8, "x86_64", "linux", "native", 16, 24, 32⟩
def sampleBody : CompiledProgram := ⟨[195], [0], false⟩
def sampleKey : UInt64 := computeProgramCacheKey (fun p => .ofNat p.localCount) sampleProgram

theorem sampleProgram_limits : DecoderLimits sampleProgram := by
  have accepted : (decodeProgram sampleBytes).isOk = true := by decide +kernel
  have valid := artifactFormat_valid sampleProgram_wellFormed (by simp [sampleProgram])
  rw [← withinLimits_iff (encodeProgram_ok.mp sampleProgram_encodes).1 List.Pairwise.nil]
  cases hdec : decodeProgram sampleBytes with
  | error e => rw [hdec] at accepted; cases accepted
  | ok other => exact ((decodeProgram_encoded valid sampleProgram_encodes).mp hdec).1

theorem decodeArtifact_encodeArtifact_sample : ∃ bytes artifact,
      encodeArtifact sampleRuntime sampleProgram sampleBody sampleKey = .ok bytes ∧
      decodeArtifact sampleRuntime (fun p => .ofNat p.localCount) bytes (some sampleKey) =
        .ok artifact ∧
      Agrees sampleProgram artifact.program ∧
      artifact.program.localCount = sampleProgram.localCount ∧
      artifact.toCompiledProgram = sampleBody := by
  have written : (encodeArtifact sampleRuntime sampleProgram sampleBody sampleKey).isOk = true := by
    decide +kernel
  cases henc : encodeArtifact sampleRuntime sampleProgram sampleBody sampleKey with
  | error e => rw [henc] at written; cases written
  | ok bytes =>
    obtain ⟨artifact, found⟩ := decodeArtifact_encodeArtifact sampleProgram_wellFormed
      (by simp [sampleProgram]) sampleProgram_limits henc fun _ => Option.some.inj
    exact ⟨bytes, artifact, rfl, found⟩

end RustScript.Aot
