import RustScript.Nostd.Decoder
import RustScript.Vm.Interpreter
import RustScript.Vmbc.RoundTrip

/-!
# The gate of version 11

`CallScript` came with version 12, so both decoders refuse an artifact of version 11 that uses
it.  They search the code for the byte of the opcode, without regard to instructions, and an
operand can hold that byte as well.

The decoders are written here with the gate as a parameter; the gate that lets everything pass
says what would decode otherwise.  Such an artifact is refused exactly if the byte occurs in
its code (`Vmbc.refused_iff`, `Nostd.refused_iff`).  That tells whether an instruction is
`CallScript`, unless the byte occurs in operands only (`legacy_gate_iff`).
-/

namespace ByteCodec

variable {ε β α γ δ : Type}

/-- A condition on the version and the code of an artifact. -/
abbrev CodeGate := UInt16 → List UInt8 → Prop

def openGate : CodeGate := fun _ _ => True

instance (version : UInt16) : DecidablePred (openGate version) := fun _ => isTrue trivial

/-- The parts of a decoder: a bound on the input, a header with the version, a first section,
the code, the sections after it, and what is made of them. -/
structure GatedDecoder (ε β α γ δ : Type) where
  bound : Nat
  tooLarge : Nat → ε
  refusal : ε
  budget : β
  header : Reader ε β UInt16
  first : Reader ε β α
  code : Reader ε β (List UInt8)
  sections : UInt16 → α → List UInt8 → Reader ε β γ
  finish : UInt16 → γ × Cursor β → Except ε δ

namespace GatedDecoder

variable (D : GatedDecoder ε β α γ δ) (gate : CodeGate) [∀ version, DecidablePred (gate version)]

/-- The body of an artifact, with a gate right after the code. -/
def body (version : UInt16) : Reader ε β γ := do
  let first ← D.first
  let code ← D.code
  ensure (gate version code) D.refusal
  D.sections version first code

def decode (bytes : List UInt8) : Except ε δ := do
  if bytes.length > D.bound then throw (D.tooLarge bytes.length)
  let (version, cursor) ← D.header ⟨bytes, D.budget⟩
  D.body gate version cursor >>= D.finish version

variable {D} {bytes : List UInt8} {version : UInt16} {c : Cursor β} {result : δ}

/-- What the open gate lets through is refused exactly if the gate is shut to its code. -/
theorem refused_iff (codeOf : δ → List UInt8)
    (keeps : ∀ a b d read, D.sections version a b d = .ok read →
      ∀ result, D.finish version read = .ok result → codeOf result = b)
    (begins : D.header ⟨bytes, D.budget⟩ = .ok (version, c))
    (h : D.decode openGate bytes = .ok result) :
    D.decode gate bytes = .error D.refusal ↔ ¬ gate version (codeOf result) := by
  have small : ¬ bytes.length > D.bound := by
    intro large
    rw [decode, if_pos large] at h
    cases h
  have run : ∀ (gate : CodeGate) [∀ version, DecidablePred (gate version)],
      D.decode gate bytes = (D.body gate version c >>= D.finish version) := by
    intro gate _
    rw [decode, if_neg small, begins]
    rfl
  rw [run] at h ⊢
  obtain ⟨read, opened, finished⟩ := Fallible.bind_eq_ok.mp h
  obtain ⟨a, d₁, first, opened⟩ := Reader.bind_ok.mp opened
  obtain ⟨b, d, code, opened⟩ := Reader.bind_ok.mp opened
  obtain ⟨_, _, passed, opened⟩ := Reader.bind_ok.mp opened
  rw [(ensure_ok.mp passed).2] at opened
  have upToGate : D.body gate version c =
      (ensure (gate version b) D.refusal >>= fun _ => D.sections version a b) d := by
    change (D.first c >>= fun p => (D.code >>= _) p.2) = _
    rw [first]
    change (D.code d₁ >>= _) = _
    rw [code]
    rfl
  rw [upToGate, keeps a b d read opened result finished]
  by_cases allowed : gate version b
  · rw [ensure, if_pos allowed]
    change (D.sections version a b d >>= _) = _ ↔ _
    rw [opened]
    change D.finish version read = _ ↔ _
    rw [finished]
    exact ⟨nofun, fun shut => absurd allowed shut⟩
  · rw [ensure, if_neg allowed]
    exact ⟨fun _ => allowed, fun _ => rfl⟩

end GatedDecoder

end ByteCodec

namespace RustScript

open ByteCodec Reader

/-! ## Instructions -/

/-- An instruction that a scan from the first one on finds is `CallScript`. -/
def UsesCallScript (code : List UInt8) : Prop :=
  ∃ ip ∈ Vm.decodedStarts code.length 0 code, code[ip]? = some OpCode.callScript.toByte

instance : DecidablePred UsesCallScript := fun code =>
  inferInstanceAs (Decidable (∃ ip ∈ Vm.decodedStarts code.length 0 code, _))

/-- A byte that is not the opcode of such an instruction is the byte of `CallScript`. -/
def OperandIsCallScript (code : List UInt8) : Prop :=
  ∃ ip ∉ Vm.decodedStarts code.length 0 code, code[ip]? = some OpCode.callScript.toByte

theorem callScript_mem_iff (code : List UInt8) :
    OpCode.callScript.toByte ∈ code ↔ UsesCallScript code ∨ OperandIsCallScript code := by
  rw [List.mem_iff_getElem?]
  constructor
  · rintro ⟨ip, found⟩
    by_cases start : ip ∈ Vm.decodedStarts code.length 0 code
    · exact .inl ⟨ip, start, found⟩
    · exact .inr ⟨ip, start, found⟩
  · rintro (⟨ip, -, found⟩ | ⟨ip, -, found⟩)
    · exact ⟨ip, found⟩
    · exact ⟨ip, found⟩

/-- What refuses the byte tells whether an instruction is `CallScript` if no operand misleads. -/
theorem refusal_exact_iff {code : List UInt8} {refused : Prop}
    (h : refused ↔ OpCode.callScript.toByte ∈ code) :
    (refused ↔ UsesCallScript code) ↔ (UsesCallScript code ∨ ¬ OperandIsCallScript code) := by
  rw [h, callScript_mem_iff]
  tauto

/-! ## The decoders with any gate -/

/-- The gate of both decoders. -/
def legacyGate : CodeGate := fun version code =>
  ¬ (version = Vmbc.versionV11 ∧ OpCode.callScript.toByte ∈ code)

instance (version : UInt16) : DecidablePred (legacyGate version) := fun _ =>
  inferInstanceAs (Decidable (¬ _))

theorem not_legacyGate (code : List UInt8) :
    ¬ legacyGate Vmbc.versionV11 code ↔ OpCode.callScript.toByte ∈ code := by
  simp [legacyGate]

namespace Vmbc

/-- `decodeProgram` around its gate. -/
def decoder : GatedDecoder WireError Budget (List Value) Artifact Program where
  bound := maxWirePayloadBytes
  tooLarge := .lengthTooLarge "payload"
  refusal := .unsupportedVersion versionV11
  budget := .initial
  header := readHeader
  first := readVec "constants" 1 (readConstant maxConstantDepth)
  code := readBlob "code"
  sections version constants code := do
    let imports ← (if version = versionV11 then readVec "imports" 6 readImportV11 else readImports)
    let typeMap ← readTypeMap
    let debug ← readDebugInfo
    let callables ← readCallableMetadata
    let namedStructDecls ← (if version = versionV13 then readNamedStructDecls else pure [])
    pure { constants, code, imports, typeMap, debug, callables, namedStructDecls }
  finish version read := do
    if !read.2.rest.isEmpty then throw .trailingBytes
    pure (read.1.program version)

theorem decodeProgram_eq : decodeProgram = decoder.decode legacyGate := rfl

/-- What would decode is refused exactly if the byte occurs in its code. -/
theorem refused_iff {bytes : List UInt8} {c : Cursor Budget} {program : Program}
    (begins : readHeader ⟨bytes, Budget.initial⟩ = .ok (versionV11, c))
    (h : decoder.decode openGate bytes = .ok program) :
    decodeProgram bytes = .error (.unsupportedVersion versionV11) ↔
      OpCode.callScript.toByte ∈ program.code := by
  rw [decodeProgram_eq, ← not_legacyGate]
  refine decoder.refused_iff legacyGate Program.code ?_ begins h
  rintro constants code d ⟨artifact, left⟩ sections program finished
  simp only [decoder, bind_ok, pure_ok] at sections
  obtain ⟨_, _, _, _, _, _, _, _, _, _, _, _, _, _, _, same, _⟩ := sections
  simp only [decoder] at finished
  split at finished
  · cases finished
  · cases finished
    rw [same]
    rfl

end Vmbc

namespace Nostd

/-- `decodeProgram` around its gate. -/
def decoder : GatedDecoder WireError Nat (List Value) Artifact Program where
  bound := maxWirePayloadBytes
  tooLarge := .lengthTooLarge "payload"
  refusal := .unsupportedVersion Vmbc.versionV11
  budget := maxWireAggregateItems
  header := readHeader
  first := readVec "constants" 1 (readConstant maxConstantDepth)
  code := readBlob "code"
  sections version constants code := do
    let hasHostImportSchemas := decide (version ≠ Vmbc.versionV11)
    let imports ← readVec "imports" (if hasHostImportSchemas then 7 else 6)
      (readImport hasHostImportSchemas)
    let encodedLocalCount ← skipTypeMap
    skipDebugInfo
    let callables ← readCallableMetadata
    (if version ≥ Vmbc.versionV13 then skipNamedStructDecls else pure ())
    pure { constants, code, imports, encodedLocalCount, callables }
  finish _ read := do
    if !read.2.rest.isEmpty then throw .trailingBytes
    validateCallScriptOperands read.1.code read.1.callables.callablePrototypes
    pure read.1.program

theorem decodeProgram_eq : decodeProgram = decoder.decode legacyGate := rfl

/-- What would decode is refused exactly if the byte occurs in its code. -/
theorem refused_iff {bytes : List UInt8} {c : Cursor Nat} {program : Program}
    (begins : readHeader ⟨bytes, maxWireAggregateItems⟩ = .ok (Vmbc.versionV11, c))
    (h : decoder.decode openGate bytes = .ok program) :
    decodeProgram bytes = .error (.unsupportedVersion Vmbc.versionV11) ↔
      OpCode.callScript.toByte ∈ program.code := by
  rw [decodeProgram_eq, ← not_legacyGate]
  refine decoder.refused_iff legacyGate Program.code ?_ begins h
  rintro constants code d ⟨artifact, left⟩ sections program finished
  simp only [decoder, bind_ok, pure_ok] at sections
  obtain ⟨_, _, _, _, _, _, _, _, _, _, _, _, _, _, _, same, _⟩ := sections
  simp only [decoder] at finished
  split at finished
  · cases finished
  · obtain ⟨_, _, made⟩ := Fallible.bind_eq_ok.mp finished
    cases made
    rw [same]
    rfl

end Nostd

/-! ## Both decoders -/

/-- **The gate of version 11 looks at operands too.**  In both decoders, an artifact of version
11 that would decode otherwise is refused for `CallScript` exactly when one of its instructions is
`CallScript`, if and only if such an instruction is there or no operand holds its byte. -/
theorem legacy_gate_iff (bytes : List UInt8) :
    (∀ c program, Vmbc.readHeader ⟨bytes, .initial⟩ = .ok (Vmbc.versionV11, c) →
      Vmbc.decoder.decode openGate bytes = .ok program →
        ((Vmbc.decodeProgram bytes = .error (.unsupportedVersion Vmbc.versionV11) ↔
            UsesCallScript program.code) ↔
          (UsesCallScript program.code ∨ ¬ OperandIsCallScript program.code))) ∧
    (∀ c program, Nostd.readHeader ⟨bytes, Nostd.maxWireAggregateItems⟩ = .ok (Vmbc.versionV11, c) →
      Nostd.decoder.decode openGate bytes = .ok program →
        ((Nostd.decodeProgram bytes = .error (.unsupportedVersion Vmbc.versionV11) ↔
            UsesCallScript program.code) ↔
          (UsesCallScript program.code ∨ ¬ OperandIsCallScript program.code))) :=
  ⟨fun _ _ begins h => refusal_exact_iff (Vmbc.refused_iff begins h),
    fun _ _ begins h => refusal_exact_iff (Nostd.refused_iff begins h)⟩

/-- Version 11 with the code `ldloc 26; ret`; 26 is the byte of `CallScript`. -/
def operandBytes : List UInt8 :=
  Vmbc.vmbcMagic ++ [11, 0, 0, 0, 0, 0, 0, 0, 3, 0, 0, 0, 0x0F, 26, 1] ++ List.replicate 26 0

/-- The operand is taken for an instruction. -/
theorem operand_refused : ∃ program, Vmbc.decoder.decode openGate operandBytes = .ok program ∧
      ¬ UsesCallScript program.code ∧
      Vmbc.decodeProgram operandBytes = .error (.unsupportedVersion Vmbc.versionV11) := by
  have read : (Vmbc.decoder.decode openGate operandBytes).toOption.map Program.code =
      some [0x0F, 26, 1] := by decide +kernel
  cases decoded : Vmbc.decoder.decode openGate operandBytes with
  | error e =>
    rw [decoded] at read
    cases read
  | ok program =>
    rw [decoded] at read
    have code : program.code = [0x0F, 26, 1] := Option.some.inj read
    refine ⟨program, rfl, ?_, (Vmbc.refused_iff rfl decoded).mpr ?_⟩
    · rw [code]
      decide
    · rw [code]
      decide

end RustScript
