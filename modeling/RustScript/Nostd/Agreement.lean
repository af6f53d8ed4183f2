import RustScript.Nostd.Simulation
import RustScript.Vmbc.RoundTrip

/-!
# The embedded decoder and the standard one

Constants are the one section in which the two decoders return different values.
The standard decoder inserts the entries of a map into a hash map, so a key that is
spelled twice keeps its last value; the embedded decoder keeps every spelled entry.
`collapse` is the difference: the standard decoder returns `collapse w` where the
embedded decoder returns `w`.

`decodeProgram_agrees_iff`: of an artifact that the standard decoder and the
validator accept, the embedded decoder accepts it and returns the same program
exactly when the constants section spells no map with a repeated key.
-/

namespace RustScript.Nostd

open ByteCodec AssocMap CallableMetadata List Value Vmbc
open Fallible (bind_eq_ok)
open Vmbc (constantsSize constantSize writeConstant entriesSize entriesSize_eq repeatedKeyBytes)

/-! ## Spelled constants -/

mutual
/-- The value that the standard decoder builds from a spelled constant. -/
def collapse : Value → Value
  | .array values => .array (collapseAll values)
  | .map entries => .map (VmMap.fromEntries (collapseEntries entries))
  | value => value

def collapseAll : List Value → List Value
  | [] => []
  | v :: vs => collapse v :: collapseAll vs

def collapseEntries : List (Value × Value) → List (Value × Value)
  | [] => []
  | (k, v) :: es => (collapse k, collapse v) :: collapseEntries es
end

variable {vs ws : List Value}

theorem collapseAll_of_forall₂ (h : Forall₂ (fun v w => v = collapse w) vs ws) :
    vs = collapseAll ws := by
  induction h with
  | nil => rfl
  | cons head _ ih => exact congrArg₂ _ head ih

theorem collapseEntries_of_forall₂ {es fs : List (Value × Value)}
    (h : Forall₂ (fun e f => e = (collapse f.1, collapse f.2)) es fs) :
    es = collapseEntries fs := by
  induction h with
  | nil => rfl
  | cons head _ ih => exact congrArg₂ _ head ih

/-- **The standard decoder reads the collapsed constant.** -/
theorem readConstant_simulates {levels : Nat} :
    Simulates SameItems (fun v w => v = collapse w) (Vmbc.readConstant levels)
      (readConstant levels) := by
  induction levels with
  | zero => exact .throw
  | succ levels ih =>
    refine readU8_reads.bind fun tag => ?_
    unfold Vmbc.readConstantPayload
    split
    · exact readI64_reads.bind fun _ => .pure rfl
    · exact readBool_reads.bind fun _ => .pure rfl
    · exact (readStringWithField_reads _).bind fun _ => .pure rfl
    · exact readF64_reads.bind fun _ => .pure rfl
    · exact .pure rfl
    · exact (readBlob_reads _ _).bind fun _ => .pure rfl
    · refine readCountWithOverhead_reads.bind fun count => ?_
      refine .bind (.replicate ih count) fun vs ws h => ?_
      exact .pure (congrArg _ (collapseAll_of_forall₂ h))
    · refine readCountWithOverhead_reads.bind fun count => ?_
      have entry : Simulates SameItems
          (fun (e f : Value × Value) => e = (collapse f.1, collapse f.2))
          (do
            let key ← Vmbc.readConstant levels
            let value ← Vmbc.readConstant levels
            pure (key, value))
          (do
            let key ← readConstant levels
            let value ← readConstant levels
            pure (key, value)) :=
        Simulates.bind ih fun k l hk => .bind ih fun v w hv =>
          Simulates.pure (congrArg₂ _ hk hv)
      refine .bind (.replicate entry count) fun es fs h => ?_
      exact Simulates.pure (congrArg (fun es => map (VmMap.fromEntries es))
        (collapseEntries_of_forall₂ h))
    · exact .throw

/-! ## The bytes of a spelled constant -/

variable {α : Type}

/-- A word is spelled by its little-endian bytes. -/
theorem readWord_consumes {width : Nat} {ofBytes : List UInt8 → α} {toNat : α → Nat}
    (h : ∀ bytes, ofLeBytes bytes < 256 ^ width → toNat (ofBytes bytes) = ofLeBytes bytes) :
    Consumes (do
        let bytes ← readExact width
        pure (ofBytes bytes))
      fun word bs => bs = leBytes width (toNat word) := by
  refine .bind (.readBytes width) fun bytes bs spelled => .pure ?_
  rw [spelled.1, append_nil, ← spelled.2, h bytes (spelled.2 ▸ ofLeBytes_lt)]
  exact leBytes_ofLeBytes.symm

theorem readU32_consumes : Consumes readU32 fun word bs => bs = leBytes 4 word.toNat :=
  readWord_consumes fun _ => UInt32.toNat_ofNat_of_lt'

theorem readF64_consumes : Consumes readF64 fun bits bs => bs = leBytes 8 bits.toNat :=
  readWord_consumes fun _ => UInt64.toNat_ofNat_of_lt'

theorem readI64_consumes :
    Consumes readI64 fun value bs => bs = leBytes 8 value.toUInt64.toNat := by
  refine readWord_consumes fun bytes bound => ?_
  exact UInt64.toNat_ofNat_of_lt' bound

theorem readCount_consumes (field field' : String) {minItemBytes fixedBytes : Nat} :
    Consumes (readCountWithOverhead field minItemBytes fixedBytes)
      fun count bs => writeU32Count field' count = .ok bs := by
  have validate : ∀ count, Consumes
      (validateCountWithOverhead field count minItemBytes fixedBytes) fun _ bs => bs = [] :=
    fun _ => .bind Consumes.ensure fun _ _ h => (Consumes.demand _).mono fun _ _ h' => by
      rw [h.2, h']
      rfl
  have debit : ∀ count, Consumes (debitCount field count) fun _ bs => bs = [] :=
    fun _ => .bind Consumes.ensure fun _ _ h => (Consumes.spend _).mono fun _ _ h' => by
      rw [h.2, h']
      rfl
  refine .bind readU32_consumes fun word bs hword => ?_
  refine .bind (validate _) fun _ none hnone => ?_
  refine .bind (debit _) fun _ none' hnone' => .pure ?_
  rw [hword, hnone, hnone', append_nil, append_nil, append_nil]
  exact writeU32Len_ok.mpr ⟨word.toNat_lt, rfl⟩

theorem readBlob_consumes (field field' : String) :
    Consumes (readBlob field) fun bytes bs => writeBlob field' bytes = .ok bs := by
  refine .bind readU32_consumes fun word bs hword => ?_
  refine .bind Consumes.ensure fun _ none hnone => ?_
  refine (Consumes.readBytes _).mono fun bytes bs' h => ?_
  have prefixed : writeU32Len field' bytes.length = .ok bs := by
    rw [h.2, hword]
    exact writeU32Len_ok.mpr ⟨word.toNat_lt, rfl⟩
  rw [hnone.2, h.1]
  exact appendBytes_ok.mpr ⟨bs, bytes, prefixed, rfl, rfl⟩

theorem readString_consumes {field : String} :
    Consumes readString fun text bs => writeBlob field (utf8 text) = .ok bs := by
  refine .bind (readBlob_consumes _ field) fun bytes bs h => ?_
  unfold decodeUtf8
  cases known : ofUtf8 bytes with
  | none => exact .throw
  | some text =>
    refine Consumes.pure ?_
    rw [utf8_ofUtf8 known, append_nil]
    exact h

theorem readBool_consumes : Consumes readBool fun value bs => bs = [boolToByte value] := by
  refine Consumes.readEnum.mono fun value bs h => ?_
  obtain ⟨byte, known, rfl⟩ := h
  unfold boolOfByte at known
  split at known
  · cases known
    rfl
  · cases known
    rfl
  · cases known

variable {w : α → Vmbc.Output}

theorem readVec_consumes {item : WireReader α} (h : Consumes item fun a bs => w a = .ok bs)
    {field field' : String} {minItemBytes : Nat} : Consumes (readVec field minItemBytes item)
      fun as bs => writeVec field' w as = .ok bs := by
  refine Consumes.bind (readCount_consumes field field') fun count bs hcount => ?_
  refine (Consumes.replicate h count).mono fun as bs' hitems => ?_
  refine appendBytes_ok.mpr ⟨bs, bs', ?_, hitems.2, rfl⟩
  rw [hitems.1]
  exact hcount

/-- A tag and what follows it. -/
theorem tagged_consumes {tag : UInt8} {bs : List UInt8} {r : WireReader α} {make : α → Value}
    {levels : Nat} (htag : bs = [tag]) (h : Consumes r fun a bs => w a = .ok bs)
    (hw : ∀ a, writeConstant (levels + 1) (make a) = appendBytes (.ok [tag]) (w a)) :
    Consumes (r >>= fun a => pure (make a))
      fun v bs' => writeConstant (levels + 1) v = .ok (bs ++ bs') := by
  refine Consumes.bind h fun a body hbody => Consumes.pure ?_
  rw [append_nil, htag, hw a]
  exact appendBytes_ok.mpr ⟨[tag], body, rfl, hbody, rfl⟩

/-- **The embedded decoder returns the constant that was spelled.** -/
theorem readConstant_consumes {levels : Nat} :
    Consumes (readConstant levels) fun w bs => writeConstant levels w = .ok bs := by
  induction levels with
  | zero => exact .throw
  | succ levels ih =>
    refine Consumes.bind Consumes.readByte fun tag bs htag => ?_
    unfold readConstantPayload
    split
    · exact tagged_consumes htag (readI64_consumes.mono fun _ _ h => congrArg _ h.symm) fun _ => rfl
    · exact tagged_consumes htag (readBool_consumes.mono fun _ _ h => congrArg _ h.symm)
        fun _ => rfl
    · exact tagged_consumes htag readString_consumes fun _ => rfl
    · exact tagged_consumes htag (readF64_consumes.mono fun _ _ h => congrArg _ h.symm) fun _ => rfl
    · refine Consumes.pure ?_
      rw [htag]
      rfl
    · exact tagged_consumes htag (readBlob_consumes _ _) fun _ => rfl
    · rw [← bind_assoc]
      exact tagged_consumes htag (readVec_consumes ih) fun _ => rfl
    · have entry : Consumes (do
          let key ← readConstant levels
          let value ← readConstant levels
          pure (key, value)) fun e bs => appendBytes (writeConstant levels e.1)
            (writeConstant levels e.2) = .ok bs := by
        refine .bind ih fun key bs hkey => .bind ih fun value bs' hvalue => ?_
        refine Consumes.pure ?_
        rw [append_nil]
        exact appendBytes_ok.mpr ⟨bs, bs', hkey, hvalue, rfl⟩
      rw [← bind_assoc]
      exact tagged_consumes htag (readVec_consumes entry) fun _ => rfl
    · exact .throw

/-! ## Repeated keys cost bytes -/

theorem writeAll_hasLength {size : α → Nat} (h : ∀ x, HasLength (w x) (size x)) (xs : List α) :
    HasLength (writeAll w xs) (xs.map size).sum := by
  induction xs with
  | nil => exact .ok []
  | cons x xs ih => exact (h x).append ih

theorem writeConstant_hasLength {levels : Nat} (v : Value) :
    HasLength (writeConstant levels v) (constantSize v) := by
  induction levels generalizing v with
  | zero => exact fun _ h => by cases h
  | succ levels ih =>
    have count : ∀ field n, HasLength (writeU32Count field n) 4 :=
      writeU32Count_hasLength
    cases v with
    | null => exact .ok [4]
    | int value | float bits =>
      intro bs h
      cases h
      simp [constantSize]
    | bool value => exact .ok [1, boolToByte value]
    | string value => exact (HasLength.ok [2]).append (writeString_hasLength _ _)
    | bytes value => exact (HasLength.ok [5]).append ((count _ _).append (HasLength.ok value))
    | array values =>
      rw [constantSize, constantsSize_eq]
      exact (HasLength.ok [6]).append ((count _ _).append (writeAll_hasLength ih _))
    | map entries =>
      rw [constantSize, entriesSize_eq]
      exact (HasLength.ok [7]).append ((count _ _).append
        (writeAll_hasLength (fun e => (ih e.1).append (ih e.2)) entries))
    | callable value => exact fun _ h => by cases h

theorem fromEntries_size_le (entries : List (Value × Value)) :
    entriesSize (VmMap.fromEntries entries) ≤ entriesSize entries := by
  obtain ⟨slack, h⟩ := sum_fromEntries _ _ constantSize entries
  rw [entriesSize_eq, entriesSize_eq, h]
  exact Nat.le_add_right _ _

theorem keysDistinct_of_fromEntries_size {entries : List (Value × Value)}
    (h : entriesSize (VmMap.fromEntries entries) = entriesSize entries) :
    VmMap.KeysDistinct entries := by
  rw [entriesSize_eq, entriesSize_eq] at h
  exact keysDistinct_of_sum_fromEntries constantSize_pos h

mutual
/-- **Collapsing a constant shortens it, unless no map in it repeats a key.** -/
theorem collapse_size : ∀ w : Value, constantSize (collapse w) ≤ constantSize w ∧
    (constantSize (collapse w) = constantSize w → collapse w = w ∧ w.WellFormed)
  | .null | .int _ | .float _ | .bool _ | .string _ | .bytes _ | .callable _ =>
    ⟨Nat.le_refl _, fun _ => ⟨rfl, trivial⟩⟩
  | .array values => by
      obtain ⟨le, whole⟩ := collapseAll_size values
      simp only [collapse, constantSize]
      refine ⟨by omega, fun same => ?_⟩
      obtain ⟨kept, wellFormed⟩ := whole (by omega)
      exact ⟨congrArg array kept, wellFormed⟩
  | .map entries => by
      obtain ⟨le, whole⟩ := collapseEntries_size entries
      have built := fromEntries_size_le (collapseEntries entries)
      simp only [collapse, constantSize]
      refine ⟨by omega, fun same => ?_⟩
      obtain ⟨kept, wellFormed⟩ := whole (by omega)
      rw [kept] at same built ⊢
      have distinct : VmMap.KeysDistinct entries :=
        keysDistinct_of_fromEntries_size (by omega)
      exact ⟨congrArg Value.map (AssocMap.fromEntries_of_keysDistinct distinct), distinct,
        wellFormed⟩

theorem collapseAll_size : ∀ ws : List Value, constantsSize (collapseAll ws) ≤ constantsSize ws ∧
      (constantsSize (collapseAll ws) = constantsSize ws → collapseAll ws = ws ∧ AllWellFormed ws)
  | [] => ⟨Nat.le_refl _, fun _ => ⟨rfl, trivial⟩⟩
  | w :: ws => by
      obtain ⟨le, whole⟩ := collapse_size w
      obtain ⟨les, wholes⟩ := collapseAll_size ws
      simp only [collapseAll, constantsSize]
      refine ⟨by omega, fun same => ?_⟩
      obtain ⟨kept, wellFormed⟩ := whole (by omega)
      obtain ⟨keptAll, allWellFormed⟩ := wholes (by omega)
      exact ⟨congrArg₂ cons kept keptAll, wellFormed, allWellFormed⟩

theorem collapseEntries_size : ∀ es : List (Value × Value),
    entriesSize (collapseEntries es) ≤ entriesSize es ∧
      (entriesSize (collapseEntries es) = entriesSize es →
        collapseEntries es = es ∧ EntriesWellFormed es)
  | [] => ⟨Nat.le_refl _, fun _ => ⟨rfl, trivial⟩⟩
  | (k, v) :: es => by
      obtain ⟨leKey, wholeKey⟩ := collapse_size k
      obtain ⟨leValue, wholeValue⟩ := collapse_size v
      obtain ⟨les, wholes⟩ := collapseEntries_size es
      simp only [collapseEntries, entriesSize]
      refine ⟨by omega, fun same => ?_⟩
      obtain ⟨keptKey, keyWellFormed⟩ := wholeKey (by omega)
      obtain ⟨keptValue, valueWellFormed⟩ := wholeValue (by omega)
      obtain ⟨keptAll, allWellFormed⟩ := wholes (by omega)
      exact ⟨congrArg₂ cons (congrArg₂ Prod.mk keptKey keptValue) keptAll, keyWellFormed,
        valueWellFormed, allWellFormed⟩
end

/-! ## Script calls -/

variable {program : RustScript.Program}

theorem checkCallScript_keeps {start : Nat} {prototypeId : UInt32} {argc : UInt8}
    (h : Vmbc.checkCallScript program start prototypeId argc = .ok ()) :
    checkCallScript (program.callablePrototypes.map keepPrototype) prototypeId argc = .ok () := by
  unfold Vmbc.checkCallScript at h
  unfold checkCallScript
  rw [getElem?_map]
  cases found : program.callablePrototypes[prototypeId.toNat]? with
  | none =>
    rw [found] at h
    cases h
  | some prototype =>
    simp only [found] at h
    simp only [Option.map_some, keepPrototype]
    cases target : prototype.target with
    | hostImport id =>
      simp only [target] at h
      cases h
    | scriptFunction id =>
      simp only [target] at h ⊢
      by_cases arity : argc = prototype.arity
      · rw [if_neg (not_not.mpr arity)]
      · rw [if_pos arity] at h
        cases h

/-- Code that passes validation passes the embedded walk. -/
theorem walkCallScripts_of_analyzeCode {catalog : BuiltinCatalog} {hostFnCount : Option UInt16}
    {fuel ip : Nat} {rest : List UInt8} {before after : ProgramAnalysis}
    (h : analyzeCode catalog program hostFnCount fuel ip rest before = .ok after) :
    walkCallScripts (program.callablePrototypes.map keepPrototype) fuel rest = .ok () := by
  induction fuel generalizing ip rest before with
  | zero => rfl
  | succ fuel ih =>
    cases rest with
    | nil => rfl
    | cons byte rest =>
      rw [analyzeCode] at h
      rw [walkCallScripts]
      cases known : OpCode.tryFrom byte with
      | none =>
        rw [known] at h
        cases h
      | some opcode =>
        simp only [known] at h ⊢
        by_cases short : rest.length < opcode.operandLen
        · rw [if_pos short] at h
          cases h
        · rw [if_neg short] at h ⊢
          obtain ⟨analysis, hcheck, hmore⟩ := bind_eq_ok.mp h
          by_cases script : opcode = .callScript
          · subst script
            obtain ⟨_, hcall, _⟩ := bind_eq_ok.mp hcheck
            exact bind_eq_ok.mpr ⟨(), checkCallScript_keeps hcall, ih hmore⟩
          · rw [if_neg script]
            exact ih hmore

/-! ## Whole artifacts -/

/-- What the embedded decoder keeps of an artifact. -/
structure KeepsArtifact (artifact : Vmbc.Artifact) (kept : Artifact) : Prop where
  constants : artifact.constants = collapseAll kept.constants
  code : artifact.code = kept.code
  imports : artifact.imports.map Prod.fst = kept.imports
  locals : KeepsLocals artifact.typeMap kept.encodedLocalCount
  callables : keepCallables artifact.callables = kept.callables

theorem readConstants_simulates : Simulates SameItems (fun vs ws => vs = collapseAll ws)
      (Vmbc.readVec "constants" 1 (Vmbc.readConstant Vmbc.maxConstantDepth))
      (readVec "constants" 1 (readConstant maxConstantDepth)) :=
  (readVec_simulates readConstant_simulates).mono fun _ _ => collapseAll_of_forall₂

theorem readImports_simulates {version : UInt16} :
    Simulates SameItems (fun imports kept => imports.map Prod.fst = kept)
      (if version = versionV11 then Vmbc.readVec "imports" 6 readImportV11
        else readImports)
      (readVec "imports" (if decide (version ≠ versionV11) then 7 else 6)
        (readImport (decide (version ≠ versionV11)))) := by
  by_cases v11 : version = versionV11
  · rw [if_pos v11, decide_eq_false (not_not.mpr v11)]
    exact (readVec_simulates readImportV11_simulates).mono fun _ _ => keepsImports_map
  · rw [if_neg v11, decide_eq_true v11]
    have validated : Simulates SameItems (fun imports kept => imports.map Prod.fst = kept)
        readImports (readVec "imports" 7 (readImport true) >>= pure) := by
      refine .bind (readVec_simulates readImport_simulates) fun imports kept h => ?_
      exact .liftResult_left fun _ _ => .pure (keepsImports_map h)
    rwa [bind_pure] at validated

variable {version : UInt16}

theorem readArtifact_simulates
    (hversion : version = versionV11 ∨ version = versionV12 ∨ version = versionV13) :
    Simulates SameItems KeepsArtifact (Vmbc.readArtifact version) (readArtifact version) := by
  have decls : Skips (if version = versionV13 then readNamedStructDecls else pure [])
      (if version ≥ versionV13 then skipNamedStructDecls else pure ()) := by
    rcases hversion with rfl | rfl | rfl
    · exact .pure _ _
    · exact .pure _ _
    · exact readNamedStructDecls_skips
  refine .bind readConstants_simulates fun constants spelled hconstants => ?_
  refine (readBlob_reads _ _).bind fun code => .bind (.ensure id) fun _ _ _ => ?_
  refine .bind readImports_simulates fun imports kept himports => ?_
  refine .bind readTypeMap_simulates fun typeMap locals hlocals => ?_
  refine readDebugInfo_skips.bind fun debug _ => ?_
  refine .bind readCallableMetadata_simulates fun callables tables htables => ?_
  refine decls.bind fun namedStructDecls _ => ?_
  exact .pure ⟨hconstants, rfl, himports, hlocals, htables⟩

/-- The first section of an artifact is its constants. -/
theorem readArtifact_constants {c c' : Cursor Nat} {artifact : Artifact}
    (h : readArtifact version c = .ok (artifact, c')) :
    ∃ d, readVec "constants" 1 (readConstant maxConstantDepth) c = .ok (artifact.constants, d) :=
  Returns.first (f := Artifact.constants) (fun _ => .bind fun _ => .bind fun _ => .bind fun _ =>
    .bind fun _ => .bind fun _ => .bind fun _ => .bind fun _ => Returns.pure rfl) h

variable {artifact : Vmbc.Artifact}

theorem vmbc_readArtifact_constants {c c' : Cursor Budget}
    (h : Vmbc.readArtifact version c = .ok (artifact, c')) :
    ∃ d, Vmbc.readVec "constants" 1 (Vmbc.readConstant Vmbc.maxConstantDepth) c =
      .ok (artifact.constants, d) :=
  Returns.first (f := Vmbc.Artifact.constants) (fun _ => .bind fun _ => .bind fun _ =>
    .bind fun _ => .bind fun _ => .bind fun _ => .bind fun _ => .bind fun _ => Returns.pure rfl) h

theorem readHeader_version {c c' : Cursor Budget} (h : Vmbc.readHeader c = .ok (version, c')) :
    version = versionV11 ∨ version = versionV12 ∨ version = versionV13 := by
  unfold Vmbc.readHeader at h
  simp only [Reader.bind_ok, ensure_ok] at h
  obtain ⟨_, _, _, _, _, _, v, _, _, _, _, ⟨known, _⟩, _, _, _, _, _, _, rfl, _⟩ := h
  exact known

/-! ## The programs -/

theorem foldl_max_append (xs ys : List Nat) :
    (xs ++ ys).foldl max 0 = max (xs.foldl max 0) (ys.foldl max 0) := by
  have grouped : ys.foldl max (max (xs.foldl max 0) 0) = _ := foldl_assoc
  rwa [Nat.max_zero, ← foldl_append] at grouped

/-- The embedded program is the standard one, up to the order of map entries and
without the parts it does not keep. -/
structure Agrees (program : RustScript.Program) (embedded : Program) : Prop where
  code : embedded.code = program.code
  imports : embedded.imports = program.imports
  scriptFunctions : embedded.scriptFunctions = program.scriptFunctions
  prototypes : embedded.callablePrototypes = program.callablePrototypes.map keepPrototype
  regions : embedded.functionRegions = program.functionRegions
  rootBindings : embedded.rootCallableBindings = program.rootCallableBindings
  exports : embedded.exportedCallables = program.exportedCallables
  localCount : embedded.localCount = program.localCount
  constants : Value.AllSame program.constants embedded.constants

theorem keeps_localCount {kept : Artifact} (h : KeepsArtifact artifact kept) :
    kept.program.localCount = (artifact.program version).localCount := by
  have code : inferLocalCountFromCode kept.code = inferLocalCountFromCode artifact.code := by
    rw [h.code]
  have locals : kept.encodedLocalCount.getD 0 =
      (artifact.typeMap.map fun t => t.localTypes.length).getD 0 := by
    rw [h.locals]
  have tables := h.callables
  change max (max (max _ _) _) _ = max (max _ _) _
  rw [code, locals, ← tables, map_append, foldl_max_append, ← Nat.max_assoc]
  rfl

/-- Apart from the constants the kept artifact is the same program. -/
theorem keeps_agrees {kept : Artifact} (h : KeepsArtifact artifact kept)
    (constants : AllSame artifact.constants kept.constants) :
    Agrees (artifact.program version) kept.program where
  code := h.code.symm
  imports := h.imports.symm
  scriptFunctions := congrArg scriptFunctions h.callables.symm
  prototypes := congrArg callablePrototypes h.callables.symm
  regions := congrArg functionRegions h.callables.symm
  rootBindings := congrArg rootCallableBindings h.callables.symm
  exports := congrArg exportedCallables h.callables.symm
  localCount := keeps_localCount h
  constants := constants

variable {bytes : List UInt8}

theorem decodeProgram_ok {c c' : Cursor Nat} {artifact : Artifact}
    (hlength : bytes.length ≤ maxWirePayloadBytes)
    (hheader : readHeader ⟨bytes, maxWireAggregateItems⟩ = .ok (version, c))
    (hartifact : readArtifact version c = .ok (artifact, c')) (hend : c'.rest = [])
    (hcalls : validateCallScriptOperands artifact.code artifact.callables.callablePrototypes =
      .ok ()) : decodeProgram bytes = .ok artifact.program := by
  unfold decodeProgram
  rw [if_neg (Nat.not_lt.mpr hlength)]
  simp [hheader, hartifact, hend, hcalls, bind, Except.bind, pure, Except.pure]

/-- Whatever the standard decoder and the validator accept, the embedded decoder accepts
and keeps. -/
theorem decodeProgram_keeps {catalog : BuiltinCatalog} {hostFnCount : UInt16}
    (hdec : Vmbc.decodeProgram bytes = .ok program)
    (hvalid : validateProgram catalog program hostFnCount = .ok ()) :
    ∃ version artifact kept d n, program = artifact.program version ∧
      decodeProgram bytes = .ok kept.program ∧ KeepsArtifact artifact kept ∧
      Vmbc.readVec "constants" 1 (Vmbc.readConstant Vmbc.maxConstantDepth)
        ⟨bytes.drop 8, Budget.initial⟩ = .ok (artifact.constants, d) ∧
      readVec "constants" 1 (readConstant maxConstantDepth)
        ⟨bytes.drop 8, maxWireAggregateItems⟩ = .ok (kept.constants, ⟨d.rest, n⟩) := by
  obtain ⟨hlength, version, c, artifact, c', hheader, hartifact, hend, rfl⟩ :=
    Vmbc.decodeProgram_ok.mp hdec
  have initial : SameItems Budget.initial maxWireAggregateItems := rfl
  have known := readHeader_version hheader
  obtain ⟨_, rfl, _⟩ := readHeader_ok hheader
  obtain ⟨_, items, hheader', hitems, rfl⟩ := readHeader_reads _ _ _ _ _ initial hheader
  obtain ⟨kept, left, hkept, _, keeps⟩ :=
    readArtifact_simulates known _ _ _ _ _ hitems hartifact
  obtain rfl : maxWireAggregateItems = items := hitems
  obtain ⟨d, hconstants⟩ := vmbc_readArtifact_constants hartifact
  obtain ⟨spelled, n, hspelled, _, _⟩ := readConstants_simulates _ _ _ _ _ initial hconstants
  obtain ⟨d', hspelled'⟩ := readArtifact_constants hkept
  obtain rfl : spelled = kept.constants := by
    rw [hspelled] at hspelled'
    exact congrArg Prod.fst (Except.ok.inj hspelled')
  obtain ⟨_, hcode⟩ := validateProgram_code hvalid
  have calls : validateCallScriptOperands kept.code kept.callables.callablePrototypes = .ok () := by
    rw [← keeps.code, ← keeps.callables]
    exact walkCallScripts_of_analyzeCode hcode
  exact ⟨version, artifact, kept, d, n, rfl, decodeProgram_ok hlength hheader' hkept hend calls,
    keeps, hconstants, hspelled⟩

/-- The constants section of the artifact spells well-formed constants: no map in it
repeats a key. -/
def SpellsKeysOnce (bytes : List UInt8) : Prop :=
  ∃ spelled constants rest, (∀ v ∈ spelled, v.WellFormed) ∧
    Vmbc.writeVec "constants" (writeConstant Vmbc.maxConstantDepth) spelled = .ok constants ∧
    bytes.drop 8 = constants ++ rest

theorem readConstants_consumes :
    Consumes (readVec "constants" 1 (readConstant maxConstantDepth)) fun ws bs =>
      writeVec "constants" (writeConstant Vmbc.maxConstantDepth) ws = .ok bs :=
  readVec_consumes readConstant_consumes

theorem writeConstants_hasLength {ws : List Value} :
    HasLength (writeVec "constants" (writeConstant Vmbc.maxConstantDepth) ws)
      (4 + constantsSize ws) := by
  rw [constantsSize_eq]
  exact (writeU32Count_hasLength _ _).append (writeAll_hasLength writeConstant_hasLength ws)

theorem constantsFormat_lawful : (vecFormat "constants" "constants" 1
    (constantFormat Vmbc.maxConstantDepth)).Lawful :=
  vecFormat_lawful constantFormat_lawful constantSize_pos fun _ => Nat.le_refl _

/-- When the section spells well-formed constants, nothing is collapsed. -/
theorem collapseAll_of_spellsKeysOnce {d : Cursor Budget} {n : Nat} (h : SpellsKeysOnce bytes)
    (hcollapse : vs = collapseAll ws)
    (hstandard : Vmbc.readVec "constants" 1 (Vmbc.readConstant Vmbc.maxConstantDepth)
      ⟨bytes.drop 8, Budget.initial⟩ = .ok (vs, d))
    (hembedded : readVec "constants" 1 (readConstant maxConstantDepth)
      ⟨bytes.drop 8, maxWireAggregateItems⟩ = .ok (ws, ⟨d.rest, n⟩)) : vs = ws := by
  obtain ⟨spelled, bs, rest, wellFormed, hwrite, hbytes⟩ := h
  have decodes := constantsFormat_lawful.decodes (x := spelled) ⟨trivial, wellFormed⟩ hwrite
  rw [hbytes] at hstandard
  obtain ⟨_, rfl, b, _, rfl⟩ := decodes.only rest _ vs d hstandard
  obtain ⟨bs', hrest, hwrite'⟩ := readConstants_consumes _ _ _ hembedded
  have same : bs = bs' := by
    rw [hbytes] at hrest
    exact append_cancel_right hrest
  have sizes : constantsSize vs = constantsSize ws := by
    have long := writeConstants_hasLength bs hwrite
    have long' := writeConstants_hasLength bs' hwrite'
    rw [same] at long
    omega
  rw [hcollapse] at sizes ⊢
  exact ((collapseAll_size ws).2 sizes).1

/-- **The embedded decoder agrees with the standard one exactly on artifacts whose
constants repeat no map key.** -/
theorem decodeProgram_agrees_iff {catalog : Vmbc.BuiltinCatalog} {bytes : List UInt8}
    {program : RustScript.Program} {hostFnCount : UInt16}
    (hdec : Vmbc.decodeProgram bytes = .ok program)
    (hvalid : Vmbc.validateProgram catalog program hostFnCount = .ok ()) :
    (∃ embedded, decodeProgram bytes = .ok embedded ∧ Agrees program embedded) ↔
      SpellsKeysOnce bytes := by
  obtain ⟨version, artifact, kept, d, n, rfl, hembedded, keeps, hconstants, hspelled⟩ :=
    decodeProgram_keeps hdec hvalid
  constructor
  · intro agreement
    obtain ⟨embedded, hdecoded, agrees⟩ := agreement
    rw [hembedded] at hdecoded
    obtain rfl := Except.ok.inj hdecoded
    obtain ⟨bs, hrest, hwrite⟩ := readConstants_consumes _ _ _ hspelled
    obtain ⟨_, _, _, _, ⟨valid, _, _⟩, _⟩ := constantsFormat_lawful.accepts _ _ _ hconstants
    have wellFormed := forall_mem_of_forall₂
      ((allSame_interchangeable agrees.constants).imp fun _ _ h => h.wellFormed) valid.2
    exact ⟨kept.constants, bs, d.rest, wellFormed, hwrite, hrest⟩
  · intro once
    refine ⟨kept.program, hembedded, keeps_agrees keeps ?_⟩
    rw [collapseAll_of_spellsKeysOnce once keeps.constants hconstants hspelled]
    exact AllSame.refl _

/-- An artifact whose map constant has the keys `1` and `2`. -/
def distinctKeyBytes : List UInt8 :=
  Vmbc.headerBytes ++ [1, 0, 0, 0, 7, 2, 0, 0, 0, 0, 1, 0, 0, 0, 0, 0, 0, 0, 1, 1, 0, 2, 0, 0, 0, 0,
    0, 0, 0, 1, 0, 0, 0, 0, 0, 0, 0, 0, 0, 0, 0, 0, 0, 0, 0, 0, 0, 0, 0, 0, 0, 0, 0, 0, 0, 0, 0, 0,
    0, 0, 0, 0, 0, 0, 0]

/-- The constants of `distinctKeyBytes`. -/
def distinctKeyConstants : List Value := [.map [(.int 1, .bool true), (.int 2, .bool false)]]

/-- A decoded and validated artifact, by evaluation. -/
theorem accepted_of_eval (bytes : List UInt8)
    (h : (do
      let program ← (Vmbc.decodeProgram bytes).toOption
      (validateProgram (fun _ => none) program 0).toOption).isSome = true) :
    ∃ program, Vmbc.decodeProgram bytes = .ok program ∧
      validateProgram (fun _ => none) program 0 = .ok () := by
  cases hdec : Vmbc.decodeProgram bytes with
  | error e =>
    rw [hdec] at h
    cases h
  | ok program =>
    rw [hdec] at h
    cases hvalid : validateProgram (fun _ => none) program 0 with
    | error e => simp [hvalid, Except.toOption] at h
    | ok u => exact ⟨program, rfl, hvalid⟩

theorem distinctKeyConstants_wellFormed : ∀ v ∈ distinctKeyConstants, v.WellFormed := by
  intro v hv
  rw [distinctKeyConstants, mem_singleton] at hv
  subst hv
  simp [WellFormed, EntriesWellFormed, KeysDistinct, mapKeyEq]

theorem distinctKeyBytes_spelled : SpellsKeysOnce distinctKeyBytes :=
  ⟨distinctKeyConstants, (distinctKeyBytes.drop 8).take 31, (distinctKeyBytes.drop 8).drop 31,
    distinctKeyConstants_wellFormed, by decide +kernel, (take_append_drop _ _).symm⟩

theorem decodeProgram_agrees_iff_distinctKeys :
    ∃ program embedded, Vmbc.decodeProgram distinctKeyBytes = .ok program ∧
      decodeProgram distinctKeyBytes = .ok embedded ∧ Agrees program embedded := by
  obtain ⟨program, hdec, hvalid⟩ := accepted_of_eval distinctKeyBytes (by decide +kernel)
  obtain ⟨embedded, hembedded, agrees⟩ :=
    (decodeProgram_agrees_iff hdec hvalid).mpr distinctKeyBytes_spelled
  exact ⟨program, embedded, hdec, hembedded, agrees⟩

theorem allSame_size (h : AllSame vs ws) : constantsSize ws = constantsSize vs := by
  rw [constantsSize_eq, constantsSize_eq,
    Fallible.map_eq_of_forall₂ ((allSame_interchangeable h).imp fun _ _ h => h.size)]

/-- The map constant that spells the key `1` twice: the standard program has one entry, the
embedded program two. -/
theorem repeatedKey_disagrees : ∃ program, Vmbc.decodeProgram repeatedKeyBytes = .ok program ∧
      Vmbc.validateProgram (fun _ => none) program 0 = .ok () ∧
      ¬ ∃ embedded, decodeProgram repeatedKeyBytes = .ok embedded ∧ Agrees program embedded := by
  obtain ⟨program, hdec, hvalid⟩ :=
    accepted_of_eval repeatedKeyBytes (by decide +kernel)
  refine ⟨program, hdec, hvalid, ?_⟩
  intro agreement
  obtain ⟨embedded, hembedded, agrees⟩ := agreement
  have standard : (Vmbc.decodeProgram repeatedKeyBytes).toOption.map
      (fun p => constantsSize p.constants) = some 16 := by decide +kernel
  have kept : (decodeProgram repeatedKeyBytes).toOption.map
      (fun p => constantsSize p.constants) = some 27 := by decide +kernel
  rw [hdec] at standard
  rw [hembedded] at kept
  have sizes := allSame_size agrees.constants
  have one : constantsSize program.constants = 16 := Option.some.inj standard
  have two : constantsSize embedded.constants = 27 := Option.some.inj kept
  omega

/-- **What the encoder writes, both decoders read alike.** -/
theorem encoded_read_alike {program other : RustScript.Program} {bytes : List UInt8}
    {catalog : BuiltinCatalog} {hostFnCount : UInt16} (wellFormed : program.WellFormed)
    (encoded : encodeProgram program = .ok bytes) (decoded : Vmbc.decodeProgram bytes = .ok other)
    (valid : validateProgram catalog other hostFnCount = .ok ()) :
    ∃ embedded, decodeProgram bytes = .ok embedded ∧ Agrees other embedded := by
  obtain ⟨_, artifact, kept, d, n, rfl, hembedded, keeps, hconstants, hspelled⟩ :=
    decodeProgram_keeps decoded valid
  have once : SpellsKeysOnce bytes := by
    obtain ⟨_, _, ⟨⟩, body, rfl⟩ := appendBytes_ok.mp encoded
    obtain ⟨constants, rest, written, -, rfl⟩ := appendBytes_ok.mp body
    exact ⟨program.constants, constants, rest, wellFormed.constants, written, rfl⟩
  refine ⟨kept.program, hembedded, keeps_agrees keeps ?_⟩
  rw [collapseAll_of_spellsKeysOnce once keeps.constants hconstants hspelled]
  exact AllSame.refl _

/-- A map constant and an exported function. -/
def exportedProgram : RustScript.Program where
  constants := distinctKeyConstants
  code := [OpCode.ret.toByte, OpCode.ret.toByte]
  localCount := 1
  functionRegions := [⟨0, 1, none⟩, ⟨1, 2, some 0⟩]
  scriptFunctions := [⟨1, 2⟩]
  callablePrototypes := [⟨.functionItem, .scriptFunction 0, 0, 1, [], [], [], [], none, none⟩]
  rootCallableBindings := [⟨0, 0⟩]
  exportedCallables := [⟨"main", 0⟩]

theorem exportedProgram_read_alike : ∃ bytes other embedded,
    encodeProgram exportedProgram = .ok bytes ∧ Vmbc.decodeProgram bytes = .ok other ∧
      decodeProgram bytes = .ok embedded ∧ Agrees other embedded := by
  cases encoded : encodeProgram exportedProgram with
  | error e =>
    have some : (encodeProgram exportedProgram).toOption.isSome = true := by decide +kernel
    rw [encoded] at some
    cases some
  | ok bytes =>
    have whole : ((encodeProgram exportedProgram).toOption.bind fun bytes => do
        let program ← (Vmbc.decodeProgram bytes).toOption
        (validateProgram (fun _ => none) program 0).toOption).isSome = true := by
      decide +kernel
    rw [encoded] at whole
    obtain ⟨other, decoded, valid⟩ := accepted_of_eval bytes whole
    have wellFormed : exportedProgram.WellFormed :=
      ⟨distinctKeyConstants_wellFormed, by simp [exportedProgram],
        by simp [exportedProgram, OptionalWellFormed], .nil, by simp [exportedProgram]⟩
    obtain ⟨embedded, read, agrees⟩ := encoded_read_alike wellFormed encoded decoded valid
    exact ⟨bytes, other, embedded, rfl, decoded, read, agrees⟩

end RustScript.Nostd
