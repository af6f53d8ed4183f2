import RustScript.Lib.Simulation
import RustScript.Nostd.Decoder

/-!
# The embedded readers follow the standard ones

Every section that the standard decoder reads, the embedded decoder reads or skips:
it accepts whatever the standard reader accepts and consumes the same bytes.  The
two cursors are related by `SameItems`; the host-schema counters of the standard
cursor have no counterpart.

The constants are left to `RustScript.Nostd.Agreement`, since they are the one
section where the values differ.
-/

namespace RustScript.Nostd

open ByteCodec List ResourceTypeKey Vmbc
open Vmbc (Budget)

/-- The two cursors have the same aggregate items left. -/
def SameItems (budget : Budget) (items : Nat) : Prop := budget.items = items

/-- The embedded reader consumes what the standard reader consumes. -/
abbrev Skips {α α' : Type} (r : Vmbc.WireReader α) (r' : WireReader α') : Prop :=
  Simulates SameItems (fun _ _ => True) r r'

/-- The embedded reader also returns what the standard reader returns. -/
abbrev Reads {α : Type} (r : Vmbc.WireReader α) (r' : WireReader α) : Prop :=
  Simulates SameItems Eq r r'

variable {α : Type} {r : Vmbc.WireReader α}

theorem Reads.skips {r' : WireReader α} (h : Reads r r') : Skips r r' :=
  Simulates.mono h fun _ _ _ => trivial

variable {field field' : String} {minItemBytes fixedBytes limit count : Nat} {γ γ' : Type}
  {Q : γ → γ' → Prop} {s : α → Vmbc.WireReader γ} {bad : UInt8 → Vmbc.WireError}
  {bad' : UInt8 → WireError}

/-- Reading one value and then another that depends on it. -/
theorem Reads.bind {r' : WireReader α}
    {s' : α → WireReader γ'} (h : Reads r r') (hs : ∀ a, Simulates SameItems Q (s a) (s' a)) :
    Simulates SameItems Q (r >>= s) (r' >>= s') := by
  refine .bind h fun a a' same => ?_
  subst same
  exact hs a

variable {α' : Type} {r' : WireReader α'}

/-- Skipping one part and then another. -/
theorem Skips.bind
    {s' : α' → WireReader γ'} (h : Skips r r') (hs : ∀ a a', Simulates SameItems Q (s a) (s' a')) :
    Simulates SameItems Q (r >>= s) (r' >>= s') :=
  Simulates.bind h fun a a' _ => hs a a'

theorem Skips.pure (a : α) (a' : α') : Skips (.pure a) (.pure a') :=
  Simulates.pure trivial

theorem Skips.map {f : α → γ} (h : Skips r r') : Skips (r >>= fun a => Pure.pure (f a)) r' :=
  Simulates.map_left h fun _ _ _ => trivial

/-- A skipped value is thrown away. -/
theorem Skips.discard (h : Skips r r') : Skips r (do let _ ← r') := by
  intro rest b b' a c hb hr
  obtain ⟨a', x, hr', hx, _⟩ := h rest b b' a c hb hr
  exact ⟨(), x, Reader.bind_ok.mpr ⟨a', _, hr', rfl⟩, hx, trivial⟩

theorem Skips.many {r' : WireReader Unit} (h : Skips r r') (count : Nat) :
    Skips (replicateM count r) (skipMany count r') :=
  Skips.discard ((Simulates.replicate h count).mono fun _ _ _ => trivial)

theorem Skips.optional
    {r' : WireReader Unit} (h : Skips r r') :
    Skips (Format.readOptional .unexpectedEof bad r) (skipOptional bad' r') :=
  Skips.discard ((Simulates.readOptional h).mono fun _ _ _ => trivial)

/-! ## The cursor -/

theorem readU8_reads : Reads Vmbc.readU8 readU8 := Simulates.readByte

theorem readBool_reads : Reads Vmbc.readBool readBool :=
  Simulates.readEnum fun _ a h => ⟨a, h, rfl⟩

theorem readValueType_reads : Reads Vmbc.readValueType readValueType :=
  Simulates.readEnum fun _ a h => ⟨a, h, rfl⟩

theorem readExact_reads {len : Nat} : Reads (Vmbc.readExact len) (readExact len) :=
  Simulates.readBytes len

theorem readU16_reads : Reads Vmbc.readU16 readU16 :=
  readExact_reads.bind fun _ => .pure rfl

theorem readU32_reads : Reads Vmbc.readU32 readU32 :=
  readExact_reads.bind fun _ => .pure rfl

theorem readI64_reads : Reads Vmbc.readI64 readI64 :=
  readExact_reads.bind fun _ => .pure rfl

theorem readF64_reads : Reads Vmbc.readF64 readF64 :=
  readExact_reads.bind fun _ => .pure rfl

theorem readBlob_reads (field field' : String) : Reads (Vmbc.readBlob field) (readBlob field') := by
  refine readU32_reads.bind fun len => ?_
  refine .bind (.ensure id) fun _ _ _ => ?_
  exact readExact_reads

theorem decodeUtf8_reads (bytes : List UInt8) :
    Reads (Vmbc.decodeUtf8 bytes) (decodeUtf8 bytes) := by
  unfold Vmbc.decodeUtf8 decodeUtf8
  cases ofUtf8 bytes with
  | none => exact .throw
  | some text => exact .pure rfl

theorem decodeUtf8_skips (bytes : List UInt8) : Skips (Vmbc.decodeUtf8 bytes) (Pure.pure ()) := by
  unfold Vmbc.decodeUtf8
  cases ofUtf8 bytes with
  | none => exact .throw
  | some text => exact Simulates.pure trivial

theorem readStringWithField_reads (field : String) : Reads (readStringWithField field) readString :=
  (readBlob_reads field "string").bind decodeUtf8_reads

theorem readString_reads : Reads Vmbc.readString readString := readStringWithField_reads _

theorem readBoundedString_reads : Reads (readBoundedString field limit) readString :=
  (readBlob_reads field _).bind fun bytes =>
    Simulates.ensure_left fun _ => decodeUtf8_reads bytes

theorem readString_skips : Skips Vmbc.readString skipString :=
  (readBlob_reads _ _).bind decodeUtf8_skips

theorem readBoundedString_skips : Skips (readBoundedString field limit) skipString :=
  (readBlob_reads field _).bind fun bytes =>
    Simulates.ensure_left fun _ => decodeUtf8_skips bytes

theorem debitCount_reads : Reads (Vmbc.debitCount field count) (debitCount field' count) := by
  refine Simulates.bind (.ensure id) fun _ _ _ => Simulates.spend ?_
  intro budget items left same hsub
  have debit := (Budget.subItems_eq count _ left).mp hsub
  have total : budget.items = count + left.items := congrArg _ debit
  have room : count ≤ items := by
    rw [← same, total]
    exact Nat.le_add_right _ _
  refine ⟨items - count, if_pos room, ?_⟩
  change left.items = items - count
  rw [← same, total]
  omega

theorem validateCount_reads :
    Reads (Vmbc.validateCountWithOverhead field count minItemBytes fixedBytes)
      (validateCountWithOverhead field' count minItemBytes fixedBytes) :=
  Simulates.bind (.ensure id) fun _ _ _ => .demand _

theorem readCountWithOverhead_reads :
    Reads (Vmbc.readCountWithOverhead field minItemBytes fixedBytes)
      (readCountWithOverhead field' minItemBytes fixedBytes) := by
  refine readU32_reads.bind fun count => ?_
  refine validateCount_reads.bind fun _ => ?_
  exact debitCount_reads.bind fun _ => .pure rfl

theorem readLimitedCount_reads : Reads (Vmbc.readLimitedCount field) (readLimitedCount field) := by
  refine readU32_reads.bind fun count => ?_
  refine .bind (.ensure id) fun _ _ _ => ?_
  exact debitCount_reads.bind fun _ => .pure rfl

theorem readVec_simulates {R : α → α' → Prop} (h : Simulates SameItems R r r') :
    Simulates SameItems (Forall₂ R) (Vmbc.readVec field minItemBytes r)
      (readVec field' minItemBytes r') :=
  readCountWithOverhead_reads.bind fun count => .replicate h count

theorem readVec_reads {r' : WireReader α} (h : Reads r r') :
    Reads (Vmbc.readVec field minItemBytes r) (readVec field' minItemBytes r') :=
  (readVec_simulates h).mono fun _ _ same =>
    forall₂_eq_eq_eq ▸ same

theorem readVec_skips {r' : WireReader Unit} (h : Skips r r') (field' : String) :
    Skips (Vmbc.readVec field minItemBytes r) (skipVec field' minItemBytes r') :=
  readCountWithOverhead_reads.bind fun count => h.many count

/-! ## Schemas -/

/-- On allowed bytes the two walks over the segments of a key agree. -/
theorem keySegments_of_lastSegmentStart {bytes : List UInt8} {index segmentStart last : Nat}
    (allowed : ∀ b ∈ bytes, isResourceKeyByte b = true)
    (h : lastSegmentStart index segmentStart bytes = .ok last) :
    keySegments index segmentStart bytes = .ok last := by
  induction bytes generalizing index segmentStart with
  | nil =>
    cases h
    rfl
  | cons b bs ih =>
    have head : isKeyByte b = true := allowed b (by simp)
    have tail : ∀ x ∈ bs, isResourceKeyByte x = true := fun x hx => allowed x (by simp [hx])
    rw [lastSegmentStart] at h
    rw [keySegments]
    simp only [head, beq_iff_eq] at h ⊢
    by_cases dot : b = 46
    · simp only [dot] at h ⊢
      by_cases leading : index = segmentStart
      · rw [if_pos leading] at h
        cases h
      · rw [if_neg leading] at h ⊢
        exact ih tail h
    · rw [if_neg dot] at h ⊢
      exact ih tail h

/-- What a valid resource key promises of its bytes. -/
theorem validateResourceKey_ok {name : String} (h : validateResourceKey name = .ok ()) :
    ¬ (utf8 name = [] ∨ (utf8 name).length > maxResourceKeyLen) ∧
      ∃ last, keySegments 0 0 (utf8 name) = .ok last ∧ last ≠ (utf8 name).length := by
  unfold validateResourceKey at h
  dsimp only at h
  split at h
  · cases h
  · rename_i nonempty
    split at h
    · cases h
    · rename_i short
      split at h
      · cases h
      · rename_i found
        obtain ⟨last, hlast, h⟩ := Fallible.bind_eq_ok.mp h
        have allowed : ∀ b ∈ utf8 name, isResourceKeyByte b = true := by
          intro b hb
          simpa using findIdx?_eq_none_iff.mp found b hb
        have ends : last ≠ (utf8 name).length := by
          intro same
          rw [if_pos same] at h
          cases h
        refine ⟨not_or.mpr ⟨fun empty => nonempty ?_, short⟩, last,
          keySegments_of_lastSegmentStart allowed hlast, ends⟩
        rw [empty]
        rfl

theorem readResourceKey_skips : Skips readResourceKey skipResourceKey := by
  unfold readResourceKey Vmbc.readString readStringWithField
  rw [bind_assoc]
  refine (readBlob_reads _ _).bind fun bytes => ?_
  unfold Vmbc.decodeUtf8 decodeUtf8
  cases text : ofUtf8 bytes with
  | none =>
    intro rest b b' a c hb hr
    obtain ⟨_, _, hthrow, _⟩ := Reader.bind_ok.mp hr
    exact (Reader.throw_ok.mp hthrow).elim
  | some name =>
    have spelled := utf8_ofUtf8 text
    simp only [pure_bind]
    cases known : new name with
    | error err => exact .throw
    | ok key =>
      have valid := key.valid
      rw [name_of_new known] at valid
      obtain ⟨bounded, last, walk, ends⟩ := validateResourceKey_ok valid
      rw [spelled] at bounded walk ends
      refine .ensure_right bounded ?_
      simp only [walk, Format.liftResult, pure_bind]
      rw [ensure, if_pos ends]
      exact .pure trivial

/-- **`skip_schema` consumes what `read_schema` consumes.** -/
theorem readSchema_skips (levels : Nat) : Skips (readSchema levels) (skipSchema levels) := by
  induction levels with
  | zero => exact .throw
  | succ levels ih =>
    refine debitCount_reads.bind fun _ => readU8_reads.bind fun tag => ?_
    unfold readSchemaPayload
    split
    iterate 8 exact Skips.pure _ _
    · exact ih.map
    · exact readString_skips.map
    · refine readString_skips.bind fun _ _ => ?_
      exact readCountWithOverhead_reads.bind fun count => (ih.many count).map
    · exact ih.map
    · exact readCountWithOverhead_reads.bind fun count => (ih.many count).map
    · refine readCountWithOverhead_reads.bind fun count => ?_
      exact (ih.many count).bind fun _ _ => ih.map
    · exact ih.map
    · refine readCountWithOverhead_reads.bind fun count => ?_
      exact (Skips.many (readString_skips.bind fun _ _ => ih.map) count).map
    · refine readCountWithOverhead_reads.bind fun count => ?_
      exact (ih.many count).bind fun _ _ => ih.map
    · exact readResourceKey_skips.map
    · exact .throw

theorem readOptionalSchema_skips : Skips readOptionalSchema skipOptionalSchema :=
  (readSchema_skips _).optional

/-! ## Imports -/

/-- The counters that only the standard cursor has do not matter here. -/
theorem readCappedCount_reads {sub : Nat → Budget → Option Budget}
    {error : Nat → Vmbc.WireError}
    (hsub : ∀ count b items x, SameItems b items → sub count b = some x → SameItems x items)
    {cap : Nat} :
    Reads (readCappedCount field minItemBytes fixedBytes cap
        fun count => spend (error count) (sub count))
      (readCountWithOverhead field minItemBytes fixedBytes) := by
  have whole : Reads (readCappedCount field minItemBytes fixedBytes cap
      fun count => spend (error count) (sub count))
      (readCountWithOverhead field minItemBytes fixedBytes >>= Pure.pure) := by
    refine readCountWithOverhead_reads.bind fun count => ?_
    refine .ensure_left fun _ => ?_
    exact .spend_left (hsub count) (Simulates.pure rfl)
  rwa [bind_pure] at whole

theorem readHostResourceKey_skips : Skips readHostResourceKey skipString := by
  intro rest b b' a c hb hr
  obtain ⟨text, d, hd, hkey⟩ := Reader.bind_ok.mp hr
  obtain ⟨u, x, hu, hx, _⟩ := readBoundedString_skips rest b b' text d hb hd
  cases known : new text with
  | error err =>
    rw [known] at hkey
    exact (Reader.throw_ok.mp hkey).elim
  | ok key =>
    rw [known] at hkey
    obtain ⟨_, rfl⟩ := Reader.pure_ok.mp hkey
    exact ⟨u, x, hu, hx, trivial⟩

/-- **`skip_host_schema` consumes what `read_host_type_schema` consumes.** -/
theorem readHostTypeSchema_skips {levels : Nat} :
    Skips (readHostTypeSchema levels) (skipHostSchema levels) := by
  induction levels with
  | zero => exact .throw
  | succ levels ih =>
    have properties : ∀ field, Reads (readPropertyCount field) (readCountWithOverhead field 1 1) :=
      fun field => readCappedCount_reads (by grind [SameItems, Budget.subProperties])
    refine .spend_left (by grind [SameItems, Budget.subNodes]) (readU8_reads.bind fun tag => ?_)
    unfold readHostTypeSchemaPayload
    split
    iterate 8 exact Skips.pure _ _
    iterate 3 exact ih.map
    · refine (properties _).bind fun count => ?_
      exact (ih.many count).bind fun _ _ => ih.map
    · exact readHostResourceKey_skips.map
    · refine readBoundedString_skips.bind fun _ _ => (properties _).bind fun count => ?_
      exact (Skips.many (readBoundedString_skips.bind fun _ _ => ih.map) count).map
    · exact .throw

theorem skipPassing_skips : Skips (Format.readEnum .unexpectedEof .invalidHostParamPassing
    passingOfByte) skipPassing := by
  refine readU8_reads.bind fun byte => ?_
  have known : ∀ byte a, passingOfByte byte = some a → byte ≤ 3 := by
    intro byte a h
    unfold passingOfByte at h
    split at h <;> first | decide | cases h
  cases passing : passingOfByte byte with
  | none => exact .throw
  | some a =>
    rw [ensure, if_pos (known byte a passing)]
    exact Skips.pure _ _

theorem readHostImportSchema_skips : Skips readHostImportSchema skipHostImportSchema := by
  have param : Skips readHostImportParam (do
      skipString
      skipHostSchema maxSchemaDepth
      skipPassing) :=
    readBoundedString_skips.bind fun _ _ =>
      readHostTypeSchema_skips.bind fun _ _ => skipPassing_skips.map
  have params : Reads (readCappedCount "host import schema parameters" 6 0
      maxHostCatalogParameters debitHostParameters)
      (readCountWithOverhead "host import schema parameters" 6 0) :=
    readCappedCount_reads (by grind [SameItems, Budget.subParameters])
  unfold skipHostImportSchema skipVec readCount
  rw [bind_assoc]
  refine readBoundedString_skips.bind fun _ _ => params.bind fun count => ?_
  refine (param.many count).bind fun _ _ => readHostTypeSchema_skips.bind fun _ _ => ?_
  unfold readU64
  rw [bind_assoc]
  refine readExact_reads.bind fun bytes => ?_
  exact Simulates.liftResult_left fun _ _ => Skips.pure _ _

/-- The embedded program keeps an import without its schema. -/
def KeepsImport (entry : HostImport × Option HostImportSchema) (kept : HostImport) : Prop :=
  entry.1 = kept

theorem readImportV11_simulates :
    Simulates SameItems KeepsImport readImportV11 (readImport false) := by
  refine readString_reads.bind fun name => readU8_reads.bind fun arity => ?_
  exact readValueType_reads.bind fun returnType => .pure rfl

theorem readImport_simulates :
    Simulates SameItems KeepsImport Vmbc.readImport (readImport true) := by
  refine readBoundedString_reads.bind fun name => readU8_reads.bind fun arity => ?_
  refine readValueType_reads.bind fun returnType => ?_
  have schema : Skips (Format.readOptional .unexpectedEof .invalidBool readHostImportSchema)
      (skipOptional .invalidBool skipHostImportSchema) := readHostImportSchema_skips.optional
  refine schema.bind fun _ _ => ?_
  exact .ensure_left fun _ => .pure rfl

/-- The kept imports are the imports. -/
theorem keepsImports_map {imports : List (HostImport × Option HostImportSchema)}
    {kept : List HostImport} (h : Forall₂ KeepsImport imports kept) :
    imports.map Prod.fst = kept :=
  forall₂_eq_eq_eq ▸ forall₂_map_left_iff.mpr h

/-! ## Type map and debug information -/

/-- Of a type map the embedded decoder keeps the number of locals. -/
def KeepsLocals (typeMap : Option TypeMap) (locals : Option Nat) : Prop :=
  (typeMap.map fun t => t.localTypes.length) = locals

theorem readBoolVec_skips {expected : Nat} :
    Skips (readBoolVec expected) (skipBoolVector expected) := by
  unfold readBoolVec readBoolCount skipBoolVector
  simp only [bind_assoc]
  refine readU32_reads.bind fun count => .bind (.ensure id) fun _ _ _ => ?_
  refine validateCount_reads.bind fun _ => debitCount_reads.bind fun _ => ?_
  exact Skips.discard ((Simulates.replicate readBool_reads _).mono fun _ _ _ => trivial)

theorem readOperandEntry_skips : Skips readOperandEntry (do
    let _ ← readU32
    let _ ← readValueType
    let _ ← readValueType) :=
  readU32_reads.bind fun _ => readValueType_reads.bind fun _ =>
    readValueType_reads.bind fun _ => Skips.pure _ _

theorem readTypeMap_simulates : Simulates SameItems KeepsLocals readTypeMap skipTypeMap := by
  refine .mono (R := Option.Rel fun t n => t.localTypes.length = n)
    (.readOptional ?_) fun typeMap locals h => ?_
  · refine readBool_reads.bind fun strictTypes => ?_
    rw [readTypeMapLocals, bind_assoc]
    refine readCountWithOverhead_reads.bind fun localCount => ?_
    rw [bind_assoc]
    refine .bind (.ensure id) fun _ _ _ => ?_
    rw [pure_bind]
    have types := (Simulates.replicate readValueType_reads localCount).keep
      fun _ _ _ h => replicateM_length h
    refine .bind types fun localTypes _ hlength => ?_
    refine (readOptionalSchema_skips.many localCount).bind fun localSchemas _ => ?_
    refine readBoolVec_skips.bind fun callableSlots _ => ?_
    refine readBoolVec_skips.bind fun optionalSlots _ => ?_
    have operands : Skips readOperands _ :=
      (readVec_skips readOperandEntry_skips "type map operands").map
    exact operands.bind fun operandTypes _ => .pure hlength.1
  · cases h with
    | none => rfl
    | some same => exact congrArg some same

/-- Line entries have a fixed width, so they are skipped as one block. -/
theorem readLineInfo_fixedWidth : FixedWidth readLineInfo 8 := by
  have word : FixedWidth Vmbc.readU32 4 :=
    (FixedWidth.readBytes 4).bind fun bytes => FixedWidth.pure _
  exact word.bind fun offset => word.bind fun line => FixedWidth.pure _

theorem readOptionalU32_skips : Skips readOptionalU32 skipOptionalU32 :=
  readU32_reads.skips.discard.optional

theorem readDebugInfo_skips : Skips readDebugInfo skipDebugInfo := by
  have arg : Skips readArgInfo (do
      skipString
      let _ ← readU8) :=
    readString_skips.bind fun _ _ => readU8_reads.bind fun _ => Skips.pure _ _
  refine .optional ?_
  refine .bind (.optional readString_skips) fun source _ => ?_
  unfold Vmbc.readVec
  rw [bind_assoc]
  refine readCountWithOverhead_reads.bind fun lineCount => ?_
  have lines : Skips (replicateM lineCount readLineInfo) (readExact (lineCount * 8)) :=
    (readLineInfo_fixedWidth.replicate lineCount).simulates
  refine Skips.bind lines fun _ _ => Skips.bind ?_ fun _ _ => ?_
  · exact readVec_skips (readString_skips.bind fun _ _ => (readVec_skips arg _).map) _
  · refine (readVec_skips ?_ _).map
    refine readString_skips.bind fun _ _ => readU8_reads.bind fun _ => ?_
    exact readOptionalU32_skips.bind fun _ _ => readOptionalU32_skips.map

/-! ## Callable metadata -/

/-- A prototype without its schema. -/
def keepPrototype (prototype : RustScript.CallablePrototype) : CallablePrototype where
  kind := prototype.kind
  target := prototype.target
  arity := prototype.arity
  frameLocalCount := prototype.frameLocalCount
  parameterSlots := prototype.parameterSlots
  captureSourceSlots := prototype.captureSourceSlots
  captureSlots := prototype.captureSlots
  captureModes := prototype.captureModes
  selfSlot := prototype.selfSlot

/-- The callable tables, with every prototype kept without its schema. -/
def keepCallables (tables : Vmbc.CallableMetadata) : CallableMetadata where
  scriptFunctions := tables.scriptFunctions
  callablePrototypes := tables.callablePrototypes.map keepPrototype
  functionRegions := tables.functionRegions
  rootCallableBindings := tables.rootCallableBindings
  exportedCallables := tables.exportedCallables

theorem readCallableTarget_reads : Reads Vmbc.readCallableTarget readCallableTarget := by
  refine readU8_reads.bind fun tag => readU32_reads.bind fun id => ?_
  split
  · exact .pure rfl
  · change Simulates SameItems Eq (Format.liftResult (if id.toNat < 2 ^ 16 then
        .ok (CallableTarget.hostImport id.toUInt16)
      else .error (Vmbc.WireError.invalidValueType 1))) _
    by_cases small : id.toNat < 2 ^ 16
    · rw [if_pos small]
      exact .ensure_right small (.pure rfl)
    · rw [if_neg small]
      exact .throw
  · rename_i notScript notHost
    have unknown : targetOfParts (tag, id) = .error (.invalidValueType tag) := by
      unfold targetOfParts
      split
      · rename_i known
        exact absurd (congrArg Prod.fst known) notScript
      · rename_i known
        exact absurd (congrArg Prod.fst known) notHost
      · rename_i known
        cases known
        rfl
    rw [unknown]
    exact .throw

theorem readOptional_reads
    {r' : WireReader α} (h : Reads r r') : Reads (Format.readOptional .unexpectedEof bad r)
      (Format.readOptional .unexpectedEof bad' r') := by
  refine .mono (.readOptional h) fun a a' same => ?_
  cases same with
  | none => rfl
  | some same => exact congrArg some same

theorem readCallablePrototype_simulates :
    Simulates SameItems (fun p kept => keepPrototype p = kept) Vmbc.readCallablePrototype
      readCallablePrototype := by
  have kind : Reads (Format.readEnum .unexpectedEof .invalidValueType callableKindOfByte)
      (Format.readEnum .unexpectedEof .invalidValueType callableKindOfByte) :=
    Simulates.readEnum fun _ a h => ⟨a, h, rfl⟩
  have mode : Reads (Format.readEnum .unexpectedEof .invalidCaptureBindingMode captureModeOfByte)
      (Format.readEnum .unexpectedEof .invalidCaptureBindingMode captureModeOfByte) :=
    Simulates.readEnum fun _ a h => ⟨a, h, rfl⟩
  have slots : ∀ field, Reads readU16List (readVec field 2 readU16) :=
    fun field => readVec_reads readU16_reads
  refine kind.bind fun kind => readCallableTarget_reads.bind fun target => ?_
  refine readU8_reads.bind fun arity => readLimitedCount_reads.bind fun frameLocalCount => ?_
  refine (slots _).bind fun parameterSlots => (slots _).bind fun captureSourceSlots => ?_
  refine (slots _).bind fun captureSlots => (readVec_reads mode).bind fun captureModes => ?_
  refine (readOptional_reads readU16_reads).bind fun selfSlot => ?_
  exact readOptionalSchema_skips.bind fun schema _ => .pure rfl

theorem readScriptFunction_reads : Reads Vmbc.readScriptFunction readScriptFunction :=
  readU32_reads.bind fun _ => readU32_reads.bind fun _ => .pure rfl

theorem readFunctionRegion_reads : Reads Vmbc.readFunctionRegion readFunctionRegion :=
  readU32_reads.bind fun _ => readU32_reads.bind fun _ =>
    (readOptional_reads readU32_reads).bind fun _ => .pure rfl

theorem readRootCallableBinding_reads :
    Reads Vmbc.readRootCallableBinding readRootCallableBinding :=
  readU16_reads.bind fun _ => readU32_reads.bind fun _ => .pure rfl

theorem readExportedCallable_reads : Reads Vmbc.readExportedCallable readExportedCallable :=
  readString_reads.bind fun _ => readU16_reads.bind fun _ => .pure rfl

theorem readCallableMetadata_simulates :
    Simulates SameItems (fun tables kept => keepCallables tables = kept)
      Vmbc.readCallableMetadata readCallableMetadata := by
  refine (readVec_reads readScriptFunction_reads).bind fun scriptFunctions => ?_
  refine .bind (readVec_simulates readCallablePrototype_simulates) fun prototypes kept hkept => ?_
  refine (readVec_reads readFunctionRegion_reads).bind fun functionRegions => ?_
  refine (readVec_reads readRootCallableBinding_reads).bind fun bindings => ?_
  refine (readVec_reads readExportedCallable_reads).bind fun exports => ?_
  refine .pure ?_
  have prototypesKept : prototypes.map keepPrototype = kept :=
    forall₂_eq_eq_eq ▸ forall₂_map_left_iff.mpr hkept
  rw [keepCallables, prototypesKept]

/-! ## Struct declarations -/

theorem readTypeParams_skips : Skips readTypeParams skipTypeParams := by
  refine readCountWithOverhead_reads.bind fun count => ?_
  have params : Reads (Format.readDistinct id (.invalidValueType 0) Vmbc.readString count [])
      (Format.readDistinct id (.invalidValueType 0) readString count []) :=
    Simulates.readDistinct readString_reads count []
  exact params.skips.discard

/-- The embedded decoder looks for a repeated name before it skips the declaration. -/
theorem readStructDecls_skips (count : Nat) (seen : List (String × StructDecl)) :
    Skips (Format.readDistinct Prod.fst (.invalidValueType 0) readNamedStructDecl count seen)
      (skipNamedStructDeclsLoop count (seen.map Prod.fst)) := by
  induction count generalizing seen with
  | zero => exact .pure _ _
  | succ count ih =>
    unfold Format.readDistinct readNamedStructDecl
    simp only [bind_assoc, pure_bind]
    refine readString_reads.bind fun name => ?_
    by_cases fresh : name ∈ seen.map Prod.fst
    · intro rest b b' a c hb hr
      obtain ⟨typeParams, _, _, hr⟩ := Reader.bind_ok.mp hr
      obtain ⟨bodySchema, _, _, hr⟩ := Reader.bind_ok.mp hr
      obtain ⟨_, _, hnew, _⟩ := Reader.bind_ok.mp hr
      exact absurd fresh (ensure_ok.mp hnew).1
    · refine .ensure_right fresh ?_
      refine readTypeParams_skips.bind fun typeParams _ => ?_
      refine (readSchema_skips _).bind fun bodySchema _ => .ensure_left fun _ => ?_
      have more := ih (seen ++ [(name, StructDecl.mk typeParams bodySchema)])
      rwa [map_append] at more

theorem readNamedStructDecls_skips : Skips readNamedStructDecls skipNamedStructDecls :=
  readCountWithOverhead_reads.bind fun count => (readStructDecls_skips count []).map

/-! ## The header -/

theorem readHeader_reads : Reads Vmbc.readHeader readHeader := by
  refine readExact_reads.bind fun magic => .bind (.ensure id) fun _ _ _ => ?_
  refine readU16_reads.bind fun version => .bind (.ensure id) fun _ _ _ => ?_
  refine readU16_reads.bind fun flags => .bind (.ensure id) fun _ _ _ => ?_
  exact .pure rfl

end RustScript.Nostd
