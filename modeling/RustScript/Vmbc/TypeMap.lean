import RustScript.Vmbc.Metadata

/-!
# Type maps and struct declarations on the wire

The per-local vectors of a type map share one length, which the artifact states
once for the types and repeats for the two boolean vectors.  The writer copies
whatever lengths it is given; `typeMapFormat` describes the maps whose local
schemas are as many as the local types, and the reader's demand that the boolean
vectors have that length too is one of its limits.

Operand types and struct declarations are finite maps.  The reader rejects a
struct name or a type parameter that occurs twice.
-/

namespace RustScript.Vmbc

open ByteCodec Format

/-! ## Type maps -/

def writeBoolSlice (field : String) (values : List Bool) : Output :=
  writeVec field (fun value => .ok [boolToByte value]) values

/-- The count of a boolean vector, which has to be the number of locals. -/
def readBoolCount (expectedLen : Nat) : WireReader Nat := do
  let count ← readU32
  ensure (count.toNat = expectedLen) .trailingBytes
  validateCountWithOverhead "type map boolean vector" count.toNat 1 0
  debitCount "type map boolean vector" count.toNat
  pure count.toNat

def readBoolVec (expectedLen : Nat) : WireReader (List Bool) := do
  let count ← readBoolCount expectedLen
  replicateM count readBool

def writeOperandEntry (entry : Nat × ValueType × ValueType) : Output :=
  appendBytes (writeU32Count "type map operand offset" entry.1)
    (appendBytes (.ok [valueTypeToByte entry.2.1]) (.ok [valueTypeToByte entry.2.2]))

def readOperandEntry : WireReader (Nat × ValueType × ValueType) := do
  let offset ← readU32
  let lhs ← readValueType
  let rhs ← readValueType
  pure (offset.toNat, lhs, rhs)

/-- The operand types, collected in a map. -/
def readOperands : WireReader (List (Nat × ValueType × ValueType)) := do
  let operands ← readVec "type map operands" 6 readOperandEntry
  pure (SortedAssoc.insertAll operands [])

def writeTypeMap (typeMap : Option TypeMap) : Output :=
  writeOptional (fun typeMap =>
    appendBytes (.ok [boolToByte typeMap.strictTypes])
      (appendBytes (writeU32Count "type map locals" typeMap.localTypes.length)
        (appendBytes (writeAll (fun ty => .ok [valueTypeToByte ty]) typeMap.localTypes)
          (appendBytes (writeAll writeOptionalSchema typeMap.localSchemas)
            (appendBytes (writeBoolSlice "type map callable slots" typeMap.callableSlots)
              (appendBytes (writeBoolSlice "type map optional slots" typeMap.optionalSlots)
                (writeVec "type map operands" writeOperandEntry typeMap.operandTypes)))))))
    typeMap

/-- The number of locals of a type map. -/
def readTypeMapLocals : WireReader Nat := do
  let count ← readCountWithOverhead "type map locals" 4 12
  ensure (count ≤ maxFrameLocalCount) (.lengthTooLarge "type map locals" count)
  pure count

def readTypeMap : WireReader (Option TypeMap) :=
  readOptional .unexpectedEof .invalidTypeMapFlag do
    let strictTypes ← readBool
    let localCount ← readTypeMapLocals
    let localTypes ← replicateM localCount readValueType
    let localSchemas ← replicateM localCount readOptionalSchema
    let callableSlots ← readBoolVec localCount
    let optionalSlots ← readBoolVec localCount
    let operandTypes ← readOperands
    pure { strictTypes, localTypes, localSchemas, callableSlots, optionalSlots, operandTypes }

/-! ### Counts -/

def typeMapLocalsFormat : WireFormat Nat where
  write := writeU32Count "type map locals"
  read := readTypeMapLocals
  valid _ := True
  limits count := count ≤ maxFrameLocalCount
  cost := Budget.ofItems
  size _ := 4
  tail count := count * 4 + 12

theorem typeMapLocalsFormat_lawful : typeMapLocalsFormat.Lawful := by
  refine count_lawful (fun count => do
    validateCountWithOverhead "type map locals" count 4 12 >>= fun _ =>
      debitCount "type map locals" count
    ensure (count ≤ maxFrameLocalCount) (.lengthTooLarge "type map locals" count)) ?_
    (fun n => ?_) fun n => ?_
  · simp [readTypeMapLocals, readCountWithOverhead]
  · refine .congr (.bind_free checkCount_decodes
      ((Decodes.ensure _ _).weaken (Nat.zero_le _)) (Nat.le_refl _)) ?_
    simp only [maxFrameLocalCount, maxWireCount]
    omega
  · refine .bind (checkCount_accepts _) ?_
    rintro _ k m ⟨_, rfl, rfl⟩
    refine (Accepts.ensure _ _).mono ?_
    rintro _ k m ⟨hle, rfl, rfl⟩
    exact ⟨hle, add_zero _, rfl⟩

def boolCountFormat (field : String) (expectedLen : Nat) : WireFormat Nat where
  write := writeU32Count field
  read := readBoolCount expectedLen
  valid _ := True
  limits count := count = expectedLen ∧ count ≤ maxWireCount
  cost := Budget.ofItems
  size _ := 4
  tail count := count * 1 + 0

theorem boolCountFormat_lawful {field : String} {expectedLen : Nat} :
    (boolCountFormat field expectedLen).Lawful := by
  refine count_lawful (fun count => do
    ensure (count = expectedLen) .trailingBytes
    validateCountWithOverhead "type map boolean vector" count 1 0 >>= fun _ =>
      debitCount "type map boolean vector" count) ?_ (fun n => ?_) fun n => ?_
  · simp [readBoolCount]
  · exact .ensure_bind checkCount_decodes
  · refine .ensure_bind fun hlen => ?_
    refine (checkCount_accepts _).mono ?_
    rintro _ k m ⟨hle, rfl, rfl⟩
    exact ⟨⟨hlen, hle⟩, rfl, rfl⟩

def boolVecFormat (field : String) (expectedLen : Nat) : WireFormat (List Bool) :=
  .counted (boolCountFormat field expectedLen) boolFormat 0

theorem boolVecFormat_lawful (field : String) (expectedLen : Nat) :
    (boolVecFormat field expectedLen).Lawful :=
  Format.counted_lawful boolCountFormat_lawful boolFormat_lawful
    (fun _ => Nat.le_refl _) fun _ => length_mul_le_sum (fun _ => Nat.le_refl 1) _

/-- The code offset of an operand entry. -/
def offsetFormat : WireFormat Nat where
  write := writeU32Count "type map operand offset"
  read := readU32 >>= fun offset => pure offset.toNat
  valid _ := True
  limits _ := True
  cost _ := 0
  size _ := 4
  tail _ := 0

theorem offsetFormat_lawful : offsetFormat.Lawful := by
  refine count_lawful _ ?_ (fun n => .pure ()) fun n => .pure ⟨trivial, rfl, rfl⟩
  simp

def operandEntryFormat : WireFormat (Nat × ValueType × ValueType) :=
  .field offsetFormat Prod.fst fun offset =>
    .field valueTypeFormat (fun entry => entry.2.1) fun lhs =>
      .last valueTypeFormat (fun entry => entry.2.2) fun rhs => (offset, lhs, rhs)

theorem operandEntryFormat_lawful : operandEntryFormat.Lawful := by
  refine field_lawful offsetFormat_lawful (fun offset => ?_)
    fun _ _ hx => ⟨hx.2.2 ▸ rfl, Nat.zero_le _⟩
  refine field_lawful valueTypeFormat_lawful (fun lhs => ?_)
    fun _ _ hx => ⟨hx.2 ▸ rfl, Nat.zero_le _⟩
  exact last_lawful valueTypeFormat_lawful fun _ => rfl

def operandsFormat : WireFormat (List (Nat × ValueType × ValueType)) :=
  .collected (vecFormat "type map operands" "type map operands" 6 operandEntryFormat)

theorem operandEntryFormat_read : operandEntryFormat.read = readOperandEntry := by
  simp only [operandEntryFormat, offsetFormat, field, bind_assoc]
  rfl

theorem operandsFormat_read : operandsFormat.read = readOperands := by
  rw [readOperands, ← operandEntryFormat_read]
  rfl

theorem operandsFormat_lawful : operandsFormat.Lawful :=
  collected_lawful (vecFormat_lawful operandEntryFormat_lawful (fun _ => Nat.le_refl 6)
    fun _ => Nat.le_refl _)
    (counted_collectable countFormat_antitone)

/-! ### The whole map -/

/-- A type map: strictness, the locals and the operand types. -/
def typeMapBodyFormat : WireFormat TypeMap :=
  .field boolFormat TypeMap.strictTypes fun strictTypes =>
  .field typeMapLocalsFormat (fun typeMap => typeMap.localTypes.length) fun localCount =>
  .field (.repeated localCount valueTypeFormat 0) TypeMap.localTypes fun localTypes =>
  .field (.repeated localCount optionalSchemaFormat 0) TypeMap.localSchemas fun localSchemas =>
  .field (boolVecFormat "type map callable slots" localCount) TypeMap.callableSlots
    fun callableSlots =>
  .field (boolVecFormat "type map optional slots" localCount) TypeMap.optionalSlots
    fun optionalSlots =>
  .last operandsFormat TypeMap.operandTypes fun operandTypes =>
    { strictTypes, localTypes, localSchemas, callableSlots, optionalSlots, operandTypes }

def typeMapFormat : WireFormat (Option TypeMap) :=
  .optional .unexpectedEof .invalidTypeMapFlag typeMapBodyFormat

theorem typeMapFormat_read : typeMapFormat.read = readTypeMap := by
  rw [readTypeMap, ← operandsFormat_read]
  rfl

theorem typeMapBodyFormat_lawful : typeMapBodyFormat.Lawful := by
  refine field_lawful boolFormat_lawful (fun strictTypes => ?_)
    fun _ _ hx => ⟨hx.2.2.2.2.2.2 ▸ rfl, Nat.zero_le _⟩
  refine field_lawful_of_limits typeMapLocalsFormat_lawful (fun localCount => ?_)
    (fun _ _ hx => hx.1.1) fun typeMap hv hl => ?_
  · refine field_lawful (repeated_lawful _ valueTypeFormat_lawful
      fun _ => Nat.le_refl _) (fun localTypes => ?_) ?_
    refine field_lawful (repeated_lawful _ optionalSchemaFormat_lawful
      fun _ => optional_tail_le fun _ => Nat.le_refl 0) (fun localSchemas => ?_) ?_
    refine field_lawful (boolVecFormat_lawful _ _) (fun callableSlots => ?_) ?_
    refine field_lawful (boolVecFormat_lawful _ _) (fun optionalSlots => ?_) ?_
    exact last_lawful operandsFormat_lawful fun _ => rfl
    all_goals
      intro _ _ hx
      repeat replace hx := hx.2
      exact ⟨hx ▸ rfl, Nat.zero_le _⟩
  · -- The boolean vectors are as long as the reader wants them, so four bytes per local
    -- and twelve more really follow.
    have types : typeMap.localTypes.length * 1 ≤
        (typeMap.localTypes.map valueTypeFormat.size).sum :=
      length_mul_le_sum (fun _ => Nat.le_refl 1) _
    have schemas : typeMap.localSchemas.length * 1 ≤
        (typeMap.localSchemas.map optionalSchemaFormat.size).sum :=
      length_mul_le_sum (fun _ => Nat.le_add_right 1 _) _
    have bools : ∀ values : List Bool, values.length * 1 ≤ (values.map boolFormat.size).sum :=
      length_mul_le_sum fun _ => Nat.le_refl 1
    have callables := bools typeMap.callableSlots
    have optionals := bools typeMap.optionalSlots
    have lens : typeMap.localSchemas.length = typeMap.localTypes.length := hv.2.1.1
    have callableLen : typeMap.callableSlots.length = typeMap.localTypes.length := hl.2.2.1.1.1
    have optionalLen : typeMap.optionalSlots.length = typeMap.localTypes.length := hl.2.2.2.1.1.1
    change typeMap.localTypes.length * 4 + 12 ≤ (typeMap.localTypes.map valueTypeFormat.size).sum +
      ((typeMap.localSchemas.map optionalSchemaFormat.size).sum +
      (4 + (typeMap.callableSlots.map boolFormat.size).sum +
      (4 + (typeMap.optionalSlots.map boolFormat.size).sum +
      (4 + (typeMap.operandTypes.map operandEntryFormat.size).sum)))) + 0
    omega

theorem typeMapFormat_lawful : typeMapFormat.Lawful :=
  optional_lawful typeMapBodyFormat_lawful

/-! ## Struct declarations -/

def writeNamedStructDecl (decl : String × StructDecl) : Output :=
  appendBytes (writeString "named struct name" decl.1)
    (appendBytes
      (writeVec "named struct type params" (writeString "named struct type param")
        decl.2.typeParams)
      (writeSchema decl.2.bodySchema))

def writeNamedStructDecls (decls : List (String × StructDecl)) : Output :=
  writeVec "named struct decls" writeNamedStructDecl decls

/-- Type parameters, none of them twice. -/
def readTypeParams : WireReader (List String) := do
  let count ← readCount "named struct type params" 1
  readDistinct id (.invalidValueType 0) readString count []

def readNamedStructDecl : WireReader (String × StructDecl) := do
  let name ← readString
  let typeParams ← readTypeParams
  let bodySchema ← readSchema maxSchemaDepth
  pure (name, { typeParams, bodySchema })

/-- Struct declarations, no name twice, collected in a map. -/
def readNamedStructDecls : WireReader (List (String × StructDecl)) := do
  let count ← readCount "named struct decls" 1
  let decls ← readDistinct Prod.fst (.invalidValueType 0) readNamedStructDecl count []
  pure (SortedAssoc.insertAll decls [])

def typeParamsFormat : WireFormat (List String) :=
  .distinct (countFormat "named struct type params" "named struct type params" 1 0)
    (stringFormat "named struct type param" "string") 0 id (.invalidValueType 0)

def namedStructDeclFormat : WireFormat (String × StructDecl) :=
  .field (stringFormat "named struct name" "string") Prod.fst fun name =>
    .field typeParamsFormat (fun decl => decl.2.typeParams) fun typeParams =>
      .last (schemaFormat maxSchemaDepth) (fun decl => decl.2.bodySchema) fun bodySchema =>
        (name, { typeParams, bodySchema })

def namedStructDeclsFormat : WireFormat (List (String × StructDecl)) :=
  .collected (.distinct (countFormat "named struct decls" "named struct decls" 1 0)
    namedStructDeclFormat 0 Prod.fst (.invalidValueType 0))

theorem namedStructDeclsFormat_read : namedStructDeclsFormat.read = readNamedStructDecls := by
  simp only [namedStructDeclsFormat, collected, distinct, bind_assoc]
  rfl

theorem typeParamsFormat_lawful : typeParamsFormat.Lawful := by
  refine distinct_lawful countFormat_lawful stringFormat_lawful
    (fun _ => Nat.le_refl _) fun params => length_mul_le_sum (fun param => ?_) _
  exact Nat.le_trans (by decide : 1 ≤ 4) (Nat.le_add_right 4 _)

theorem namedStructDeclFormat_lawful : namedStructDeclFormat.Lawful := by
  refine field_lawful stringFormat_lawful (fun name => ?_)
    fun _ _ hx => ⟨hx.2.2 ▸ rfl, Nat.zero_le _⟩
  refine field_lawful typeParamsFormat_lawful (fun typeParams => ?_)
    fun _ _ hx => ⟨hx.2 ▸ rfl, Nat.zero_le _⟩
  exact last_lawful schemaFormat_lawful fun _ => rfl

theorem namedStructDeclsFormat_lawful : namedStructDeclsFormat.Lawful := by
  refine collected_lawful (distinct_lawful countFormat_lawful
    namedStructDeclFormat_lawful (fun _ => Nat.le_refl _)
    fun decls => length_mul_le_sum (fun decl => ?_) decls)
    (distinct_collectable countFormat_antitone)
  have size : namedStructDeclFormat.size decl = 4 + (utf8 decl.1).length +
      (typeParamsFormat.size decl.2.typeParams + schemaSize decl.2.bodySchema) := rfl
  omega

end RustScript.Vmbc
