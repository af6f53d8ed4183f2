import RustScript.Vmbc.Wire

/-!
# Host schemas on the wire

Host types nest up to `maxHostSchemaDepth` levels, which both sides enforce; the
reader also bounds names and debits the host-schema counters of the cursor.  A
whole import schema is validated by the writer and by the reader.

`hostTypeSchemaFormat_lawful` and `hostImportSchemaFormat_lawful` are the codec
laws.
-/

namespace RustScript.Vmbc

open ByteCodec Format ResourceTypeKey Budget

/-- `write_host_type_schema`, with the nesting levels that are left. -/
def writeHostTypeSchema : Nat → HostTypeSchema → Output
  | 0, _ => .error (.lengthTooLarge "host schema nesting depth" maxHostSchemaDepth)
  | levels + 1, schema =>
    match schema with
    | .unknown => .ok [0]
    | .null => .ok [1]
    | .int => .ok [2]
    | .float => .ok [3]
    | .number => .ok [4]
    | .bool => .ok [5]
    | .string => .ok [6]
    | .bytes => .ok [7]
    | .array inner => appendBytes (.ok [8]) (writeHostTypeSchema levels inner)
    | .map inner => appendBytes (.ok [9]) (writeHostTypeSchema levels inner)
    | .optional inner => appendBytes (.ok [10]) (writeHostTypeSchema levels inner)
    | .callable params result =>
      appendBytes (.ok [11]) (appendBytes
        (appendBytes (writeU32Count "host callable parameters" params.length)
          (writeAll (writeHostTypeSchema levels) params))
        (writeHostTypeSchema levels result))
    | .resource key => appendBytes (.ok [12]) (writeString "host resource type key" key.name)
    | .named name fields =>
      appendBytes (.ok [13]) (appendBytes (writeString "host named struct name" name)
        (appendBytes (writeU32Count "host named struct fields" fields.length)
          (writeAll (fun field => appendBytes (writeString "host named struct field name" field.1)
            (writeHostTypeSchema levels field.2)) fields)))

def debitHostSchemaNode : WireReader Unit :=
  spend (.lengthTooLarge "host schema nodes" (maxHostSchemaNodes + 1)) (Budget.subNodes 1)

def debitHostSchemaProperties (count : Nat) : WireReader Unit :=
  spend (.lengthTooLarge "host schema properties" count) (Budget.subProperties count)

def debitHostParameters (count : Nat) : WireReader Unit :=
  spend (.lengthTooLarge "host schema parameters" count) (Budget.subParameters count)

/-- A count below `cap` that is also debited from a counter of its own. -/
def readCappedCount (field : String) (minItemBytes fixedBytes cap : Nat)
    (debit : Nat → WireReader Unit) : WireReader Nat := do
  let count ← readCountWithOverhead field minItemBytes fixedBytes
  ensure (count ≤ cap) (.lengthTooLarge field count)
  debit count
  pure count

/-- The number of callable parameters or struct fields, debited as properties. -/
def readPropertyCount (field : String) : WireReader Nat :=
  readCappedCount field 1 1 maxHostSchemaProperties debitHostSchemaProperties

def readHostResourceKey : WireReader ResourceTypeKey := do
  let text ← readBoundedString "host resource type key" maxHostResourceKeyLen
  liftResult (match ResourceTypeKey.new text with
    | .ok key => .ok key
    | .error _ => .error .invalidHostResourceKey)

/-- What `read_host_type_schema` reads after a tag; `nested` reads one level deeper. -/
def readHostTypeSchemaPayload (nested : WireReader HostTypeSchema) (tag : UInt8) :
    WireReader HostTypeSchema :=
  match tag with
  | 0 => pure .unknown
  | 1 => pure .null
  | 2 => pure .int
  | 3 => pure .float
  | 4 => pure .number
  | 5 => pure .bool
  | 6 => pure .string
  | 7 => pure .bytes
  | 8 => do
      let inner ← nested
      pure (.array inner)
  | 9 => do
      let inner ← nested
      pure (.map inner)
  | 10 => do
      let inner ← nested
      pure (.optional inner)
  | 11 => do
      let count ← readPropertyCount "host callable parameters"
      let params ← replicateM count nested
      let result ← nested
      pure (.callable params result)
  | 12 => do
      let key ← readHostResourceKey
      pure (.resource key)
  | 13 => do
      let name ← readBoundedString "host named struct name" maxHostFunctionNameLen
      let count ← readPropertyCount "host named struct fields"
      let fields ← replicateM count do
        let fieldName ← readBoundedString "host named struct field name" maxHostParameterNameLen
        let ty ← nested
        pure (fieldName, ty)
      pure (.named name fields)
  | other => throw (.invalidHostSchemaTag other)

/-- `read_host_type_schema`, with the nesting levels that are left. -/
def readHostTypeSchema : Nat → WireReader HostTypeSchema
  | 0 => throw (.lengthTooLarge "host schema nesting depth" maxHostSchemaDepth)
  | levels + 1 => do
      debitHostSchemaNode
      let tag ← readU8
      readHostTypeSchemaPayload (readHostTypeSchema levels) tag

/-! ## What a host type demands of the decoder -/

/-- The ceiling on the number of callable parameters or struct fields. -/
def PropertyCountLimits (count : Nat) : Prop :=
  count ≤ maxWireCount ∧ count ≤ maxHostSchemaProperties

/-- A name of at most `limit` bytes. -/
def NameLimits (name : String) (limit : Nat) : Prop :=
  (utf8 name).length ≤ maxWireBlobBytes ∧ (utf8 name).length ≤ limit

mutual
def HostSchemaLimits : HostTypeSchema → Prop
  | .array inner | .map inner | .optional inner => HostSchemaLimits inner
  | .callable params result =>
    (PropertyCountLimits params.length ∧ HostSchemasLimits params) ∧ HostSchemaLimits result
  | .resource key => NameLimits key.name maxHostResourceKeyLen
  | .named name fields => NameLimits name maxHostFunctionNameLen ∧
      PropertyCountLimits fields.length ∧ HostFieldsLimits fields
  | _ => True

def HostSchemasLimits : List HostTypeSchema → Prop
  | [] => True
  | schema :: schemas => HostSchemaLimits schema ∧ HostSchemasLimits schemas

def HostFieldsLimits : List (String × HostTypeSchema) → Prop
  | [] => True
  | (name, schema) :: fields =>
    (NameLimits name maxHostParameterNameLen ∧ HostSchemaLimits schema) ∧ HostFieldsLimits fields
end

/-- The cost of a count of callable parameters or struct fields. -/
def propertyCost (count : Nat) : Budget := Budget.ofItems count + Budget.ofProperties count

mutual
/-- The cost of the parts of a host type. -/
def hostPayloadCost : HostTypeSchema → Budget
  | .array inner | .map inner | .optional inner => .oneNode + hostPayloadCost inner
  | .callable params result =>
    propertyCost params.length + hostSchemasCost params + (.oneNode + hostPayloadCost result)
  | .named _ fields => propertyCost fields.length + hostFieldsCost fields
  | _ => 0

def hostSchemasCost : List HostTypeSchema → Budget
  | [] => 0
  | schema :: schemas => .oneNode + hostPayloadCost schema + hostSchemasCost schemas

def hostFieldsCost : List (String × HostTypeSchema) → Budget
  | [] => 0
  | (_, schema) :: fields => .oneNode + hostPayloadCost schema + hostFieldsCost fields
end

/-- The cost of a host type: its own node and its parts. -/
def hostSchemaCost (schema : HostTypeSchema) : Budget := Budget.oneNode + hostPayloadCost schema

mutual
/-- The number of bytes a host type takes. -/
def hostSchemaSize : HostTypeSchema → Nat
  | .array inner | .map inner | .optional inner => 1 + hostSchemaSize inner
  | .callable params result => 1 + (4 + hostSchemasSize params + hostSchemaSize result)
  | .resource key => 1 + (4 + (utf8 key.name).length)
  | .named name fields => 1 + (4 + (utf8 name).length + (4 + hostFieldsSize fields))
  | _ => 1

def hostSchemasSize : List HostTypeSchema → Nat
  | [] => 0
  | schema :: schemas => hostSchemaSize schema + hostSchemasSize schemas

def hostFieldsSize : List (String × HostTypeSchema) → Nat
  | [] => 0
  | (name, schema) :: fields =>
    4 + (utf8 name).length + hostSchemaSize schema + hostFieldsSize fields
end

theorem hostSchemasLimits_iff {schemas : List HostTypeSchema} :
    HostSchemasLimits schemas ↔ ∀ s ∈ schemas, HostSchemaLimits s :=
  List.iff_forall_of_cons trivial (fun _ _ => Iff.rfl) _

theorem hostFieldsLimits_iff {fields : List (String × HostTypeSchema)} : HostFieldsLimits fields ↔
      ∀ f ∈ fields, NameLimits f.1 maxHostParameterNameLen ∧ HostSchemaLimits f.2 :=
  List.iff_forall_of_cons trivial (fun _ _ => Iff.rfl) _

theorem hostSchemasCost_eq (schemas : List HostTypeSchema) :
    hostSchemasCost schemas = (schemas.map hostSchemaCost).sum :=
  List.eq_sum_of_cons rfl (fun _ _ => rfl) _

theorem hostFieldsCost_eq (fields : List (String × HostTypeSchema)) :
    hostFieldsCost fields = (fields.map fun field => hostSchemaCost field.2).sum :=
  List.eq_sum_of_cons rfl (fun _ _ => rfl) _

theorem hostSchemasSize_eq (schemas : List HostTypeSchema) :
    hostSchemasSize schemas = (schemas.map hostSchemaSize).sum :=
  List.eq_sum_of_cons rfl (fun _ _ => rfl) _

theorem hostFieldsSize_eq (fields : List (String × HostTypeSchema)) : hostFieldsSize fields =
      (fields.map fun field => 4 + (utf8 field.1).length + hostSchemaSize field.2).sum :=
  List.eq_sum_of_cons rfl (fun _ _ => rfl) _

theorem hostSchemaSize_pos (schema : HostTypeSchema) : 1 ≤ hostSchemaSize schema := by
  cases schema <;> simp only [hostSchemaSize] <;> omega

/-! ## The codec law of host types -/

def cappedCountFormat (field : String) (minItemBytes fixedBytes cap : Nat)
    (debit : Nat → WireReader Unit) (debited : Nat → Budget) : WireFormat Nat where
  write := writeU32Count field
  read := readCappedCount field minItemBytes fixedBytes cap debit
  valid _ := True
  limits count := count ≤ maxWireCount ∧ count ≤ cap
  cost count := Budget.ofItems count + debited count
  size _ := 4
  tail count := count * minItemBytes + fixedBytes

variable {levels : Nat} {field : String}

theorem cappedCountFormat_lawful {minItemBytes fixedBytes cap : Nat}
    {e : Nat → WireError} {sub : Nat → Budget → Option Budget} {debited : Nat → Budget}
    (hsub : ∀ n B b, sub n B = some b ↔ B = debited n + b) :
    (cappedCountFormat field minItemBytes fixedBytes cap (fun n => spend (e n) (sub n))
      debited).Lawful := by
  refine count_lawful (fun count => do
    validateCountWithOverhead field count minItemBytes fixedBytes >>= fun _ =>
      debitCount field count
    ensure (count ≤ cap) (.lengthTooLarge field count)
    spend (e count) (sub count)) ?_ (fun n => ?_) fun n => ?_
  · simp [readCappedCount, readCountWithOverhead]
  · have rest := (Decodes.ensure_bind (p := n ≤ cap) (e := WireError.lengthTooLarge field n)
      (.spend (e := e n) (hsub n))).weaken (Nat.zero_le (n * minItemBytes + fixedBytes))
    exact (Decodes.bind checkCount_decodes rest (by simp)).congr (by simp)
  · refine .bind (checkCount_accepts field) ?_
    rintro _ k m ⟨hle, rfl, rfl⟩
    refine .ensure_bind fun hcap => (Accepts.spend (hsub n)).mono ?_
    rintro _ k m ⟨rfl, rfl⟩
    exact ⟨⟨hle, hcap⟩, rfl, rfl⟩

/-- The count of callable parameters or struct fields; one more byte follows the parts. -/
def propertyCountFormat (field : String) : WireFormat Nat :=
  cappedCountFormat field 1 1 maxHostSchemaProperties debitHostSchemaProperties Budget.ofProperties

theorem propertyCountFormat_lawful : (propertyCountFormat field).Lawful :=
  cappedCountFormat_lawful subProperties_eq

def hostTypeSchemaFormat (levels : Nat) : WireFormat HostTypeSchema where
  write := writeHostTypeSchema levels
  read := readHostTypeSchema levels
  valid _ := True
  limits := HostSchemaLimits
  cost := hostSchemaCost
  size := hostSchemaSize
  tail _ := 1

/-- A host type whose node has been debited: the tag and the payload. -/
def hostNodeFormat (levels : Nat) : WireFormat HostTypeSchema where
  write := writeHostTypeSchema (levels + 1)
  read := readU8 >>= readHostTypeSchemaPayload (readHostTypeSchema levels)
  valid _ := True
  limits := HostSchemaLimits
  cost := hostPayloadCost
  size := hostSchemaSize
  tail _ := 1

def hostSchemasFormat (levels : Nat) : WireFormat (List HostTypeSchema) :=
  .counted (propertyCountFormat "host callable parameters") (hostTypeSchemaFormat levels) 1

def hostCallableFormat (levels : Nat) : WireFormat (List HostTypeSchema × HostTypeSchema) :=
  .field (hostSchemasFormat levels) Prod.fst fun params =>
    .last (hostTypeSchemaFormat levels) Prod.snd fun result => (params, result)

def hostFieldFormat (levels : Nat) : WireFormat (String × HostTypeSchema) :=
  .field (boundedStringFormat "host named struct field name" "host named struct field name"
      maxHostParameterNameLen) Prod.fst fun name =>
    .last (hostTypeSchemaFormat levels) Prod.snd fun ty => (name, ty)

def hostFieldsFormat (levels : Nat) : WireFormat (List (String × HostTypeSchema)) :=
  .counted (propertyCountFormat "host named struct fields") (hostFieldFormat levels) 1

def hostNamedFormat (levels : Nat) : WireFormat (String × List (String × HostTypeSchema)) :=
  .field (boundedStringFormat "host named struct name" "host named struct name"
      maxHostFunctionNameLen) Prod.fst fun name =>
    .last (hostFieldsFormat levels) Prod.snd fun fields => (name, fields)

def hostResourceKeyFormat : WireFormat ResourceTypeKey :=
  .parsed (boundedStringFormat "host resource type key" "host resource type key"
      maxHostResourceKeyLen) ResourceTypeKey.name fun text =>
    match ResourceTypeKey.new text with
    | .ok key => .ok key
    | .error _ => .error .invalidHostResourceKey

section Parts

variable (ih : (hostTypeSchemaFormat levels).Lawful)
include ih

theorem hostSchemasFormat_lawful : (hostSchemasFormat levels).Lawful :=
  Format.counted_lawful propertyCountFormat_lawful ih (fun _ => Nat.le_refl _) fun _ =>
    Nat.add_le_add_right (length_mul_le_sum hostSchemaSize_pos _) 1

theorem hostCallableFormat_lawful : (hostCallableFormat levels).Lawful :=
  field_lawful (hostSchemasFormat_lawful ih) (fun _ => last_lawful ih fun _ => rfl) fun _ x hx =>
    ⟨hx.2 ▸ rfl, Nat.le_trans (hostSchemaSize_pos x.2) (Nat.le_add_right _ _)⟩

theorem hostFieldFormat_lawful : (hostFieldFormat levels).Lawful :=
  field_lawful boundedStringFormat_lawful (fun _ => last_lawful ih fun _ => rfl)
    fun _ _ hx => ⟨hx.2 ▸ rfl, Nat.zero_le _⟩

theorem hostFieldsFormat_lawful : (hostFieldsFormat levels).Lawful := by
  refine Format.counted_lawful propertyCountFormat_lawful (hostFieldFormat_lawful ih)
    (fun _ => Nat.le_refl _) fun fields => Nat.add_le_add_right (length_mul_le_sum ?_ _) 1
  intro field
  have size : (hostFieldFormat levels).size field =
      4 + (utf8 field.1).length + hostSchemaSize field.2 := rfl
  omega

theorem hostNamedFormat_lawful : (hostNamedFormat levels).Lawful :=
  field_lawful boundedStringFormat_lawful
    (fun _ => last_lawful (hostFieldsFormat_lawful ih) fun _ => rfl)
    fun _ _ hx => ⟨hx.2 ▸ rfl, Nat.zero_le _⟩

end Parts

theorem hostResourceKeyFormat_lawful : hostResourceKeyFormat.Lawful := by
  refine parsed_lawful boundedStringFormat_lawful (fun key => ?_) fun text key h => ?_
  · rw [new_name]
  · cases hnew : new text with
    | error err => rw [hnew] at h; cases h
    | ok key' =>
      rw [hnew] at h
      cases h
      exact name_of_new hnew

section Alternatives

/-- The tag alternatives of a host type node. -/
abbrev HostAlternative {α : Type} (levels : Nat) (tag : UInt8) (G : WireFormat α)
    (f : α → HostTypeSchema) : Prop :=
  Alternative (hostNodeFormat levels)
    (readHostTypeSchemaPayload (readHostTypeSchema levels)) tag G f

/-- The host types without parts, by tag. -/
def scalarHostTypes : List (UInt8 × HostTypeSchema) :=
  [(0, .unknown), (1, .null), (2, .int), (3, .float), (4, .number), (5, .bool), (6, .string),
    (7, .bytes)]

theorem hostScalar_alternative (i : Fin 8) : HostAlternative levels (scalarHostTypes.get i).1
    .unit fun _ => (scalarHostTypes.get i).2 := by
  match i with
  | 0 | 1 | 2 | 3 | 4 | 5 | 6 | 7 => exact .of_eq unit_lawful rfl fun _ => ⟨rfl, Nat.zero_le _⟩

theorem hostArray_alternative (ih : (hostTypeSchemaFormat levels).Lawful) :
    HostAlternative levels 8 (hostTypeSchemaFormat levels) .array :=
  .of_eq ih rfl fun _ => ⟨rfl, Nat.le_refl _⟩

theorem hostMap_alternative (ih : (hostTypeSchemaFormat levels).Lawful) :
    HostAlternative levels 9 (hostTypeSchemaFormat levels) .map :=
  .of_eq ih rfl fun _ => ⟨rfl, Nat.le_refl _⟩

theorem hostOptional_alternative (ih : (hostTypeSchemaFormat levels).Lawful) :
    HostAlternative levels 10 (hostTypeSchemaFormat levels) .optional :=
  .of_eq ih rfl fun _ => ⟨rfl, Nat.le_refl _⟩

theorem hostResource_alternative : HostAlternative levels 12 hostResourceKeyFormat .resource :=
  .of_eq hostResourceKeyFormat_lawful rfl fun _ => ⟨rfl, Nat.zero_le _⟩

theorem hostCallable_alternative (ih : (hostTypeSchemaFormat levels).Lawful) :
    HostAlternative levels 11 (hostCallableFormat levels) fun x => .callable x.1 x.2 where
  law := hostCallableFormat_lawful ih
  write _ := rfl
  tail _ := Nat.le_refl _
  read := by
    simp only [hostCallableFormat, hostSchemasFormat, field, last, counted, bind_assoc]
    rfl
  valid x := iff_of_true trivial ⟨⟨trivial, fun _ _ => trivial⟩, trivial, rfl⟩
  limits x := by
    change ((_ ∧ HostSchemasLimits x.1) ∧ _) ↔ _
    rw [hostSchemasLimits_iff]
    rfl
  cost x := by
    change propertyCost x.1.length + hostSchemasCost x.1 + _ = _
    rw [hostSchemasCost_eq]
    rfl
  size x := by
    change 1 + (4 + hostSchemasSize x.1 + _) = _
    rw [hostSchemasSize_eq]
    rfl

theorem hostFieldFormat_cost :
    (hostFieldFormat levels).cost = fun field => hostSchemaCost field.2 := by
  funext field
  exact zero_add _

theorem hostNamed_alternative (ih : (hostTypeSchemaFormat levels).Lawful) :
    HostAlternative levels 13 (hostNamedFormat levels) fun x => .named x.1 x.2 where
  law := hostNamedFormat_lawful ih
  write _ := rfl
  tail _ := Nat.le_refl _
  read := by
    simp only [hostNamedFormat, hostFieldsFormat, field, last, counted, bind_assoc]
    rfl
  valid x := iff_of_true trivial ⟨trivial, ⟨trivial, fun _ _ => ⟨trivial, trivial, rfl⟩⟩, rfl⟩
  limits x := by
    change (_ ∧ _ ∧ HostFieldsLimits x.2) ↔ _
    rw [hostFieldsLimits_iff]
    rfl
  cost x := by
    change propertyCost x.2.length + hostFieldsCost x.2 =
      0 + (propertyCost x.2.length + (x.2.map (hostFieldFormat levels).cost).sum)
    rw [hostFieldsCost_eq, zero_add, hostFieldFormat_cost]
  size x := by
    change 1 + (4 + (utf8 x.1).length + (4 + hostFieldsSize x.2)) = _
    rw [hostFieldsSize_eq]
    rfl

end Alternatives

theorem hostNode_decodes (ih : (hostTypeSchemaFormat levels).Lawful)
    {schema : HostTypeSchema} {bs : List UInt8}
    (hw : writeHostTypeSchema (levels + 1) schema = .ok bs) :
    Decodes (readU8 >>= readHostTypeSchemaPayload (readHostTypeSchema levels)) bs schema
      (HostSchemaLimits schema) (hostPayloadCost schema) 1 ∧
      bs.length = hostSchemaSize schema := by
  cases schema with
  | unknown => exact (hostScalar_alternative 0).decodes (x := ()) _ trivial hw
  | null => exact (hostScalar_alternative 1).decodes (x := ()) _ trivial hw
  | int => exact (hostScalar_alternative 2).decodes (x := ()) _ trivial hw
  | float => exact (hostScalar_alternative 3).decodes (x := ()) _ trivial hw
  | number => exact (hostScalar_alternative 4).decodes (x := ()) _ trivial hw
  | bool => exact (hostScalar_alternative 5).decodes (x := ()) _ trivial hw
  | string => exact (hostScalar_alternative 6).decodes (x := ()) _ trivial hw
  | bytes => exact (hostScalar_alternative 7).decodes (x := ()) _ trivial hw
  | array inner => exact (hostArray_alternative ih).decodes _ trivial hw
  | map inner => exact (hostMap_alternative ih).decodes _ trivial hw
  | optional inner => exact (hostOptional_alternative ih).decodes _ trivial hw
  | callable params result =>
    exact (hostCallable_alternative ih).decodes (x := (params, result)) _ trivial hw
  | resource key => exact hostResource_alternative.decodes _ trivial hw
  | named name fields => exact (hostNamed_alternative ih).decodes (x := (name, fields)) _ trivial hw

theorem hostNode_accepts (ih : (hostTypeSchemaFormat levels).Lawful) :
    Accepts (readU8 >>= readHostTypeSchemaPayload (readHostTypeSchema levels))
      (Covers (fun s => True ∧ HostSchemaLimits s ∧
        ∃ bs, writeHostTypeSchema (levels + 1) s = .ok bs) hostPayloadCost hostSchemaSize) := by
  refine .bind (.readByte _) ?_
  rintro tag k n ⟨rfl, rfl⟩
  unfold readHostTypeSchemaPayload
  split
  · exact (hostScalar_alternative 0).accepts
  · exact (hostScalar_alternative 1).accepts
  · exact (hostScalar_alternative 2).accepts
  · exact (hostScalar_alternative 3).accepts
  · exact (hostScalar_alternative 4).accepts
  · exact (hostScalar_alternative 5).accepts
  · exact (hostScalar_alternative 6).accepts
  · exact (hostScalar_alternative 7).accepts
  · exact (hostArray_alternative ih).accepts
  · exact (hostMap_alternative ih).accepts
  · exact (hostOptional_alternative ih).accepts
  · exact (hostCallable_alternative ih).accepts
  · exact hostResource_alternative.accepts
  · exact (hostNamed_alternative ih).accepts
  · exact .throw

/-- **Host types round-trip within the reader's limits, and what is accepted can be
written again.** -/
theorem hostTypeSchemaFormat_lawful : (hostTypeSchemaFormat levels).Lawful := by
  induction levels with
  | zero => exact ⟨fun _ hw => (nomatch hw), fun _ hw => (nomatch hw), Accepts.throw⟩
  | succ levels ih =>
    refine ⟨fun _ hw => ?_, fun _ hw => (hostNode_decodes ih hw).2, ?_⟩
    · have node := (hostNode_decodes ih hw).1
      exact (Decodes.bind (.spend subNodes_eq) node (Nat.zero_le _)).congr
        (and_iff_right trivial)
    · refine .bind (.spend subNodes_eq) ?_
      rintro _ k n ⟨rfl, rfl⟩
      refine (hostNode_accepts ih).mono ?_
      rintro s k n ⟨hs, ⟨slack, rfl⟩, hsize⟩
      exact ⟨hs, ⟨slack, (add_assoc _ _ _).symm⟩, by simpa [hostTypeSchemaFormat] using hsize⟩

/-! ## Import schemas -/

def passingToByte : HostParamPassing → UInt8
  | .value => 0
  | .borrow => 1
  | .borrowMut => 2
  | .takeOwned => 3

def passingOfByte : UInt8 → Option HostParamPassing
  | 0 => some .value
  | 1 => some .borrow
  | 2 => some .borrowMut
  | 3 => some .takeOwned
  | _ => none

def validateHostImportSchema (schema : HostImportSchema) : Except WireError Unit :=
  schema.validate.mapError .invalidHostSchemaComplexity

def writeHostImportParam (param : HostImportParam) : Output :=
  appendBytes (writeString "host import parameter name" param.name)
    (appendBytes (writeHostTypeSchema maxHostSchemaDepth param.schema)
      (.ok [passingToByte param.passing]))

def writeHostImportSchema (schema : HostImportSchema) : Output := do
  validateHostImportSchema schema
  appendBytes (writeString "host import schema name" schema.name)
    (appendBytes
      (appendBytes (writeU32Count "host import schema parameters" schema.params.length)
        (writeAll writeHostImportParam schema.params))
      (appendBytes (writeHostTypeSchema maxHostSchemaDepth schema.returnType)
        (.ok (leBytes 8 schema.fingerprint.toNat))))

def readHostImportParam : WireReader HostImportParam := do
  let name ← readBoundedString "host import parameter name" maxHostParameterNameLen
  let schema ← readHostTypeSchema maxHostSchemaDepth
  let passing ← readEnum .unexpectedEof .invalidHostParamPassing passingOfByte
  pure { name, schema, passing }

def readHostImportSchema : WireReader HostImportSchema := do
  let name ← readBoundedString "host import schema name" maxHostFunctionNameLen
  let count ← readCappedCount "host import schema parameters" 6 0 maxHostCatalogParameters
    debitHostParameters
  let params ← replicateM count readHostImportParam
  let returnType ← readHostTypeSchema maxHostSchemaDepth
  let fingerprint ← readU64
  let schema : HostImportSchema := { name, params, returnType, fingerprint }
  liftResult (validateHostImportSchema schema)
  pure schema

def hostImportParamFormat : WireFormat HostImportParam :=
  .field (boundedStringFormat "host import parameter name" "host import parameter name"
      maxHostParameterNameLen) HostImportParam.name fun name =>
    .field (hostTypeSchemaFormat maxHostSchemaDepth) HostImportParam.schema fun schema =>
      .last (.enum .unexpectedEof .invalidHostParamPassing passingOfByte passingToByte)
        HostImportParam.passing fun passing => { name, schema, passing }

def hostImportParamsFormat : WireFormat (List HostImportParam) :=
  .counted (cappedCountFormat "host import schema parameters" 6 0 maxHostCatalogParameters
    debitHostParameters Budget.ofParameters) hostImportParamFormat 0

def hostImportSchemaFormat : WireFormat HostImportSchema :=
  .validated
    (.field (boundedStringFormat "host import schema name" "host import schema name"
        maxHostFunctionNameLen) HostImportSchema.name fun name =>
      .field hostImportParamsFormat HostImportSchema.params fun params =>
        .field (hostTypeSchemaFormat maxHostSchemaDepth) HostImportSchema.returnType
          fun returnType =>
            .last u64Format HostImportSchema.fingerprint fun fingerprint =>
              { name, params, returnType, fingerprint })
    validateHostImportSchema

theorem hostImportSchemaFormat_read : hostImportSchemaFormat.read = readHostImportSchema := by
  simp only [hostImportSchemaFormat, hostImportParamsFormat, validated, field,
    last, counted, bind_assoc]
  rfl

theorem hostImportParamFormat_lawful : hostImportParamFormat.Lawful := by
  refine field_lawful boundedStringFormat_lawful (fun name => ?_)
    fun _ _ hx => ⟨hx.2.2 ▸ rfl, Nat.zero_le _⟩
  refine field_lawful hostTypeSchemaFormat_lawful (fun schema => ?_)
    fun _ _ hx => ⟨hx.2 ▸ rfl, Nat.le_refl _⟩
  exact last_lawful (enum_lawful fun a => by cases a <;> rfl) fun _ => rfl

theorem hostImportParamsFormat_lawful : hostImportParamsFormat.Lawful := by
  refine Format.counted_lawful (cappedCountFormat_lawful subParameters_eq)
    hostImportParamFormat_lawful (fun _ => Nat.le_refl _) fun params =>
      length_mul_le_sum (fun param => ?_) _
  have size : hostImportParamFormat.size param =
      4 + (utf8 param.name).length + (hostSchemaSize param.schema + 1) := rfl
  have := hostSchemaSize_pos param.schema
  omega

/-- **Import schemas round-trip within the reader's limits, and what is accepted can be
written again.** -/
theorem hostImportSchemaFormat_lawful : hostImportSchemaFormat.Lawful := by
  refine validated_lawful ?_
  refine field_lawful boundedStringFormat_lawful (fun name => ?_)
    fun _ _ hx => ⟨hx.2.2.2 ▸ rfl, Nat.zero_le _⟩
  refine field_lawful hostImportParamsFormat_lawful (fun params => ?_)
    fun _ _ hx => ⟨hx.2.2 ▸ rfl, Nat.zero_le _⟩
  refine field_lawful hostTypeSchemaFormat_lawful (fun returnType => ?_)
    fun _ _ hx => ⟨hx.2 ▸ rfl, Nat.le_add_left 1 7⟩
  exact last_lawful u64Format_lawful fun _ => rfl

end RustScript.Vmbc
